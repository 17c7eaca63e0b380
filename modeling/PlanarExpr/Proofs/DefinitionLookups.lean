import PlanarExpr.Proofs.CutExcerpts
import PlanarExpr.Proofs.Tiling
import PlanarExpr.Resolution

namespace PlanarExpr

/-!
# Where definitions are looked up

A resolution that reads its right-hand sides from a library looks up names
where they stand in their documents, at every depth. It goes through the names
of an excerpt from left to right, and through those of a right-hand side
before it comes to the next name.
-/

open Document

/-! ## What a step asks -/

/-- A step of a resolution asks questions that meet a condition, together with its result. -/
def Resolution.Ensures
    (step : Resolution α)
    (condition : α → List Inquiry → Prop) :
    Prop :=
  ∀ progress, ∃ asked,
    (step.run progress).2.inquiries = progress.inquiries ++ asked ∧
      condition (step.run progress).1 asked

namespace Resolution.Ensures

/-- A step that asks nothing meets what is met without questions. -/
theorem of_silent
    {step : Resolution α}
    {condition : α → List Inquiry → Prop}
    (silent : ∀ progress, (step.run progress).2.inquiries = progress.inquiries)
    (met : ∀ result, condition result []) :
    step.Ensures condition := by
  intro progress
  refine ⟨[], ?_, met _⟩
  rw [silent, List.append_nil]

/-- A step that meets a condition meets a weaker one. -/
theorem mono
    {step : Resolution α}
    {condition weaker : α → List Inquiry → Prop}
    (ensured : step.Ensures condition)
    (weakens : ∀ result asked, condition result asked → weaker result asked) :
    step.Ensures weaker := by
  intro progress
  obtain ⟨asked, grown, met⟩ := ensured progress
  exact ⟨asked, grown, weakens _ _ met⟩

/-- What is simply given asks nothing. -/
theorem pure
    {result : α}
    {condition : α → List Inquiry → Prop}
    (met : condition result []) :
    Resolution.Ensures (Pure.pure result) condition :=
  fun _ => ⟨[], (List.append_nil _).symm, met⟩

/-- What one step after another asks is asked by the first and then by the second. -/
theorem bind
    {step : Resolution α}
    {next : α → Resolution β}
    {middle : α → List Inquiry → Prop}
    {condition : β → List Inquiry → Prop}
    (first : step.Ensures middle)
    (second :
      ∀ result asked, middle result asked →
        (next result).Ensures fun final later => condition final (asked ++ later)) :
    (step >>= next).Ensures condition := by
  intro progress
  obtain ⟨asked, grown, met⟩ := first progress
  obtain ⟨later, grownLater, metLater⟩ :=
    second _ asked met (step.run progress).2
  refine ⟨asked ++ later, ?_, metLater⟩
  calc
    _ = (step.run progress).2.inquiries ++ later := grownLater
    _ = progress.inquiries ++ (asked ++ later) := by
      rw [grown, List.append_assoc]

/-- Consulting somebody asks one question and gives what was found. -/
theorem consult
    (inquiry : Inquiry)
    (consultation : Consultation α) :
    (Resolution.consult inquiry consultation).Ensures
      fun found asked => asked = [inquiry] ∧ found = consultation.finding.item? := by
  obtain ⟨finding, log⟩ := consultation
  intro progress
  refine ⟨[inquiry], ?_, rfl, ?_⟩ <;> cases finding <;> rfl

end Resolution.Ensures

/-! ## The lookups for the names of an excerpt -/

/--
The questions for the names of an excerpt. Each name is looked up where it
stands in its document. If it has a definition, the right-hand side is read,
and the questions for the names in there come before those for the next name.
The questions may end at any name.
-/
inductive Document.Library.Lookups
    (library : Library) :
    Excerpt →
    List Token →
    List Inquiry →
    Prop where
  | done
      {excerpt : Excerpt}
      {names : List Token} :
      Lookups library excerpt names []
  | undefined
      {excerpt : Excerpt}
      {name : Token}
      {rest : List Token}
      {later : List Inquiry} :
      library.ShowsAt (excerpt.locationAt name.startOffset) name.lexeme.toList →
      Lookups library excerpt rest later →
      Lookups library excerpt (name :: rest)
        (.definition (excerpt.locationAt name.startOffset) :: later)
  | unassigned
      {excerpt : Excerpt}
      {name : Token}
      {rest : List Token}
      {definition : Location}
      {later : List Inquiry} :
      library.ShowsAt (excerpt.locationAt name.startOffset) name.lexeme.toList →
      (library.read definition).finding.item? = none →
      Lookups library excerpt rest later →
      Lookups library excerpt (name :: rest)
        (.definition (excerpt.locationAt name.startOffset) ::
          .assigned definition :: later)
  | assigned
      {excerpt : Excerpt}
      {name : Token}
      {rest : List Token}
      {definition : Location}
      {rightHandSide : Excerpt}
      {inner later : List Inquiry} :
      library.ShowsAt (excerpt.locationAt name.startOffset) name.lexeme.toList →
      (library.read definition).finding.item? = some rightHandSide →
      Lookups library rightHandSide
        (Lexed.ofText rightHandSide.text).stream.names inner →
      Lookups library excerpt rest later →
      Lookups library excerpt (name :: rest)
        (.definition (excerpt.locationAt name.startOffset) ::
          .assigned definition :: (inner ++ later))

namespace Document

/-- A definition is looked up only where the document has a name. -/
theorem Library.Lookups.shown
    {library : Library}
    {excerpt : Excerpt}
    {names : List Token}
    {inquiries : List Inquiry}
    (lookups : library.Lookups excerpt names inquiries)
    (areNames : ∀ name ∈ names, name.isName = true) :
    ∀ inquiry ∈ inquiries, inquiry.isDefinition = true →
      ∃ name : Token,
        name.isName = true ∧
          library.ShowsAt inquiry.location name.lexeme.toList := by
  induction lookups with
  | done =>
      exact List.forall_mem_nil _
  | undefined shown _ inductionHypothesis =>
      obtain ⟨isName, restNames⟩ := List.forall_mem_cons.mp areNames
      refine List.forall_mem_cons.mpr
        ⟨fun _ => ⟨_, isName, shown⟩, inductionHypothesis restNames⟩
  | unassigned shown _ _ inductionHypothesis =>
      obtain ⟨isName, restNames⟩ := List.forall_mem_cons.mp areNames
      refine List.forall_mem_cons.mpr ⟨fun _ => ⟨_, isName, shown⟩, ?_⟩
      exact List.forall_mem_cons.mpr ⟨nofun, inductionHypothesis restNames⟩
  | assigned shown _ _ _ innerHypothesis laterHypothesis =>
      obtain ⟨isName, restNames⟩ := List.forall_mem_cons.mp areNames
      have inside := innerHypothesis fun _ member => (List.mem_filter.mp member).2
      refine List.forall_mem_cons.mpr ⟨fun _ => ⟨_, isName, shown⟩, ?_⟩
      refine List.forall_mem_cons.mpr ⟨nofun, ?_⟩
      exact List.forall_mem_append.mpr ⟨inside, laterHypothesis restNames⟩

/-- A name of a cut excerpt stands in its document where it is looked up. -/
theorem Excerpt.IsCutFrom.showsName
    {library : Library}
    {excerpt : Excerpt}
    (cut : excerpt.IsCutFrom library)
    {name : Token}
    (isName : name ∈ (Lexed.ofText excerpt.text).stream.names) :
    library.ShowsAt (excerpt.locationAt name.startOffset) name.lexeme.toList := by
  have member := (List.mem_filter.mp isName).1
  have startsWithin : name.startOffset ≤ excerpt.text.length :=
    Nat.le_trans (Nat.le_of_lt (Lexed.ofNamedText_nonempty member))
      (Lexed.stopOffset_le member)
  exact cut.showsAt startsWithin (Lexed.lexeme_isPrefix member)

end Document

/-! ## Resolutions -/

namespace Advisers

/-- The right-hand sides are those that a library reads. -/
def ReadsFrom
    (advisers : Advisers)
    (library : Library) :
    Prop :=
  ∀ asked location, advisers.assigned asked location = library.read location

/-- Looking whether the resolution is cancelled asks nothing. -/
theorem cancelledNow_ensures (advisers : Advisers) :
    advisers.cancelledNow.Ensures fun _ asked => asked = [] :=
  .of_silent (fun _ => rfl) fun _ => rfl

/-- Looking up a definition asks for that definition alone. -/
theorem definitionOf?_ensures
    (advisers : Advisers)
    (location : Location) :
    (advisers.definitionOf? location).Ensures
      fun _ asked => asked = [.definition location] := by
  intro progress
  obtain ⟨asked, grown, isAsked, -⟩ :=
    Resolution.Ensures.consult (.definition location)
      (advisers.definition progress.inquiries location) progress
  exact ⟨asked, grown, isAsked⟩

/-- Reading what is assigned gives what the library has there. -/
theorem assignedAt?_ensures
    {advisers : Advisers}
    {library : Library}
    (reads : advisers.ReadsFrom library)
    (location : Location) :
    (advisers.assignedAt? location).Ensures fun found asked =>
      asked = [.assigned location] ∧ found = (library.read location).finding.item? := by
  intro progress
  rw [← reads progress.inquiries location]
  exact
    Resolution.Ensures.consult (.assigned location)
      (advisers.assigned progress.inquiries location) progress

section Names

variable
  {advisers : Advisers}
  {library : Library}
  (reads : advisers.ReadsFrom library)
  {resolveExcerpt : Excerpt → Resolution Value}
  (resolves :
    ∀ excerpt : Excerpt, excerpt.IsCutFrom library →
      (resolveExcerpt excerpt).Ensures fun _ asked =>
        library.Lookups excerpt (Lexed.ofText excerpt.text).stream.names asked)

include reads resolves

/-- A name that stands where it is looked up is the next in the lookups of its excerpt. -/
theorem valueOfName_ensures
    {excerpt : Excerpt}
    {name : Token}
    (shown :
      library.ShowsAt (excerpt.locationAt name.startOffset) name.lexeme.toList) :
    (advisers.valueOfName resolveExcerpt (excerpt.locationAt name.startOffset)).Ensures
      fun _ asked =>
        ∀ rest later, library.Lookups excerpt rest later →
          library.Lookups excerpt (name :: rest) (asked ++ later) := by
  rw [valueOfName, assignedTo?, bind_assoc]
  refine .bind (advisers.definitionOf?_ensures _) fun found? asked isAsked => ?_
  rw [isAsked]
  cases found? with
  | none =>
      exact .pure fun rest later lookups => .undefined shown lookups
  | some definition =>
      refine .bind (assignedAt?_ensures reads definition) fun assigned? asked' found => ?_
      obtain ⟨isAsked', read⟩ := found
      rw [isAsked']
      cases assigned? with
      | none =>
          exact .pure fun rest later lookups => .unassigned shown read.symm lookups
      | some rightHandSide =>
          have cut := Library.isCutFrom_of_read read.symm
          refine (resolves rightHandSide cut).mono fun _ inner lookups => ?_
          intro rest later laterLookups
          exact .assigned shown read.symm lookups laterLookups

/-- Names that stand where they are looked up are looked up one after the other. -/
theorem valuesOfNames_ensures
    {excerpt : Excerpt}
    {names : List Token}
    (shown :
      ∀ name ∈ names,
        library.ShowsAt (excerpt.locationAt name.startOffset) name.lexeme.toList) :
    (advisers.valuesOfNames resolveExcerpt excerpt names).Ensures
      fun _ asked => library.Lookups excerpt names asked := by
  induction names with
  | nil =>
      rw [valuesOfNames]
      refine .bind advisers.cancelledNow_ensures fun _ _ silent => ?_
      rw [silent]
      exact .pure .done
  | cons name rest inductionHypothesis =>
      obtain ⟨nameShown, restShown⟩ := List.forall_mem_cons.mp shown
      rw [valuesOfNames]
      refine .bind advisers.cancelledNow_ensures fun cancelled _ silent => ?_
      rw [silent]
      cases cancelled with
      | true => exact .pure .done
      | false =>
          refine .bind (valueOfName_ensures reads resolves nameShown) ?_
          intro value asked lengthens
          refine .bind (inductionHypothesis restShown) ?_
          intro known later lookups
          split
          · exact .pure (by simpa using lengthens rest later lookups)
          · exact .pure (by simpa using lengthens rest later lookups)

end Names

/-- Splitting an excerpt asks nothing before its tokens are resolved. -/
theorem withTokens_ensures
    {advisers : Advisers}
    {excerpt : Excerpt}
    {resolveTokens : TokenStream → Resolution Value}
    {condition : List Inquiry → Prop}
    (silent : condition [])
    (resolves :
      (resolveTokens (Lexed.ofText excerpt.text).stream).Ensures fun _ asked =>
        condition asked) :
    (advisers.withTokens excerpt resolveTokens).Ensures fun _ asked => condition asked := by
  rw [withTokens]
  refine .bind advisers.cancelledNow_ensures fun cancelled _ isSilent => ?_
  rw [isSilent]
  cases cancelled with
  | true => exact .pure silent
  | false =>
      simp only [Bool.false_eq_true, if_false, List.nil_append]
      split
      · exact resolves
      · exact .of_silent (fun _ => rfl) fun _ => silent

/-- A cut excerpt is resolved by looking up names where they stand. -/
theorem resolve_ensures
    {advisers : Advisers}
    {library : Library}
    (reads : advisers.ReadsFrom library)
    (depth : Nat)
    {excerpt : Excerpt}
    (cut : excerpt.IsCutFrom library) :
    (advisers.resolve depth excerpt).Ensures fun _ asked =>
      library.Lookups excerpt (Lexed.ofText excerpt.text).stream.names asked := by
  induction depth generalizing excerpt with
  | zero =>
      rw [resolve]
      refine withTokens_ensures .done (.of_silent (fun progress => ?_) fun _ => .done)
      unfold beyondDepth
      split <;> rfl
  | succ depth inductionHypothesis =>
      rw [resolve]
      refine withTokens_ensures .done ?_
      refine .bind
        (valuesOfNames_ensures reads (fun _ => inductionHypothesis) fun _ => cut.showsName) ?_
      intro known asked lookups
      refine .of_silent (fun progress => ?_) fun _ => ?_
      · cases known <;> rfl
      · rwa [List.append_nil]

/--
Every definition lookup points at the name it is for. Resolving an excerpt of
a library, with right-hand sides read from that library, looks up the names of
the excerpt one after the other, each where its document has the name, and in
between those of the right-hand sides in the same way. Whoever gives the
definitions may give any location, nothing, or fail.
-/
theorem run_lookups
    {advisers : Advisers}
    {library : Library}
    (reads : advisers.ReadsFrom library)
    {excerpt : Excerpt}
    (cut : excerpt.IsCutFrom library)
    (depth : Int) :
    let inquiries := (advisers.run depth excerpt).2.inquiries
    library.Lookups excerpt (Lexed.ofText excerpt.text).stream.names inquiries ∧
      ∀ inquiry ∈ inquiries, inquiry.isDefinition = true →
        ∃ name : Token,
          name.isName = true ∧
            library.ShowsAt inquiry.location name.lexeme.toList := by
  intro inquiries
  obtain ⟨asked, grown, lookups⟩ := resolve_ensures reads depth.toNat cut .empty
  have isAsked : inquiries = asked := grown
  rw [isAsked]
  exact ⟨lookups, lookups.shown fun _ member => (List.mem_filter.mp member).2⟩

/-- A document whose first right-hand side goes over two lines. -/
def twoLines : Library :=
  fun uri =>
    if uri = "D" then some "a = b +\n  c;\nb = 2;\nc = 3;\n".toList else none

/-- Whoever gives these definitions looks only at how much was asked before. -/
def takingTurns : Advisers where
  definition asked _ :=
    .ofFinding
      (match asked.length with
      | 0 => .found { uri := "D", position := { line := 2, character := 0 } }
      | 2 => .found { uri := "D", position := { line := 3, character := 0 } }
      | _ => .failure)
  assigned _ := twoLines.read
  isCancelled _ := false

/-- The right-hand side that goes over two lines. -/
def twoLinesExcerpt : Excerpt :=
  { uri := "D", start := { line := 0, character := 4 }, text := "b +\n  c".toList }

/-- The name on the second line is looked up at its indentation. -/
theorem run_lookups_takingTurns :
    takingTurns.ReadsFrom twoLines ∧
      twoLinesExcerpt.IsCutFrom twoLines ∧
      ((takingTurns.run 1 twoLinesExcerpt).2.inquiries.filter
          Inquiry.isDefinition).map (·.location.position) =
        [{ line := 0, character := 4 }, { line := 1, character := 2 }] ∧
      ∀ inquiry ∈ (takingTurns.run 1 twoLinesExcerpt).2.inquiries,
        inquiry.isDefinition = true →
          ∃ name : Token,
            name.isName = true ∧
              twoLines.ShowsAt inquiry.location name.lexeme.toList := by
  have reads : takingTurns.ReadsFrom twoLines := fun _ _ => rfl
  have cut : twoLinesExcerpt.IsCutFrom twoLines :=
    ⟨_, rfl, { start := 4, stop := 11 }, ⟨by decide, by decide⟩, by decide, by decide⟩
  exact ⟨reads, cut, by decide +kernel, (run_lookups reads cut 1).2⟩

end Advisers

end PlanarExpr
