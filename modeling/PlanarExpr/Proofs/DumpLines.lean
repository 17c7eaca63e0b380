import PlanarExpr.Expression.Dump
import PlanarExpr.Proofs.QuotedText

namespace PlanarExpr

/-!
# The lines of a dump

A dump is one text, but no line of it holds a line break, and none begins with
a blank behind its indentation. So the lines can be told from the text, each
with its level.
-/

/-! ## Numbers stand on one line -/

/-- A number of the grammar of JSON holds no line break. -/
theorem Json.IsNumber.unbroken
    {text : List Char}
    (number : IsNumber text) :
    '\n' ∉ text := by
  have ofDigits {digits : List Char} (areDigits : ∀ c ∈ digits, Decimal.isDigit c = true) :
      '\n' ∉ digits := fun member =>
    absurd (areDigits _ member) (by decide)
  have ofMagnitude {text : List Char} (magnitude : IsMagnitude text) : '\n' ∉ text := by
    obtain ⟨isWhole, isFraction, isExponent⟩ := magnitude
    rw [List.mem_append, List.mem_append]
    rintro ((inWhole | inFraction) | inExponent)
    · cases isWhole with
      | zero => exact absurd inWhole (by decide)
      | leading noZero digits => exact ofDigits digits inWhole
    · cases isFraction with
      | absent => cases inFraction
      | digits digits =>
          rcases List.mem_cons.mp inFraction with isPoint | inDigits
          · exact absurd isPoint (by decide)
          · exact ofDigits digits.digits inDigits
    · cases isExponent with
      | absent => cases inExponent
      | digits isMark isSign digits =>
          rcases List.mem_append.mp inExponent with inFront | inDigits
          · rcases isMark with rfl | rfl <;> rcases isSign with rfl | rfl | rfl <;>
              exact absurd inFront (by decide)
          · exact ofDigits digits.digits inDigits
  cases number with
  | unsigned isMagnitude => exact ofMagnitude isMagnitude
  | negative isMagnitude =>
      rw [List.mem_cons]
      rintro (isSign | inMagnitude)
      · exact absurd isSign (by decide)
      · exact ofMagnitude isMagnitude inMagnitude

/-- A floating point number is written on one line. -/
theorem Decimal.newline_not_mem_shortest (x : Float) : '\n' ∉ (shortest x).toList := by
  by_cases finite : x.isFinite = true
  · exact (Layout.isNumber_render .plain finite).unbroken
  · rw [Parts.ofFloat_finite_iff] at finite
    rw [shortest, Layout.render]
    cases parts : Parts.ofFloat x with
    | notANumber => decide
    | infinite negative => cases negative <;> decide
    | finite negative magnitude => exact absurd ⟨_, _, parts⟩ finite

namespace Dump

/-! ## Texts of lines -/

/-- A text that stands on one line and begins with a character other than a blank. -/
structure IsFlush (text : String) : Prop where
  unbroken : '\n' ∉ text.toList
  begins : text.toList.head?.any (· ≠ ' ') = true

instance (text : String) : Decidable (IsFlush text) :=
  decidable_of_iff ('\n' ∉ text.toList ∧ text.toList.head?.any (· ≠ ' ') = true)
    ⟨fun ⟨unbroken, begins⟩ => ⟨unbroken, begins⟩, fun ⟨unbroken, begins⟩ => ⟨unbroken, begins⟩⟩

namespace IsFlush

/-- A flush text stays so with more behind it on the same line. -/
theorem append
    {text more : String}
    (flush : IsFlush text)
    (unbroken : '\n' ∉ more.toList) :
    IsFlush (text ++ more) where
  unbroken := by
    rw [String.toList_append, List.mem_append, not_or]
    exact ⟨flush.unbroken, unbroken⟩
  begins := by
    obtain ⟨first, isFirst, noBlank⟩ := (Option.any_eq_true _ _).mp flush.begins
    rw [String.toList_append, List.head?_append, isFirst]
    exact noBlank

/-- A quoted name stands flush on one line. -/
theorem quoted (name : String) : IsFlush (Text.quoted name.toList) where
  unbroken := Text.newline_not_mem_quoted _
  begins := by
    rw [Text.toList_quoted, List.head?_cons, Option.any_some, decide_eq_true_eq]
    rcases Text.isQuote_quoteFor name.toList with same | same <;> rw [same] <;> decide

theorem sign (sign : Sign) : IsFlush sign.label := by
  cases sign <;> decide

theorem scaling (scaling : Scaling) : IsFlush scaling.label := by
  cases scaling <;> decide

end IsFlush

/-- Every line has a text that stands flush behind the indentation. -/
def AllFlush (lines : List Line) : Prop :=
  ∀ line ∈ lines, IsFlush line.text

section

variable {level : Nat}

theorem allFlush_nil : AllFlush [] :=
  List.forall_mem_nil _

theorem allFlush_cons
    {text : String}
    {lines : List Line} :
    AllFlush ({ level := level, text := text } :: lines) ↔ IsFlush text ∧ AllFlush lines :=
  List.forall_mem_cons

theorem allFlush_append
    {first second : List Line} :
    AllFlush (first ++ second) ↔ AllFlush first ∧ AllFlush second :=
  List.forall_mem_append

/-- The lines of a child are flush below the name of its field. -/
theorem allFlush_childField
    {name : String}
    {child : List Line}
    (flushName : IsFlush name)
    (flush : AllFlush child) :
    AllFlush (childField level name child) :=
  allFlush_cons.mpr ⟨flushName.append (by decide), flush⟩

/-- A field with a text is flush if the text stands on one line. -/
theorem allFlush_scalarField
    {name value : String}
    (flushName : IsFlush name)
    (unbroken : '\n' ∉ value.toList) :
    AllFlush (scalarField level name value) :=
  allFlush_cons.mpr ⟨(flushName.append (by decide)).append unbroken, allFlush_nil⟩

/-- The lines of a list are flush if those of its items are. -/
theorem allFlush_listField
    {name : String}
    {items : List Line}
    (flushName : IsFlush name)
    (flush : AllFlush items) :
    AllFlush (listField level name items) := by
  refine allFlush_cons.mpr ⟨flushName.append (by decide), allFlush_append.mpr ⟨flush, ?_⟩⟩
  exact allFlush_cons.mpr ⟨by decide, allFlush_nil⟩

/-- Items that are texts are flush if each text is. -/
theorem allFlush_plainItems
    {items : List String}
    (flush : ∀ item ∈ items, IsFlush item) :
    AllFlush (plainItems level items) :=
  List.forall_mem_map.mpr flush

/-- The lines of an operator chain are flush if those of its terms are. -/
theorem allFlush_chainNode
    {label : String}
    {terms : List Line}
    {operators : List String}
    (flushLabel : IsFlush label)
    (flush : AllFlush terms)
    (flushOperators : ∀ operator ∈ operators, IsFlush operator) :
    AllFlush (chainNode level label terms operators) := by
  refine allFlush_append.mpr ⟨allFlush_cons.mpr ⟨flushLabel, ?_⟩, ?_⟩
  · exact allFlush_listField (by decide) flush
  · exact allFlush_listField (by decide) (allFlush_plainItems flushOperators)

/-- The lines of a call are flush if those of its arguments are. -/
theorem allFlush_callFields
    {label : String}
    {items? : Option (List Line)}
    (name : String)
    (flushLabel : IsFlush label)
    (flush : ∀ items ∈ items?, AllFlush items) :
    AllFlush (callFields level label name items?) := by
  have flushName : AllFlush (scalarField level label (Text.quoted name.toList)) :=
    allFlush_scalarField flushLabel (Text.newline_not_mem_quoted _)
  refine allFlush_append.mpr ⟨flushName, ?_⟩
  cases items? with
  | none => exact allFlush_scalarField (by decide) (by decide)
  | some items => exact allFlush_listField (by decide) (flush items rfl)

end

/-! ## Trees -/

mutual

/-- Every line in the dump of an addition is flush. -/
theorem allFlush_addition
    {level : Nat} :
    ∀ tree : Addition, AllFlush (addition level tree)
  | .mk _ first later => by
      rw [addition]
      refine allFlush_chainNode (by decide) (allFlush_append.mpr ⟨?_, ?_⟩) ?_
      · exact allFlush_multiplication first
      · exact allFlush_laterTerms later
      · exact List.forall_mem_map.mpr fun entry _ => .sign entry.1

theorem allFlush_laterTerms
    {level : Nat} :
    ∀ later : List (Sign × Multiplication), AllFlush (laterTerms level later)
  | [] => allFlush_nil
  | (_, term) :: rest =>
      allFlush_append.mpr ⟨allFlush_multiplication term, allFlush_laterTerms rest⟩

theorem allFlush_multiplication
    {level : Nat} :
    ∀ tree : Multiplication, AllFlush (multiplication level tree)
  | .mk _ first later => by
      rw [multiplication]
      refine allFlush_chainNode (by decide) (allFlush_append.mpr ⟨?_, ?_⟩) ?_
      · exact allFlush_unary first
      · exact allFlush_laterFactors later
      · exact List.forall_mem_map.mpr fun entry _ => .scaling entry.1

theorem allFlush_laterFactors
    {level : Nat} :
    ∀ later : List (Scaling × Unary), AllFlush (laterFactors level later)
  | [] => allFlush_nil
  | (_, factor) :: rest =>
      allFlush_append.mpr ⟨allFlush_unary factor, allFlush_laterFactors rest⟩

theorem allFlush_unary
    {level : Nat} :
    ∀ tree : Unary, AllFlush (unary level tree)
  | .signed _ sign operand => by
      rw [unary]
      refine allFlush_append.mpr ⟨allFlush_cons.mpr ⟨by decide, ?_⟩, ?_⟩
      · exact allFlush_scalarField (by decide) (IsFlush.sign sign).unbroken
      · exact allFlush_childField (by decide) (allFlush_unary operand)
  | .primary operand => by
      rw [unary]
      exact allFlush_primary operand

theorem allFlush_primary
    {level : Nat} :
    ∀ tree : Primary, AllFlush (primary level tree)
  | .mk _ start chain => by
      rw [primary]
      refine allFlush_append.mpr ⟨allFlush_cons.mpr ⟨by decide, ?_⟩, ?_⟩
      · exact allFlush_childField (by decide) (allFlush_atom start)
      · exact allFlush_listField (by decide) (allFlush_links chain)

theorem allFlush_atom
    {level : Nat} :
    ∀ tree : Atom, AllFlush (atom level tree)
  | .number _ value => by
      rw [atom]
      refine allFlush_cons.mpr ⟨by decide, ?_⟩
      exact
        allFlush_scalarField (by decide) (Decimal.newline_not_mem_shortest value)
  | .name _ name => by
      rw [atom]
      refine allFlush_cons.mpr ⟨by decide, ?_⟩
      exact allFlush_callFields name (by decide) nofun
  | .call _ name _ items => by
      rw [atom]
      refine allFlush_cons.mpr ⟨by decide, ?_⟩
      refine allFlush_callFields name (by decide) ?_
      rintro _ ⟨⟩
      exact allFlush_arguments items
  | .group _ inner => by
      rw [atom]
      refine allFlush_cons.mpr ⟨by decide, ?_⟩
      exact allFlush_childField (by decide) (allFlush_addition inner)
  | .construction _ path items => by
      rw [atom]
      refine allFlush_append.mpr ⟨allFlush_cons.mpr ⟨by decide, ?_⟩, ?_⟩
      · refine allFlush_listField (by decide) (allFlush_plainItems ?_)
        exact List.forall_mem_map.mpr fun name _ => .quoted name
      · exact allFlush_listField (by decide) (allFlush_arguments items)

theorem allFlush_links
    {level : Nat} :
    ∀ chain : List Link, AllFlush (links level chain)
  | [] => allFlush_nil
  | first :: rest => allFlush_append.mpr ⟨allFlush_link first, allFlush_links rest⟩

theorem allFlush_link
    {level : Nat} :
    ∀ tree : Link, AllFlush (link level tree)
  | .field _ member _ => by
      rw [link]
      refine allFlush_cons.mpr ⟨by decide, ?_⟩
      exact allFlush_callFields member (by decide) nofun
  | .call _ member _ items => by
      rw [link]
      refine allFlush_cons.mpr ⟨by decide, ?_⟩
      refine allFlush_callFields member (by decide) ?_
      rintro _ ⟨⟩
      exact allFlush_arguments items

theorem allFlush_arguments
    {level : Nat} :
    ∀ items : List Addition, AllFlush (arguments level items)
  | [] => allFlush_nil
  | first :: rest => allFlush_append.mpr ⟨allFlush_addition first, allFlush_arguments rest⟩

end

/-- Every line in the dump of an expression is flush. -/
theorem allFlush_expression (whole : Expression) : AllFlush (expression whole) := by
  refine allFlush_cons.mpr ⟨by decide, ?_⟩
  exact allFlush_childField (by decide) (allFlush_addition whole.root)

/-! ## Lines from texts -/

namespace Line

/-- A line is its text behind two blanks for each level. -/
theorem toList_render (line : Line) :
    line.render.toList = List.replicate (2 * line.level) ' ' ++ line.text.toList := by
  rw [render, String.toList_append, String.toList_ofList]

/-- A flush line is printed on one line. -/
theorem newline_not_mem_render
    {line : Line}
    (flush : IsFlush line.text) :
    '\n' ∉ line.render.toList := by
  rw [toList_render, List.mem_append, not_or]
  exact ⟨fun member => absurd (List.eq_of_mem_replicate member) (by decide), flush.unbroken⟩

/-- The blanks in front of a flush text are the indentation of its line. -/
theorem takeWhile_render
    {line : Line}
    (flush : IsFlush line.text) :
    line.render.toList.takeWhile (· = ' ') = List.replicate (2 * line.level) ' ' := by
  have blanks : ∀ c ∈ List.replicate (2 * line.level) ' ', decide (c = ' ') = true :=
    fun c member => decide_eq_true (List.eq_of_mem_replicate member)
  have stops : line.text.toList.takeWhile (· = ' ') = [] := by
    obtain ⟨first, isFirst, noBlank⟩ := (Option.any_eq_true _ _).mp flush.begins
    obtain ⟨rest, characters⟩ := List.head?_eq_some_iff.mp isFirst
    rw [characters]
    exact List.takeWhile_cons_of_neg (by simpa using noBlank)
  rw [toList_render, List.takeWhile_append_of_pos blanks, stops, List.append_nil]

/-- Flush lines that are printed alike have the same level and the same text. -/
theorem render_injective
    {line line' : Line}
    (flush : IsFlush line.text)
    (flush' : IsFlush line'.text)
    (same : line.render = line'.render) :
    line = line' := by
  have blanks := takeWhile_render flush
  rw [same, takeWhile_render flush'] at blanks
  have levels : line'.level = line.level := by
    have lengths := congrArg List.length blanks
    rw [List.length_replicate, List.length_replicate] at lengths
    omega
  have texts := congrArg String.toList same
  rw [toList_render, toList_render, levels] at texts
  have sameText : line.text = line'.text := String.toList_inj.mp (List.append_cancel_left texts)
  obtain ⟨level, text⟩ := line
  obtain ⟨level', text'⟩ := line'
  exact congr (congrArg Line.mk levels.symm) sameText

end Line

/-- Flush lines can be told from what is printed of them. -/
theorem eq_of_map_render_eq
    {lines lines' : List Line}
    (flush : AllFlush lines)
    (flush' : AllFlush lines')
    (same : lines.map Line.render = lines'.map Line.render) :
    lines = lines' := by
  induction lines generalizing lines' with
  | nil => exact (List.map_eq_nil_iff.mp same.symm).symm
  | cons line rest inductionHypothesis =>
      cases lines' with
      | nil => cases same
      | cons line' rest' =>
          obtain ⟨sameLine, sameRest⟩ := List.cons.inj same
          obtain ⟨flushLine, flushRest⟩ := List.forall_mem_cons.mp flush
          obtain ⟨flushLine', flushRest'⟩ := List.forall_mem_cons.mp flush'
          rw [Line.render_injective flushLine flushLine' sameLine,
            inductionHypothesis flushRest flushRest' sameRest]

/-- Lines with flush texts can be told from the text that they are joined to. -/
theorem render_injective
    {lines lines' : List Line}
    (some : lines ≠ [])
    (some' : lines' ≠ [])
    (flush : AllFlush lines)
    (flush' : AllFlush lines')
    (same : render lines = render lines') :
    lines = lines' := by
  have split
      {lines : List Line}
      (some : lines ≠ [])
      (flush : AllFlush lines) :
      (render lines |>.split '\n').toList.map (·.copy) = lines.map Line.render := by
    have unbroken : ∀ text ∈ lines.map Line.render, '\n' ∉ text.toList :=
      List.forall_mem_map.mpr fun line member => Line.newline_not_mem_render (flush line member)
    have someTexts : lines.map Line.render ≠ [] := fun none => some (List.map_eq_nil_iff.mp none)
    exact (String.toList_split_intercalate unbroken).trans (if_neg someTexts)
  have texts := split some flush
  rw [same, split some' flush'] at texts
  exact eq_of_map_render_eq flush flush' texts.symm

end Dump

end PlanarExpr
