import PlanarExpr.Proofs.DumpLines
import PlanarExpr.Proofs.ExactSpans

namespace PlanarExpr

/-!
# Dumps tell trees apart

A dump leaves out the spans of a tree and nothing else. The first line of a
node names its class, and its parts follow in a fixed order, so the lines of a
node tell where they end. Only a list may go on for any number of items; they
all begin two levels below the node, and the bracket behind the last of them
stands on the level between.
-/

/-- The value of a number literal. -/
def Node.literal? : Node → Option Float
  | .atom (.number _ value) => some value
  | _ => none

/-- The values of the number literals of an expression, from left to right. -/
def Expression.literals (whole : Expression) : List Float :=
  whole.nodes.filterMap Node.literal?

/-- The two signs have different labels. -/
theorem Sign.label_injective : Function.Injective Sign.label := by
  intro sign sign' same
  cases sign <;> cases sign' <;> first | rfl | exact absurd same (by decide)

theorem Scaling.label_injective : Function.Injective Scaling.label := by
  intro scaling scaling' same
  cases scaling <;> cases scaling' <;> first | rfl | exact absurd same (by decide)

/-- The quoted names of a path determine it. -/
theorem TypePath.eq_of_quoted_eq
    {path path' : TypePath}
    (same :
      (path.segments.map fun name => Text.quoted name.toList) =
        path'.segments.map fun name => Text.quoted name.toList) :
    path = path' := by
  have quotes : ∀ name name' : String,
      Text.quoted name.toList = Text.quoted name'.toList → name = name' :=
    fun name name' same => String.toList_inj.mp (Text.quoted_injective same)
  obtain ⟨sameFirst, sameLater⟩ := List.cons.inj ((List.map_inj_right quotes).mp same)
  obtain ⟨first, later⟩ := path
  obtain ⟨first', later'⟩ := path'
  exact congr (congrArg TypePath.mk sameFirst) sameLater

/-! ## Lists of parts, entry by entry -/

/-- Removing spans goes through later terms one by one. -/
theorem laterTermsWithoutSpans_eq_map (later : List (Sign × Multiplication)) :
    laterTermsWithoutSpans later = later.map (Prod.map id Multiplication.withoutSpans) := by
  induction later with
  | nil => rfl
  | cons entry rest inductionHypothesis =>
      rw [laterTermsWithoutSpans, inductionHypothesis, List.map_cons, Prod.map, id]

theorem laterFactorsWithoutSpans_eq_map (later : List (Scaling × Unary)) :
    laterFactorsWithoutSpans later = later.map (Prod.map id Unary.withoutSpans) := by
  induction later with
  | nil => rfl
  | cons entry rest inductionHypothesis =>
      rw [laterFactorsWithoutSpans, inductionHypothesis, List.map_cons, Prod.map, id]

theorem linksWithoutSpans_eq_map (chain : List Link) :
    linksWithoutSpans chain = chain.map Link.withoutSpans := by
  induction chain with
  | nil => rfl
  | cons link rest inductionHypothesis =>
      rw [linksWithoutSpans, inductionHypothesis, List.map_cons]

theorem argumentsWithoutSpans_eq_map (items : List Addition) :
    argumentsWithoutSpans items = items.map Addition.withoutSpans := by
  induction items with
  | nil => rfl
  | cons item rest inductionHypothesis =>
      rw [argumentsWithoutSpans, inductionHypothesis, List.map_cons]

section

variable {known : List Node}

/-- The nodes of later terms are known if those of each term are. -/
theorem laterTermNodes_subset_iff {later : List (Sign × Multiplication)} :
    laterTermNodes later ⊆ known ↔ ∀ term ∈ later.map Prod.snd, term.nodes ⊆ known := by
  induction later with
  | nil => exact iff_of_true (List.nil_subset _) (List.forall_mem_nil _)
  | cons entry rest inductionHypothesis =>
      rw [laterTermNodes, List.append_subset, inductionHypothesis, List.map_cons,
        List.forall_mem_cons]

theorem laterFactorNodes_subset_iff {later : List (Scaling × Unary)} :
    laterFactorNodes later ⊆ known ↔ ∀ factor ∈ later.map Prod.snd, factor.nodes ⊆ known := by
  induction later with
  | nil => exact iff_of_true (List.nil_subset _) (List.forall_mem_nil _)
  | cons entry rest inductionHypothesis =>
      rw [laterFactorNodes, List.append_subset, inductionHypothesis, List.map_cons,
        List.forall_mem_cons]

theorem linkNodes_subset_iff {chain : List Link} :
    linkNodes chain ⊆ known ↔ ∀ link ∈ chain, link.nodes ⊆ known := by
  induction chain with
  | nil => exact iff_of_true (List.nil_subset _) (List.forall_mem_nil _)
  | cons link rest inductionHypothesis =>
      rw [linkNodes, List.append_subset, inductionHypothesis, List.forall_mem_cons]

theorem argumentNodes_subset_iff {items : List Addition} :
    argumentNodes items ⊆ known ↔ ∀ item ∈ items, item.nodes ⊆ known := by
  induction items with
  | nil => exact iff_of_true (List.nil_subset _) (List.forall_mem_nil _)
  | cons item rest inductionHypothesis =>
      rw [argumentNodes, List.append_subset, inductionHypothesis, List.forall_mem_cons]

end

namespace Dump

/-- Later terms are dumped one after the other. -/
theorem laterTerms_eq_flatMap
    (level : Nat)
    (later : List (Sign × Multiplication)) :
    laterTerms level later = (later.map Prod.snd).flatMap (multiplication level) := by
  induction later with
  | nil => rfl
  | cons entry rest inductionHypothesis =>
      rw [laterTerms, inductionHypothesis, List.map_cons, List.flatMap_cons]

theorem laterFactors_eq_flatMap
    (level : Nat)
    (later : List (Scaling × Unary)) :
    laterFactors level later = (later.map Prod.snd).flatMap (unary level) := by
  induction later with
  | nil => rfl
  | cons entry rest inductionHypothesis =>
      rw [laterFactors, inductionHypothesis, List.map_cons, List.flatMap_cons]

theorem links_eq_flatMap
    (level : Nat)
    (chain : List Link) :
    links level chain = chain.flatMap (link level) := by
  induction chain with
  | nil => rfl
  | cons link rest inductionHypothesis =>
      rw [links, inductionHypothesis, List.flatMap_cons]

theorem arguments_eq_flatMap
    (level : Nat)
    (items : List Addition) :
    arguments level items = items.flatMap (addition level) := by
  induction items with
  | nil => rfl
  | cons item rest inductionHypothesis =>
      rw [arguments, inductionHypothesis, List.flatMap_cons]

/-! ## Fields with anything behind them -/

section

variable
  {level : Nat}
  {more more' rest rest' : List Line}

/-- The first of some lines can be told, and the lines behind it. -/
theorem eq_of_cons_eq
    {text text' : String}
    (same : { level := level, text := text } :: more = ⟨level, text'⟩ :: more') :
    text = text' ∧ more = more' := by
  obtain ⟨sameLine, sameMore⟩ := List.cons.inj same
  exact ⟨(Line.mk.inj sameLine).2, sameMore⟩

/-- The field of a child can be told up to where the lines of the child start. -/
theorem eq_of_childField_eq
    {name : String}
    {child child' : List Line}
    (same : childField level name child ++ rest = childField level name child' ++ rest') :
    child ++ rest = child' ++ rest' :=
  (eq_of_cons_eq same).2

/-- The text of a field can be told, and the lines behind it. -/
theorem eq_of_scalarField_eq
    {name value value' : String}
    (same : scalarField level name value ++ rest = scalarField level name value' ++ rest') :
    value = value' ∧ rest = rest' := by
  obtain ⟨texts, sameRest⟩ := eq_of_cons_eq same
  exact ⟨(String.append_right_inj _).mp texts, sameRest⟩

/-- The line behind the last item of a list. -/
def closing (level : Nat) : Line :=
  { level := level + 1, text := "]" }

/-- What a dump says about the arguments behind a name. -/
def argumentField (level : Nat) : Option (List Line) → List Line
  | none => scalarField level "arguments" "None"
  | some items => listField level "arguments" items

/-- The field of a list can be told up to where its items start. -/
theorem eq_of_listField_eq
    {name : String}
    {items items' : List Line}
    (same : listField level name items ++ rest = listField level name items' ++ rest') :
    items ++ closing level :: rest = items' ++ closing level :: rest' := by
  simp only [listField, List.cons_append, List.append_assoc] at same
  exact (eq_of_cons_eq same).2

/-- A name can be told, whatever is said about arguments behind it. -/
theorem eq_of_callFields_eq
    {label name name' : String}
    {items? items'? : Option (List Line)}
    (same :
      callFields level label name items? ++ rest =
        callFields level label name' items'? ++ rest') :
    name = name' ∧
      argumentField level items? ++ rest = argumentField level items'? ++ rest' := by
  simp only [callFields, List.append_assoc] at same
  obtain ⟨quoted, behind⟩ := eq_of_scalarField_eq same
  exact ⟨String.toList_inj.mp (Text.quoted_injective quoted), behind⟩

/-- A name on its own is told from a call, also from one without arguments. -/
theorem callFields_none_ne_some
    {label name name' : String}
    {items : List Line} :
    callFields level label name none ++ rest ≠
      callFields level label name' (some items) ++ rest' := fun same =>
  absurd (eq_of_cons_eq (eq_of_callFields_eq same).2).1 (by decide)

end

/-! ## Forms -/

/--
A kind of things that a dump shows, with the nodes of such a thing and the
thing without its spans. The first line stands on the level of the thing.
-/
structure Form (thing : Type) where
  lines : Nat → thing → List Line
  nodes : thing → List Node
  bare : thing → thing
  headed : ∀ level shown, (lines level shown).head?.map Line.level = some level

namespace Form

/-- Texts on a line of their own. -/
def text : Form String where
  lines level shown := [{ level := level, text := shown }]
  nodes _ := []
  bare shown := shown
  headed _ _ := rfl

/-- Additions, as a dump shows them. -/
def addition : Form Addition where
  lines := Dump.addition
  nodes := Addition.nodes
  bare := Addition.withoutSpans
  headed := fun _ (.mk ..) => rfl

/-- Multiplications, as a dump shows them. -/
def multiplication : Form Multiplication where
  lines := Dump.multiplication
  nodes := Multiplication.nodes
  bare := Multiplication.withoutSpans
  headed := fun _ (.mk ..) => rfl

/-- Primaries, as a dump shows them. -/
def primary : Form Primary where
  lines := Dump.primary
  nodes := Primary.nodes
  bare := Primary.withoutSpans
  headed := fun _ (.mk ..) => rfl

/-- Unary expressions, as a dump shows them; one without a sign is shown as its primary. -/
def unary : Form Unary where
  lines := Dump.unary
  nodes := Unary.nodes
  bare := Unary.withoutSpans
  headed
    | _, .signed .. => rfl
    | level, .primary operand => primary.headed level operand

/-- Atoms, as a dump shows them. -/
def atom : Form Atom where
  lines := Dump.atom
  nodes := Atom.nodes
  bare := Atom.withoutSpans
  headed level shown := by cases shown <;> rfl

/-- Links, as a dump shows them. -/
def link : Form Link where
  lines := Dump.link
  nodes := Link.nodes
  bare := Link.withoutSpans
  headed level shown := by cases shown <;> rfl

variable
  {thing operator : Type}
  {known : List Node}

/--
The lines of a thing tell what it is but for its spans, and where they end, if
it is compared with a thing whose nodes are known.
-/
def Tells
    (form : Form thing)
    (known : List Node)
    (shown : thing) :
    Prop :=
  ∀ ⦃level : Nat⦄ ⦃shown' : thing⦄ ⦃rest rest' : List Line⦄,
    form.nodes shown' ⊆ known →
    form.lines level shown ++ rest = form.lines level shown' ++ rest' →
    form.bare shown = form.bare shown' ∧ rest = rest'

/-- A text on a line of its own tells itself. -/
theorem text_tells (shown : String) : text.Tells known shown :=
  fun _ _ _ _ _ same => eq_of_cons_eq same

variable
  (form : Form thing)
  {level : Nat}
  {rest rest' : List Line}

/-- An item of a list begins one level deeper than the bracket behind it. -/
theorem closing_ne_lines
    (item : thing)
    (more : List Line) :
    closing level :: rest ≠ form.lines (level + 2) item ++ more := by
  intro same
  obtain ⟨first, isFirst, firstLevel⟩ := Option.map_eq_some_iff.mp (form.headed (level + 2) item)
  have heads := congrArg List.head? same
  rw [List.head?_cons, List.head?_append, isFirst] at heads
  rw [← Option.some.inj heads] at firstLevel
  exact absurd firstLevel (by simp only [closing]; omega)

/-- Items that tell what they are can be told up to the bracket behind the last one. -/
theorem items_tell
    {items items' : List thing}
    (tell : ∀ item ∈ items, form.Tells known item)
    (within : ∀ item ∈ items', form.nodes item ⊆ known)
    (same :
      items.flatMap (form.lines (level + 2)) ++ closing level :: rest =
        items'.flatMap (form.lines (level + 2)) ++ closing level :: rest') :
    items.map form.bare = items'.map form.bare ∧ rest = rest' := by
  -- Both lists go on with an item or both are at their bracket, since levels tell these apart.
  induction items generalizing items' with
  | nil =>
      cases items' with
      | nil => exact ⟨rfl, (List.cons.inj same).2⟩
      | cons item' later' =>
          rw [List.flatMap_cons, List.append_assoc] at same
          exact absurd same (form.closing_ne_lines item' _)
  | cons item later inductionHypothesis =>
      rw [List.flatMap_cons, List.append_assoc] at same
      cases items' with
      | nil => exact absurd same.symm (form.closing_ne_lines item _)
      | cons item' later' =>
          rw [List.flatMap_cons, List.append_assoc] at same
          obtain ⟨tellsItem, tellLater⟩ := List.forall_mem_cons.mp tell
          obtain ⟨withinItem, withinLater⟩ := List.forall_mem_cons.mp within
          obtain ⟨sameItem, sameBehind⟩ := tellsItem withinItem same
          obtain ⟨sameLater, sameRest⟩ := inductionHypothesis tellLater withinLater sameBehind
          rw [List.map_cons, List.map_cons, sameItem, sameLater]
          exact ⟨rfl, sameRest⟩

/-- The field of a list tells its items, and where it ends. -/
theorem listField_tells
    {name : String}
    {items items' : List thing}
    (tell : ∀ item ∈ items, form.Tells known item)
    (within : ∀ item ∈ items', form.nodes item ⊆ known)
    (same :
      listField level name (items.flatMap (form.lines (level + 2))) ++ rest =
        listField level name (items'.flatMap (form.lines (level + 2))) ++ rest') :
    items.map form.bare = items'.map form.bare ∧ rest = rest' :=
  form.items_tell tell within (eq_of_listField_eq same)

/-- The field of a list of texts tells them, and where it ends. -/
theorem plainField_tells
    {name : String}
    {items items' : List String}
    (same :
      listField level name (plainItems level items) ++ rest =
        listField level name (plainItems level items') ++ rest') :
    items = items' ∧ rest = rest' := by
  rw [plainItems, plainItems, List.map_eq_flatMap, List.map_eq_flatMap] at same
  have tell : ∀ item ∈ items, text.Tells [] item := fun item _ => text_tells item
  have told := text.listField_tells tell (fun item _ => List.nil_subset _) same
  rwa [show text.bare = id from rfl, List.map_id, List.map_id] at told

/-- Entries agree if their operators have the same labels and their operands are the same. -/
theorem entries_eq
    {bare : thing → thing}
    {label : operator → String}
    (injective : Function.Injective label)
    {later later' : List (operator × thing)}
    (labels : (later.map fun entry => label entry.1) = later'.map fun entry => label entry.1)
    (operands : (later.map Prod.snd).map bare = (later'.map Prod.snd).map bare) :
    later.map (Prod.map id bare) = later'.map (Prod.map id bare) := by
  induction later generalizing later' with
  | nil =>
      cases later' with
      | nil => rfl
      | cons => cases labels
  | cons entry rest inductionHypothesis =>
      cases later' with
      | nil => cases labels
      | cons entry' rest' =>
          obtain ⟨sameLabel, sameLabels⟩ := List.cons.inj labels
          obtain ⟨sameOperand, sameOperands⟩ := List.cons.inj operands
          rw [List.map_cons, List.map_cons, inductionHypothesis sameLabels sameOperands, Prod.map,
            Prod.map, injective sameLabel, sameOperand]

/-- The entries of an operator chain, from its terms and the names of its operators. -/
theorem chainNode_tells
    {kind : String}
    {label : operator → String}
    (injective : Function.Injective label)
    {first first' : thing}
    {later later' : List (operator × thing)}
    (tell : ∀ term ∈ first :: later.map Prod.snd, form.Tells known term)
    (within : ∀ term ∈ first' :: later'.map Prod.snd, form.nodes term ⊆ known)
    (same :
      chainNode level kind ((first :: later.map Prod.snd).flatMap (form.lines (level + 2)))
          (later.map fun entry => label entry.1) ++ rest =
        chainNode level kind ((first' :: later'.map Prod.snd).flatMap (form.lines (level + 2)))
          (later'.map fun entry => label entry.1) ++ rest') :
    form.bare first = form.bare first' ∧
      later.map (Prod.map id form.bare) = later'.map (Prod.map id form.bare) ∧
      rest = rest' := by
  simp only [chainNode, List.cons_append, List.append_assoc] at same
  obtain ⟨terms, behind⟩ := form.listField_tells tell within (eq_of_cons_eq same).2
  obtain ⟨labels, sameRest⟩ := plainField_tells behind
  obtain ⟨sameFirst, operands⟩ := List.cons.inj terms
  exact ⟨sameFirst, entries_eq injective labels operands, sameRest⟩

end Form

/-- The fields of a call tell its name and its arguments. -/
theorem callFields_tells
    {known : List Node}
    {level : Nat}
    {label name name' : String}
    {items items' : List Addition}
    {rest rest' : List Line}
    (tell : ∀ item ∈ items, Form.addition.Tells known item)
    (within : argumentNodes items' ⊆ known)
    (same :
      callFields level label name (some (arguments (level + 2) items)) ++ rest =
        callFields level label name' (some (arguments (level + 2) items')) ++ rest') :
    name = name' ∧
      argumentsWithoutSpans items = argumentsWithoutSpans items' ∧
      rest = rest' := by
  simp only [arguments_eq_flatMap] at same
  obtain ⟨sameName, behind⟩ := eq_of_callFields_eq same
  obtain ⟨sameItems, sameRest⟩ :=
    Form.addition.listField_tells tell (argumentNodes_subset_iff.mp within) behind
  rw [argumentsWithoutSpans_eq_map, argumentsWithoutSpans_eq_map]
  exact ⟨sameName, sameItems, sameRest⟩

/-- Numbers among the nodes of one tree and of another differ in their texts if they differ. -/
def Separated (known known' : List Node) : Prop :=
  ∀ value ∈ known.filterMap Node.literal?, ∀ value' ∈ known'.filterMap Node.literal?,
    Decimal.shortest value = Decimal.shortest value' → value = value'

section

variable {known known' : List Node}

mutual

/-- The dump of an addition tells it from any other whose numbers have other texts. -/
theorem addition_tells
    (separated : Separated known known') :
    ∀ tree : Addition, tree.nodes ⊆ known → Form.addition.Tells known' tree
  | .mk _ first later, within => by
      rw [Addition.nodes, List.cons_append, List.cons_subset, List.append_subset] at within
      have tell :=
        List.forall_mem_cons.mpr
          ⟨multiplication_tells separated first within.2.1,
            laterTerms_tell separated later within.2.2⟩
      rintro level ⟨_, first', later'⟩ rest rest' within' same
      simp only [Form.addition, Addition.nodes, List.cons_append, List.cons_subset,
        List.append_subset, laterTermNodes_subset_iff] at within'
      simp only [Form.addition, addition, laterTerms_eq_flatMap] at same
      obtain ⟨sameFirst, sameLater, sameRest⟩ :=
        Form.multiplication.chainNode_tells Sign.label_injective tell
          (List.forall_mem_cons.mpr within'.2) same
      refine ⟨?_, sameRest⟩
      simp only [Form.addition, Addition.withoutSpans, laterTermsWithoutSpans_eq_map]
      exact congr (congrArg (Addition.mk .blank) sameFirst) sameLater

/-- The terms of an addition tell what they are. -/
theorem laterTerms_tell
    (separated : Separated known known') :
    ∀ later : List (Sign × Multiplication),
      laterTermNodes later ⊆ known →
      ∀ term ∈ later.map Prod.snd, Form.multiplication.Tells known' term
  | [], _ => List.forall_mem_nil _
  | (_, term) :: rest, within => by
      rw [laterTermNodes, List.append_subset] at within
      exact
        List.forall_mem_cons.mpr
          ⟨multiplication_tells separated term within.1, laterTerms_tell separated rest within.2⟩

theorem multiplication_tells
    (separated : Separated known known') :
    ∀ tree : Multiplication, tree.nodes ⊆ known → Form.multiplication.Tells known' tree
  | .mk _ first later, within => by
      rw [Multiplication.nodes, List.cons_append, List.cons_subset, List.append_subset] at within
      have tell :=
        List.forall_mem_cons.mpr
          ⟨unary_tells separated first within.2.1,
            laterFactors_tell separated later within.2.2⟩
      rintro level ⟨_, first', later'⟩ rest rest' within' same
      simp only [Form.multiplication, Multiplication.nodes, List.cons_append, List.cons_subset,
        List.append_subset, laterFactorNodes_subset_iff] at within'
      simp only [Form.multiplication, multiplication, laterFactors_eq_flatMap] at same
      obtain ⟨sameFirst, sameLater, sameRest⟩ :=
        Form.unary.chainNode_tells Scaling.label_injective tell
          (List.forall_mem_cons.mpr within'.2) same
      refine ⟨?_, sameRest⟩
      simp only [Form.multiplication, Multiplication.withoutSpans,
        laterFactorsWithoutSpans_eq_map]
      exact congr (congrArg (Multiplication.mk .blank) sameFirst) sameLater

theorem laterFactors_tell
    (separated : Separated known known') :
    ∀ later : List (Scaling × Unary),
      laterFactorNodes later ⊆ known →
      ∀ factor ∈ later.map Prod.snd, Form.unary.Tells known' factor
  | [], _ => List.forall_mem_nil _
  | (_, factor) :: rest, within => by
      rw [laterFactorNodes, List.append_subset] at within
      exact
        List.forall_mem_cons.mpr
          ⟨unary_tells separated factor within.1, laterFactors_tell separated rest within.2⟩

/-- The dump of a unary expression tells it, and whether it has a sign. -/
theorem unary_tells
    (separated : Separated known known') :
    ∀ tree : Unary, tree.nodes ⊆ known → Form.unary.Tells known' tree
  | .signed _ sign operand, within => by
      have tells := unary_tells separated operand (List.cons_subset.mp within).2
      rintro level shown' rest rest' within' same
      cases shown' with
      | signed _ sign' operand' =>
          simp only [Form.unary, unary, List.cons_append, List.append_assoc] at same
          obtain ⟨labels, behind⟩ := eq_of_scalarField_eq (eq_of_cons_eq same).2
          obtain ⟨sameOperand, sameRest⟩ :=
            tells (List.cons_subset.mp within').2 (eq_of_childField_eq behind)
          have sameSign := congrArg (Unary.signed .blank) (Sign.label_injective labels)
          have sameTree : (Unary.signed .blank sign operand.withoutSpans) = _ :=
            congr sameSign sameOperand
          exact ⟨sameTree, sameRest⟩
      | primary operand' =>
          obtain ⟨_, _, _⟩ := operand'
          exact absurd (eq_of_cons_eq same).1 (by decide)
  | .primary operand, within => by
      have tells := primary_tells separated operand within
      rintro level shown' rest rest' within' same
      cases shown' with
      | signed _ sign' operand' =>
          obtain ⟨_, _, _⟩ := operand
          exact absurd (eq_of_cons_eq same).1 (by decide)
      | primary operand' =>
          obtain ⟨sameOperand, sameRest⟩ := tells within' same
          exact ⟨congrArg Unary.primary sameOperand, sameRest⟩

theorem primary_tells
    (separated : Separated known known') :
    ∀ tree : Primary, tree.nodes ⊆ known → Form.primary.Tells known' tree
  | .mk _ start chain, within => by
      rw [Primary.nodes, List.cons_append, List.cons_subset, List.append_subset] at within
      have tells := atom_tells separated start within.2.1
      have tell := links_tell separated chain within.2.2
      rintro level ⟨_, start', chain'⟩ rest rest' within' same
      simp only [Form.primary, Primary.nodes, List.cons_append, List.cons_subset,
        List.append_subset, linkNodes_subset_iff] at within'
      simp only [Form.primary, primary, List.cons_append, List.append_assoc,
        links_eq_flatMap] at same
      have fields := eq_of_childField_eq (eq_of_cons_eq same).2
      obtain ⟨sameStart, behind⟩ := tells within'.2.1 fields
      obtain ⟨sameChain, sameRest⟩ := Form.link.listField_tells tell within'.2.2 behind
      refine ⟨?_, sameRest⟩
      simp only [Form.primary, Primary.withoutSpans, linksWithoutSpans_eq_map]
      exact congr (congrArg (Primary.mk .blank) sameStart) sameChain

/-- The dump of an atom tells it, and its class. -/
theorem atom_tells
    (separated : Separated known known') :
    ∀ tree : Atom, tree.nodes ⊆ known → Form.atom.Tells known' tree
  | .number _ value, within => by
      rintro level shown' rest rest' within' same
      cases shown' with
      | number _ value' =>
          obtain ⟨texts, sameRest⟩ := eq_of_scalarField_eq (eq_of_cons_eq same).2
          have member : value ∈ known.filterMap Node.literal? :=
            List.mem_filterMap.mpr ⟨_, within (List.mem_singleton_self _), rfl⟩
          have member' : value' ∈ known'.filterMap Node.literal? :=
            List.mem_filterMap.mpr ⟨_, within' (List.mem_singleton_self _), rfl⟩
          have sameValue := separated value member value' member' texts
          exact ⟨congrArg (Atom.number .blank) sameValue, sameRest⟩
      | _ => exact absurd (eq_of_cons_eq same).1 (by decide)
  | .name _ name, within => by
      rintro level shown' rest rest' within' same
      cases shown' with
      | name _ name' =>
          obtain ⟨sameName, behind⟩ := eq_of_callFields_eq (eq_of_cons_eq same).2
          have sameTree := congrArg (Atom.name .blank) sameName
          exact ⟨sameTree, (eq_of_scalarField_eq behind).2⟩
      | call _ name' _ items' => exact absurd (eq_of_cons_eq same).2 callFields_none_ne_some
      | _ => exact absurd (eq_of_cons_eq same).1 (by decide)
  | .call _ name _ items, within => by
      have tell := arguments_tell separated items (List.cons_subset.mp within).2
      rintro level shown' rest rest' within' same
      cases shown' with
      | name _ name' => exact absurd (eq_of_cons_eq same).2.symm callFields_none_ne_some
      | call _ name' _ items' =>
          obtain ⟨sameName, sameItems, sameRest⟩ :=
            callFields_tells tell (List.cons_subset.mp within').2 (eq_of_cons_eq same).2
          refine ⟨?_, sameRest⟩
          simp only [Form.atom, Atom.withoutSpans, sameName, sameItems]
      | _ => exact absurd (eq_of_cons_eq same).1 (by decide)
  | .group _ inner, within => by
      have tells := addition_tells separated inner (List.cons_subset.mp within).2
      rintro level shown' rest rest' within' same
      cases shown' with
      | group _ inner' =>
          have fields := eq_of_childField_eq (eq_of_cons_eq same).2
          obtain ⟨sameInner, sameRest⟩ := tells (List.cons_subset.mp within').2 fields
          exact ⟨congrArg (Atom.group .blank) sameInner, sameRest⟩
      | _ => exact absurd (eq_of_cons_eq same).1 (by decide)
  | .construction _ path items, within => by
      have tell := arguments_tell separated items (List.cons_subset.mp within).2
      rintro level shown' rest rest' within' same
      cases shown' with
      | construction _ path' items' =>
          have withinItems := argumentNodes_subset_iff.mp (List.cons_subset.mp within').2
          simp only [Form.atom, atom, List.cons_append, List.append_assoc,
            arguments_eq_flatMap] at same
          obtain ⟨names, behind⟩ := Form.plainField_tells (eq_of_cons_eq same).2
          obtain ⟨sameItems, sameRest⟩ := Form.addition.listField_tells tell withinItems behind
          refine ⟨?_, sameRest⟩
          simp only [Form.atom, Atom.withoutSpans, argumentsWithoutSpans_eq_map]
          have samePath := congrArg (Atom.construction .blank) (TypePath.eq_of_quoted_eq names)
          exact congr samePath sameItems
      | _ => exact absurd (eq_of_cons_eq same).1 (by decide)

theorem links_tell
    (separated : Separated known known') :
    ∀ chain : List Link, linkNodes chain ⊆ known → ∀ link ∈ chain, Form.link.Tells known' link
  | [], _ => List.forall_mem_nil _
  | link :: rest, within => by
      rw [linkNodes, List.append_subset] at within
      exact
        List.forall_mem_cons.mpr
          ⟨link_tells separated link within.1, links_tell separated rest within.2⟩

/-- The dump of a link tells it, and whether it is a call. -/
theorem link_tells
    (separated : Separated known known') :
    ∀ tree : Link, tree.nodes ⊆ known → Form.link.Tells known' tree
  | .field _ member _, within => by
      rintro level shown' rest rest' within' same
      cases shown' with
      | field _ member' _ =>
          obtain ⟨sameMember, behind⟩ := eq_of_callFields_eq (eq_of_cons_eq same).2
          refine ⟨?_, (eq_of_scalarField_eq behind).2⟩
          simp only [Form.link, Link.withoutSpans, sameMember]
      | call _ member' _ items' => exact absurd (eq_of_cons_eq same).2 callFields_none_ne_some
  | .call _ member _ items, within => by
      have tell := arguments_tell separated items (List.cons_subset.mp within).2
      rintro level shown' rest rest' within' same
      cases shown' with
      | field _ member' _ => exact absurd (eq_of_cons_eq same).2.symm callFields_none_ne_some
      | call _ member' _ items' =>
          obtain ⟨sameMember, sameItems, sameRest⟩ :=
            callFields_tells tell (List.cons_subset.mp within').2 (eq_of_cons_eq same).2
          refine ⟨?_, sameRest⟩
          simp only [Form.link, Link.withoutSpans, sameMember, sameItems]

theorem arguments_tell
    (separated : Separated known known') :
    ∀ items : List Addition,
      argumentNodes items ⊆ known → ∀ item ∈ items, Form.addition.Tells known' item
  | [], _ => List.forall_mem_nil _
  | item :: rest, within => by
      rw [argumentNodes, List.append_subset] at within
      exact
        List.forall_mem_cons.mpr
          ⟨addition_tells separated item within.1, arguments_tell separated rest within.2⟩

end

end

/-- The dump of an expression tells it, but for its spans. -/
theorem expression_tells
    {whole whole' : Expression}
    (separated : Separated whole.nodes whole'.nodes)
    (same : expression whole = expression whole') :
    whole.withoutSpans = whole'.withoutSpans := by
  have lines := (eq_of_cons_eq (eq_of_cons_eq same).2).2
  have ended := congrArg (· ++ []) lines
  have tells := addition_tells separated whole.root (List.subset_cons_self _ _)
  exact congrArg Expression.mk (tells (List.subset_cons_self _ _) ended).1

/-! ## Spans -/

mutual

/-- A dump does not show the spans of an addition. -/
theorem addition_withoutSpans
    (level : Nat) :
    ∀ tree : Addition, addition level tree.withoutSpans = addition level tree
  | .mk _ first later => by
      rw [Addition.withoutSpans, addition, addition, multiplication_withoutSpans _ first,
        laterTerms_withoutSpans _ later, laterTermsWithoutSpans_eq_map, List.map_map]
      rfl

theorem laterTerms_withoutSpans
    (level : Nat) :
    ∀ later : List (Sign × Multiplication),
      laterTerms level (laterTermsWithoutSpans later) = laterTerms level later
  | [] => rfl
  | (_, term) :: rest => by
      rw [laterTermsWithoutSpans, laterTerms, laterTerms, multiplication_withoutSpans _ term,
        laterTerms_withoutSpans _ rest]

theorem multiplication_withoutSpans
    (level : Nat) :
    ∀ tree : Multiplication, multiplication level tree.withoutSpans = multiplication level tree
  | .mk _ first later => by
      rw [Multiplication.withoutSpans, multiplication, multiplication,
        unary_withoutSpans _ first, laterFactors_withoutSpans _ later,
        laterFactorsWithoutSpans_eq_map, List.map_map]
      rfl

theorem laterFactors_withoutSpans
    (level : Nat) :
    ∀ later : List (Scaling × Unary),
      laterFactors level (laterFactorsWithoutSpans later) = laterFactors level later
  | [] => rfl
  | (_, factor) :: rest => by
      rw [laterFactorsWithoutSpans, laterFactors, laterFactors, unary_withoutSpans _ factor,
        laterFactors_withoutSpans _ rest]

theorem unary_withoutSpans
    (level : Nat) :
    ∀ tree : Unary, unary level tree.withoutSpans = unary level tree
  | .signed _ sign operand => by
      rw [Unary.withoutSpans, unary, unary, unary_withoutSpans _ operand]
  | .primary operand => by
      rw [Unary.withoutSpans, unary, unary, primary_withoutSpans _ operand]

theorem primary_withoutSpans
    (level : Nat) :
    ∀ tree : Primary, primary level tree.withoutSpans = primary level tree
  | .mk _ start chain => by
      rw [Primary.withoutSpans, primary, primary, atom_withoutSpans _ start,
        links_withoutSpans _ chain]

theorem atom_withoutSpans
    (level : Nat) :
    ∀ tree : Atom, atom level tree.withoutSpans = atom level tree
  | .number _ _ => rfl
  | .name _ _ => rfl
  | .call _ _ _ items => by
      rw [Atom.withoutSpans, atom, atom, arguments_withoutSpans _ items]
  | .group _ inner => by
      rw [Atom.withoutSpans, atom, atom, addition_withoutSpans _ inner]
  | .construction _ _ items => by
      rw [Atom.withoutSpans, atom, atom, arguments_withoutSpans _ items]

theorem links_withoutSpans
    (level : Nat) :
    ∀ chain : List Link, links level (linksWithoutSpans chain) = links level chain
  | [] => rfl
  | first :: rest => by
      rw [linksWithoutSpans, links, links, link_withoutSpans _ first, links_withoutSpans _ rest]

theorem link_withoutSpans
    (level : Nat) :
    ∀ tree : Link, link level tree.withoutSpans = link level tree
  | .field _ _ _ => rfl
  | .call _ _ _ items => by
      rw [Link.withoutSpans, link, link, arguments_withoutSpans _ items]

theorem arguments_withoutSpans
    (level : Nat) :
    ∀ items : List Addition,
      arguments level (argumentsWithoutSpans items) = arguments level items
  | [] => rfl
  | first :: rest => by
      rw [argumentsWithoutSpans, arguments, arguments, addition_withoutSpans _ first,
        arguments_withoutSpans _ rest]

end

/-- A dump does not show the spans of an expression. -/
theorem expression_withoutSpans (whole : Expression) :
    expression whole.withoutSpans = expression whole := by
  rw [expression, expression, Expression.withoutSpans, addition_withoutSpans]

end Dump

/--
Two expressions whose numbers can be told from their texts have the same dump
exactly if they differ in nothing but spans: the classes of the nodes, the
lengths of lists, the operators, the signs, the names, the numbers and whether
a name is called are the same.
-/
theorem Expression.dump_eq_iff
    {whole whole' : Expression}
    (separated :
      ∀ value ∈ whole.literals, ∀ value' ∈ whole'.literals,
        Decimal.shortest value = Decimal.shortest value' → value = value') :
    whole.dump = whole'.dump ↔ whole.withoutSpans = whole'.withoutSpans := by
  constructor
  · intro same
    refine Dump.expression_tells separated ?_
    exact
      Dump.render_injective (List.cons_ne_nil _ _) (List.cons_ne_nil _ _)
        (Dump.allFlush_expression whole) (Dump.allFlush_expression whole') same
  · intro same
    have lines := congrArg Dump.expression same
    rw [Dump.expression_withoutSpans, Dump.expression_withoutSpans] at lines
    exact congrArg Dump.render lines

/-- A name and a call of it without arguments, both behind the same number. -/
theorem Expression.dump_ne_of_called :
    let behind (atom : Atom) : Expression :=
      { root := .mk .blank (Unary.primary (Atom.number .blank 1.5).alone).alone
          [(.plus, (Unary.primary atom.alone).alone)] }
    let named := behind (.name .blank "a")
    let called := behind (.call .blank "a" .blank [])
    (∀ value ∈ named.literals, ∀ value' ∈ called.literals,
        Decimal.shortest value = Decimal.shortest value' → value = value') ∧
      named.dump ≠ called.dump := by
  intro behind named called
  have separated : ∀ value ∈ named.literals, ∀ value' ∈ called.literals,
      Decimal.shortest value = Decimal.shortest value' → value = value' := by
    intro value member value' member' _
    rw [List.mem_singleton.mp member, List.mem_singleton.mp member']
  refine ⟨separated, fun same => ?_⟩
  cases (Expression.dump_eq_iff separated).mp same

end PlanarExpr
