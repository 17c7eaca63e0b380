import PlanarExpr.Evaluation
import PlanarExpr.Proofs.Spelling

namespace PlanarExpr

/-!
# Trees of numbers

A tree that has nothing but numbers, signs, operators and parentheses has a
number of its own. Evaluating it gives that number in any surroundings, and
nothing happens on the way.
-/

mutual

/-- The number of an addition that has no names, constructions or links. -/
def Addition.number? : Addition → Option Float
  | .mk _ first later => first.number?.bind fun x => laterTermsNumber? x later

/-- The number that later terms lead to from a number in front of them. -/
def laterTermsNumber? (left : Float) : List (Sign × Multiplication) → Option Float
  | [] => some left
  | (sign, term) :: rest =>
      term.number?.bind fun right => laterTermsNumber? (sign.combine left right) rest

/-- The number of a multiplication. -/
def Multiplication.number? : Multiplication → Option Float
  | .mk _ first later => first.number?.bind fun x => laterFactorsNumber? x later

/-- The number that later factors lead to from a number in front of them. -/
def laterFactorsNumber? (left : Float) : List (Scaling × Unary) → Option Float
  | [] => some left
  | (scaling, factor) :: rest =>
      factor.number?.bind fun right =>
        laterFactorsNumber? (scaling.combine left right) rest

/-- The number of a unary expression. -/
def Unary.number? : Unary → Option Float
  | .signed _ sign operand => operand.number?.map sign.apply
  | .primary operand => operand.number?

/-- The number of a primary; one with links has none. -/
def Primary.number? : Primary → Option Float
  | .mk _ start [] => start.number?
  | .mk _ _ (_ :: _) => none

/-- The number of an atom; only literals and groups have one. -/
def Atom.number? : Atom → Option Float
  | .number _ value => some value
  | .group _ inner => inner.number?
  | .name _ _ => none
  | .call _ _ _ _ => none
  | .construction _ _ _ => none

end

mutual

/-- Spans play no part in the number of an addition. -/
theorem Addition.number?_withoutSpans :
    ∀ tree : Addition, tree.withoutSpans.number? = tree.number?
  | .mk _ first later => by
      simp only [Addition.withoutSpans, Addition.number?, first.number?_withoutSpans,
        laterTermsNumber?_withoutSpans _ later]

theorem laterTermsNumber?_withoutSpans
    (left : Float) :
    ∀ later : List (Sign × Multiplication),
      laterTermsNumber? left (laterTermsWithoutSpans later) = laterTermsNumber? left later
  | [] => rfl
  | (_, term) :: rest => by
      simp only [laterTermsWithoutSpans, laterTermsNumber?, term.number?_withoutSpans,
        laterTermsNumber?_withoutSpans _ rest]

theorem Multiplication.number?_withoutSpans :
    ∀ tree : Multiplication, tree.withoutSpans.number? = tree.number?
  | .mk _ first later => by
      simp only [Multiplication.withoutSpans, Multiplication.number?,
        first.number?_withoutSpans, laterFactorsNumber?_withoutSpans _ later]

theorem laterFactorsNumber?_withoutSpans
    (left : Float) :
    ∀ later : List (Scaling × Unary),
      laterFactorsNumber? left (laterFactorsWithoutSpans later) =
        laterFactorsNumber? left later
  | [] => rfl
  | (_, factor) :: rest => by
      simp only [laterFactorsWithoutSpans, laterFactorsNumber?,
        factor.number?_withoutSpans, laterFactorsNumber?_withoutSpans _ rest]

theorem Unary.number?_withoutSpans :
    ∀ tree : Unary, tree.withoutSpans.number? = tree.number?
  | .signed _ _ operand => by
      simp only [Unary.withoutSpans, Unary.number?, operand.number?_withoutSpans]
  | .primary operand => by
      simp only [Unary.withoutSpans, Unary.number?, operand.number?_withoutSpans]

theorem Primary.number?_withoutSpans :
    ∀ tree : Primary, tree.withoutSpans.number? = tree.number?
  | .mk _ start [] => by
      simp only [Primary.withoutSpans, linksWithoutSpans, Primary.number?,
        start.number?_withoutSpans]
  | .mk _ _ (_ :: _) => rfl

theorem Atom.number?_withoutSpans :
    ∀ tree : Atom, tree.withoutSpans.number? = tree.number?
  | .number _ _ => rfl
  | .group _ inner => by
      simp only [Atom.withoutSpans, Atom.number?, inner.number?_withoutSpans]
  | .name _ _ => rfl
  | .call _ _ _ _ => rfl
  | .construction _ _ _ => rfl

end

namespace Surroundings

variable (surroundings : Surroundings)

mutual

/-- The evaluation of an addition that has a number is that number. -/
theorem addition_of_number? :
    ∀ (tree : Addition) {x : Float},
      tree.number? = some x → surroundings.addition tree = pure (.number x)
  | .mk _ first later, x, known => by
      obtain ⟨y, firstKnown, laterKnown⟩ := Option.bind_eq_some_iff.mp known
      rw [addition, multiplication_of_number? first firstKnown, pure_bind]
      exact laterTerms_of_number? y later laterKnown

/-- Later terms lead the evaluation to the number that they lead to. -/
theorem laterTerms_of_number?
    (left : Float) :
    ∀ (later : List (Sign × Multiplication)) {x : Float},
      laterTermsNumber? left later = some x →
      surroundings.laterTerms (.number left) later = pure (.number x)
  | [], x, known => by
      cases known
      rw [laterTerms]
  | (sign, term) :: rest, x, known => by
      obtain ⟨right, termKnown, restKnown⟩ := Option.bind_eq_some_iff.mp known
      rw [laterTerms, multiplication_of_number? term termKnown, pure_bind]
      exact laterTerms_of_number? _ rest restKnown

theorem multiplication_of_number? :
    ∀ (tree : Multiplication) {x : Float},
      tree.number? = some x → surroundings.multiplication tree = pure (.number x)
  | .mk _ first later, x, known => by
      obtain ⟨y, firstKnown, laterKnown⟩ := Option.bind_eq_some_iff.mp known
      rw [multiplication, unary_of_number? first firstKnown, pure_bind]
      exact laterFactors_of_number? y later laterKnown

theorem laterFactors_of_number?
    (left : Float) :
    ∀ (later : List (Scaling × Unary)) {x : Float},
      laterFactorsNumber? left later = some x →
      surroundings.laterFactors (.number left) later = pure (.number x)
  | [], x, known => by
      cases known
      rw [laterFactors]
  | (scaling, factor) :: rest, x, known => by
      obtain ⟨right, factorKnown, restKnown⟩ := Option.bind_eq_some_iff.mp known
      rw [laterFactors, unary_of_number? factor factorKnown, pure_bind]
      exact laterFactors_of_number? _ rest restKnown

theorem unary_of_number? :
    ∀ (tree : Unary) {x : Float},
      tree.number? = some x → surroundings.unary tree = pure (.number x)
  | .signed _ sign operand, x, known => by
      obtain ⟨y, operandKnown, rfl⟩ := Option.map_eq_some_iff.mp known
      rw [unary, unary_of_number? operand operandKnown, pure_bind]
  | .primary operand, x, known => by
      rw [unary]
      exact primary_of_number? operand known

theorem primary_of_number? :
    ∀ (tree : Primary) {x : Float},
      tree.number? = some x → surroundings.primary tree = pure (.number x)
  | .mk _ start [], x, known => by
      rw [primary, atom_of_number? start known, pure_bind, links, pure_bind]
      rfl

theorem atom_of_number? :
    ∀ (tree : Atom) {x : Float},
      tree.number? = some x → surroundings.atom tree = pure (.number x)
  | .number _ _, x, known => by
      cases known
      rw [atom]
  | .group _ inner, x, known => by
      rw [atom]
      exact addition_of_number? inner known

end

end Surroundings

end PlanarExpr
