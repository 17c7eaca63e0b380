import Mathlib.Data.List.Chain
import PlanarExpr.Proofs.Correspondence
import PlanarExpr.Proofs.NumberTrees
import PlanarExpr.Proofs.Reading
import PlanarExpr.Proofs.Splitting

namespace PlanarExpr

/-!
# Arithmetic

An arithmetic expression is a tree of numbers, signs and operators with two
sides. It is written with parentheses only where the tree is not the one that
is read without them: signs bind more than products, products more than sums,
and an operator takes what stands to its left before what stands to its right.
Evaluating the text gives the value of the tree, in the grouping of the tree.
-/

/-- A number as it is written, without or with a fraction. -/
structure Numeral where
  lexeme : Lexeme
  isNumber : lexeme.isNumber = true

/-- The number that a numeral stands for. -/
def Numeral.value (numeral : Numeral) : Float :=
  Decimal.literalValue numeral.lexeme.characters

/-- An arithmetic expression, without parentheses. -/
inductive Arithmetic where
  | number (numeral : Numeral)
  | signed (sign : Sign) (operand : Arithmetic)
  | product (left : Arithmetic) (scaling : Scaling) (right : Arithmetic)
  | sum (left : Arithmetic) (sign : Sign) (right : Arithmetic)

/-- The mark that writes a sign. -/
def Sign.mark : Sign → Mark
  | .plus => .plus
  | .minus => .minus

/-- The mark that writes an operator of a product. -/
def Scaling.mark : Scaling → Mark
  | .times => .star
  | .over => .slash

/-- How strongly the parts of an expression are bound to one another. -/
inductive Binding where
  | sum
  | product
  | sign

namespace Binding

/-- Stronger bindings have higher ranks. -/
def rank : Binding → Nat
  | .sum => 0
  | .product => 1
  | .sign => 2

end Binding

namespace Arithmetic

/-- The value of a tree, in its own grouping. -/
def value : Arithmetic → Float
  | .number numeral => numeral.value
  | .signed sign operand => sign.apply operand.value
  | .product left scaling right => scaling.combine left.value right.value
  | .sum left sign right => sign.combine left.value right.value

/-- How strongly the outermost parts of a tree are bound to one another. -/
def binding : Arithmetic → Binding
  | .number _ => .sign
  | .signed _ _ => .sign
  | .product _ _ _ => .product
  | .sum _ _ _ => .sum

/-- Whether an expression needs parentheses where this binding is required. -/
def isLooserThan
    (tree : Arithmetic)
    (required : Binding) :
    Bool :=
  tree.binding.rank < required.rank

/-- A number stands everywhere without parentheses. -/
@[simp] theorem isLooserThan_number
    (numeral : Numeral)
    (required : Binding) :
    (number numeral).isLooserThan required = false := by
  cases required <;> rfl

/-- A signed operand stands everywhere without parentheses. -/
@[simp] theorem isLooserThan_signed
    (sign : Sign)
    (operand : Arithmetic)
    (required : Binding) :
    (signed sign operand).isLooserThan required = false := by
  cases required <;> rfl

@[simp] theorem product_isLooserThan_product
    (left right : Arithmetic)
    (scaling : Scaling) :
    (product left scaling right).isLooserThan .product = false :=
  rfl

/-- A product behind a sign needs parentheses. -/
@[simp] theorem product_isLooserThan_sign
    (left right : Arithmetic)
    (scaling : Scaling) :
    (product left scaling right).isLooserThan .sign = true :=
  rfl

/-- A sum in a product needs parentheses. -/
@[simp] theorem sum_isLooserThan_product
    (left right : Arithmetic)
    (sign : Sign) :
    (sum left sign right).isLooserThan .product = true :=
  rfl

@[simp] theorem sum_isLooserThan_sign
    (left right : Arithmetic)
    (sign : Sign) :
    (sum left sign right).isLooserThan .sign = true :=
  rfl

/-- Lexemes in parentheses if they need them. -/
def enclose
    (needed : Bool)
    (lexemes : List Lexeme) :
    List Lexeme :=
  if needed then
    .mark .openParen :: lexemes ++ [.mark .closeParen]
  else
    lexemes

/-- The lexemes of an expression, with the parentheses that it needs. -/
def lexemes : Arithmetic → List Lexeme
  | .number numeral => [numeral.lexeme]
  | .signed sign operand =>
      .mark sign.mark :: enclose (operand.isLooserThan .sign) operand.lexemes
  | .product left scaling right =>
      enclose (left.isLooserThan .product) left.lexemes ++
        .mark scaling.mark :: enclose (right.isLooserThan .sign) right.lexemes
  | .sum left sign right =>
      left.lexemes ++
        .mark sign.mark :: enclose (right.isLooserThan .product) right.lexemes

/-- The largest number of signs and parentheses that a number stands behind or in. -/
def enclosures : Arithmetic → Nat
  | .number _ => 0
  | .signed _ operand =>
      operand.enclosures + (operand.isLooserThan .sign).toNat + 1
  | .product left _ right =>
      max (left.enclosures + (left.isLooserThan .product).toNat)
        (right.enclosures + (right.isLooserThan .sign).toNat)
  | .sum left _ right =>
      max left.enclosures (right.enclosures + (right.isLooserThan .product).toNat)

/-- The nesting that a reader counts, in which the whole is one level. -/
def nesting (tree : Arithmetic) : Nat :=
  tree.enclosures + 1

end Arithmetic

/-! ## Trees of the grammar -/

/-- One term more at the end of an addition. -/
def Addition.adding
    (addition : Addition)
    (sign : Sign)
    (term : Multiplication) :
    Addition :=
  match addition with
  | .mk span first later => .mk span first (later ++ [(sign, term)])

/-- One factor more at the end of a multiplication. -/
def Multiplication.scaling
    (multiplication : Multiplication)
    (scaling : Scaling)
    (factor : Unary) :
    Multiplication :=
  match multiplication with
  | .mk span first later => .mk span first (later ++ [(scaling, factor)])

/-- An expression as each rule of the grammar has it. -/
structure GrammarForms where
  addition : Addition
  multiplication : Multiplication
  unary : Unary

namespace GrammarForms

/-- An operand as a product of its own and a sum of its own. -/
def ofUnary (unary : Unary) : GrammarForms :=
  let multiplication := .mk .blank unary []
  {
    addition := .mk .blank multiplication []
    multiplication := multiplication
    unary := unary
  }

/-- An addition in parentheses. -/
def grouped (addition : Addition) : Unary :=
  .primary (.mk .blank (.group .blank addition) [])

/-- A product as a sum of its own; as an operand it stands in parentheses. -/
def ofMultiplication (multiplication : Multiplication) : GrammarForms :=
  let addition := .mk .blank multiplication []
  {
    addition := addition
    multiplication := multiplication
    unary := grouped addition
  }

/-- A sum; as a factor or an operand it stands in parentheses. -/
def ofAddition (addition : Addition) : GrammarForms :=
  {
    addition := addition
    multiplication := .mk .blank (grouped addition) []
    unary := grouped addition
  }

end GrammarForms

/-- The forms of an arithmetic expression, each with the parentheses that it needs. -/
def Arithmetic.forms : Arithmetic → GrammarForms
  | .number numeral =>
      .ofUnary (.primary (.mk .blank (.number .blank numeral.value) []))
  | .signed sign operand =>
      .ofUnary (.signed .blank sign operand.forms.unary)
  | .product left scaling right =>
      .ofMultiplication (left.forms.multiplication.scaling scaling right.forms.unary)
  | .sum left sign right =>
      .ofAddition (left.forms.addition.adding sign right.forms.multiplication)

/-- The expression of the grammar that the lexemes of an arithmetic expression write. -/
def Arithmetic.expression (tree : Arithmetic) : Expression :=
  { root := tree.forms.addition }

/-! ### Longer chains -/

/-- Terms are spelled one after the other. -/
theorem laterTermKinds_append
    (first second : List (Sign × Multiplication)) :
    laterTermKinds (first ++ second) = laterTermKinds first ++ laterTermKinds second := by
  induction first with
  | nil => rfl
  | cons entry rest inductionHypothesis =>
      simp [laterTermKinds, inductionHypothesis]

theorem laterFactorKinds_append
    (first second : List (Scaling × Unary)) :
    laterFactorKinds (first ++ second) =
      laterFactorKinds first ++ laterFactorKinds second := by
  induction first with
  | nil => rfl
  | cons entry rest inductionHypothesis =>
      simp [laterFactorKinds, inductionHypothesis]

/-- Terms are nested as deep as the deepest of them. -/
theorem laterTermNesting_append
    (first second : List (Sign × Multiplication)) :
    laterTermNesting (first ++ second) =
      max (laterTermNesting first) (laterTermNesting second) := by
  induction first with
  | nil => exact (Nat.zero_max _).symm
  | cons entry rest inductionHypothesis =>
      simp only [List.cons_append, laterTermNesting, inductionHypothesis, Nat.max_assoc]

theorem laterFactorNesting_append
    (first second : List (Scaling × Unary)) :
    laterFactorNesting (first ++ second) =
      max (laterFactorNesting first) (laterFactorNesting second) := by
  induction first with
  | nil => exact (Nat.zero_max _).symm
  | cons entry rest inductionHypothesis =>
      simp only [List.cons_append, laterFactorNesting, inductionHypothesis, Nat.max_assoc]

/-- Terms are combined from left to right. -/
theorem laterTermsNumber?_append
    (left : Float)
    (first second : List (Sign × Multiplication)) :
    laterTermsNumber? left (first ++ second) =
      (laterTermsNumber? left first).bind fun x => laterTermsNumber? x second := by
  induction first generalizing left with
  | nil => rfl
  | cons entry rest inductionHypothesis =>
      simp only [List.cons_append, laterTermsNumber?, inductionHypothesis,
        Option.bind_assoc]

theorem laterFactorsNumber?_append
    (left : Float)
    (first second : List (Scaling × Unary)) :
    laterFactorsNumber? left (first ++ second) =
      (laterFactorsNumber? left first).bind fun x => laterFactorsNumber? x second := by
  induction first generalizing left with
  | nil => rfl
  | cons entry rest inductionHypothesis =>
      simp only [List.cons_append, laterFactorsNumber?, inductionHypothesis,
        Option.bind_assoc]

namespace Addition

variable (addition : Addition) (sign : Sign) (term : Multiplication)

/-- A term more is spelled at the end, behind its sign. -/
@[simp] theorem kinds_adding :
    (addition.adding sign term).kinds = addition.kinds ++ sign.kind :: term.kinds := by
  obtain ⟨span, first, later⟩ := addition
  simp [adding, kinds, laterTermKinds_append, laterTermKinds]

@[simp] theorem nesting_adding :
    (addition.adding sign term).nesting = max addition.nesting (term.nesting + 1) := by
  obtain ⟨span, first, later⟩ := addition
  simp only [adding, nesting, laterTermNesting_append, laterTermNesting]
  omega

/-- A term more is combined with the number of what stands to its left. -/
theorem number?_adding
    {x y : Float}
    (left : addition.number? = some x)
    (right : term.number? = some y) :
    (addition.adding sign term).number? = some (sign.combine x y) := by
  obtain ⟨span, first, later⟩ := addition
  obtain ⟨z, firstKnown, laterKnown⟩ := Option.bind_eq_some_iff.mp left
  simp [adding, number?, laterTermsNumber?_append, laterTermsNumber?, firstKnown,
    laterKnown, right]

end Addition

namespace Multiplication

variable (multiplication : Multiplication) (scaling : Scaling) (factor : Unary)

/-- A factor more is spelled at the end, behind its operator. -/
@[simp] theorem kinds_scaling :
    (multiplication.scaling scaling factor).kinds =
      multiplication.kinds ++ scaling.kind :: factor.kinds := by
  obtain ⟨span, first, later⟩ := multiplication
  simp [Multiplication.scaling, kinds, laterFactorKinds_append, laterFactorKinds]

@[simp] theorem nesting_scaling :
    (multiplication.scaling scaling factor).nesting =
      max multiplication.nesting factor.nesting := by
  obtain ⟨span, first, later⟩ := multiplication
  simp only [Multiplication.scaling, nesting, laterFactorNesting_append,
    laterFactorNesting]
  omega

/-- A factor more is combined with the number of what stands to its left. -/
theorem number?_scaling
    {x y : Float}
    (left : multiplication.number? = some x)
    (right : factor.number? = some y) :
    (multiplication.scaling scaling factor).number? = some (scaling.combine x y) := by
  obtain ⟨span, first, later⟩ := multiplication
  obtain ⟨z, firstKnown, laterKnown⟩ := Option.bind_eq_some_iff.mp left
  simp [Multiplication.scaling, number?, laterFactorsNumber?_append,
    laterFactorsNumber?, firstKnown, laterKnown, right]

end Multiplication

/-! ### The forms of a tree -/

/-- The lexeme of a numeral is a number with its value. -/
theorem Numeral.kind_lexeme (numeral : Numeral) :
    numeral.lexeme.kind = .number numeral.value := by
  obtain ⟨lexeme, isNumber⟩ := numeral
  cases lexeme with
  | whole digits => rfl
  | decimal digits fraction => rfl
  | word letters => cases isNumber
  | mark symbol => cases isNumber

theorem Sign.kind_mark (sign : Sign) : sign.mark.kind = sign.kind := by
  cases sign <;> rfl

theorem Scaling.kind_mark (scaling : Scaling) : scaling.mark.kind = scaling.kind := by
  cases scaling <;> rfl

namespace Arithmetic

/-- The kinds of lexemes in parentheses if they need them. -/
theorem map_kind_enclose
    (needed : Bool)
    (lexemes : List Lexeme) :
    (enclose needed lexemes).map Lexeme.kind =
      if needed then
        .openParen :: lexemes.map Lexeme.kind ++ [.closeParen]
      else
        lexemes.map Lexeme.kind := by
  cases needed <;> simp [enclose, Lexeme.kind, Mark.kind]

/-- The forms of a tree are spelled by its lexemes, in parentheses where the rule needs them. -/
theorem forms_kinds (tree : Arithmetic) :
    tree.forms.addition.kinds = tree.lexemes.map Lexeme.kind ∧
      tree.forms.multiplication.kinds =
        (enclose (tree.isLooserThan .product) tree.lexemes).map Lexeme.kind ∧
      tree.forms.unary.kinds =
        (enclose (tree.isLooserThan .sign) tree.lexemes).map Lexeme.kind := by
  induction tree with
  | number numeral =>
      simp [forms, GrammarForms.ofUnary, lexemes, enclose,
        Addition.kinds, laterTermKinds, Multiplication.kinds, laterFactorKinds,
        Unary.kinds, Primary.kinds, Atom.kinds, linkKinds, numeral.kind_lexeme]
  | signed sign operand operandForms =>
      simp [forms, GrammarForms.ofUnary, lexemes, enclose,
        Addition.kinds, laterTermKinds, Multiplication.kinds, laterFactorKinds,
        Unary.kinds, Lexeme.kind, sign.kind_mark, operandForms.2.2]
  | product left scaling right leftForms rightForms =>
      have kinds :
          (left.forms.multiplication.scaling scaling right.forms.unary).kinds =
            (product left scaling right).lexemes.map Lexeme.kind := by
        rw [Multiplication.kinds_scaling, leftForms.2.1, rightForms.2.2, lexemes,
          List.map_append, List.map_cons, Lexeme.kind, scaling.kind_mark]
      rw [map_kind_enclose, map_kind_enclose, ← kinds]
      simp [forms, GrammarForms.ofMultiplication, GrammarForms.grouped,
        Addition.kinds, laterTermKinds, Unary.kinds, Primary.kinds, Atom.kinds, linkKinds]
  | sum left sign right leftForms rightForms =>
      have kinds :
          (left.forms.addition.adding sign right.forms.multiplication).kinds =
            (sum left sign right).lexemes.map Lexeme.kind := by
        rw [Addition.kinds_adding, leftForms.1, rightForms.2.1, lexemes,
          List.map_append, List.map_cons, Lexeme.kind, sign.kind_mark]
      rw [map_kind_enclose, map_kind_enclose, ← kinds]
      simp [forms, GrammarForms.ofAddition, GrammarForms.grouped,
        Multiplication.kinds, laterFactorKinds, Unary.kinds, Primary.kinds, Atom.kinds,
        linkKinds]

/-- Every form of a tree has the value of the tree as its number. -/
theorem forms_number? (tree : Arithmetic) :
    tree.forms.addition.number? = some tree.value ∧
      tree.forms.multiplication.number? = some tree.value ∧
      tree.forms.unary.number? = some tree.value := by
  induction tree with
  | number numeral =>
      simp [forms, GrammarForms.ofUnary, value, Addition.number?, laterTermsNumber?,
        Multiplication.number?, laterFactorsNumber?, Unary.number?, Primary.number?,
        Atom.number?]
  | signed sign operand operandForms =>
      simp [forms, GrammarForms.ofUnary, value, Addition.number?, laterTermsNumber?,
        Multiplication.number?, laterFactorsNumber?, Unary.number?, operandForms.2.2]
  | product left scaling right leftForms rightForms =>
      have known :=
        Multiplication.number?_scaling _ scaling _ leftForms.2.1 rightForms.2.2
      simp [forms, GrammarForms.ofMultiplication, GrammarForms.grouped, value,
        Addition.number?, laterTermsNumber?, Unary.number?, Primary.number?,
        Atom.number?, known]
  | sum left sign right leftForms rightForms =>
      have known := Addition.number?_adding _ sign _ leftForms.1 rightForms.2.1
      simp [forms, GrammarForms.ofAddition, GrammarForms.grouped, value,
        Multiplication.number?, laterFactorsNumber?, Unary.number?, Primary.number?,
        Atom.number?, known]

/-- The forms of a tree are nested as deep as signs and parentheses stand in one another. -/
theorem forms_nesting (tree : Arithmetic) :
    tree.forms.addition.nesting = tree.nesting ∧
      tree.forms.multiplication.nesting =
        tree.enclosures + (tree.isLooserThan .product).toNat ∧
      tree.forms.unary.nesting =
        tree.enclosures + (tree.isLooserThan .sign).toNat := by
  induction tree with
  | number numeral =>
      simp [forms, GrammarForms.ofUnary, nesting, enclosures,
        Addition.nesting, laterTermNesting, Multiplication.nesting,
        laterFactorNesting, Unary.nesting, Primary.nesting, Atom.nesting, linkNesting]
  | signed sign operand operandForms =>
      simp [forms, GrammarForms.ofUnary, nesting, enclosures,
        Addition.nesting, laterTermNesting, Multiplication.nesting,
        laterFactorNesting, Unary.nesting, operandForms.2.2]
  | product left scaling right leftForms rightForms =>
      have known :
          (left.forms.multiplication.scaling scaling right.forms.unary).nesting =
            (product left scaling right).enclosures := by
        rw [Multiplication.nesting_scaling, leftForms.2.1, rightForms.2.2, enclosures]
      simp [forms, GrammarForms.ofMultiplication, GrammarForms.grouped, nesting,
        Addition.nesting, laterTermNesting,
        Unary.nesting, Primary.nesting, Atom.nesting, linkNesting, known]
  | sum left sign right leftForms rightForms =>
      have known :
          (left.forms.addition.adding sign right.forms.multiplication).nesting =
            (sum left sign right).enclosures + 1 := by
        rw [Addition.nesting_adding, leftForms.1, rightForms.2.1, enclosures, nesting]
        omega
      simp [forms, GrammarForms.ofAddition, GrammarForms.grouped, nesting,
        Multiplication.nesting,
        laterFactorNesting, Unary.nesting, Primary.nesting, Atom.nesting,
        linkNesting, known]

end Arithmetic

/-! ## Texts -/

/-- Words and points are no part of arithmetic. -/
def Lexeme.isArithmetic : Lexeme → Bool
  | .word _ => false
  | .mark .dot => false
  | _ => true

/-- Lexemes that cannot run into one another: there is no number behind a number. -/
structure AreApart (lexemes : List Lexeme) : Prop where
  arithmetic : ∀ lexeme ∈ lexemes, lexeme.isArithmetic = true
  noAdjacentNumbers :
    lexemes.IsChain fun first second =>
      first.isNumber = true → second.isNumber = false

namespace AreApart

/-- A mark other than a point keeps what stands around it apart. -/
theorem around
    {before behind : List Lexeme}
    {symbol : Mark}
    (first : AreApart before)
    (second : AreApart behind)
    (noDot : symbol ≠ .dot) :
    AreApart (before ++ .mark symbol :: behind) := by
  have isArithmetic : (Lexeme.mark symbol).isArithmetic = true := by
    cases symbol <;> first | rfl | exact absurd rfl noDot
  constructor
  · exact List.forall_mem_append.mpr
      ⟨first.arithmetic, List.forall_mem_cons.mpr ⟨isArithmetic, second.arithmetic⟩⟩
  · refine List.isChain_append.mpr ⟨first.noAdjacentNumbers, ?_, ?_⟩
    · exact List.isChain_cons.mpr ⟨nofun, second.noAdjacentNumbers⟩
    · rintro number _ _ ⟨⟩ _
      rfl

/-- No lexemes are apart. -/
theorem nil : AreApart [] :=
  ⟨List.forall_mem_nil _, .nil⟩

/-- Parentheses keep lexemes apart. -/
theorem enclose
    {lexemes : List Lexeme}
    (apart : AreApart lexemes)
    (needed : Bool) :
    AreApart (Arithmetic.enclose needed lexemes) := by
  cases needed with
  | false => exact apart
  | true => exact nil.around (apart.around nil nofun) nofun

end AreApart

theorem Sign.mark_ne_dot (sign : Sign) : sign.mark ≠ .dot := by
  cases sign <;> nofun

theorem Scaling.mark_ne_dot (scaling : Scaling) : scaling.mark ≠ .dot := by
  cases scaling <;> nofun

/-- The lexemes of a tree are apart however they are written. -/
theorem Arithmetic.lexemes_areApart (tree : Arithmetic) : AreApart tree.lexemes := by
  induction tree with
  | number numeral =>
      obtain ⟨lexeme, isNumber⟩ := numeral
      refine ⟨List.forall_mem_singleton.mpr ?_, .singleton _⟩
      cases lexeme with
      | whole digits => rfl
      | decimal digits fraction => rfl
      | word letters => cases isNumber
      | mark symbol => cases isNumber
  | signed sign operand operandApart =>
      exact AreApart.nil.around (operandApart.enclose _) sign.mark_ne_dot
  | product left scaling right leftApart rightApart =>
      exact (leftApart.enclose _).around (rightApart.enclose _) scaling.mark_ne_dot
  | sum left sign right leftApart rightApart =>
      exact leftApart.around (rightApart.enclose _) sign.mark_ne_dot

namespace SpacedLexemes

/-- Lexemes that are apart may touch. -/
theorem parted_of_areApart
    {items : SpacedLexemes}
    (apart : AreApart (items.map Prod.fst)) :
    Parted items := by
  induction items with
  | nil =>
      trivial
  | cons entry rest inductionHypothesis =>
      obtain ⟨lexeme, gap⟩ := entry
      obtain ⟨arithmetic, noAdjacentNumbers⟩ := apart
      obtain ⟨isArithmetic, restArithmetic⟩ := List.forall_mem_cons.mp arithmetic
      refine ⟨fun _ => ?_,
        inductionHypothesis ⟨restArithmetic, noAdjacentNumbers.of_cons⟩⟩
      rcases rest with _ | ⟨⟨next, nextGap⟩, later⟩
      · rfl
      · have nextArithmetic := restArithmetic next List.mem_cons_self
        have noWord : lexeme.isWord = false := by
          cases lexeme <;> first | rfl | cases isArithmetic
        have noDot : next ≠ .mark .dot := by
          rintro rfl
          cases nextArithmetic
        have oneNumber : (lexeme.isNumber && next.isNumber) = false := by
          rw [Bool.and_eq_false_imp]
          exact (List.isChain_cons_cons.mp noAdjacentNumbers).1
        simp [absorbs, noWord, noDot, oneNumber]

end SpacedLexemes

/-- The numeral of a single digit. -/
def Numeral.digit
    (c : Char)
    (isDigit : Decimal.isDigit c = true) :
    Numeral where
  lexeme := .whole (.single c isDigit)
  isNumber := rfl

/--
Both parentheses are needed: one for a sum in a product, one for the right side
of a difference.
-/
def groupedDifference : Arithmetic :=
  .sum
    (.number (.digit '8' (.refl true)))
    .minus
    (.sum
      (.product
        (.sum (.number (.digit '4' (.refl true))) .minus (.number (.digit '1' (.refl true))))
        .over
        (.signed .minus (.number (.digit '2' (.refl true)))))
      .plus
      (.number (.digit '5' (.refl true))))

end PlanarExpr
