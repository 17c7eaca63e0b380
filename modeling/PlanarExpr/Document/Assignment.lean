import PlanarExpr.Text.Character

namespace PlanarExpr.Document

/-!
# The right-hand side of an assignment

From a definition onwards a text is searched for an assignment sign. An
equals sign that is part of a comparison is none. The search is given up at a
character that ends the definition or opens a body or a parameter list. The
right-hand side reaches from the sign to the next semicolon, without the
blanks at its two ends.
-/

/-- Whether a character shows that a definition assigns nothing. -/
def endsDefinition (c : Char) : Bool :=
  c = ';' || c = '\x7b' || c = '\x7d' || c = '('

/-- Whether an equals sign behind this character belongs to a comparison. -/
def opensComparison (c : Char) : Bool :=
  c = '=' || c = '!' || c = '<' || c = '>'

/-- Whether a character assigns, given its neighbours. -/
def isAssignment
    (before : Option Char)
    (c : Char)
    (behind : Option Char) :
    Bool :=
  c = '=' && !behind.any (· = '=') && !before.any opensComparison

/--
The text behind the first assignment sign, given the character in front of the
text. A comparison of two equals signs is passed as a whole.
-/
def behindAssignment?
    (before : Option Char) :
    List Char →
    Option (List Char)
  | [] => none
  | '=' :: '=' :: later => behindAssignment? (some '=') later
  | c :: rest =>
      if endsDefinition c then
        none
      else if isAssignment before c rest.head? then
        some rest
      else
        behindAssignment? (some c) rest

/-- The character in front of an offset into a text, if there is one. -/
def characterBefore?
    (text : List Char)
    (offset : Nat) :
    Option Char :=
  if offset = 0 then none else text[offset - 1]?

/-- The text in front of the first semicolon, if there is one. -/
def upToSemicolon? (text : List Char) : Option (List Char) :=
  if text.contains ';' then some (text.takeWhile (· ≠ ';')) else none

/-- A run of characters of a text, by the offsets of its two ends. -/
structure TextRange where
  start : Nat
  stop : Nat
deriving DecidableEq

/-- The characters of a text in a range. -/
def TextRange.cut
    (range : TextRange)
    (text : List Char) :
    List Char :=
  (text.take range.stop).drop range.start

/-- Where the right-hand side stands that is assigned to the definition at an offset. -/
def assignedRange?
    (text : List Char)
    (offset : Nat) :
    Option TextRange :=
  match behindAssignment? (characterBefore? text offset) (text.drop offset) with
  | none => none
  | some behind =>
      match upToSemicolon? behind with
      | none => none
      | some whole =>
          let margin := (whole.takeWhile Text.isBlank).length
          let size := (Text.trimBlanks whole).length
          if size = 0 then
            none
          else
            let start := text.length - behind.length + margin
            some { start := start, stop := start + size }

/-- A single character is passed on its own. -/
theorem behindAssignment?_of_single
    {c : Char}
    {rest : List Char}
    (single : ∀ later, c = '=' → rest = '=' :: later → False)
    (before : Option Char) :
    behindAssignment? before (c :: rest) =
      if endsDefinition c then
        none
      else if isAssignment before c rest.head? then
        some rest
      else
        behindAssignment? (some c) rest := by
  rw [behindAssignment?]
  exact single

/-- Behind an equals sign another one assigns nothing, so it may be left out. -/
theorem behindAssignment?_equals (text : List Char) :
    behindAssignment? (some '=') ('=' :: text) = behindAssignment? (some '=') text := by
  induction text with
  | nil => rfl
  | cons c later inductionHypothesis =>
      by_cases equals : c = '='
      · subst equals
        exact inductionHypothesis.symm
      · have single : ∀ more, '=' = '=' → c :: later = '=' :: more → False :=
          fun _ _ same => equals (List.cons.inj same).1
        have noAssignment : isAssignment (some '=') '=' (some c) = false := by
          simp [isAssignment, opensComparison]
        rw [behindAssignment?_of_single single, List.head?_cons, noAssignment]
        rfl

/-- The search may as well go on character by character. -/
theorem behindAssignment?_cons
    (before : Option Char)
    (c : Char)
    (rest : List Char) :
    behindAssignment? before (c :: rest) =
      if endsDefinition c then
        none
      else if isAssignment before c rest.head? then
        some rest
      else
        behindAssignment? (some c) rest := by
  by_cases comparison : c = '=' ∧ rest.head? = some '='
  · obtain ⟨rfl, next⟩ := comparison
    obtain ⟨later, rfl⟩ := List.head?_eq_some_iff.mp next
    exact (behindAssignment?_equals later).symm
  · apply behindAssignment?_of_single
    rintro later rfl rfl
    exact comparison ⟨rfl, rfl⟩

/-- The text behind an assignment sign is the end of the text that was searched. -/
theorem behindAssignment?_isSuffix
    {before : Option Char}
    {text behind : List Char}
    (found : behindAssignment? before text = some behind) :
    behind <:+ text := by
  induction text generalizing before with
  | nil =>
      simp [behindAssignment?] at found
  | cons first later inductionHypothesis =>
      rw [behindAssignment?_cons] at found
      split at found
      · contradiction
      · split at found
        · cases found
          exact List.suffix_cons first _
        · exact (inductionHypothesis found).trans (List.suffix_cons first later)

end PlanarExpr.Document
