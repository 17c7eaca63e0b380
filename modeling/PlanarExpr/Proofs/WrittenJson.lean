import PlanarExpr.Proofs.WrittenNumbers

namespace PlanarExpr.Json

/-!
# How JSON values are written

A value is written as the grammar has it, on one line or over several ones,
exactly if all its floating point numbers are finite. Its strings may hold any
characters: what the grammar does not let stand for itself is escaped.
-/

/-! ## The numbers of a value -/

mutual

/-- The floating point numbers of a value, from left to right. -/
def numbers : Json → List Float
  | .number x => [x]
  | .array items => itemNumbers items
  | .object members => memberNumbers members
  | _ => []

/-- The floating point numbers of the items of an array. -/
def itemNumbers : List Json → List Float
  | [] => []
  | item :: rest => numbers item ++ itemNumbers rest

/-- The floating point numbers of the members of an object; its keys hold none. -/
def memberNumbers : List (String × Json) → List Float
  | [] => []
  | (_, value) :: rest => numbers value ++ memberNumbers rest

end

/-- Whether a value holds no infinity and not the value that is no number. -/
def isFinite (value : Json) : Bool :=
  value.numbers.all Float.isFinite

/-- Items are finite if the first one and the others are. -/
theorem areFinite_items_cons
    (item : Json)
    (rest : List Json) :
    (itemNumbers (item :: rest)).all Float.isFinite =
      (item.isFinite && (itemNumbers rest).all Float.isFinite) :=
  List.all_append

/-- Members are finite if the value of the first one and the others are. -/
theorem areFinite_members_cons
    (key : String)
    (value : Json)
    (rest : List (String × Json)) :
    (memberNumbers ((key, value) :: rest)).all Float.isFinite =
      (value.isFinite && (memberNumbers rest).all Float.isFinite) :=
  List.all_append

/-- Whether a value holds no other values. -/
def isScalar : Json → Bool
  | .array _ => false
  | .object _ => false
  | _ => true

/-- A value that holds no others is written the same on one line. -/
theorem compactText_of_isScalar
    {value : Json}
    (scalar : value.isScalar = true) :
    compactText value = scalarText value := by
  cases value with
  | array items => cases scalar
  | object members => cases scalar
  | _ => simp only [compactText]

/-- A value that holds no others is written the same at every level. -/
theorem indentedText_of_isScalar
    {value : Json}
    (scalar : value.isScalar = true)
    (level : Nat) :
    indentedText level value = scalarText value := by
  cases value with
  | array items => cases scalar
  | object members => cases scalar
  | _ => simp only [indentedText]

/-! ## Strings -/

/-- As many hexadecimal digits are written as are asked for. -/
theorem length_hexadecimal (width number : Nat) :
    (Text.hexadecimal width number).length = width := by
  induction width generalizing number with
  | zero => rfl
  | succ width inductionHypothesis =>
      rw [Text.hexadecimal, List.length_append, inductionHypothesis]
      rfl

/-- Whatever the number, it is written in hexadecimal digits. -/
theorem isHexadecimalDigit_of_mem_hexadecimal
    {width number : Nat}
    {c : Char}
    (member : c ∈ Text.hexadecimal width number) :
    isHexadecimalDigit c = true := by
  induction width generalizing number with
  | zero => cases member
  | succ width inductionHypothesis =>
      rw [Text.hexadecimal] at member
      rcases List.mem_append.mp member with earlier | last
      · exact inductionHypothesis earlier
      · rw [List.mem_singleton.mp last]
        have digits : ∀ value < 16, isHexadecimalDigit (Text.digitChar value) = true := by
          decide
        exact digits _ (Nat.mod_lt _ (by decide))

/-- An escaped unit stands for a character. -/
theorem isCharacter_unitEscape (unit : Nat) : IsCharacter (unitEscape unit) :=
  .coded (length_hexadecimal 4 unit) fun _ => isHexadecimalDigit_of_mem_hexadecimal

namespace AreCharacters

theorem single
    {text : List Char}
    (isCharacter : IsCharacter text) :
    AreCharacters text := by
  have characters := AreCharacters.more isCharacter .none
  rwa [List.append_nil] at characters

theorem append
    {first second : List Char}
    (firstCharacters : AreCharacters first)
    (secondCharacters : AreCharacters second) :
    AreCharacters (first ++ second) := by
  induction firstCharacters with
  | none => exact secondCharacters
  | more isCharacter areCharacters inductionHypothesis =>
      rw [List.append_assoc]
      exact .more isCharacter inductionHypothesis

end AreCharacters

/-- A character is written as characters of a string. -/
theorem areCharacters_escapeCharacter (c : Char) : AreCharacters (escapeCharacter c) := by
  unfold escapeCharacter
  split
  · next isMark =>
      refine .single (.escaped ?_)
      rcases isMark with rfl | rfl <;> decide
  next notMark =>
  obtain ⟨noQuote, noBackslash⟩ := not_or.mp notMark
  split
  · exact .single (.escaped (by decide))
  split
  · exact .single (.escaped (by decide))
  split
  · exact .single (.escaped (by decide))
  split
  · exact .single (.escaped (by decide))
  split
  · exact .single (.escaped (by decide))
  split
  · next shown => exact .single (.unescaped shown.1 noQuote noBackslash)
  split
  · exact .single (isCharacter_unitEscape _)
  -- A character beyond the first plane stands as the two halves of a pair.
  · exact (AreCharacters.single (isCharacter_unitEscape _)).append
      (.single (isCharacter_unitEscape _))

/-- A quoted text is a string of the grammar. -/
theorem isString_quotedText (value : String) : IsString (quotedText value) := by
  refine .mk ?_
  induction value.toList with
  | nil => exact .none
  | cons first rest inductionHypothesis =>
      rw [List.flatMap_cons]
      exact (areCharacters_escapeCharacter first).append inductionHypothesis

/-! ## Parts of a document -/

theorem IsSpace.nil : IsSpace [] :=
  List.forall_mem_nil _

theorem IsSpace.blank : IsSpace [' '] :=
  List.forall_mem_singleton.mpr rfl

/-- A line break with its indentation is blank. -/
theorem isSpace_lineBreak (level : Nat) : IsSpace (lineBreak level) := by
  refine List.forall_mem_cons.mpr ⟨rfl, fun c member => ?_⟩
  rw [List.eq_of_mem_replicate member]
  rfl

/-- A finite value that holds no others is well-formed. -/
theorem scalarText_wellFormed
    {value : Json}
    (scalar : value.isScalar = true)
    (finite : value.isFinite = true) :
    WellFormed .value (scalarText value) := by
  cases value with
  | null => exact .null
  | boolean truth =>
      cases truth with
      | false => exact .false
      | true => exact .true
  | integer number => exact .number (Text.isNumber_integer number)
  | number x =>
      have finiteNumber : x.isFinite = true := by
        simpa [isFinite, numbers] using finite
      exact .number (Decimal.Layout.isNumber_render _ finiteNumber)
  | text words => exact .string (isString_quotedText words)
  | array items => cases scalar
  | object members => cases scalar

/-- Blanks in front of a value belong to its element. -/
theorem WellFormed.elementOf
    {before value : List Char}
    (isSpaceBefore : IsSpace before)
    (isValue : WellFormed .value value) :
    WellFormed .element (before ++ value) := by
  have element := WellFormed.element isSpaceBefore isValue .nil
  rwa [List.append_nil] at element

/-- A name with a value one blank behind the colon. -/
theorem WellFormed.memberOf
    {before value behind : List Char}
    (key : String)
    (isSpaceBefore : IsSpace before)
    (isValue : WellFormed .value value)
    (isSpaceBehind : IsSpace behind) :
    WellFormed .member (before ++ quotedText key ++ ':' :: ' ' :: value ++ behind) := by
  have element := WellFormed.element .blank isValue isSpaceBehind
  have member := WellFormed.member isSpaceBefore (isString_quotedText key) .nil element
  simpa using member

/-! ## On one line -/

mutual

/-- A finite value on one line is well-formed. -/
theorem compactText_wellFormed :
    (value : Json) →
    value.isFinite = true →
    WellFormed .value (compactText value)
  | .array [], _ => .emptyArray .nil
  | .array (first :: rest), finite => by
      rw [compactText]
      exact .array (compactItems_wellFormed (first :: rest) .nil (List.cons_ne_nil _ _) finite)
  | .object [], _ => .emptyObject .nil
  | .object (first :: rest), finite => by
      rw [compactText]
      exact .object (compactMembers_wellFormed (first :: rest) .nil (List.cons_ne_nil _ _) finite)
  | .null, finite | .boolean _, finite | .integer _, finite | .number _, finite
  | .text _, finite => by
      rw [compactText_of_isScalar rfl]
      exact scalarText_wellFormed rfl finite

/-- Finite items on one line are well-formed elements, behind blanks. -/
theorem compactItems_wellFormed :
    (items : List Json) →
    {before : List Char} →
    IsSpace before →
    items ≠ [] →
    (itemNumbers items).all Float.isFinite = true →
    WellFormed .elements (before ++ compactItems items)
  | [], _, _, nonempty, _ => absurd rfl nonempty
  | [item], before, space, _, finite => by
      rw [itemNumbers, itemNumbers, List.append_nil] at finite
      rw [compactItems]
      exact .lastElement (.elementOf space (compactText_wellFormed item finite))
  | item :: second :: rest, before, space, _, finite => by
      rw [areFinite_items_cons, Bool.and_eq_true] at finite
      have element := WellFormed.elementOf space (compactText_wellFormed item finite.1)
      have elements :=
        compactItems_wellFormed (second :: rest) .blank
          (List.cons_ne_nil _ _) finite.2
      rw [compactItems, ← List.append_assoc]
      exact .moreElements element elements

/-- Finite members on one line are well-formed, behind blanks. -/
theorem compactMembers_wellFormed :
    (members : List (String × Json)) →
    {before : List Char} →
    IsSpace before →
    members ≠ [] →
    (memberNumbers members).all Float.isFinite = true →
    WellFormed .members (before ++ compactMembers members)
  | [], _, _, nonempty, _ => absurd rfl nonempty
  | [(key, value)], before, space, _, finite => by
      rw [memberNumbers, memberNumbers, List.append_nil] at finite
      have member := WellFormed.memberOf key space (compactText_wellFormed value finite) .nil
      rw [compactMembers]
      simpa using WellFormed.lastMember member
  | (key, value) :: second :: rest, before, space, _, finite => by
      rw [areFinite_members_cons, Bool.and_eq_true] at finite
      have member := WellFormed.memberOf key space (compactText_wellFormed value finite.1) .nil
      have members :=
        compactMembers_wellFormed (second :: rest) .blank
          (List.cons_ne_nil _ _) finite.2
      rw [compactMembers]
      simpa using WellFormed.moreMembers member members

end

/-! ## Over several lines -/

mutual

/-- A finite value over several lines is well-formed at every level. -/
theorem indentedText_wellFormed
    (level : Nat) :
    (value : Json) →
    value.isFinite = true →
    WellFormed .value (indentedText level value)
  | .array [], _ => .emptyArray .nil
  | .array (first :: rest), finite => by
      rw [indentedText]
      exact
        .array
          (indentedItems_wellFormed (level + 1) (first :: rest) (isSpace_lineBreak level)
            (List.cons_ne_nil _ _) finite)
  | .object [], _ => .emptyObject .nil
  | .object (first :: rest), finite => by
      rw [indentedText]
      exact
        .object
          (indentedMembers_wellFormed (level + 1) (first :: rest) (isSpace_lineBreak level)
            (List.cons_ne_nil _ _) finite)
  | .null, finite | .boolean _, finite | .integer _, finite | .number _, finite
  | .text _, finite => by
      rw [indentedText_of_isScalar rfl]
      exact scalarText_wellFormed rfl finite

/-- Finite items over several lines are well-formed elements, in front of blanks. -/
theorem indentedItems_wellFormed
    (level : Nat) :
    (items : List Json) →
    {behind : List Char} →
    IsSpace behind →
    items ≠ [] →
    (itemNumbers items).all Float.isFinite = true →
    WellFormed .elements (indentedItems level items ++ behind)
  | [], _, _, nonempty, _ => absurd rfl nonempty
  | [item], behind, space, _, finite => by
      rw [itemNumbers, itemNumbers, List.append_nil] at finite
      rw [indentedItems]
      exact
        .lastElement
          (.element (isSpace_lineBreak level) (indentedText_wellFormed level item finite) space)
  | item :: second :: rest, behind, space, _, finite => by
      rw [areFinite_items_cons, Bool.and_eq_true] at finite
      have element :=
        WellFormed.elementOf (isSpace_lineBreak level)
          (indentedText_wellFormed level item finite.1)
      have elements :=
        indentedItems_wellFormed level (second :: rest) space (List.cons_ne_nil _ _) finite.2
      rw [indentedItems, List.append_assoc]
      exact .moreElements element elements

/-- Finite members over several lines are well-formed, in front of blanks. -/
theorem indentedMembers_wellFormed
    (level : Nat) :
    (members : List (String × Json)) →
    {behind : List Char} →
    IsSpace behind →
    members ≠ [] →
    (memberNumbers members).all Float.isFinite = true →
    WellFormed .members (indentedMembers level members ++ behind)
  | [], _, _, nonempty, _ => absurd rfl nonempty
  | [(key, value)], behind, space, _, finite => by
      rw [memberNumbers, memberNumbers, List.append_nil] at finite
      rw [indentedMembers]
      exact
        .lastMember
          (.memberOf key (isSpace_lineBreak level) (indentedText_wellFormed level value finite)
            space)
  | (key, value) :: second :: rest, behind, space, _, finite => by
      rw [areFinite_members_cons, Bool.and_eq_true] at finite
      have member :=
        WellFormed.memberOf key (isSpace_lineBreak level)
          (indentedText_wellFormed level value finite.1) .nil
      have members :=
        indentedMembers_wellFormed level (second :: rest) space (List.cons_ne_nil _ _) finite.2
      rw [indentedMembers, List.append_assoc]
      rw [List.append_nil] at member
      exact .moreMembers member members

end

/-! ## Numbers that are not finite -/

/-- A scalar that is not finite is written as a name. -/
theorem isNameless_scalarText
    {value : Json}
    (scalar : value.isScalar = true)
    (rest : List Char) :
    isNameless .outside (scalarText value ++ rest) =
      (value.isFinite && isNameless .outside rest) := by
  cases finite : value.isFinite with
  | true => exact (scalarText_wellFormed scalar finite).isClear rest
  | false =>
      cases value with
      | number x =>
          have notFinite : ¬x.isFinite = true := by
            simpa [isFinite, numbers] using finite
          rw [Decimal.Parts.ofFloat_finite_iff] at notFinite
          rw [scalarText, Decimal.Layout.render]
          cases parts : Decimal.Parts.ofFloat x with
          | notANumber => rfl
          | infinite negative => cases negative <;> rfl
          | finite negative magnitude => exact absurd ⟨_, _, parts⟩ notFinite
      | array items => cases scalar
      | object members => cases scalar
      | _ => cases finite

/-- No name stands in a quoted text. -/
theorem isNameless_quotedText
    (value : String)
    (rest : List Char) :
    isNameless .outside (quotedText value ++ rest) = isNameless .outside rest :=
  (isString_quotedText value).isClear rest

mutual

/-- A value on one line has a name outside of its strings exactly if it is not finite. -/
theorem isNameless_compactText :
    (value : Json) →
    (rest : List Char) →
    isNameless .outside (compactText value ++ rest) =
      (value.isFinite && isNameless .outside rest)
  | .array items, rest => by
      rw [compactText, List.cons_append, List.cons_append, List.append_assoc,
        isNameless_cons (by decide) rfl, isNameless_compactItems]
      rfl
  | .object members, rest => by
      rw [compactText, List.cons_append, List.cons_append, List.append_assoc,
        isNameless_cons (by decide) rfl, isNameless_compactMembers]
      rfl
  | .null, rest | .boolean _, rest | .integer _, rest | .number _, rest | .text _, rest => by
      rw [compactText_of_isScalar rfl]
      exact isNameless_scalarText rfl rest

/-- Items on one line have a name outside of strings exactly if one is not finite. -/
theorem isNameless_compactItems :
    (items : List Json) →
    (rest : List Char) →
    isNameless .outside (compactItems items ++ rest) =
      ((itemNumbers items).all Float.isFinite && isNameless .outside rest)
  | [], _ => rfl
  | [item], rest => by
      rw [compactItems, isNameless_compactText, itemNumbers, itemNumbers, List.append_nil]
      rfl
  | item :: second :: later, rest => by
      rw [compactItems, List.append_assoc, isNameless_compactText, List.cons_append,
        List.cons_append, isNameless_cons (by decide) rfl, isNameless_cons (by decide) rfl,
        isNameless_compactItems (second :: later), areFinite_items_cons item, Bool.and_assoc]

theorem isNameless_compactMembers :
    (members : List (String × Json)) →
    (rest : List Char) →
    isNameless .outside (compactMembers members ++ rest) =
      ((memberNumbers members).all Float.isFinite && isNameless .outside rest)
  | [], _ => rfl
  | [(key, value)], rest => by
      rw [compactMembers, List.append_assoc, isNameless_quotedText, List.cons_append,
        List.cons_append, isNameless_cons (by decide) rfl, isNameless_cons (by decide) rfl,
        isNameless_compactText, memberNumbers, memberNumbers, List.append_nil]
      rfl
  | (key, value) :: second :: later, rest => by
      rw [compactMembers, List.append_assoc, List.append_assoc, isNameless_quotedText,
        List.cons_append, List.cons_append, isNameless_cons (by decide) rfl,
        isNameless_cons (by decide) rfl, isNameless_compactText, List.cons_append,
        List.cons_append, isNameless_cons (by decide) rfl, isNameless_cons (by decide) rfl,
        isNameless_compactMembers (second :: later), areFinite_members_cons key,
        Bool.and_assoc]

end

/-- A value with a line feed behind it is a document exactly if its numbers are finite. -/
theorem isDocument_compact_iff (value : Json) :
    IsDocument (compactText value ++ ['\n']) ↔ value.isFinite = true := by
  constructor
  · intro document
    have nameless := document.isNameless
    rw [isNameless_compactText, Bool.and_eq_true] at nameless
    exact nameless.1
  · intro finite
    have lineFeed : IsSpace ['\n'] := List.forall_mem_singleton.mpr rfl
    exact .element .nil (compactText_wellFormed value finite) lineFeed

/-- A finite value over several lines is a document. -/
theorem isDocument_indented
    {value : Json}
    (finite : value.isFinite = true) :
    IsDocument (indentedText 0 value ++ ['\n']) := by
  have lineFeed : IsSpace ['\n'] := List.forall_mem_singleton.mpr rfl
  exact .element .nil (indentedText_wellFormed 0 value finite) lineFeed

end PlanarExpr.Json
