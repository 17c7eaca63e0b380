import PlanarExpr.Proofs.Lexeme

namespace PlanarExpr.Json

/-!
# The grammar of JSON texts

The well-formed texts of RFC 8259, on characters. Blanks around a bracket, a
comma or a colon belong to the value or the name beside it, so that a document
is an element: a value with blanks around it. Nothing is said here about what
a text stands for.

Infinities and the value that is no number are not in the grammar. The names
that they are written with begin with a capital letter, and outside of strings
no well-formed text has one of these.
-/

/-! ## Numbers and strings -/

/-- The characters that may stand around a value. -/
def isSpace (c : Char) : Bool :=
  c = ' ' || c = '\t' || c = '\n' || c = '\r'

/-- A run of characters that may stand around a value. -/
def IsSpace (text : List Char) : Prop :=
  ∀ c ∈ text, isSpace c = true

/-- Whether a character is a hexadecimal digit; letters may be of either case. -/
def isHexadecimalDigit (c : Char) : Bool :=
  Decimal.isDigit c || ('a' ≤ c && c ≤ 'f') || ('A' ≤ c && c ≤ 'F')

/-- The part of a number before its point: no digit stands behind a leading zero. -/
inductive IsWhole : List Char → Prop where
  | zero : IsWhole ['0']
  | leading
      {first : Char}
      {rest : List Char}
      (noZero : first ≠ '0')
      (digits : ∀ c ∈ first :: rest, Decimal.isDigit c = true) :
      IsWhole (first :: rest)

/-- A point with digits behind it, or nothing. -/
inductive IsFraction : List Char → Prop where
  | absent : IsFraction []
  | digits (digits : Digits) : IsFraction ('.' :: digits.characters)

/-- An exponent of ten, or nothing. -/
inductive IsExponent : List Char → Prop where
  | absent : IsExponent []
  | digits
      {mark : Char}
      {sign : List Char}
      (isMark : mark = 'e' ∨ mark = 'E')
      (isSign : sign = [] ∨ sign = ['+'] ∨ sign = ['-'])
      (digits : Digits) :
      IsExponent (mark :: sign ++ digits.characters)

/-- A number without a sign. -/
inductive IsMagnitude : List Char → Prop where
  | mk
      {whole fraction exponent : List Char}
      (isWhole : IsWhole whole)
      (isFraction : IsFraction fraction)
      (isExponent : IsExponent exponent) :
      IsMagnitude (whole ++ fraction ++ exponent)

/-- A number, perhaps behind a minus sign. -/
inductive IsNumber : List Char → Prop where
  | unsigned
      {text : List Char}
      (isMagnitude : IsMagnitude text) :
      IsNumber text
  | negative
      {text : List Char}
      (isMagnitude : IsMagnitude text) :
      IsNumber ('-' :: text)

/-- One character of a string, as itself or behind a backslash. -/
inductive IsCharacter : List Char → Prop where
  | unescaped
      {c : Char}
      (shown : 0x20 ≤ c.toNat)
      (noQuote : c ≠ '"')
      (noBackslash : c ≠ '\\') :
      IsCharacter [c]
  | escaped
      {c : Char}
      (isLetter : c ∈ ['"', '\\', '/', 'b', 'f', 'n', 'r', 't']) :
      IsCharacter ['\\', c]
  | coded
      {digits : List Char}
      (four : digits.length = 4)
      (hexadecimal : ∀ c ∈ digits, isHexadecimalDigit c = true) :
      IsCharacter ('\\' :: 'u' :: digits)

/-- The characters of a string, one after the other. -/
inductive AreCharacters : List Char → Prop where
  | none : AreCharacters []
  | more
      {first rest : List Char}
      (isCharacter : IsCharacter first)
      (areCharacters : AreCharacters rest) :
      AreCharacters (first ++ rest)

/-- A string between its quotes. -/
inductive IsString : List Char → Prop where
  | mk
      {content : List Char}
      (areCharacters : AreCharacters content) :
      IsString ('"' :: content ++ ['"'])

/-! ## Values -/

/-- What a text can be a part of a document as. -/
inductive Part where
  | value
  /-- A value with blanks around it. -/
  | element
  /-- One or more elements with commas between them. -/
  | elements
  /-- A name and an element. -/
  | member
  /-- One or more members with commas between them. -/
  | members

/-- The texts that are well-formed as a part of a document. -/
inductive WellFormed : Part → List Char → Prop where
  | null : WellFormed .value "null".toList
  | true : WellFormed .value "true".toList
  | false : WellFormed .value "false".toList
  | number
      {text : List Char}
      (isNumber : IsNumber text) :
      WellFormed .value text
  | string
      {text : List Char}
      (isString : IsString text) :
      WellFormed .value text
  | emptyArray
      {space : List Char}
      (isSpace : IsSpace space) :
      WellFormed .value ('[' :: space ++ [']'])
  | array
      {elements : List Char}
      (content : WellFormed .elements elements) :
      WellFormed .value ('[' :: elements ++ [']'])
  | emptyObject
      {space : List Char}
      (isSpace : IsSpace space) :
      WellFormed .value ('\x7b' :: space ++ ['\x7d'])
  | object
      {members : List Char}
      (content : WellFormed .members members) :
      WellFormed .value ('\x7b' :: members ++ ['\x7d'])
  | element
      {before value behind : List Char}
      (isSpaceBefore : IsSpace before)
      (isValue : WellFormed .value value)
      (isSpaceBehind : IsSpace behind) :
      WellFormed .element (before ++ value ++ behind)
  | lastElement
      {element : List Char}
      (isElement : WellFormed .element element) :
      WellFormed .elements element
  | moreElements
      {element rest : List Char}
      (isElement : WellFormed .element element)
      (areElements : WellFormed .elements rest) :
      WellFormed .elements (element ++ ',' :: rest)
  | member
      {before name behind element : List Char}
      (isSpaceBefore : IsSpace before)
      (isName : IsString name)
      (isSpaceBehind : IsSpace behind)
      (isElement : WellFormed .element element) :
      WellFormed .member (before ++ name ++ behind ++ ':' :: element)
  | lastMember
      {member : List Char}
      (isMember : WellFormed .member member) :
      WellFormed .members member
  | moreMembers
      {member rest : List Char}
      (isMember : WellFormed .member member)
      (areMembers : WellFormed .members rest) :
      WellFormed .members (member ++ ',' :: rest)

/-- A complete text of the grammar. -/
def IsDocument (text : List Char) : Prop :=
  WellFormed .element text

/-! ## What stands outside of strings -/

/-- Where a character of a document stands. -/
inductive Surrounding where
  | outside
  | inString
  /-- In a string, behind a backslash. -/
  | escaped
deriving DecidableEq

/-- Where the next character stands. -/
def Surrounding.behind : Surrounding → Char → Surrounding
  | .outside, c => if c = '"' then .inString else .outside
  | .inString, c => if c = '"' then .outside else if c = '\\' then .escaped else .inString
  | .escaped, _ => .inString

/-- Whether a character begins the name of an infinity or of the value that is no number. -/
def beginsName (c : Char) : Bool :=
  c = 'I' || c = 'N'

/-- Whether no such name begins outside of the strings of a text. -/
def isNameless : Surrounding → List Char → Bool
  | _, [] => true
  | surrounding, c :: rest =>
      !(surrounding = .outside && beginsName c) && isNameless (surrounding.behind c) rest

/-- A text that begins and ends outside of strings and holds no name there. -/
def IsClear (text : List Char) : Prop :=
  ∀ rest, isNameless .outside (text ++ rest) = isNameless .outside rest

/-- A text in which no string and no name begins. -/
def IsPlain (text : List Char) : Prop :=
  ∀ c ∈ text, c ≠ '"' ∧ beginsName c = false

/-- Outside of strings, a character that begins nothing leaves everything as it is. -/
theorem isNameless_cons
    {c : Char}
    (noQuote : c ≠ '"')
    (noName : beginsName c = false)
    (rest : List Char) :
    isNameless .outside (c :: rest) = isNameless .outside rest := by
  rw [isNameless, noName, Surrounding.behind, if_neg noQuote]
  rfl

namespace IsPlain

/-- A plain text stays so behind a plain character. -/
theorem cons
    {first : Char}
    {rest : List Char}
    (noQuote : first ≠ '"')
    (noName : beginsName first = false)
    (plain : IsPlain rest) :
    IsPlain (first :: rest) :=
  List.forall_mem_cons.mpr ⟨⟨noQuote, noName⟩, plain⟩

/-- Two plain texts are plain together. -/
theorem append
    {first second : List Char}
    (firstPlain : IsPlain first)
    (secondPlain : IsPlain second) :
    IsPlain (first ++ second) :=
  List.forall_mem_append.mpr ⟨firstPlain, secondPlain⟩

/-- A plain text begins and ends outside of strings. -/
theorem isClear
    {text : List Char}
    (plain : IsPlain text) :
    IsClear text := by
  intro rest
  induction text with
  | nil => rfl
  | cons first text inductionHypothesis =>
      obtain ⟨⟨noQuote, noName⟩, plainRest⟩ := List.forall_mem_cons.mp plain
      rw [List.cons_append, isNameless_cons noQuote noName, inductionHypothesis plainRest]

end IsPlain

theorem IsClear.mark
    (c : Char)
    (noQuote : c ≠ '"')
    (noName : beginsName c = false) :
    IsClear [c] :=
  isNameless_cons noQuote noName

/-- Two clear texts are clear together. -/
theorem IsClear.append
    {first second : List Char}
    (firstClear : IsClear first)
    (secondClear : IsClear second) :
    IsClear (first ++ second) := by
  intro rest
  rw [List.append_assoc, firstClear, secondClear]

/-- Blanks are clear. -/
theorem IsSpace.isClear
    {text : List Char}
    (space : IsSpace text) :
    IsClear text := by
  refine IsPlain.isClear fun c member => ?_
  have isSpace := space c member
  simp only [Json.isSpace, Bool.or_eq_true, decide_eq_true_eq] at isSpace
  rcases isSpace with ((rfl | rfl) | rfl) | rfl <;> decide

/-- Digits are plain. -/
theorem digits_isPlain
    {text : List Char}
    (digits : ∀ c ∈ text, Decimal.isDigit c = true) :
    IsPlain text := by
  intro c member
  have isDigit := digits c member
  constructor
  · rintro rfl
    exact absurd isDigit (by decide)
  · cases begins : beginsName c with
    | false => rfl
    | true =>
        simp only [beginsName, Bool.or_eq_true, decide_eq_true_eq] at begins
        rcases begins with rfl | rfl <;> exact absurd isDigit (by decide)

/-- A number without a sign is plain. -/
theorem IsMagnitude.isPlain
    {text : List Char}
    (magnitude : IsMagnitude text) :
    IsPlain text := by
  obtain ⟨isWhole, isFraction, isExponent⟩ := magnitude
  refine IsPlain.append (IsPlain.append ?whole ?fraction) ?exponent
  case whole =>
    cases isWhole with
    | zero => exact .cons (by decide) rfl (List.forall_mem_nil _)
    | leading noZero digits => exact digits_isPlain digits
  case fraction =>
    cases isFraction with
    | absent => exact List.forall_mem_nil _
    | digits digits => exact .cons (by decide) rfl (digits_isPlain digits.digits)
  case exponent =>
    cases isExponent with
    | absent => exact List.forall_mem_nil _
    | digits isMark isSign digits =>
        refine IsPlain.append (.cons ?_ ?_ ?_) (digits_isPlain digits.digits)
        · rcases isMark with rfl | rfl <;> decide
        · rcases isMark with rfl | rfl <;> rfl
        · rcases isSign with rfl | rfl | rfl
          · exact List.forall_mem_nil _
          · exact .cons (by decide) rfl (List.forall_mem_nil _)
          · exact .cons (by decide) rfl (List.forall_mem_nil _)

/-- A number is clear. -/
theorem IsNumber.isClear
    {text : List Char}
    (number : IsNumber text) :
    IsClear text := by
  cases number with
  | unsigned isMagnitude => exact isMagnitude.isPlain.isClear
  | negative isMagnitude => exact (IsPlain.cons (by decide) rfl isMagnitude.isPlain).isClear

/-- Hexadecimal digits stay inside the string they stand in. -/
theorem isNameless_hexadecimal
    {digits : List Char}
    (hexadecimal : ∀ c ∈ digits, isHexadecimalDigit c = true)
    (rest : List Char) :
    isNameless .inString (digits ++ rest) = isNameless .inString rest := by
  induction digits with
  | nil => rfl
  | cons first digits inductionHypothesis =>
      obtain ⟨isDigit, later⟩ := List.forall_mem_cons.mp hexadecimal
      have noQuote : first ≠ '"' := by
        rintro rfl
        exact absurd isDigit (by decide)
      have noBackslash : first ≠ '\\' := by
        rintro rfl
        exact absurd isDigit (by decide)
      rw [List.cons_append, isNameless, Surrounding.behind, if_neg noQuote,
        if_neg noBackslash, inductionHypothesis later]
      rfl

/-- A character of a string leads back into the string. -/
theorem IsCharacter.isNameless_append
    {text : List Char}
    (character : IsCharacter text)
    (rest : List Char) :
    isNameless .inString (text ++ rest) = isNameless .inString rest := by
  cases character with
  | unescaped shown noQuote noBackslash =>
      rw [List.singleton_append, isNameless, Surrounding.behind, if_neg noQuote,
        if_neg noBackslash]
      rfl
  | escaped isLetter => rfl
  | coded four hexadecimal => exact isNameless_hexadecimal hexadecimal rest

/-- A string is clear: what it holds stands inside of it. -/
theorem IsString.isClear
    {text : List Char}
    (string : IsString text) :
    IsClear text := by
  obtain ⟨areCharacters⟩ := string
  intro rest
  rw [List.cons_append, List.cons_append, List.append_assoc]
  change isNameless .inString (_ ++ '"' :: rest) = _
  induction areCharacters with
  | none => rfl
  | more isCharacter areCharacters inductionHypothesis =>
      rw [List.append_assoc, isCharacter.isNameless_append, inductionHypothesis]

/-- No name of an infinity, or of the value that is no number, stands outside of strings. -/
theorem WellFormed.isClear
    {part : Part}
    {text : List Char}
    (wellFormed : WellFormed part text) :
    IsClear text := by
  induction wellFormed with
  | null => exact fun _ => rfl
  | true => exact fun _ => rfl
  | false => exact fun _ => rfl
  | number isNumber => exact isNumber.isClear
  | string isString => exact isString.isClear
  | emptyArray isSpace =>
      exact
        ((IsClear.mark '[' (by decide) rfl).append isSpace.isClear).append
          (.mark ']' (by decide) rfl)
  | array content clear =>
      exact
        ((IsClear.mark '[' (by decide) rfl).append clear).append (.mark ']' (by decide) rfl)
  | emptyObject isSpace =>
      exact
        ((IsClear.mark '\x7b' (by decide) rfl).append isSpace.isClear).append
          (.mark '\x7d' (by decide) rfl)
  | object content clear =>
      exact
        ((IsClear.mark '\x7b' (by decide) rfl).append clear).append
          (.mark '\x7d' (by decide) rfl)
  | element isSpaceBefore isValue isSpaceBehind clear =>
      exact (isSpaceBefore.isClear.append clear).append isSpaceBehind.isClear
  | lastElement isElement clear => exact clear
  | moreElements isElement areElements clear clearRest =>
      exact clear.append ((IsClear.mark ',' (by decide) rfl).append clearRest)
  | member isSpaceBefore isName isSpaceBehind isElement clear =>
      exact
        ((isSpaceBefore.isClear.append isName.isClear).append isSpaceBehind.isClear).append
          ((IsClear.mark ':' (by decide) rfl).append clear)
  | lastMember isMember clear => exact clear
  | moreMembers isMember areMembers clear clearRest =>
      exact clear.append ((IsClear.mark ',' (by decide) rfl).append clearRest)

/-- No name of an infinity, or of no number, stands outside of strings in a document. -/
theorem IsDocument.isNameless
    {text : List Char}
    (document : IsDocument text) :
    isNameless .outside text = true := by
  have clear := WellFormed.isClear document []
  rwa [List.append_nil] at clear

end PlanarExpr.Json
