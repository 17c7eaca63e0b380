import PlanarExpr.Decimal.Layout

namespace PlanarExpr

/-!
# JSON

A value keeps its members in the order in which they are written. Integers and
floating point numbers are told apart, because they are written differently. A
value is written on one line, or spread over lines that are indented by two
blanks for each level. Only ASCII is written; every other character of a text
stands as one or two escapes of four hexadecimal digits.
-/

/-- A JSON value. -/
inductive Json where
  | null
  | boolean (value : Bool)
  | integer (value : Int)
  | number (value : Float)
  | text (value : String)
  | array (items : List Json)
  | object (members : List (String × Json))

namespace Json

/-- An array of texts. -/
def texts (items : List String) : Json :=
  .array (items.map .text)

/-- A natural number as a value. -/
def natural (value : Nat) : Json :=
  .integer value

/-! ## Writing -/

/-- The format of numbers. Infinities and the value that is no number have names of their own. -/
def numberLayout : Decimal.Layout :=
  { Decimal.Layout.plain with notANumber := "NaN", infinity := "Infinity" }

/-- An escape for one 16-bit unit. -/
def unitEscape (unit : Nat) : List Char :=
  '\\' :: 'u' :: Text.hexadecimal 4 unit

/-- How one character of a text is written. -/
def escapeCharacter (c : Char) : List Char :=
  if c = '"' ∨ c = '\\' then
    ['\\', c]
  else if c = '\n' then
    ['\\', 'n']
  else if c = '\r' then
    ['\\', 'r']
  else if c = '\t' then
    ['\\', 't']
  else if c.toNat = 0x08 then
    ['\\', 'b']
  else if c.toNat = 0x0C then
    ['\\', 'f']
  else if 0x20 ≤ c.toNat ∧ c.toNat < 0x7F then
    [c]
  else if c.toNat < 0x10000 then
    unitEscape c.toNat
  else
    let rest := c.toNat - 0x10000
    unitEscape (0xD800 + rest / 0x400) ++ unitEscape (0xDC00 + rest % 0x400)

/-- A text between quotes, with its escapes. -/
def quotedText (value : String) : List Char :=
  '"' :: value.toList.flatMap escapeCharacter ++ ['"']

/-- A new line indented to a level. -/
def lineBreak (level : Nat) : List Char :=
  '\n' :: List.replicate (2 * level) ' '

/-- A value that holds no other values. -/
def scalarText : Json → List Char
  | .null => "null".toList
  | .boolean true => "true".toList
  | .boolean false => "false".toList
  | .integer value => (Text.integer value).toList
  | .number value => (numberLayout.render value).toList
  | .text value => quotedText value
  | .array _ => []
  | .object _ => []

mutual

/-- The characters of a value on one line. -/
def compactText : Json → List Char
  | .array items => '[' :: compactItems items ++ [']']
  | .object members => '\x7b' :: compactMembers members ++ ['\x7d']
  | value => scalarText value

/-- The items of an array on one line. -/
def compactItems : List Json → List Char
  | [] => []
  | [item] => compactText item
  | item :: second :: rest =>
      compactText item ++ ',' :: ' ' :: compactItems (second :: rest)

/-- The members of an object on one line. -/
def compactMembers : List (String × Json) → List Char
  | [] => []
  | [(key, value)] => quotedText key ++ ':' :: ' ' :: compactText value
  | (key, value) :: second :: rest =>
      quotedText key ++ ':' :: ' ' :: compactText value ++
        ',' :: ' ' :: compactMembers (second :: rest)

end

mutual

/-- A value spread over lines, inside the given level. -/
def indentedText
    (level : Nat) :
    Json →
    List Char
  | .array [] => ['[', ']']
  | .array (item :: rest) =>
      '[' :: indentedItems (level + 1) (item :: rest) ++ lineBreak level ++ [']']
  | .object [] => ['\x7b', '\x7d']
  | .object (member :: rest) =>
      '\x7b' :: indentedMembers (level + 1) (member :: rest) ++
        lineBreak level ++ ['\x7d']
  | value => scalarText value

/-- The items of an array, each on a line of its own. -/
def indentedItems
    (level : Nat) :
    List Json →
    List Char
  | [] => []
  | [item] => lineBreak level ++ indentedText level item
  | item :: second :: rest =>
      lineBreak level ++ indentedText level item ++
        ',' :: indentedItems level (second :: rest)

/-- The members of an object, each on a line of its own. -/
def indentedMembers
    (level : Nat) :
    List (String × Json) →
    List Char
  | [] => []
  | [(key, value)] =>
      lineBreak level ++ quotedText key ++ ':' :: ' ' :: indentedText level value
  | (key, value) :: second :: rest =>
      lineBreak level ++ quotedText key ++ ':' :: ' ' :: indentedText level value ++
        ',' :: indentedMembers level (second :: rest)

end

/-- A value on one line. -/
def compact (value : Json) : String :=
  String.ofList (compactText value)

/-- A value on several lines, indented by its depth. -/
def indented (value : Json) : String :=
  String.ofList (indentedText 0 value)

end Json

end PlanarExpr
