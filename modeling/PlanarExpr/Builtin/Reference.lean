import PlanarExpr.Builtin.Registry
import PlanarExpr.Json
import PlanarExpr.Text.Character

namespace PlanarExpr.Registry

/-!
# The reference of built-in operations

Tools can list what an expression may use, describe one operation in words, or
take the whole reference as JSON. Methods that may not be called are not
listed.
-/

/-- Names in ascending order, each once. -/
def sortedNames (names : List String) : List String :=
  names.eraseDups.mergeSort fun first second => !decide (second < first)

/-- The names of the static functions. -/
def functionNames : List String :=
  sortedNames (functions.map (·.name))

/-- The names of the types that can be constructed. -/
def constructorNames : List String :=
  sortedNames (constructors.map (·.name))

/-- The names of the constants. -/
def constantNames : List String :=
  sortedNames (constants.map (·.1))

/-- The methods that may be called. -/
def callableMethods : List Method :=
  methods.filter fun method => isMethodAllowed method.overload.name

/-- The overloads of methods by the kind of their receiver; kinds without methods are left out. -/
def byReceiver (listed : List Method) : List (ValueKind × List Overload) :=
  (listed.map (·.receiver)).eraseDups.map fun kind =>
    (kind, (listed.filter fun method => method.receiver = kind).map (·.overload))

/-- The names of the methods that may be called, of one kind or of all. -/
def methodNames (kind? : Option ValueKind) : List (ValueKind × List String) :=
  let listed :=
    match kind? with
    | none => callableMethods
    | some kind => callableMethods.filter fun method => method.receiver = kind
  (byReceiver listed).map fun (kind, overloads) =>
    (kind, sortedNames (overloads.map (·.name)))

/-- A description of one overload. -/
def describeOverload
    (leading : String)
    (overload : Overload) :
    String :=
  let signature := "  " ++ leading ++ overload.signature
  if overload.summary.isEmpty then signature else signature ++ ": " ++ overload.summary

/-- A description of the overloads of one operation, those with fewer arguments first. -/
def describeOverloads
    (leading : String)
    (overloads : List Overload) :
    Option String :=
  match overloads with
  | [] => none
  | first :: _ =>
      let ordered := overloads.mergeSort fun one other => one.arity ≤ other.arity
      some (String.intercalate "\n"
        ((leading ++ first.name) :: ordered.map (describeOverload leading)))

/-- The mark of a construction in front of its type. -/
def constructionMark : List Char :=
  ['n', 'e', 'w', ' ']

/-- A description of a static function, or of a constructor if the name is marked as one. -/
def describe? (name : String) : Option String :=
  if constructionMark.isPrefixOf name.toList then
    let typeName := String.ofList (Text.trimBlanks (name.toList.drop 4))
    describeOverloads "new " (constructors.filter fun overload => overload.name = typeName)
  else
    describeOverloads "" (functions.filter fun overload => overload.name = name)

/-- What the reference says about one overload. -/
structure Entry where
  name : String
  arity : Nat
  /-- The type names of the parameters, unless any values are taken. -/
  parameters : Option (List String)
  signature : String
  description : String
deriving DecidableEq

/-- The entry of an overload. -/
def Entry.ofOverload (overload : Overload) : Entry :=
  {
    name := overload.name
    arity := overload.arity
    parameters := overload.parameters.kinds?.map (·.map ValueKind.text)
    signature := overload.signature
    description := overload.summary
  }

/-- An entry for tools; parameters that take any values are shown as null. -/
def Entry.toJson (entry : Entry) : Json :=
  .object [
    ("name", .text entry.name),
    ("arity", .natural entry.arity),
    ("params", (entry.parameters.map Json.texts).getD .null),
    ("signature", .text entry.signature),
    ("description", .text entry.description)
  ]

/-- The entries of a table for tools. -/
def entriesJson (entries : List Entry) : Json :=
  .array (entries.map Entry.toJson)

/-- Everything that an expression may use. -/
structure Reference where
  constructors : List Entry
  functions : List Entry
  /-- The names of the constants and their values in words. -/
  constants : List (String × String)
  methods : List (ValueKind × List Entry)

/-- The value of a constant in words. -/
def constantText : Value → String
  | .null => "null"
  | value => value.contentText

/-- The complete reference. -/
def reference : Reference :=
  {
    constructors := constructors.map .ofOverload
    functions := functions.map .ofOverload
    constants :=
      (constants.mergeSort fun first second => !decide (second.1 < first.1)).map
        fun (name, value) => (name, constantText value)
    methods := (byReceiver callableMethods).map fun (kind, overloads) =>
      (kind, overloads.map .ofOverload)
  }

/-- The complete reference for tools. -/
def Reference.toJson (whole : Reference) : Json :=
  .object [
    ("constructors", entriesJson whole.constructors),
    ("functions", entriesJson whole.functions),
    ("constants", .object (whole.constants.map fun (name, text) => (name, .text text))),
    ("methods",
      .object (whole.methods.map fun (kind, entries) => (kind.text, entriesJson entries)))
  ]

end PlanarExpr.Registry
