namespace PlanarExpr.CommandLine

/-!
# Switches

A switch has a long name behind two dashes, and some have a letter that stands
behind one dash. No long name is the beginning of another one.
-/

/-- A switch of the command line. -/
inductive Switch where
  | help
  | verbose
  | json
  | list
deriving DecidableEq

namespace Switch

/-- All switches, in the order in which they are listed. -/
def all : List Switch :=
  [.help, .verbose, .json, .list]

/-- The name behind two hyphens. -/
def longName : Switch → List Char
  | .help => ['h', 'e', 'l', 'p']
  | .verbose => ['v', 'e', 'r', 'b', 'o', 's', 'e']
  | .json => ['j', 's', 'o', 'n']
  | .list => ['l', 'i', 's', 't']

/-- The letter behind one hyphen, for the switches that have one. -/
def letter? : Switch → Option Char
  | .help => some 'h'
  | .verbose => some 'v'
  | .json => none
  | .list => none

/-- The long form of a switch. -/
def longText (switch : Switch) : String :=
  String.ofList ('-' :: '-' :: switch.longName)

/-- The names of a switch, as an error message gives them. -/
def text (switch : Switch) : String :=
  match switch.letter? with
  | some letter => String.ofList ['-', letter, '/'] ++ switch.longText
  | none => switch.longText

/-- The switch with the given letter. -/
def ofLetter? (letter : Char) : Option Switch :=
  all.find? fun switch => switch.letter? = some letter

/-- The switches whose long name starts with the given characters. -/
def startingWith (start : List Char) : List Switch :=
  all.filter fun switch => start.isPrefixOf switch.longName

end Switch

end PlanarExpr.CommandLine
