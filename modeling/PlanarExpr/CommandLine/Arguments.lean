import PlanarExpr.CommandLine.Switch
import PlanarExpr.Text.IntegerReader
import PlanarExpr.Text.Written

namespace PlanarExpr.CommandLine

/-!
# Reading the arguments

Switches and the words of the expression may stand in any order, but the words
have to stand together: words behind the first unbroken run of them are not
recognized. A long name may be cut short, and letters may share one dash if all
of them name switches; an equals sign right behind the first letter is dropped.
Behind two dashes on their own everything is a word.

An argument that starts with a dash is a word all the same if the dash stands
alone, or if the argument names no switch and is a negative number or has a
blank in it.
-/

/-- Why the arguments cannot be read. -/
inductive UsageError where
  /-- A shortened name that could mean several switches. -/
  | ambiguous (argument : String) (candidates : List Switch)
  /-- A text was given to a switch, and switches take none. -/
  | unusedText (switch : Switch) (text : String)
  /-- Arguments that are left over. -/
  | unrecognized (arguments : List String)
deriving DecidableEq

/-- What is said about arguments that are not understood. -/
def UsageError.message : UsageError → String
  | .ambiguous argument candidates =>
      "ambiguous option: " ++ argument ++ " could match " ++
        String.intercalate ", " (candidates.map Switch.longText)
  | .unusedText switch text =>
      "argument " ++ switch.text ++ ": ignored explicit argument " ++
        Text.quoted text.toList
  | .unrecognized arguments =>
      "unrecognized arguments: " ++ String.intercalate " " arguments

/-- What a single argument is. -/
inductive Argument where
  /-- A word of the expression. -/
  | word
  | switches (given : List Switch)
  /-- It looks like a switch and names none. -/
  | unknown
  | faulty (error : UsageError)
deriving DecidableEq

namespace Argument

/-- An argument with one more switch in front of those it has. -/
def addSwitch
    (switch : Switch) :
    Argument →
    Argument
  | .switches given => .switches (switch :: given)
  | other => other

/-- A switch and the characters that share its dash; each of them has to be a letter of a switch. -/
def ofLetters
    (switch : Switch) :
    List Char →
    Argument
  | [] => .switches [switch]
  | c :: rest =>
      match Switch.ofLetter? c with
      | some next => (ofLetters next rest).addSwitch switch
      | none => .faulty (.unusedText switch (String.ofList (c :: rest)))

/--
A switch given by its letter; an equals sign right behind the letter has to be
followed by something.
-/
def ofLetter
    (switch : Switch)
    (behind : List Char) :
    Argument :=
  match behind with
  | ['='] => .faulty (.unusedText switch "")
  | '=' :: rest => ofLetters switch rest
  | rest => ofLetters switch rest

/-- Whether a text is digits, or a point with digits behind it and maybe before it. -/
def isUnsignedNumber (text : List Char) : Bool :=
  let isDigit := fun (c : Char) => (Text.decimalValue? c).isSome
  match text.dropWhile isDigit with
  | [] => !text.isEmpty
  | c :: fraction => c = '.' && !fraction.isEmpty && fraction.all isDigit

/-- A text without the line feed at its end. -/
def dropFinalFeed (text : List Char) : List Char :=
  if text.getLast? = some '\n' then text.dropLast else text

/-- What an argument is that starts with a dash and names no switch. -/
def unnamed (behindDash : List Char) : Argument :=
  if isUnsignedNumber (dropFinalFeed behindDash) || behindDash.contains ' ' then
    .word
  else
    .unknown

/-- What an argument is that starts with two dashes. -/
def ofLongName
    (argument : String)
    (name : List Char) :
    Except UsageError Argument :=
  match Switch.startingWith (name.takeWhile (· ≠ '=')) with
  | [] => .ok (unnamed ('-' :: name))
  | [switch] =>
      match name.dropWhile (· ≠ '=') with
      | [] => .ok (.switches [switch])
      | _ :: text => .ok (.faulty (.unusedText switch (String.ofList text)))
  | candidates => .error (.ambiguous argument candidates)

/-- What an argument is; the two dashes that end the switches are told apart before. -/
def read (argument : String) : Except UsageError Argument :=
  match argument.toList with
  | ['-'] => .ok .word
  | '-' :: '-' :: name => ofLongName argument name
  | '-' :: c :: rest =>
      match Switch.ofLetter? c with
      | some switch => .ok (ofLetter switch rest)
      | none => .ok (unnamed (c :: rest))
  | _ => .ok .word

end Argument

/-- How far the words of the expression have been read. -/
inductive Run where
  | ahead
  | inside
  | behind
deriving DecidableEq

/-- How far they have been read once something else has been met. -/
def Run.interrupted : Run → Run
  | .ahead => .ahead
  | .inside => .behind
  | .behind => .behind

/-- What the arguments ask for. -/
structure Invocation where
  switches : List Switch
  words : List String
  leftOver : List String
deriving DecidableEq

namespace Invocation

/-- The invocation before any argument is read. -/
def empty : Invocation :=
  { switches := [], words := [], leftOver := [] }

/-- An invocation with one more word of the expression. -/
def addWord
    (invocation : Invocation)
    (word : String) :
    Invocation :=
  { invocation with words := invocation.words ++ [word] }

/-- An invocation with one more argument that nothing takes. -/
def addLeftOver
    (invocation : Invocation)
    (argument : String) :
    Invocation :=
  { invocation with leftOver := invocation.leftOver ++ [argument] }

/-- An invocation with more switches. -/
def addSwitches
    (invocation : Invocation)
    (given : List Switch) :
    Invocation :=
  { invocation with switches := invocation.switches ++ given }

/-- Whether a switch is given. -/
def has
    (invocation : Invocation)
    (switch : Switch) :
    Bool :=
  invocation.switches.contains switch

end Invocation

/-- What to do. -/
inductive Command where
  | showHelp
  | perform (invocation : Invocation)
deriving DecidableEq

/-- The end of the arguments: all that is left are the words behind two dashes. -/
def finish
    (run : Run)
    (invocation : Invocation)
    (behindDashes : Option (List String)) :
    Except UsageError Command :=
  let complete :=
    match behindDashes with
    | none => invocation
    | some words =>
        if run = .behind then
          { invocation with leftOver := invocation.leftOver ++ "--" :: words }
        else
          { invocation with words := invocation.words ++ words }
  if complete.leftOver.isEmpty then
    .ok (.perform complete)
  else
    .error (.unrecognized complete.leftOver)

/-- Follows the arguments from left to right; the request for help ends everything. -/
def follow
    (behindDashes : Option (List String)) :
    Run →
    Invocation →
    List (String × Argument) →
    Except UsageError Command
  | run, invocation, [] => finish run invocation behindDashes
  | run, invocation, (argument, .word) :: rest =>
      if run = .behind then
        follow behindDashes .behind (invocation.addLeftOver argument) rest
      else
        follow behindDashes .inside (invocation.addWord argument) rest
  | run, invocation, (argument, .unknown) :: rest =>
      follow behindDashes run.interrupted (invocation.addLeftOver argument) rest
  | run, invocation, (_, .switches given) :: rest =>
      if given.contains .help then
        .ok .showHelp
      else
        follow behindDashes run.interrupted (invocation.addSwitches given) rest
  | _, _, (_, .faulty error) :: _ => .error error

/-- The arguments in front of two dashes on their own, and those behind them. -/
def splitAtDashes (arguments : List String) : List String × Option (List String) :=
  (arguments.takeWhile (· ≠ "--"),
    match arguments.dropWhile (· ≠ "--") with
    | [] => none
    | _ :: behind => some behind)

/-- Reads the arguments; an ambiguous name is an error whatever else is asked for. -/
def readArguments (arguments : List String) : Except UsageError Command := do
  let (front, behindDashes) := splitAtDashes arguments
  let known ← front.mapM fun argument => do
    return (argument, ← Argument.read argument)
  follow behindDashes .ahead .empty known

end PlanarExpr.CommandLine
