import PlanarExpr.Log
import PlanarExpr.Text.IntegerReader
import PlanarExpr.Text.Written

namespace PlanarExpr

/-!
# Settings

The depth up to which definitions are followed and the level from which log
records are shown. Both have defaults and can be set in the environment.
-/

/-- The settings of the library and its command line. -/
structure Settings where
  /-- How many definition hops may be followed. -/
  maxDepth : Nat
  logLevel : LogLevel
deriving DecidableEq

/-- Why there are no settings. -/
inductive SettingsError where
  | depthNotInteger (text : String)
  | negativeDepth (depth : Int)
  | unknownLevel (name : String)
deriving DecidableEq

/-- What is wrong with the settings, in words. -/
def SettingsError.message : SettingsError → String
  | .depthNotInteger text =>
      "POSEVAL_MAX_DEPTH must be an integer, got " ++ Text.quoted text.toList
  | .negativeDepth depth =>
      "max_depth must be >= 0, got " ++ Text.integer depth
  | .unknownLevel name =>
      "unknown log level " ++ Text.quoted name.toList ++ "; expected one of " ++
        String.intercalate ", " (LogLevel.all.map LogLevel.text)

/-- Named texts that are set outside the program; the first entry of a name counts. -/
abbrev Environment := List (String × String)

namespace Environment

/-- The environment without a name. -/
def unset
    (environment : Environment)
    (name : String) :
    Environment :=
  environment.filter fun entry => entry.1 ≠ name

/-- The environment with a new text for a name. -/
def set
    (environment : Environment)
    (name text : String) :
    Environment :=
  (name, text) :: environment.unset name

end Environment

namespace Settings

/-- The depth without a setting. -/
def defaultDepth : Int := 8

/-- The log level without a setting. -/
def defaultLevel : String := "WARNING"

/-- The upper case of a letter, as far as the names of levels are concerned. -/
def upperCase (c : Char) : Char :=
  if c = 'ı' then 'I' else c.toUpper

/-- The level with the given name, in letters of any case. -/
def level? (name : String) : Option LogLevel :=
  LogLevel.ofText? (String.ofList (name.toList.map upperCase))

/-- The settings with the given depth and level; the depth is checked first. -/
def ofFields
    (depth : Int)
    (levelName : String) :
    Except SettingsError Settings :=
  if depth < 0 then
    .error (.negativeDepth depth)
  else
    match level? levelName with
    | none => .error (.unknownLevel levelName)
    | some level => .ok { maxDepth := depth.toNat, logLevel := level }

/-- The depth that an environment asks for. -/
def depthFrom (environment : Environment) : Except SettingsError Int :=
  match environment.lookup "POSEVAL_MAX_DEPTH" with
  | none => .ok defaultDepth
  | some text =>
      match Text.readInteger? text.toList with
      | none => .error (.depthNotInteger text)
      | some depth => .ok depth

/-- The settings that an environment asks for. -/
def ofEnvironment (environment : Environment) : Except SettingsError Settings := do
  let depth ← depthFrom environment
  ofFields depth ((environment.lookup "POSEVAL_LOG_LEVEL").getD defaultLevel)

end Settings

end PlanarExpr
