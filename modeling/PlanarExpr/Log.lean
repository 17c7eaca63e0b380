namespace PlanarExpr

/-!
# Log records

Every part of the library reports what it noticed as a list of records, oldest
first. Nothing is written while a computation runs, so what is logged is part
of its result.
-/

/-- How urgent a log record is, least urgent first. -/
inductive LogLevel where
  | debug
  | info
  | warning
  | error
  | critical
deriving DecidableEq

namespace LogLevel

/-- The name of a level. -/
def text : LogLevel → String
  | .debug => "DEBUG"
  | .info => "INFO"
  | .warning => "WARNING"
  | .error => "ERROR"
  | .critical => "CRITICAL"

/-- The weight of a level; a heavier one is more severe. -/
def rank : LogLevel → Nat
  | .debug => 10
  | .info => 20
  | .warning => 30
  | .error => 40
  | .critical => 50

/-- All levels, the most severe one first. -/
def all : List LogLevel :=
  [.critical, .error, .warning, .info, .debug]

/-- The level with the given name. -/
def ofText? (name : String) : Option LogLevel :=
  all.find? (·.text == name)

end LogLevel

/-- One log record. -/
structure LogRecord where
  level : LogLevel
  /-- The name of the part of the library that reports. -/
  origin : String
  message : String
deriving DecidableEq

namespace LogRecord

/-- A record for the maintainer of an expression. -/
def debug
    (origin message : String) :
    LogRecord :=
  { level := .debug, origin := origin, message := message }

/-- A record of something that went wrong and was made up for. -/
def warning
    (origin message : String) :
    LogRecord :=
  { level := .warning, origin := origin, message := message }

/-- A record in words. -/
def text (record : LogRecord) : String :=
  record.level.text ++ " " ++ record.origin ++ ": " ++ record.message

end LogRecord

/-- The records that are at least as urgent as the given level. -/
def logFrom
    (level : LogLevel)
    (log : List LogRecord) :
    List LogRecord :=
  log.filter fun record => level.rank ≤ record.level.rank

end PlanarExpr
