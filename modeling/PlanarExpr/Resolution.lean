import PlanarExpr.Consultation
import PlanarExpr.Document.Excerpt
import PlanarExpr.Evaluation.Source

namespace PlanarExpr

/-!
# Resolving names through their definitions

The names in an excerpt get their values from the right-hand sides that are
assigned where they are defined. Those are resolved in the same way, at most
as many hops away as the depth allows. Every name is asked about, one after
the other, before the excerpt itself is evaluated.

A resolution can be cancelled. It then ends at the next name and has no value.
-/

open Document

/-- A question to the surroundings of a document. -/
inductive Inquiry where
  /-- Where is the name defined that stands at the location? -/
  | definition (location : Location)
  /-- What is assigned to the definition at the location? -/
  | assigned (location : Location)
deriving DecidableEq

namespace Inquiry

/-- The location a question is about. -/
def location : Inquiry → Location
  | .definition location => location
  | .assigned location => location

/-- The name under which a failed question is reported. -/
def label : Inquiry → String
  | .definition _ => "lookup_definition"
  | .assigned _ => "read_assignment_rhs"

/-- Whether the question is for a definition. -/
def isDefinition : Inquiry → Bool
  | .definition _ => true
  | .assigned _ => false

end Inquiry

/--
Those who know about definitions, and the one who may cancel. What they say may
depend on the questions that were asked before.
-/
structure Advisers where
  definition : List Inquiry → Location → Consultation Location
  assigned : List Inquiry → Location → Consultation Excerpt
  /-- Whether the resolution is cancelled once these questions were asked. -/
  isCancelled : List Inquiry → Bool

/-- Advisers who always give the same answer to the same question. -/
structure Resolver where
  definition : Location → Consultation Location
  assigned : Location → Consultation Excerpt
  /-- Whether the resolution is cancelled once these questions were asked. -/
  isCancelled : List Inquiry → Bool

/-- Advisers who give the answers of a resolver, whatever was asked before. -/
def Resolver.advisers (resolver : Resolver) : Advisers where
  definition _ := resolver.definition
  assigned _ := resolver.assigned
  isCancelled := resolver.isCancelled

/-- What a resolution has done so far. -/
structure Progress where
  /-- The questions that were asked, in order. -/
  inquiries : List Inquiry
  log : List LogRecord
deriving DecidableEq

/-- Nothing has been asked or reported yet. -/
def Progress.empty : Progress :=
  { inquiries := [], log := [] }

/-- A step of a resolution. -/
abbrev Resolution (α : Type) := StateM Progress α

namespace Resolution

/-- The name under which a resolution reports. -/
def origin : String := "poseval.runtime.resolver"

/-- Adds records to the log of a resolution. -/
def addLog (records : List LogRecord) : Resolution Unit :=
  modify fun progress => { progress with log := progress.log ++ records }

/-- Writes a record for the maintainer of an expression. -/
def note (message : String) : Resolution Unit :=
  addLog [.debug origin message]

/-- Asks a question and gives what was found; a failure is reported and finds nothing. -/
def consult
    (inquiry : Inquiry)
    (consultation : Consultation α) :
    Resolution (Option α) := do
  modify fun progress =>
    { progress with inquiries := progress.inquiries ++ [inquiry] }
  addLog consultation.log
  match consultation.finding with
  | .found item => return some item
  | .nothing => return none
  | .failure =>
      addLog
        [.warning origin
          (inquiry.label ++ " failed for " ++ inquiry.location.text)]
      return none

end Resolution

/-- The value of a report; there is none without success. -/
def Report.value (report : Report) : Value :=
  match report.outcome with
  | .ok result => if result.success then result.value else .unresolved
  | .error _ => .unresolved

/-- The values of names by the offset behind the name. -/
abbrev KnownValues := List (Nat × Value)

/-- A host that answers with known values, by the end of the range it is asked about. -/
def KnownValues.host (known : KnownValues) : Host :=
  fun _ stop =>
    match known.find? fun entry => (entry.1 : Int) = stop with
    | some (_, value) => .object (.value value)
    | none => .object .nothing

/-- Evaluates a text in which some names have values. -/
def evaluateKnowing
    (text : List Char)
    (known : KnownValues) :
    Resolution Value := do
  let report := evaluateText text (some known.host)
  Resolution.addLog report.log
  return report.value

namespace Advisers

/-- Whether the resolution is cancelled by now. -/
def cancelledNow (advisers : Advisers) : Resolution Bool := do
  return advisers.isCancelled (← get).inquiries

/-- Where the name at a location is defined. -/
def definitionOf?
    (advisers : Advisers)
    (location : Location) :
    Resolution (Option Location) := do
  Resolution.consult (.definition location)
    (advisers.definition (← get).inquiries location)

/-- The right-hand side that is assigned to the definition at a location. -/
def assignedAt?
    (advisers : Advisers)
    (location : Location) :
    Resolution (Option Excerpt) := do
  Resolution.consult (.assigned location)
    (advisers.assigned (← get).inquiries location)

/-- The right-hand side that is assigned where the name at a location is defined. -/
def assignedTo?
    (advisers : Advisers)
    (location : Location) :
    Resolution (Option Excerpt) := do
  match ← advisers.definitionOf? location with
  | none => return none
  | some definition => advisers.assignedAt? definition

/-- The value of the name at a location, given how excerpts are resolved. -/
def valueOfName
    (advisers : Advisers)
    (resolveExcerpt : Excerpt → Resolution Value)
    (location : Location) :
    Resolution Value := do
  match ← advisers.assignedTo? location with
  | none => return .unresolved
  | some assigned => resolveExcerpt assigned

/-- The values of names in an excerpt, given how excerpts are resolved; none if cancelled. -/
def valuesOfNames
    (advisers : Advisers)
    (resolveExcerpt : Excerpt → Resolution Value)
    (excerpt : Excerpt) :
    List Token →
    Resolution (Option KnownValues)
  | [] => do
      return if ← advisers.cancelledNow then none else some []
  | name :: rest => do
      if ← advisers.cancelledNow then
        return none
      let value ←
        advisers.valueOfName resolveExcerpt (excerpt.locationAt name.startOffset)
      let later ← valuesOfNames advisers resolveExcerpt excerpt rest
      if value.isLive then
        return later.map ((name.stopOffset, value) :: ·)
      else
        return later

/-- Resolves an excerpt if the resolution is not cancelled and the excerpt falls into tokens. -/
def withTokens
    (advisers : Advisers)
    (excerpt : Excerpt)
    (resolveTokens : TokenStream → Resolution Value) :
    Resolution Value := do
  if ← advisers.cancelledNow then
    return .unresolved
  let lexed := Lexed.ofText excerpt.text
  if lexed.isClean then
    resolveTokens lexed.stream
  else
    Resolution.addLog (lexed.log excerpt.text)
    Resolution.note
      ("not resolving " ++ Text.quoted excerpt.text ++ ": it does not lex")
    return .unresolved

/-- Evaluates an excerpt whose names are out of reach. -/
def beyondDepth
    (excerpt : Excerpt)
    (stream : TokenStream) :
    Resolution Value := do
  if !stream.names.isEmpty then
    Resolution.note
      ("depth limit reached; " ++ Text.integer stream.names.length ++
        " identifier(s) left unresolved in " ++ Text.quoted excerpt.text)
  evaluateKnowing excerpt.text []

/-- The value of an excerpt whose names are resolved at most the given number of hops away. -/
def resolve
    (advisers : Advisers) :
    Nat →
    Excerpt →
    Resolution Value
  | 0, excerpt =>
      advisers.withTokens excerpt (beyondDepth excerpt)
  | depth + 1, excerpt =>
      advisers.withTokens excerpt fun stream => do
        match ← advisers.valuesOfNames (resolve advisers depth) excerpt stream.names with
        | some known => evaluateKnowing excerpt.text known
        | none =>
            Resolution.note
              ("resolution of " ++ Text.quoted excerpt.text ++ " cancelled")
            return .unresolved

/-- Resolves an excerpt from the start; a depth below zero reaches no definition. -/
def run
    (advisers : Advisers)
    (depth : Int)
    (excerpt : Excerpt) :
    Value × Progress :=
  (advisers.resolve depth.toNat excerpt).run .empty

end Advisers

/-- Resolves an excerpt from the start, with answers that do not depend on what was asked before. -/
def Resolver.run
    (resolver : Resolver)
    (depth : Int)
    (excerpt : Excerpt) :
    Value × Progress :=
  resolver.advisers.run depth excerpt

end PlanarExpr
