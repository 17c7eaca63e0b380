import PlanarExpr.Host
import PlanarExpr.Text.Portion

namespace PlanarExpr

/-!
# The session of an evaluation

An evaluation asks its host about ranges of the source, notes the names that
stay without a value, and writes log records. All three only ever grow, and
they are kept when a fault stops the evaluation.
-/

/-- What an evaluation has done so far. -/
structure Session where
  /-- The names without a value, each once, in the order in which they were noted. -/
  unresolvedNames : List String
  /-- The ranges that the host was asked about, in order. -/
  queries : List (Int × Int)
  log : List LogRecord
deriving DecidableEq

namespace Session

/-- The session before anything is evaluated. -/
def empty : Session :=
  { unresolvedNames := [], queries := [], log := [] }

/-- A session with further records in its log. -/
def addLog
    (session : Session)
    (records : List LogRecord) :
    Session :=
  { session with log := session.log ++ records }

/-- A session in which one range more was asked about. -/
def addQuery
    (session : Session)
    (start stop : Int) :
    Session :=
  { session with queries := session.queries ++ [(start, stop)] }

/-- A session in which a name is noted as being without a value. -/
def noteUnresolved
    (session : Session)
    (name : String) :
    Session :=
  if session.unresolvedNames.contains name then
    session
  else
    {
      unresolvedNames := session.unresolvedNames ++ [name]
      queries := session.queries
      log :=
        session.log ++
          [.debug "poseval.runtime.context" ("could not resolve " ++ name)]
    }

end Session

/-- A step of an evaluation: it extends the session and gives a result or a fault. -/
def Evaluation (α : Type) : Type :=
  Session → Except Fault α × Session

namespace Evaluation

/-- A result that leaves the session as it is. -/
@[inline] protected def pure (result : α) : Evaluation α :=
  fun session => (.ok result, session)

/-- One step after another; a fault ends the whole. -/
@[inline] protected def bind
    (first : Evaluation α)
    (next : α → Evaluation β) :
    Evaluation β :=
  fun session =>
    match first session with
    | (.error fault, later) => (.error fault, later)
    | (.ok result, later) => next result later

instance : Monad Evaluation where
  pure := Evaluation.pure
  bind := Evaluation.bind

/-- A result that is simply given leaves the session as it is. -/
@[simp] theorem pure_apply
    (result : α)
    (session : Session) :
    (pure result : Evaluation α) session = (.ok result, session) :=
  rfl

/-- The second step starts with the result and the session of the first. -/
theorem bind_apply
    (first : Evaluation α)
    (next : α → Evaluation β)
    (session : Session) :
    (first >>= next) session =
      match first session with
      | (.error fault, later) => (.error fault, later)
      | (.ok result, later) => next result later :=
  rfl

instance : LawfulMonad Evaluation :=
  LawfulMonad.mk' Evaluation
    (by
      intro α first
      funext session
      change Evaluation.bind first (fun result => Evaluation.pure result) session = _
      unfold Evaluation.bind Evaluation.pure
      rcases first session with ⟨fault | result, later⟩ <;> rfl)
    (by
      intro α β result next
      rfl)
    (by
      intro α β γ first second third
      funext session
      simp only [bind_apply]
      rcases first session with ⟨fault | result, later⟩ <;> rfl)

/-- An evaluation that stops with a fault. -/
def stop (fault : Fault) : Evaluation α :=
  fun session => (.error fault, session)

/-- An evaluation that only changes the session. -/
def modify (change : Session → Session) : Evaluation Unit :=
  fun session => (.ok (), change session)

/-- An evaluation that only writes a record. -/
def report (record : LogRecord) : Evaluation Unit :=
  modify fun session => session.addLog [record]

/-- Runs a calculation and gives its outcome, fault or not. -/
def calculate (calculation : Calculation α) : Evaluation (Except Fault α) :=
  fun session => (.ok calculation.outcome, session.addLog calculation.log)

end Evaluation

/-- What an evaluation can look at: its host, if it has one, and its source. -/
structure Surroundings where
  host : Option Host
  source : List Char

namespace Surroundings

/-- The value that an answer stands for; nothing and a missing answer stand for none. -/
def receive
    (surroundings : Surroundings)
    (start stop : Int)
    (answer : Option HostObject) :
    Evaluation (Option Value) :=
  match answer with
  | some .nothing => pure none
  | some object =>
      match object.toValue with
      | .ok value => pure (some value)
      | .error fault => .stop fault
  | none => do
      .report
        (.warning "poseval.runtime.context"
          ("resolve callback failed for " ++
            Text.quoted (Text.slice surroundings.source start stop)))
      return none

/-- Asks the host for the value of a range of the source. -/
def ask
    (surroundings : Surroundings)
    (start stop : Int) :
    Evaluation (Option Value) :=
  match surroundings.host with
  | none => pure none
  | some host => do
      let reply := host start stop
      .modify fun session => (session.addQuery start stop).addLog reply.log
      surroundings.receive start stop reply.answer

end Surroundings

end PlanarExpr
