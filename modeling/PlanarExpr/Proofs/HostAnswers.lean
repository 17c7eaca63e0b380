import PlanarExpr.Proofs.Correspondence

namespace PlanarExpr

/-!
# What the answers of a host stand for

An evaluation takes from an answer only the value that it stands for. Of all
that a host may hand over or fail with, only an integer that is too large for
a floating point number stands for a fault, and nothing else in an evaluation
stops it.
-/

open PlanarExpr.Geometry

/-- What a reply stands for: a value, no value, or a fault. -/
def Reply.value (reply : Reply) : Except Fault (Option Value) :=
  match reply.answer with
  | none => .ok none
  | some .nothing => .ok none
  | some object => object.toValue.map some

/-- The integers that are too large for a floating point number. -/
def Reply.Overflows (reply : Reply) : Prop :=
  ∃ n, reply.answer = some (.scalar (.integer n)) ∧ Decimal.ofInt? n = none

/-- A reply stands for a fault only if it is an integer that is too large. -/
theorem Reply.value_eq_error_iff
    {reply : Reply}
    {fault : Fault} :
    reply.value = .error fault ↔ fault = .integerTooLarge ∧ reply.Overflows := by
  obtain ⟨answer, log⟩ := reply
  constructor
  · intro faulty
    rcases answer with _ | object
    · cases faulty
    · cases object with
      | scalar number =>
          cases number with
          | real x => cases faulty
          | integer n =>
              cases nearest : Decimal.ofInt? n with
              | some x =>
                  simp [Reply.value, HostObject.toValue, Scalar.toFloat, nearest,
                    Except.map] at faulty
              | none =>
                  simp [Reply.value, HostObject.toValue, Scalar.toFloat, nearest,
                    Except.map] at faulty
                  exact ⟨faulty.symm, n, rfl, nearest⟩
      | _ => cases faulty
  · rintro ⟨rfl, n, isInteger, tooLarge⟩
    cases isInteger
    simp [Reply.value, HostObject.toValue, Scalar.toFloat, tooLarge, Except.map]

/-! ## Asking -/

namespace Surroundings

/-- An answer is received as what it stands for, with at most a record in the log. -/
theorem receive_apply
    (surroundings : Surroundings)
    (start stop : Int)
    (reply : Reply)
    (session : Session) :
    ∃ records,
      surroundings.receive start stop reply.answer session =
        (reply.value, session.addLog records) := by
  obtain ⟨answer, log⟩ := reply
  have unchanged : session = session.addLog [] := by
    simp [Session.addLog]
  rcases answer with _ | object
  · exact ⟨_, rfl⟩
  · refine ⟨[], ?_⟩
    rw [← unchanged]
    cases object with
    | scalar number =>
        cases number with
        | real x => rfl
        | integer n =>
            cases nearest : Decimal.ofInt? n <;>
              simp [receive, Reply.value, HostObject.toValue, Scalar.toFloat, nearest,
                Except.map, Evaluation.stop]
    | _ => rfl

/-- Asking a host notes the question and gives what its reply stands for. -/
theorem ask_apply
    (host : Host)
    (source : List Char)
    (start stop : Int)
    (session : Session) :
    ∃ records,
      ({ host := some host, source := source } : Surroundings).ask start stop session =
        ((host start stop).value,
          (session.addQuery start stop).addLog records) := by
  obtain ⟨records, received⟩ :=
    ({ host := some host, source := source } : Surroundings).receive_apply start stop
      (host start stop)
      ((session.addQuery start stop).addLog (host start stop).log)
  refine ⟨(host start stop).log ++ records, ?_⟩
  change
    ({ host := some host, source := source } : Surroundings).receive start stop
      (host start stop).answer
      ((session.addQuery start stop).addLog (host start stop).log) = _
  rw [received]
  simp [Session.addLog]

end Surroundings

end PlanarExpr
