import PlanarExpr.CommandLine
import PlanarExpr.Proofs.Inlining
import PlanarExpr.Proofs.WrittenJson

namespace PlanarExpr

/-!
# What is printed as JSON

Where JSON is asked for, an expression has one document printed: its value on
one line, or over several lines why it has none. What is said about a failure
holds no floating point numbers, so that document is always well-formed. The
one about a value is as long as no number in it is infinite or no number;
quotients and large literals are such numbers, and angles that are too large
to be given in degrees.
-/

namespace Json

/-- Items without floating point numbers have none together. -/
theorem itemNumbers_eq_nil
    {items : List Json}
    (numberless : ∀ item ∈ items, item.numbers = []) :
    itemNumbers items = [] := by
  induction items with
  | nil => rfl
  | cons item rest inductionHypothesis =>
      obtain ⟨itemNumberless, restNumberless⟩ := List.forall_mem_cons.mp numberless
      rw [itemNumbers, itemNumberless, inductionHypothesis restNumberless]
      rfl

/-- Texts hold no floating point numbers. -/
theorem numbers_texts (items : List String) : (texts items).numbers = [] := by
  refine itemNumbers_eq_nil fun item member => ?_
  obtain ⟨words, -, rfl⟩ := List.mem_map.mp member
  rfl

end Json

/-- A diagnostic holds no floating point numbers. -/
theorem Diagnostic.numbers_toJson (diagnostic : Diagnostic) :
    diagnostic.toJson.numbers = [] := by
  simp [toJson, placeJson, Json.numbers, Json.memberNumbers, Json.natural, Json.numbers_texts]

namespace CommandLine

/-- What is said about a failure holds no number that is not finite. -/
theorem isFinite_failureJson (result : Result) : (failureJson result).isFinite = true := by
  have diagnostics :
      Json.itemNumbers (result.diagnostics.map Diagnostic.toJson) = [] := by
    refine Json.itemNumbers_eq_nil fun item member => ?_
    obtain ⟨diagnostic, -, rfl⟩ := List.mem_map.mp member
    exact diagnostic.numbers_toJson
  have message : ((result.errorMessage.map Json.text).getD .null).numbers = [] := by
    cases result.errorMessage <;> rfl
  simp [Json.isFinite, failureJson, Json.numbers, Json.memberNumbers, diagnostics, message,
    Json.numbers_texts]

theorem toList_ofLines_singleton (line : String) :
    (ofLines [line]).toList = line.toList ++ ['\n'] := by
  simp [ofLines]

/-- A result is printed as a document if it is a failure or holds finite numbers only. -/
theorem isDocument_present_iff (result : Result) :
    Json.IsDocument (present true result).output.toList ↔
      (result.success = true → result.value.presentationJson.isFinite = true) := by
  unfold present
  cases succeeds : result.success with
  | true =>
      change Json.IsDocument (ofLines [result.value.presentationJson.compact]).toList ↔ _
      rw [toList_ofLines_singleton, Json.compact, String.toList_ofList,
        Json.isDocument_compact_iff]
      exact ⟨fun finite _ => finite, fun finite => finite rfl⟩
  | false =>
      change Json.IsDocument (ofLines [(failureJson result).indented]).toList ↔ _
      rw [toList_ofLines_singleton, Json.indented, String.toList_ofList]
      have document := Json.isDocument_indented (isFinite_failureJson result)
      exact ⟨fun _ succeeded => absurd succeeded Bool.false_ne_true, fun _ => document⟩

/-- An expression on the command line has a result, and that is what is printed. -/
theorem exists_output_evaluate
    (asJson : Bool)
    (level : LogLevel)
    (expression : String) :
    ∃ result,
      (evaluateText expression.toList none).outcome = .ok result ∧
        (evaluate asJson level expression).output = (present asJson result).output := by
  have hasResult : ∃ result, (evaluateText expression.toList none).outcome = .ok result := by
    rcases evaluateText_cases expression.toList with
      ⟨diagnostics, message, rejected⟩ | ⟨whole, _, _, evaluated⟩
    · exact ⟨_, (rejected none).2⟩
    · rw [evaluated]
      exact whole.exists_result_of_hostless rfl
  obtain ⟨result, outcome⟩ := hasResult
  refine ⟨result, outcome, ?_⟩
  simp only [evaluate, outcome]
  rfl

/--
With valid settings, words that are given together with the switch for JSON have
one well-formed document printed exactly if their evaluation fails or all numbers
that are shown of its value are finite.
-/
theorem run_isDocument_iff
    {environment : Environment}
    {settings : Settings}
    {arguments : List String}
    {invocation : Invocation}
    (valid : Settings.ofEnvironment environment = .ok settings)
    (reads : readArguments arguments = .ok (.perform invocation))
    (asJson : invocation.has .json = true)
    (noList : invocation.has .list = false)
    (hasWords : invocation.words ≠ []) :
    ∃ result,
      (evaluateText (String.intercalate " " invocation.words).toList none).outcome =
          .ok result ∧
        (Json.IsDocument (run environment arguments).output.toList ↔
          (result.success = true →
            ∀ x ∈ result.value.presentationJson.numbers, x.isFinite = true)) := by
  let level := if invocation.has .verbose then .debug else settings.logLevel
  obtain ⟨result, outcome, output⟩ :=
    exists_output_evaluate true level (String.intercalate " " invocation.words)
  refine ⟨result, outcome, ?_⟩
  have wordsGiven : invocation.words.isEmpty = false := by
    rwa [List.isEmpty_eq_false_iff]
  have performed :
      run environment arguments =
        evaluate true level (String.intercalate " " invocation.words) := by
    simp only [run, reads, valid, perform, asJson, noList, wordsGiven]
    rfl
  rw [performed, output, isDocument_present_iff, Json.isFinite, List.all_eq_true]

/-- A translation given in two words is printed as a document. -/
theorem run_isDocument_translation :
    Json.IsDocument (run [] ["--json", "new", "Translation2d(1, 2)"]).output.toList := by
  let words := ["new", "Translation2d(1, 2)"]
  let invocation : Invocation := { switches := [.json], words := words, leftOver := [] }
  have valid :
      Settings.ofEnvironment [] = .ok { maxDepth := 8, logLevel := .warning } := by
    rfl
  have reads : readArguments ("--json" :: words) = .ok (.perform invocation) := by
    rfl
  have evaluated :
      (evaluateText (String.intercalate " " words).toList none).outcome.toOption =
        some (.evaluated (.translation { x := 1, y := 2 }) []) := by
    decide +kernel
  obtain ⟨result, outcome, isDocument⟩ :=
    run_isDocument_iff valid reads rfl rfl (List.cons_ne_nil _ _)
  rw [outcome] at evaluated
  cases evaluated
  refine isDocument.mpr fun _ x shown => ?_
  have finite : ([1, 2] : List Float).all Float.isFinite = true := by
    decide +kernel
  exact List.all_eq_true.mp finite x shown

/-- An infinite quotient is printed with success, and not as a document. -/
theorem run_prints_infinity :
    let outcome := run [] ["--json", "1 / 0"]
    outcome.exitCode = 0 ∧ ¬Json.IsDocument outcome.output.toList := by
  refine ⟨by decide +kernel, fun document => ?_⟩
  have named : Json.isNameless .outside (run [] ["--json", "1 / 0"]).output.toList = false := by
    decide +kernel
  exact absurd (document.isNameless.symm.trans named) (by decide)

end CommandLine

end PlanarExpr
