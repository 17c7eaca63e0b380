import PlanarExpr.Builtin.Registry

namespace PlanarExpr

/-!
# Built-in operations give settled values

A value is settled if it is no name that waits for the rest of its chain. No
constant, no field of a value and no built-in operation gives a value that is
not settled, whatever the arguments.
-/

/-- Whether a value is no waiting name. -/
def Value.isSettled : Value → Bool
  | .pending _ => false
  | _ => true

/-- A live value is settled. -/
theorem Value.isSettled_of_isLive
    {value : Value}
    (live : value.isLive = true) :
    value.isSettled = true := by
  cases value with
  | pending waiting => cases live
  | _ => rfl

/-- A calculation whose result, if it has one, is settled. -/
def Calculation.Settles (calculation : Calculation Value) : Prop :=
  ∀ value, calculation.outcome = .ok value → value.isSettled = true

namespace Calculation

/-- A settled value that is simply given is settled. -/
theorem settles_pure
    {value : Value}
    (settled : value.isSettled = true) :
    Settles (pure value) := by
  rintro _ ⟨⟩
  exact settled

/-- What is made into a settled value is one, however it is calculated. -/
theorem settles_map
    {make : α → Value}
    (settled : ∀ result, (make result).isSettled = true)
    (calculation : Calculation α) :
    Settles (make <$> calculation) := by
  obtain ⟨log, fault | result⟩ := calculation
  · rintro _ ⟨⟩
  · rintro _ ⟨⟩
    exact settled result

end Calculation

/-- An operation that gives settled values. -/
abbrev OperationSettles (operation : List Value → Calculation Value) : Prop :=
  ∀ arguments, (operation arguments).Settles

namespace Registry

open Calculation PlanarExpr.Geometry

/-! ## Kinds of operations -/

/-- An operation without arguments is settled if its result is. -/
theorem nullary_settles
    {result : Calculation Value}
    (settles : result.Settles) :
    OperationSettles (nullary result) := by
  intro arguments
  unfold nullary
  split
  · exact settles
  · exact settles_pure rfl

/-- An operation on a number is settled if its results are. -/
theorem onNumber_settles
    {operation : Float → Calculation Value}
    (settles : ∀ x, (operation x).Settles) :
    OperationSettles (onNumber operation) := by
  intro arguments
  unfold onNumber
  split
  · exact settles _
  · exact settles_pure rfl

theorem onNumbers_settles
    {operation : Float → Float → Calculation Value}
    (settles : ∀ x y, (operation x y).Settles) :
    OperationSettles (onNumbers operation) := by
  intro arguments
  unfold onNumbers
  split
  · exact settles _ _
  · exact settles_pure rfl

theorem onRotation_settles
    {operation : Rotation → Calculation Value}
    (settles : ∀ rotation, (operation rotation).Settles) :
    OperationSettles (onRotation operation) := by
  intro arguments
  unfold onRotation
  split
  · exact settles _
  · exact settles_pure rfl

theorem onTranslation_settles
    {operation : Translation → Calculation Value}
    (settles : ∀ vector, (operation vector).Settles) :
    OperationSettles (onTranslation operation) := by
  intro arguments
  unfold onTranslation
  split
  · exact settles _
  · exact settles_pure rfl

/-- An operation on a centre and a turn is settled if its results are. -/
theorem onCentre_settles
    {operation : Translation → Rotation → Calculation Value}
    (settles : ∀ point turn, (operation point turn).Settles) :
    OperationSettles (onCentre operation) := by
  intro arguments
  unfold onCentre
  split
  · exact settles _ _
  · exact settles_pure rfl

/-! ## Tables -/

/-- Every entry of a table of overloads gives settled values. -/
abbrev TableSettles (table : List Overload) : Prop :=
  ∀ overload ∈ table, OperationSettles overload.run

theorem rotationFactory_settles
    (name summary : String)
    (make : Float → Calculation Rotation) :
    OperationSettles (rotationFactory name summary make).run :=
  onNumber_settles fun _ => settles_map (fun _ => rfl) _

theorem mathFunction_settles
    (name summary : String)
    (function : Float → Float) :
    OperationSettles (mathFunction name summary function).run :=
  onNumber_settles fun _ => settles_pure rfl

theorem mathFunction₂_settles
    (name summary : String)
    (function : Float → Float → Float) :
    OperationSettles (mathFunction₂ name summary function).run :=
  onNumbers_settles fun _ _ => settles_pure rfl

/-- Every static function gives settled values. -/
theorem functions_settle : TableSettles functions := by
  simp only [TableSettles, functions, List.forall_mem_cons]
  refine ⟨rotationFactory_settles _ _ _, rotationFactory_settles _ _ _,
    rotationFactory_settles _ _ _, ?_⟩
  refine ⟨mathFunction_settles _ _ _, mathFunction_settles _ _ _,
    mathFunction_settles _ _ _, mathFunction_settles _ _ _, mathFunction_settles _ _ _,
    mathFunction_settles _ _ _, mathFunction_settles _ _ _, ?_⟩
  exact ⟨mathFunction₂_settles _ _ _, mathFunction₂_settles _ _ _,
    mathFunction₂_settles _ _ _, mathFunction₂_settles _ _ _,
    mathFunction₂_settles _ _ _, List.forall_mem_nil _⟩

/-- Every constructor gives settled values. -/
theorem constructors_settle : TableSettles constructors := by
  have poses :
      TableSettles
        ([0, 2, 3].map fun count =>
          {
            name := "Pose2d"
            parameters := .any count
            summary := "pose from (), (translation, rotation) or (x, y, rotation)"
            run := fun arguments =>
              .pose <$> Pose.ofArguments (arguments.map Value.poseArgument)
          }) := by
    rintro overload member arguments
    obtain ⟨count, _, rfl⟩ := List.mem_map.mp member
    exact settles_map (fun _ => rfl) _
  unfold constructors
  refine List.forall_mem_append.mpr ⟨?_, poses⟩
  simp only [List.forall_mem_cons]
  refine ⟨nullary_settles (settles_pure rfl),
    onNumber_settles fun _ => settles_map (fun _ => rfl) _,
    onNumbers_settles fun _ _ => settles_map (fun _ => rfl) _,
    nullary_settles (settles_pure rfl),
    onNumbers_settles fun _ _ => settles_pure rfl,
    ?polar, List.forall_mem_nil _⟩
  case polar =>
    intro arguments
    dsimp only
    split <;> exact settles_pure rfl

/-- Every constant is settled. -/
theorem constants_settled : ∀ entry ∈ constants, entry.2.isSettled = true := by
  simp [constants, Value.isSettled]

/-- A method of rotations gives settled values if its operation does. -/
theorem rotationMethod_settles
    {name summary : String}
    {kinds : List ValueKind}
    {operation : Rotation → List Value → Calculation Value}
    (settles : ∀ receiver, OperationSettles (operation receiver)) :
    OperationSettles (rotationMethod name kinds summary operation).overload.run := by
  intro arguments
  simp only [rotationMethod]
  split
  · exact settles _ _
  · exact settles_pure rfl

theorem translationMethod_settles
    {name summary : String}
    {kinds : List ValueKind}
    {operation : Translation → List Value → Calculation Value}
    (settles : ∀ receiver, OperationSettles (operation receiver)) :
    OperationSettles (translationMethod name kinds summary operation).overload.run := by
  intro arguments
  simp only [translationMethod]
  split
  · exact settles _ _
  · exact settles_pure rfl

theorem poseMethod_settles
    {name summary : String}
    {kinds : List ValueKind}
    {operation : Pose → List Value → Calculation Value}
    (settles : ∀ receiver, OperationSettles (operation receiver)) :
    OperationSettles (poseMethod name kinds summary operation).overload.run := by
  intro arguments
  simp only [poseMethod]
  split
  · exact settles _ _
  · exact settles_pure rfl

/-- Every method of a table gives settled values. -/
abbrev MethodsSettle (table : List Method) : Prop :=
  ∀ method ∈ table, OperationSettles method.overload.run

/-- Every method of rotations gives settled values. -/
theorem rotationMethods_settle : MethodsSettle rotationMethods := by
  simp only [rotationMethods, List.forall_mem_cons]
  and_intros
  -- The methods without arguments read the rotation; the others make a new one.
  all_goals first | exact List.forall_mem_nil _ | refine rotationMethod_settles fun _ => ?_
  all_goals
    first
    | exact nullary_settles (settles_pure rfl)
    | exact nullary_settles (settles_map (fun _ => rfl) _)
    | exact onNumber_settles fun _ => settles_map (fun _ => rfl) _
    | exact onRotation_settles fun _ => settles_map (fun _ => rfl) _

theorem translationMethods_settle : MethodsSettle translationMethods := by
  simp only [translationMethods, List.forall_mem_cons]
  and_intros
  all_goals
    first | exact List.forall_mem_nil _ | refine translationMethod_settles fun _ => ?_
  all_goals
    first
    | exact nullary_settles (settles_pure rfl)
    | exact nullary_settles (settles_map (fun _ => rfl) _)
    | exact onNumber_settles fun _ => settles_pure rfl
    | exact onRotation_settles fun _ => settles_pure rfl
    | exact onTranslation_settles fun _ => settles_pure rfl
    | exact onCentre_settles fun _ _ => settles_pure rfl

theorem poseMethods_settle : MethodsSettle poseMethods := by
  simp only [poseMethods, List.forall_mem_cons]
  and_intros
  all_goals first | exact List.forall_mem_nil _ | refine poseMethod_settles fun _ => ?_
  all_goals
    first
    | exact nullary_settles (settles_pure rfl)
    | exact onNumber_settles fun _ => settles_map (fun _ => rfl) _
    | exact onRotation_settles fun _ => settles_map (fun _ => rfl) _
    | exact onCentre_settles fun _ _ => settles_map (fun _ => rfl) _

/-! ## Calls -/

/-- A call whose result, if there is one, is settled. -/
def CallSettles (call : Calculation (Option Value)) : Prop :=
  ∀ value, call.outcome = .ok (some value) → value.isSettled = true

/-- What is selected from a table of settling overloads gives settled values. -/
theorem callSettles_of_tableSettles
    {table : List Overload}
    (settles : TableSettles table)
    (name : String)
    (accepted arguments : List Value) :
    CallSettles
      (match Overload.select? table name accepted with
      | none => pure none
      | some overload => some <$> overload.run arguments) := by
  intro value outcome
  cases selected : Overload.select? table name accepted with
  | none =>
      rw [selected] at outcome
      cases outcome
  | some overload =>
      simp only [selected] at outcome
      have member := List.mem_of_find?_eq_some selected
      have runs := settles overload member arguments
      rcases calculated : overload.run arguments with ⟨log, fault | result⟩
      · rw [calculated] at outcome
        cases outcome
      · rw [calculated] at outcome runs
        cases outcome
        exact runs value rfl

/-- Calling a static function gives a settled value, if any. -/
theorem callFunction_settles
    (name : String)
    (arguments : List Value) :
    CallSettles (callFunction name arguments) :=
  callSettles_of_tableSettles functions_settle name arguments arguments

theorem callConstructor_settles
    (typeName : String)
    (arguments : List Value) :
    CallSettles (callConstructor typeName arguments) :=
  callSettles_of_tableSettles constructors_settle typeName arguments arguments

/-- Every method of a kind gives settled values. -/
theorem methodsOf_settle (receiver : ValueKind) : TableSettles (methodsOf receiver) := by
  intro overload member
  obtain ⟨method, listed, rfl⟩ := List.mem_map.mp member
  have isMethod : method ∈ methods := (List.mem_filter.mp listed).1
  have settle : MethodsSettle methods :=
    List.forall_mem_append.mpr
      ⟨List.forall_mem_append.mpr ⟨rotationMethods_settle, translationMethods_settle⟩,
        poseMethods_settle⟩
  exact settle method isMethod

/-- Calling a method gives a settled value, if any. -/
theorem callMethod_settles
    (receiver : Value)
    (name : String)
    (arguments : List Value) :
    CallSettles (callMethod receiver name arguments) := by
  unfold callMethod
  split
  · exact
      callSettles_of_tableSettles (methodsOf_settle receiver.kind) name arguments
        (receiver :: arguments)
  · rintro value ⟨⟩

/-- What a constant stands for is settled. -/
theorem isSettled_of_constant?
    {name : String}
    {value : Value}
    (found : constant? name = some value) :
    value.isSettled = true := by
  obtain ⟨before, behind, shape, -⟩ := List.lookup_eq_some_iff.mp found
  have member : (name, value) ∈ constants := by
    simp [shape]
  exact constants_settled _ member

end Registry

/-- What a field holds is settled. -/
theorem Value.isSettled_of_field?
    {receiver value : Value}
    {member : String}
    (found : receiver.field? member = some value) :
    value.isSettled = true := by
  unfold Value.field? at found
  split at found <;> cases found <;> rfl

end PlanarExpr
