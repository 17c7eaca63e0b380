import PlanarExpr.Builtin.Reference
import PlanarExpr.Proofs.KeyedTables

namespace PlanarExpr

/-!
# The reference and the lookups

The registry is searched in groups of operations with the same name and number
of parameters, and the reference lists it entry by entry. Both show the same
operations: an operation is found for a name and arguments exactly if an entry
has that name, as many parameters as there are arguments, and either their
kinds or none. Methods that are not allowed are neither listed nor called.
-/

/-- Kinds of values have different names. -/
theorem ValueKind.text_injective : Function.Injective ValueKind.text := by
  have readBack : ∀ kind, ofText? kind.text = some kind := by
    intro kind
    cases kind <;> rfl
  intro kind kind' same
  have readings := congrArg ofText? same
  rw [readBack, readBack] at readings
  exact Option.some.inj readings

/-- What an overload is registered under. -/
def Overload.key (overload : Overload) : String × Nat :=
  (overload.name, overload.arity)

/-- What a method is registered under. -/
def Method.key (method : Method) : ValueKind × String × Nat :=
  (method.receiver, method.overload.key)

/-- Parameters take arguments of their number whose kinds are the declared ones, if any are. -/
theorem Parameters.accept_iff
    (parameters : Parameters)
    (given : List ValueKind) :
    parameters.accept given = true ↔
      parameters.arity = given.length ∧
        (parameters.kinds? = none ∨ parameters.kinds? = some given) := by
  cases parameters with
  | kinds declared =>
      rw [accept, decide_eq_true_eq, arity, kinds?, Option.some.injEq]
      constructor
      · rintro rfl
        exact ⟨rfl, .inr rfl⟩
      · rintro ⟨-, (isNone | same)⟩
        · cases isNone
        · exact same.symm
  | any count =>
      rw [accept, decide_eq_true_eq, arity, kinds?]
      exact ⟨fun same => ⟨same.symm, .inl rfl⟩, fun ⟨same, _⟩ => same.symm⟩

/-- An overload takes arguments of its number whose kinds are the declared ones, if any are. -/
theorem Overload.accepts_iff
    (overload : Overload)
    (arguments : List Value) :
    overload.accepts arguments = true ↔
      overload.arity = arguments.length ∧
        (overload.parameters.kinds? = none ∨
          overload.parameters.kinds? = some (arguments.map Value.kind)) := by
  rw [accepts, Parameters.accept_iff, List.length_map, arity]

/-- An overload that takes the arguments is found under their number. -/
theorem Overload.key_and_accepts_iff
    (overload : Overload)
    (name : String)
    (arguments : List Value) :
    overload.key = (name, arguments.length) ∧ overload.accepts arguments = true ↔
      overload.name = name ∧ overload.accepts arguments = true := by
  refine and_congr_left fun accepts => ?_
  rw [key, Prod.mk.injEq, and_iff_left ((overload.accepts_iff arguments).mp accepts).1]

namespace Registry

variable
  {table : List Overload}
  {overload : Overload}
  {name : String}
  {arguments : List Value}

/-! ## Entries -/

/-- An entry says that the name can be called with the arguments. -/
def Entry.Admits
    (entry : Entry)
    (name : String)
    (arguments : List Value) :
    Prop :=
  entry.name = name ∧ entry.arity = arguments.length ∧
    (entry.parameters = none ∨ entry.parameters = some (arguments.map (·.kind.text)))

instance (entry : Entry) : Decidable (entry.Admits name arguments) :=
  inferInstanceAs (Decidable (_ ∧ _ ∧ _))

/-- The entry of an overload admits what the overload takes, under its name. -/
theorem Entry.admits_ofOverload_iff :
    (ofOverload overload).Admits name arguments ↔
      overload.name = name ∧ overload.accepts arguments = true := by
  have kindTexts : ∀ declared : List ValueKind,
      declared.map ValueKind.text = arguments.map (·.kind.text) ↔
        declared = arguments.map Value.kind := by
    intro declared
    rw [← List.map_inj_right ValueKind.text_injective, List.map_map]
    rfl
  rw [overload.accepts_iff]
  refine and_congr_right fun _ => and_congr_right fun _ => ?_
  cases kinds : overload.parameters.kinds? with
  | none => simp only [ofOverload, kinds, Option.map_none, true_or]
  | some declared =>
      simp only [ofOverload, kinds, Option.map_some, reduceCtorEq, false_or,
        Option.some.injEq, kindTexts]

/-! ## Tables -/

/-- A search by name takes the first overload with the key of the call that takes the arguments. -/
theorem select?_eq_find?_key :
    Overload.select? table name arguments =
      table.find? fun overload =>
        overload.key = (name, arguments.length) ∧ overload.accepts arguments = true := by
  rw [Overload.select?]
  congr
  funext overload
  rw [Bool.eq_iff_iff, decide_eq_true_eq, overload.key_and_accepts_iff, Bool.and_eq_true,
    beq_iff_eq]

/-- A search by name is a search in the group of the key. -/
theorem select?_eq_find?_group :
    Overload.select? table name arguments =
      ((Grouped.ofList Overload.key table).group (name, arguments.length)).find?
        (·.accepts arguments) := by
  rw [Grouped.find?_group_ofList, select?_eq_find?_key]

/-- Going through the groups one after the other finds what a search by key does. -/
theorem select?_listed :
    Overload.select? (Grouped.ofList Overload.key table).listed name arguments =
      Overload.select? table name arguments := by
  rw [select?_eq_find?_key, ← Grouped.find?_group, ← select?_eq_find?_group]

/-- The entry of what is found is the first one that admits the call. -/
theorem map_select? :
    (Overload.select? table name arguments).map Entry.ofOverload =
      (table.map Entry.ofOverload).find? (·.Admits name arguments) := by
  rw [List.find?_map, Overload.select?]
  congr
  funext overload
  rw [Bool.eq_iff_iff, Function.comp_apply, decide_eq_true_eq, Entry.admits_ofOverload_iff,
    Bool.and_eq_true, beq_iff_eq]

/--
A table is searched by name and number of arguments, and entries are listed for
tools. Both come from the same groups, and what a search finds is the overload
of the first entry that admits the arguments.
-/
structure Matches
    (table : List Overload)
    (found? : String → List Value → Option Overload)
    (entries : List Entry) :
    Prop where
  searched :
    ∀ name arguments,
      found? name arguments =
        ((Grouped.ofList Overload.key table).group (name, arguments.length)).find?
          (·.accepts arguments)
  listed : entries = (Grouped.ofList Overload.key table).listed.map Entry.ofOverload
  finds :
    ∀ name arguments,
      found? name arguments ≠ none ↔ ∃ entry ∈ entries, entry.Admits name arguments
  first :
    ∀ name arguments,
      (found? name arguments).map Entry.ofOverload = entries.find? (·.Admits name arguments)

/-- Every table is searched as its groups are listed. -/
theorem matches_select? (table : List Overload) :
    Matches table (Overload.select? table)
      ((Grouped.ofList Overload.key table).listed.map Entry.ofOverload) where
  searched name arguments := select?_eq_find?_group
  listed := rfl
  first name arguments := by rw [← map_select?, select?_listed]
  finds name arguments := by
    rw [← Option.isSome_iff_ne_none, ← select?_listed, ← Option.isSome_map, map_select?,
      List.find?_isSome]
    simp only [decide_eq_true_eq]

/-! ## Methods -/

/-- The entries of the methods of a kind. -/
def Reference.methodsOf
    (whole : Reference)
    (kind : ValueKind) :
    List Entry :=
  (whole.methods.lookup kind).getD []

/-- A method is searched for in the group of its key. -/
theorem method?_eq_find?_group
    (kind : ValueKind)
    (name : String)
    (arguments : List Value) :
    method? kind name arguments =
      (((Grouped.ofList Method.key methods).group (kind, name, arguments.length)).find?
        (·.overload.accepts arguments)).map Method.overload := by
  rw [Grouped.find?_group_ofList, method?, Overload.select?, methodsOf, List.find?_map,
    List.find?_filter]
  congr
  funext method
  rw [Bool.eq_iff_iff, Function.comp_apply, decide_eq_true_eq, decide_eq_true_eq,
    decide_eq_true_eq, Bool.and_eq_true, beq_iff_eq, Method.key, Prod.mk.injEq, and_assoc,
    method.overload.key_and_accepts_iff]

/-- A listing by kinds has under a listed kind what belongs to it, and else nothing. -/
theorem lookup_map_pair
    (entries : ValueKind → List Entry)
    (kinds : List ValueKind)
    (kind : ValueKind) :
    ((kinds.map fun present => (present, entries present)).lookup kind).getD [] =
      if kind ∈ kinds then entries kind else [] := by
  induction kinds with
  | nil => rfl
  | cons present rest inductionHypothesis =>
      rw [List.map_cons]
      by_cases same : present = kind
      · rw [same, List.lookup_cons_self, if_pos (List.mem_cons_self ..)]
        rfl
      · have member : kind ∈ present :: rest ↔ kind ∈ rest :=
          List.mem_cons.trans (or_iff_right (Ne.symm same))
        rw [Grouped.lookup_cons_of_ne same, inductionHypothesis]
        simp only [member]

/-- Under a kind the reference lists its methods that are allowed. -/
theorem methodsOf_reference (kind : ValueKind) :
    reference.methodsOf kind =
      ((callableMethods.filter fun method => method.receiver = kind).map (·.overload)).map
        Entry.ofOverload := by
  have asPairs :
      reference.methods =
        (callableMethods.map (·.receiver)).eraseDups.map fun present =>
          (present,
            ((callableMethods.filter fun method => method.receiver = present).map
              (·.overload)).map Entry.ofOverload) :=
    List.map_map
  rw [Reference.methodsOf, asPairs, lookup_map_pair]
  split
  · rfl
  · next absent =>
      have none : (callableMethods.filter fun method => method.receiver = kind) = [] :=
        List.filter_eq_nil_iff.mpr fun method member isKind =>
          absent
            (List.mem_eraseDups.mpr
              (List.mem_map.mpr ⟨method, member, of_decide_eq_true isKind⟩))
      rw [none]
      rfl

/-- The method that a call comes to, if its name is allowed. -/
def callable?
    (kind : ValueKind)
    (name : String)
    (arguments : List Value) :
    Option Overload :=
  if isMethodAllowed name then method? kind name arguments else none

/-- To allow a name first is to search among the methods with allowed names. -/
theorem callable?_eq_select?
    (kind : ValueKind)
    (name : String)
    (arguments : List Value) :
    callable? kind name arguments =
      Overload.select?
        ((callableMethods.filter fun method => method.receiver = kind).map (·.overload))
        name arguments := by
  rw [callable?, method?, methodsOf, callableMethods, Overload.select?, Overload.select?,
    List.find?_map, List.find?_map, List.find?_filter, List.find?_filter, List.find?_filter]
  split
  · next allowed =>
      congr
      funext method
      refine decide_eq_decide.mpr ⟨fun found => ⟨?_, decide_eq_true found⟩, fun found => ?_⟩
      · have sameName := beq_iff_eq.mp (Bool.and_eq_true_iff.mp found.2).1
        rw [sameName]
        exact allowed
      · exact of_decide_eq_true found.2
  · next refused =>
      refine (congrArg (Option.map _) (List.find?_eq_none.mpr fun method _ found => ?_)).symm
      obtain ⟨allowed, isFound⟩ := of_decide_eq_true found
      have sameName := beq_iff_eq.mp (Bool.and_eq_true_iff.mp (of_decide_eq_true isFound).2).1
      rw [sameName] at allowed
      exact refused allowed

/-- The entry of a method that can be called is the first one that admits the call. -/
theorem map_callable?
    (kind : ValueKind)
    (name : String)
    (arguments : List Value) :
    (callable? kind name arguments).map Entry.ofOverload =
      (reference.methodsOf kind).find? (·.Admits name arguments) := by
  rw [methodsOf_reference, ← map_select?, callable?_eq_select?]

/-- A method can be called exactly if an entry under its kind admits the call. -/
theorem callable?_ne_none_iff
    (kind : ValueKind)
    (name : String)
    (arguments : List Value) :
    callable? kind name arguments ≠ none ↔
      ∃ entry ∈ reference.methodsOf kind, entry.Admits name arguments := by
  rw [← Option.isSome_iff_ne_none, ← Option.isSome_map, map_callable?, List.find?_isSome]
  simp only [decide_eq_true_eq]

/-- A method that can be called is run with its receiver in front. -/
theorem callMethod_of_callable?_eq_some
    {receiver : Value}
    (isCallable : callable? receiver.kind name arguments = some overload) :
    callMethod receiver name arguments = some <$> overload.run (receiver :: arguments) := by
  obtain ⟨allowed, isMethod⟩ := Option.ite_none_right_eq_some.mp isCallable
  rw [callMethod, if_pos allowed, isMethod]

/-- A call of anything else has no result. -/
theorem callMethod_of_callable?_eq_none
    {receiver : Value}
    (notCallable : callable? receiver.kind name arguments = none) :
    (callMethod receiver name arguments).outcome = .ok none := by
  unfold callable? at notCallable
  unfold callMethod
  split at notCallable
  · next allowed => rw [if_pos allowed, notCallable, Calculation.pure_def]
  · next refused =>
      rw [if_neg refused]
      rfl

/-- An implementation gives a value or a fault. -/
theorem outcome_map_some_ne
    (calculation : Calculation Value) :
    (some <$> calculation).outcome ≠ .ok none := by
  obtain ⟨log, outcome⟩ := calculation
  cases outcome <;> nofun

/--
Methods are searched by kind, name and number of arguments, and those that are
allowed are listed for tools under their kind. A call has no result exactly if
no entry under the kind of the receiver admits the arguments; else it runs the
overload of the first entry that does.
-/
structure MethodsMatch (entries : ValueKind → List Entry) : Prop where
  searched :
    ∀ kind name arguments,
      method? kind name arguments =
        (((Grouped.ofList Method.key methods).group (kind, name, arguments.length)).find?
          (·.overload.accepts arguments)).map Method.overload
  listed :
    ∀ kind,
      entries kind =
        (((Grouped.ofList Method.key methods).listed.filter fun method =>
          method.receiver = kind ∧ isMethodAllowed method.overload.name = true).map
            Method.overload).map Entry.ofOverload
  reaches :
    ∀ receiver name arguments,
      (callMethod receiver name arguments).outcome ≠ .ok none ↔
        ∃ entry ∈ entries receiver.kind, entry.Admits name arguments
  first :
    ∀ (receiver : Value) name arguments entry,
      (entries receiver.kind).find? (·.Admits name arguments) = some entry →
      ∃ overload,
        method? receiver.kind name arguments = some overload ∧
          Entry.ofOverload overload = entry ∧
          callMethod receiver name arguments = some <$> overload.run (receiver :: arguments)

/-- Methods are searched as the reference lists them. -/
theorem methodsMatch_reference : MethodsMatch reference.methodsOf where
  searched := method?_eq_find?_group
  listed kind := by
    have inOrder : (Grouped.ofList Method.key methods).listed = methods := rfl
    rw [methodsOf_reference, callableMethods, inOrder, List.filter_filter]
    simp only [Bool.decide_and, Bool.decide_eq_true]
  reaches receiver name arguments := by
    rw [← callable?_ne_none_iff]
    cases isCallable : callable? receiver.kind name arguments with
    | none => exact not_congr (iff_of_true (callMethod_of_callable?_eq_none isCallable) rfl)
    | some overload =>
        rw [callMethod_of_callable?_eq_some isCallable]
        exact iff_of_true (outcome_map_some_ne _) nofun
  first receiver name arguments entry found := by
    rw [← map_callable?, Option.map_eq_some_iff] at found
    obtain ⟨overload, isCallable, isEntry⟩ := found
    have isMethod := (Option.ite_none_right_eq_some.mp isCallable).2
    exact ⟨overload, isMethod, isEntry, callMethod_of_callable?_eq_some isCallable⟩

/-! ## Constants -/

/-- With different names, a lookup finds exactly the entries. -/
theorem lookup_eq_some_iff_mem
    {entries : List (String × Value)}
    (distinct : (entries.map Prod.fst).Nodup)
    {value : Value} :
    entries.lookup name = some value ↔ (name, value) ∈ entries := by
  induction entries with
  | nil => exact iff_of_false nofun List.not_mem_nil
  | cons entry rest inductionHypothesis =>
      obtain ⟨present, shown⟩ := entry
      obtain ⟨absent, distinctRest⟩ := List.nodup_cons.mp distinct
      by_cases same : name = present
      · have notLater : (present, value) ∉ rest := fun later =>
          absent (List.mem_map.mpr ⟨_, later, rfl⟩)
        rw [same, List.lookup_cons_self, Option.some.injEq, List.mem_cons, or_iff_left notLater,
          Prod.mk.injEq, and_iff_right rfl]
        exact eq_comm
      · have notFirst : (name, value) ≠ (present, shown) := fun isFirst =>
          same (congrArg Prod.fst isFirst)
        rw [List.lookup_cons, beq_eq_false_iff_ne.mpr same, List.mem_cons,
          or_iff_right notFirst]
        exact inductionHypothesis distinctRest

/-- Under the name of a constant the reference shows its value in words. -/
theorem mem_constants_iff
    (name text : String) :
    (name, text) ∈ reference.constants ↔
      ∃ value, constant? name = some value ∧ constantText value = text := by
  have distinct : (constants.map Prod.fst).Nodup := by decide +kernel
  simp only [constant?, lookup_eq_some_iff_mem distinct]
  rw [reference, List.mem_map]
  constructor
  · rintro ⟨⟨_, value⟩, member, same⟩
    obtain ⟨rfl, isText⟩ := Prod.mk.inj same
    exact ⟨value, List.mem_mergeSort.mp member, isText⟩
  · rintro ⟨value, member, rfl⟩
    exact ⟨_, List.mem_mergeSort.mpr member, rfl⟩

/--
What the reference lists is what can be called: static functions, constructors
and methods with the arguments that their entries admit, and constants by their
names.
-/
theorem reference_matches_lookups :
    Matches functions function? reference.functions ∧
      Matches constructors constructor? reference.constructors ∧
      MethodsMatch reference.methodsOf ∧
      ∀ name, constant? name ≠ none ↔ name ∈ reference.constants.map Prod.fst := by
  -- Overloads with the same key stand next to one another, so grouping keeps the order.
  refine
    ⟨matches_select? functions, matches_select? constructors, methodsMatch_reference,
      fun name => ?_⟩
  rw [Option.ne_none_iff_exists', List.mem_map]
  constructor
  · rintro ⟨value, isConstant⟩
    exact ⟨_, (mem_constants_iff name _).mpr ⟨value, isConstant, rfl⟩, rfl⟩
  · rintro ⟨⟨_, text⟩, member, rfl⟩
    obtain ⟨value, isConstant, -⟩ := (mem_constants_iff _ text).mp member
    exact ⟨value, isConstant⟩

end Registry

end PlanarExpr
