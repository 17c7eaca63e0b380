import PlanarExpr.Builtin

namespace PlanarExpr

/-!
# Tables in groups

A table can be kept in groups, one for each key, so that a lookup only has to
try the items under one key. Within a group the items keep the order in which
they were registered. So the first item under a key that is accepted is the
first in the whole table that has the key and is accepted, and going through
the groups one after the other finds it as well.
-/

variable
  {κ α : Type}
  [DecidableEq κ]

/-- Puts an item behind the others under its key; a new key comes last. -/
def insertUnder
    (key : κ)
    (item : α) :
    List (κ × List α) →
    List (κ × List α)
  | [] => [(key, [item])]
  | (present, group) :: rest =>
      if present = key then (present, group ++ [item]) :: rest
      else (present, group) :: insertUnder key item rest

/-- An item is put into the first group if the key is that of the group. -/
theorem insertUnder_cons_self
    (key : κ)
    (item : α)
    (group : List α)
    (rest : List (κ × List α)) :
    insertUnder key item ((key, group) :: rest) = (key, group ++ [item]) :: rest :=
  if_pos rfl

/-- An item is put behind the first group if its key is another one. -/
theorem insertUnder_cons_of_ne
    {key present : κ}
    (other : present ≠ key)
    (item : α)
    (group : List α)
    (rest : List (κ × List α)) :
    insertUnder key item ((present, group) :: rest) =
      (present, group) :: insertUnder key item rest :=
  if_neg other

/-- Items in groups, each with the key of its items; no two groups have the same key. -/
structure Grouped (keyOf : α → κ) where
  groups : List (κ × List α)
  distinct : groups.Pairwise fun entry other => entry.1 ≠ other.1
  keyed : ∀ entry ∈ groups, ∀ item ∈ entry.2, keyOf item = entry.1

namespace Grouped

variable
  {keyOf : α → κ}
  {key : κ}
  {item : α}
  {groups : List (κ × List α)}

/-- A group has the new key or one that was there before. -/
theorem key_of_mem_insertUnder
    {entry : κ × List α}
    (member : entry ∈ insertUnder key item groups) :
    entry.1 = key ∨ ∃ present ∈ groups, present.1 = entry.1 := by
  induction groups with
  | nil =>
      rw [List.mem_singleton.mp member]
      exact .inl rfl
  | cons first rest inductionHypothesis =>
      obtain ⟨present, group⟩ := first
      by_cases same : present = key
      · rw [same, insertUnder_cons_self] at member
        rcases List.mem_cons.mp member with isFirst | inRest
        · rw [isFirst]
          exact .inl rfl
        · exact .inr ⟨entry, List.mem_cons_of_mem _ inRest, rfl⟩
      · rw [insertUnder_cons_of_ne same] at member
        rcases List.mem_cons.mp member with isFirst | inRest
        · exact .inr ⟨_, List.mem_cons_self .., by rw [isFirst]⟩
        · refine (inductionHypothesis inRest).imp_right ?_
          rintro ⟨found, inOld, keys⟩
          exact ⟨found, List.mem_cons_of_mem _ inOld, keys⟩

/-- Putting an item into its group keeps the keys different. -/
theorem distinct_insertUnder
    (distinct : groups.Pairwise fun entry other => entry.1 ≠ other.1) :
    (insertUnder key item groups).Pairwise fun entry other => entry.1 ≠ other.1 := by
  induction distinct with
  | nil => exact List.pairwise_singleton _ _
  | @cons first rest differs distinct inductionHypothesis =>
      obtain ⟨present, group⟩ := first
      by_cases same : present = key
      · rw [same, insertUnder_cons_self]
        exact .cons (same ▸ differs) distinct
      · rw [insertUnder_cons_of_ne same]
        refine .cons (fun entry member => ?_) inductionHypothesis
        rcases key_of_mem_insertUnder member with isKey | ⟨found, inRest, keys⟩
        · rw [isKey]
          exact same
        · rw [← keys]
          exact differs found inRest

/-- Putting an item into its group keeps every group to its key. -/
theorem keyed_insertUnder
    (keyed : ∀ entry ∈ groups, ∀ item ∈ entry.2, keyOf item = entry.1) :
    ∀ entry ∈ insertUnder (keyOf item) item groups, ∀ item ∈ entry.2, keyOf item = entry.1 := by
  induction groups with
  | nil => exact List.forall_mem_singleton.mpr (List.forall_mem_singleton.mpr rfl)
  | cons first rest inductionHypothesis =>
      obtain ⟨present, group⟩ := first
      obtain ⟨keyedFirst, keyedRest⟩ := List.forall_mem_cons.mp keyed
      by_cases same : present = keyOf item
      · rw [same, insertUnder_cons_self]
        refine List.forall_mem_cons.mpr ⟨List.forall_mem_append.mpr ⟨?_, ?_⟩, keyedRest⟩
        · exact fun item member => (keyedFirst item member).trans same
        · exact List.forall_mem_singleton.mpr rfl
      · rw [insertUnder_cons_of_ne same]
        exact List.forall_mem_cons.mpr ⟨keyedFirst, inductionHypothesis keyedRest⟩

/-- A table without groups. -/
def empty : Grouped keyOf where
  groups := []
  distinct := .nil
  keyed := List.forall_mem_nil _

/-- Registers an item under its key. -/
def register
    (table : Grouped keyOf)
    (item : α) :
    Grouped keyOf where
  groups := insertUnder (keyOf item) item table.groups
  distinct := distinct_insertUnder table.distinct
  keyed := keyed_insertUnder table.keyed

/-- The items of a list, registered one after the other. -/
def ofList
    (keyOf : α → κ)
    (items : List α) :
    Grouped keyOf :=
  items.foldl register empty

/-- The items under a key. -/
def group
    (table : Grouped keyOf)
    (key : κ) :
    List α :=
  (table.groups.lookup key).getD []

/-- All items, group by group. -/
def listed (table : Grouped keyOf) : List α :=
  table.groups.flatMap Prod.snd

/-! ## Lookups -/

/-- A lookup passes groups with other keys. -/
theorem lookup_cons_of_ne
    {present : κ}
    (other : present ≠ key)
    (group : List α) :
    List.lookup key ((present, group) :: groups) = groups.lookup key := by
  rw [List.lookup_cons, beq_eq_false_iff_ne.mpr other.symm]

/-- A registered item comes last under its key, and changes no other group. -/
theorem group_register
    (table : Grouped keyOf)
    (item : α)
    (key : κ) :
    (table.register item).group key =
      table.group key ++ [item].filter (keyOf · = key) := by
  obtain ⟨groups, distinct, keyed⟩ := table
  simp only [group, register]
  clear distinct keyed
  induction groups with
  | nil =>
      by_cases isKey : keyOf item = key
      · rw [isKey, insertUnder, List.lookup_cons_self, List.filter_cons_of_pos (by simpa)]
        rfl
      · rw [insertUnder, lookup_cons_of_ne isKey, List.filter_cons_of_neg (by simpa)]
        rfl
  | cons first rest inductionHypothesis =>
      obtain ⟨present, group⟩ := first
      by_cases same : present = keyOf item
      · rw [same, insertUnder_cons_self]
        by_cases isKey : keyOf item = key
        · rw [isKey, List.lookup_cons_self, List.lookup_cons_self,
            List.filter_cons_of_pos (by simpa)]
          rfl
        · rw [lookup_cons_of_ne isKey, lookup_cons_of_ne isKey,
            List.filter_cons_of_neg (by simpa)]
          exact (List.append_nil _).symm
      · rw [insertUnder_cons_of_ne same]
        by_cases isKey : present = key
        · rw [isKey, List.lookup_cons_self, List.lookup_cons_self,
            List.filter_cons_of_neg (by simpa using fun found => same (isKey.trans found.symm))]
          exact (List.append_nil _).symm
        · rw [lookup_cons_of_ne isKey, lookup_cons_of_ne isKey, inductionHypothesis]

/-- Under a key are the items with that key, in their order. -/
theorem group_ofList
    (items : List α)
    (key : κ) :
    (ofList keyOf items).group key = items.filter (keyOf · = key) := by
  have register_all
      (items : List α)
      (table : Grouped keyOf) :
      (items.foldl register table).group key =
        table.group key ++ items.filter (keyOf · = key) := by
    induction items generalizing table with
    | nil => rw [List.foldl_nil, List.filter_nil, List.append_nil]
    | cons item rest inductionHypothesis =>
        rw [List.foldl_cons, inductionHypothesis, group_register, List.append_assoc,
          ← List.filter_append, List.singleton_append]
  exact register_all items empty

/-- Of all items those with a key are the ones under it. -/
theorem filter_listed
    (table : Grouped keyOf)
    (key : κ) :
    table.listed.filter (keyOf · = key) = table.group key := by
  obtain ⟨groups, distinct, keyed⟩ := table
  simp only [listed, group]
  induction distinct with
  | nil => rfl
  | @cons first rest differs distinct inductionHypothesis =>
      obtain ⟨present, group⟩ := first
      obtain ⟨keyedFirst, keyedRest⟩ := List.forall_mem_cons.mp keyed
      rw [List.flatMap_cons, List.filter_append, inductionHypothesis keyedRest]
      by_cases same : present = key
      · have none : rest.lookup key = none :=
          List.lookup_eq_none_iff.mpr fun entry member =>
            bne_iff_ne.mpr (same ▸ differs entry member)
        have all : group.filter (keyOf · = key) = group :=
          List.filter_eq_self.mpr fun item member =>
            decide_eq_true ((keyedFirst item member).trans same)
        rw [same, all, List.lookup_cons_self, none]
        exact List.append_nil _
      · have none : group.filter (keyOf · = key) = [] :=
          List.filter_eq_nil_iff.mpr fun item member isKey =>
            same ((keyedFirst item member).symm.trans (of_decide_eq_true isKey))
        rw [none, lookup_cons_of_ne same]
        rfl

/-- The first accepted item under a key is the first of all that has the key and is accepted. -/
theorem find?_group
    (table : Grouped keyOf)
    (key : κ)
    (accepts : α → Bool) :
    (table.group key).find? accepts =
      table.listed.find? fun item => keyOf item = key ∧ accepts item = true := by
  rw [← filter_listed, List.find?_filter]
  simp only [decide_eq_true_eq]

/-- A lookup in the groups of a list finds what a search through the list finds. -/
theorem find?_group_ofList
    (items : List α)
    (key : κ)
    (accepts : α → Bool) :
    ((ofList keyOf items).group key).find? accepts =
      items.find? fun item => keyOf item = key ∧ accepts item = true := by
  rw [group_ofList, List.find?_filter]
  simp only [decide_eq_true_eq]

end Grouped

end PlanarExpr
