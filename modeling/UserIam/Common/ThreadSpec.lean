import Mathlib.Data.Finset.Card
import Mathlib.Data.Option.Basic
import UserIam.Common.ThreadConservation
import UserIam.Conc.Component

/-!
# The groups as their users see them

A group admits a number of transactions at a time.  Which pools serve them, which pools wait for
the next ones and what the threads are doing decides no answer of a call.
-/

namespace UserIam.Common

open Conc

/-! ## 1. What a group is for -/

/-- A group with the transactions that are active in it. -/
structure GroupView where
  capacity : Nat
  active : Finset UInt64
  bounded : active.card ≤ capacity
  nonzero : 0 ∉ active

namespace GroupView

variable {view : GroupView} {transaction : UInt64}

def new (capacity : Nat) : GroupView := ⟨capacity, ∅, Nat.zero_le _, Finset.notMem_empty _⟩

/-- There is room for the transaction. -/
def Admits (view : GroupView) (transaction : UInt64) : Prop :=
  transaction ≠ 0 ∧ view.active.card < view.capacity ∧ transaction ∉ view.active

instance (view : GroupView) (transaction : UInt64) : Decidable (view.Admits transaction) :=
  inferInstanceAs (Decidable (_ ∧ _))

def insert (view : GroupView) (transaction : UInt64) (h : view.Admits transaction) :
    GroupView where
  capacity := view.capacity
  active := Insert.insert transaction view.active
  bounded := (Finset.card_insert_le _ _).trans h.2.1
  nonzero := by
    rw [Finset.mem_insert, not_or]
    exact ⟨h.1.symm, view.nonzero⟩

def erase (view : GroupView) (transaction : UInt64) : GroupView where
  capacity := view.capacity
  active := view.active.erase transaction
  bounded := (Finset.card_le_card (Finset.erase_subset _ _)).trans view.bounded
  nonzero := fun h => view.nonzero (Finset.mem_of_mem_erase h)

end GroupView

abbrev GroupTable := String → Option GroupView

namespace GroupTable

def create (name : String) (capacity : Nat) (table : GroupTable) : Bool × GroupTable :=
  match table name with
  | some _ => (false, table)
  | none => (true, Function.update table name (some (.new capacity)))

def destroy (name : String) (table : GroupTable) : Bool × GroupTable :=
  ((table name).isSome, Function.update table name none)

def retain (name : String) (transaction : UInt64) (table : GroupTable) : Bool × GroupTable :=
  match table name with
  | none => (false, table)
  | some view =>
    if h : view.Admits transaction then
      (true, Function.update table name (some (view.insert transaction h)))
    else (false, table)

def release (name : String) (transaction : UInt64) (table : GroupTable) : Bool × GroupTable :=
  match table name with
  | none => (false, table)
  | some view =>
    if transaction ∈ view.active then
      (true, Function.update table name (some (view.erase transaction)))
    else (false, table)

def post (name : String) (transaction : UInt64) (table : GroupTable) : Bool × GroupTable :=
  ((table name).any fun view => transaction ∈ view.active, table)

end GroupTable

variable {α : Type}

/-- What a call answers and leaves behind, in terms of the transactions alone. -/
def GroupCall.specify (call : GroupCall α) (table : GroupTable) : Bool × GroupTable :=
  match call with
  | .createThreadGroup name threadNum => table.create name threadNum.toNat
  | .destroyThreadGroup name => table.destroy name
  | .retainTaskThread name transaction _ => table.retain name transaction
  | .releaseTaskThread name transaction => table.release name transaction
  | .postTask name transaction _ => table.post name transaction

/-- The groups as they should be.  Only a call has an answer. -/
def groupSpec : Component (GroupStep α) (Option Bool) GroupTable where
  initial _ := none
  apply step table :=
    match step with
    | .call call => (some (call.specify table).1, (call.specify table).2)
    | .startTask _ | .endTask _ => (none, table)

/-- The groups as they are. -/
def threadGroups : Component (GroupStep α) (Option Bool) (ThreadGroups α) where
  initial := .empty
  apply step groups :=
    match step with
    | .call call => (some (call.apply groups).1, (GroupStep.call call).apply groups)
    | .startTask p => (none, (GroupStep.startTask p : GroupStep α).apply groups)
    | .endTask p => (none, (GroupStep.endTask p : GroupStep α).apply groups)

/-! ## 2. The view of a state -/

/-- The group has an entry for each active transaction, and no other. -/
structure ThreadGroup.Shows (group : ThreadGroup) (view : GroupView) : Prop where
  capacity : group.threadNum = view.capacity
  active : (group.retains.map (·.1)).toFinset = view.active

namespace ThreadGroup.Shows

variable {group : ThreadGroup} {view : GroupView} {transaction : UInt64}

theorem isSome_lookup (h : group.Shows view) :
    (group.retains.lookup transaction).isSome = true ↔ transaction ∈ view.active := by
  rw [← h.active, List.mem_toFinset, List.lookup_isSome_iff, List.mem_map]
  exact exists_congr fun _ => and_congr_right fun _ => beq_iff_eq.trans eq_comm

theorem length_retains (h : group.Shows view) (hkeys : (group.retains.map (·.1)).Nodup) :
    group.retains.length = view.active.card := by
  rw [← h.active, List.toFinset_card_of_nodup hkeys, List.length_map]

theorem insert (h : group.Shows view) (ptr : ThreadPoolPtr) (hadmits : view.Admits transaction) :
    Shows { group with retains := (transaction, ptr) :: group.retains }
      (view.insert transaction hadmits) where
  capacity := h.capacity
  active := by
    rw [List.map_cons, List.toFinset_cons, h.active]
    rfl

theorem erase (h : group.Shows view) :
    (ThreadGroups.eraseTransaction transaction group).Shows (view.erase transaction) where
  capacity := h.capacity
  active := by
    have hkeys : (ThreadGroups.eraseTransaction transaction group).retains.map (·.1) =
        (group.retains.map (·.1)).filter (· ≠ transaction) := by
      rw [ThreadGroups.eraseTransaction, List.filter_map]
      rfl
    rw [hkeys, List.toFinset_filter, h.active]
    ext transaction'
    simp [GroupView.erase, and_comm]

end ThreadGroup.Shows

namespace ThreadGroups

/-- The groups of the table are there, and no other. -/
def Shows (groups : ThreadGroups α) (table : GroupTable) : Prop :=
  ∀ name, Option.Rel ThreadGroup.Shows (groups.pools.lookup name) (table name)

variable {groups groups' : ThreadGroups α} {group : ThreadGroup} {name : String}
  {table : GroupTable} {view : GroupView}

theorem Shows.of_pools (h : groups.Shows table) (hpools : groups'.pools = groups.pools) :
    groups'.Shows table := fun name => hpools ▸ h name

theorem Shows.of_none (h : groups.Shows table) (hname : groups.pools.lookup name = none) :
    table name = none := by
  have hrel := h name
  rw [hname] at hrel
  cases htable : table name with
  | none => rfl
  | some view =>
    rw [htable] at hrel
    cases hrel

theorem Shows.of_some (h : groups.Shows table) (hname : groups.pools.lookup name = some group) :
    ∃ view, table name = some view ∧ group.Shows view := by
  have hrel := h name
  rw [hname] at hrel
  cases htable : table name with
  | none =>
    rw [htable] at hrel
    cases hrel
  | some view =>
    rw [htable] at hrel
    cases hrel with
    | some hview => exact ⟨view, rfl, hview⟩

/-- One group changes. -/
theorem Shows.update (h : groups.Shows table) {view : Option GroupView}
    (hname : Option.Rel ThreadGroup.Shows (groups'.pools.lookup name) view)
    (hother : ∀ name' ≠ name, groups'.pools.lookup name' = groups.pools.lookup name') :
    groups'.Shows (Function.update table name view) := by
  intro name'
  by_cases hne : name' = name
  · subst hne
    rwa [Function.update_self]
  · rw [Function.update_of_ne hne, hother name' hne]
    exact h name'

/-! ## 3. The calls -/

theorem lookup_setGroup_of_ne {name' : String} (hne : name' ≠ name) :
    (groups.setGroup name group).pools.lookup name' = groups.pools.lookup name' := by
  show (groups.pools.map _).lookup name' = groups.pools.lookup name'
  induction groups.pools with
  | nil => rfl
  | cons entry pools ih =>
    rw [List.map_cons]
    split
    · next heq =>
      rw [List.lookup_cons, List.lookup_cons, beq_false_of_ne hne, heq, beq_false_of_ne hne, ih]
    · rw [List.lookup_cons, List.lookup_cons, ih]

theorem lookup_filter_ne {pools : List (String × ThreadGroup)} {name' : String} :
    (pools.filter (·.1 ≠ name)).lookup name' =
      if name' = name then none else pools.lookup name' := by
  induction pools with
  | nil => simp
  | cons entry pools ih =>
    by_cases hentry : entry.1 = name
    · rw [List.filter_cons_of_neg (by simpa using hentry), ih, List.lookup_cons]
      by_cases hne : name' = name
      · rw [if_pos hne, if_pos hne]
      · rw [if_neg hne, if_neg hne, hentry, beq_false_of_ne hne]
    · rw [List.filter_cons_of_pos (by simpa using hentry), List.lookup_cons, List.lookup_cons, ih]
      by_cases hne : name' = name
      · rw [if_pos hne, if_pos hne, hne, beq_false_of_ne (Ne.symm hentry)]
      · rw [if_neg hne, if_neg hne]

/-- A call of both sides: the same answer, and the table still shows the groups. -/
def Agree (result : Bool × ThreadGroups α) (expected : Bool × GroupTable) : Prop :=
  result.1 = expected.1 ∧ result.2.Shows expected.2

theorem Shows.createThreadGroup (h : groups.Shows table) (name : String) (threadNum : Nat) :
    Agree (groups.createThreadGroup name threadNum) (table.create name threadNum) := by
  unfold ThreadGroups.createThreadGroup GroupTable.create
  cases hname : groups.pools.lookup name with
  | some group =>
    obtain ⟨view, hview, -⟩ := h.of_some hname
    rw [hview]
    exact ⟨rfl, h⟩
  | none =>
    rw [h.of_none hname]
    refine ⟨rfl, h.update ?_ fun name' hne => ?_⟩
    · rw [List.lookup_append, hname, Option.none_or, List.lookup_cons_self]
      exact .some ⟨rfl, rfl⟩
    · rw [List.lookup_append, List.lookup_cons, beq_false_of_ne hne, List.lookup_nil,
        Option.or_none]

theorem Shows.destroyThreadGroup (h : groups.Shows table) (name : String) :
    Agree (groups.destroyThreadGroup name) (table.destroy name) := by
  unfold ThreadGroups.destroyThreadGroup GroupTable.destroy
  cases hname : groups.pools.lookup name with
  | none =>
    have hnone := h.of_none hname
    refine ⟨by rw [hnone]; rfl, ?_⟩
    rw [Function.update_eq_self_iff.mpr hnone.symm]
    exact h
  | some group =>
    obtain ⟨view, hview, -⟩ := h.of_some hname
    have hpools : (groups.releaseAllTaskThread name group).pools = groups.pools :=
      (foldl_ensureTransaction _ name groups).1
    refine ⟨by rw [hview]; rfl, h.update ?_ fun name' hne => ?_⟩
    · dsimp only
      rw [hpools, lookup_filter_ne, if_pos rfl]
      exact .none
    · dsimp only
      rw [hpools, lookup_filter_ne, if_neg hne]

theorem Shows.retainTaskThread (h : groups.Shows table) (hinv : groups.ThreadInv) (name : String)
    (transaction : UInt64) :
    Agree (groups.retainTaskThread name transaction) (table.retain name transaction) := by
  unfold ThreadGroups.retainTaskThread GroupTable.retain
  cases hname : groups.pools.lookup name with
  | none =>
    rw [h.of_none hname]
    exact ⟨rfl, h⟩
  | some group =>
    obtain ⟨view, hview, hgroup⟩ := h.of_some hname
    have hlength := hgroup.length_retains (hinv.transactions _ (mem_of_lookup hname))
    rw [hview]
    dsimp only
    -- the three checks are what `Admits` says
    by_cases hadmits : view.Admits transaction
    · obtain ⟨hzero, hroom, hnew⟩ := hadmits
      have hpools : groups.takeFree.2.pools = groups.pools := takeFree_pools
      rw [if_neg hzero, if_neg (by rw [hgroup.capacity, hlength]; omega),
        if_neg (hgroup.isSome_lookup.not.mpr hnew), dif_pos ⟨hzero, hroom, hnew⟩]
      refine ⟨rfl, h.update ?_ fun name' hne => ?_⟩
      · rw [ensureTransaction, addTask_pools, lookup_setGroup (hpools ▸ hname)]
        exact .some (hgroup.insert _ _)
      · rw [ensureTransaction, addTask_pools, lookup_setGroup_of_ne hne, hpools]
    · rw [dif_neg hadmits]
      split
      · exact ⟨rfl, h⟩
      · next hzero =>
        split
        · exact ⟨rfl, h⟩
        · next hroom =>
          rw [if_pos]
          · exact ⟨rfl, h⟩
          · rw [hgroup.isSome_lookup]
            by_contra hnew
            refine hadmits ⟨hzero, ?_, hnew⟩
            rw [hgroup.capacity, hlength] at hroom
            omega

theorem Shows.releaseTaskThread (h : groups.Shows table) (name : String) (transaction : UInt64) :
    Agree (groups.releaseTaskThread name transaction) (table.release name transaction) := by
  unfold ThreadGroups.releaseTaskThread GroupTable.release
  cases hname : groups.pools.lookup name with
  | none =>
    rw [h.of_none hname]
    exact ⟨rfl, h⟩
  | some group =>
    obtain ⟨view, hview, hgroup⟩ := h.of_some hname
    rw [hview]
    dsimp only
    by_cases hactive : transaction ∈ view.active
    · have hzero : transaction ≠ 0 := fun hzero => view.nonzero (hzero ▸ hactive)
      obtain ⟨ptr, hptr⟩ := Option.isSome_iff_exists.mp (hgroup.isSome_lookup.mpr hactive)
      rw [if_neg hzero, hptr, if_pos hactive]
      refine ⟨rfl, h.update ?_ fun name' hne => ?_⟩
      · dsimp only
        rw [lookup_setGroup (by rw [ensureTransaction, addTask_pools, hname])]
        exact .some hgroup.erase
      · dsimp only
        rw [lookup_setGroup_of_ne hne, ensureTransaction, addTask_pools]
    · have hnone : group.retains.lookup transaction = none :=
        Option.not_isSome_iff_eq_none.mp (hgroup.isSome_lookup.not.mpr hactive)
      rw [if_neg hactive, hnone, ite_self]
      exact ⟨rfl, h⟩

theorem Shows.postTask (h : groups.Shows table) (hinv : groups.ThreadInv) (name : String)
    (transaction : UInt64) (task : α) :
    Agree (groups.postTask name transaction task) (table.post name transaction) := by
  have hnonNull : groups.NonNull :=
    ⟨fun ptr hptr => hinv.nonNull ptr (List.mem_append_right _ hptr),
      fun entry hentry r hr => hinv.nonNull r.2 (List.mem_append_left _
        (List.mem_flatMap.mpr ⟨entry, hentry, List.mem_map_of_mem hr⟩))⟩
  obtain ⟨ptr, hpost⟩ := postTask_eq hnonNull name transaction task
  rw [hpost]
  refine ⟨?_, h.of_pools addTask_pools⟩
  unfold retained GroupTable.post
  cases hname : groups.pools.lookup name with
  | none => rw [h.of_none hname]; rfl
  | some group =>
    obtain ⟨view, hview, hgroup⟩ := h.of_some hname
    rw [hview]
    exact Bool.eq_iff_iff.mpr (hgroup.isSome_lookup.trans (decide_eq_true_iff).symm)

/-- A call gives the answer that the table tells. -/
theorem Shows.apply (h : groups.Shows table) (hinv : groups.ThreadInv) (call : GroupCall α) :
    Agree (call.apply groups) (call.specify table) := by
  cases call with
  | createThreadGroup name threadNum => exact h.createThreadGroup name threadNum.toNat
  | destroyThreadGroup name => exact h.destroyThreadGroup name
  | retainTaskThread name transaction _ => exact h.retainTaskThread hinv name transaction
  | releaseTaskThread name transaction => exact h.releaseTaskThread name transaction
  | postTask name transaction task => exact h.postTask hinv name transaction task

/-- What a thread does shows in no group. -/
theorem Shows.startTask (h : groups.Shows table) (p : Nat) :
    ((GroupStep.startTask p : GroupStep α).apply groups).Shows table := by
  refine h.of_pools ?_
  show (((groups.startTask p).map (·.2)).getD groups).pools = groups.pools
  cases hstart : groups.startTask p with
  | none => rfl
  | some started =>
    unfold ThreadGroups.startTask at hstart
    split at hstart
    · cases hstart
      rfl
    · cases hstart

/-! ## 4. Sequences of calls -/

theorem threadGroups_simulates :
    (threadGroups : Component (GroupStep α) (Option Bool) _).Simulates groupSpec
      fun groups table => groups.ThreadInv ∧ groups.Shows table where
  initial := ⟨ThreadInv.empty, fun _ => .none⟩
  answer step groups table h := by
    cases step with
    | call call => exact congrArg some (h.2.apply h.1 call).1
    | startTask p | endTask p => rfl
  step step groups table h := by
    cases step with
    | call call => exact ⟨h.1.step (.call call), (h.2.apply h.1 call).2⟩
    | startTask p => exact ⟨h.1.step (.startTask p), h.2.startTask p⟩
    | endTask p => exact ⟨h.1.step (.endTask p), h.2.of_pools rfl⟩

/-- **The thread groups refine the table of their transactions.**  For every sequence of calls,
between which the threads work as they like, the answers are those of the table, and the groups are
left with the capacities and the active transactions that the table tells. -/
theorem threadGroups_refine (steps : List (GroupStep α)) :
    threadGroups.answers steps .empty = groupSpec.answers steps (fun _ => none) ∧
      (threadGroups.after steps .empty).Shows (groupSpec.after steps fun _ => none) :=
  ⟨threadGroups_simulates.answers_eq steps, (threadGroups_simulates.rel_after steps).2⟩

end ThreadGroups
end UserIam.Common
