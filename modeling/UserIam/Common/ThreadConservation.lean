import Mathlib.Data.List.Perm.Subperm
import UserIam.Common.ThreadGroups

/-!
# Conservation of threads

Several groups share one list of free pools.  A pool belongs to one entry of one group or to that
list, and a call that fails moves none.
-/

namespace UserIam.Common

/-! ## 1. Lists with one entry for each key -/

section Entries

variable {κ β : Type} [DecidableEq κ] {l : List (κ × β)} {k : κ} {b : β}

/-- The entry that a search finds is the only one of its key. -/
theorem lookup_split (hl : (l.map (·.1)).Nodup) (h : l.lookup k = some b) :
    ∃ l₁ l₂, l = l₁ ++ (k, b) :: l₂ ∧ ∀ e ∈ l₁ ++ l₂, e.1 ≠ k := by
  obtain ⟨l₁, l₂, rfl, -⟩ := List.lookup_eq_some_iff.mp h
  refine ⟨l₁, l₂, rfl, ?_⟩
  have hkeys := (List.perm_middle.map _).nodup_iff.mp hl
  intro e he hk
  exact (List.nodup_cons.mp hkeys).1 (List.mem_map.mpr ⟨e, he, hk⟩)

theorem filter_ne_split {l₁ l₂ : List (κ × β)} (hne : ∀ e ∈ l₁ ++ l₂, e.1 ≠ k) :
    (l₁ ++ (k, b) :: l₂).filter (·.1 ≠ k) = l₁ ++ l₂ := by
  rw [List.forall_mem_append] at hne
  rw [List.filter_append, List.filter_cons, if_neg (by simp)]
  congr 1
  · exact List.filter_eq_self.mpr fun e he => decide_eq_true (hne.1 e he)
  · exact List.filter_eq_self.mpr fun e he => decide_eq_true (hne.2 e he)

theorem map_replace_split {l₁ l₂ : List (κ × β)} (hne : ∀ e ∈ l₁ ++ l₂, e.1 ≠ k) (b' : β) :
    (l₁ ++ (k, b) :: l₂).map (fun e => if e.1 = k then (k, b') else e) = l₁ ++ (k, b') :: l₂ := by
  rw [List.forall_mem_append] at hne
  rw [List.map_append, List.map_cons, if_pos rfl]
  congr 1
  · exact (List.map_congr_left fun e he => if_neg (hne.1 e he)).trans (List.map_id' _)
  · congr 1
    exact (List.map_congr_left fun e he => if_neg (hne.2 e he)).trans (List.map_id' _)

theorem not_mem_keys (h : l.lookup k = none) : k ∉ l.map (·.1) := by
  rintro hmem
  obtain ⟨e, he, rfl⟩ := List.mem_map.mp hmem
  simpa using List.lookup_eq_none_iff.mp h e he

end Entries

/-! ## 2. Who owns which pool -/

namespace ThreadGroups

variable {α : Type}

def retainedPtrs (group : ThreadGroup) : List ThreadPoolPtr := group.retains.map (·.2)

/-- The pointers of all groups and of the free list. -/
def owned (groups : ThreadGroups α) : List ThreadPoolPtr :=
  groups.pools.flatMap (fun entry => retainedPtrs entry.2) ++ groups.frees

/-- What is always true of the threads. -/
structure Conserved (groups : ThreadGroups α) : Prop where
  nonNull : ∀ ptr ∈ groups.owned, ptr.isSome = true
  once : groups.owned.Nodup
  bounded : ∀ entry ∈ groups.pools, entry.2.retains.length ≤ entry.2.threadNum
  kept : groups.frees.length ≤ threadNumKeep

/-- The maps have one entry for a key, and a pointer points to a pool that has been started. -/
structure ThreadInv (groups : ThreadGroups α) : Prop extends Conserved groups where
  names : (groups.pools.map (·.1)).Nodup
  transactions : ∀ entry ∈ groups.pools, (entry.2.retains.map (·.1)).Nodup
  known : ∀ p, some p ∈ groups.owned → p < groups.threads.length

variable {groups groups' : ThreadGroups α} {group group' : ThreadGroup} {name : String}
  {transaction : UInt64} {ptr : ThreadPoolPtr}

theorem ThreadInv.empty : (empty : ThreadGroups α).ThreadInv := by
  refine ⟨⟨?_, List.nodup_nil, ?_, Nat.zero_le _⟩, List.nodup_nil, ?_, ?_⟩ <;>
    intro x hx <;> cases hx

/-- Nothing about the groups changes when tasks are added. -/
theorem ThreadInv.of_eq (h : groups.ThreadInv) (hpools : groups'.pools = groups.pools)
    (hfrees : groups'.frees = groups.frees)
    (hthreads : groups'.threads.length = groups.threads.length) : groups'.ThreadInv := by
  have howned : groups'.owned = groups.owned := by rw [owned, owned, hpools, hfrees]
  refine ⟨⟨?_, ?_, ?_, ?_⟩, ?_, ?_, ?_⟩
  · exact howned ▸ h.nonNull
  · exact howned ▸ h.once
  · exact hpools ▸ h.bounded
  · exact hfrees ▸ h.kept
  · exact hpools ▸ h.names
  · exact hpools ▸ h.transactions
  · rw [howned, hthreads]
    exact h.known

@[simp] theorem length_addTask (task : ThreadTask α) :
    (groups.addTask ptr task).threads.length = groups.threads.length := by
  cases ptr with
  | none => rfl
  | some p => exact List.length_modify ..

theorem ThreadInv.addTask (h : groups.ThreadInv) (ptr : ThreadPoolPtr) (task : ThreadTask α) :
    (groups.addTask ptr task).ThreadInv :=
  h.of_eq addTask_pools addTask_frees (length_addTask task)

/-- Pools change hands, or are given up. -/
theorem ThreadInv.of_subperm (h : groups.ThreadInv) (howned : groups'.owned.Subperm groups.owned)
    (hthreads : groups'.threads.length = groups.threads.length)
    (hnames : (groups'.pools.map (·.1)).Nodup)
    (hgroups : ∀ entry ∈ groups'.pools, (entry.2.retains.map (·.1)).Nodup ∧
      entry.2.retains.length ≤ entry.2.threadNum)
    (hkept : groups'.frees.length ≤ threadNumKeep) : groups'.ThreadInv where
  nonNull ptr hptr := h.nonNull ptr (howned.subset hptr)
  once := by
    obtain ⟨ptrs, hperm, hsub⟩ := howned
    exact hperm.nodup_iff.mp (h.once.sublist hsub)
  bounded entry hentry := (hgroups entry hentry).2
  kept := hkept
  names := hnames
  transactions entry hentry := (hgroups entry hentry).1
  known p hp := hthreads ▸ h.known p (howned.subset hp)

theorem owned_split {l₁ l₂ : List (String × ThreadGroup)}
    (hpools : groups.pools = l₁ ++ (name, group) :: l₂) :
    groups.owned.Perm ((l₁ ++ l₂).flatMap (fun entry => retainedPtrs entry.2) ++
      (retainedPtrs group ++ groups.frees)) := by
  rw [owned, hpools, List.flatMap_append, List.flatMap_append, List.flatMap_cons, List.append_assoc,
    List.append_assoc, List.append_assoc]
  refine List.Perm.append_left _ ?_
  rw [← List.append_assoc, ← List.append_assoc]
  exact List.Perm.append_right _ List.perm_append_comm

/-- A group and the free list exchange pools. -/
theorem ThreadInv.exchange (h : groups.ThreadInv) (hname : groups.pools.lookup name = some group)
    (hpools : groups'.pools = (groups.setGroup name group').pools)
    (hthreads : groups'.threads.length = groups.threads.length)
    (hptrs : (retainedPtrs group' ++ groups'.frees).Subperm (retainedPtrs group ++ groups.frees))
    (hkeys : (group'.retains.map (·.1)).Nodup) (hbound : group'.retains.length ≤ group'.threadNum)
    (hkept : groups'.frees.length ≤ threadNumKeep) : groups'.ThreadInv := by
  obtain ⟨l₁, l₂, hsplit, hne⟩ := lookup_split h.names hname
  have hsplit' : groups'.pools = l₁ ++ (name, group') :: l₂ := by
    rw [hpools, setGroup, hsplit, map_replace_split hne]
  refine h.of_subperm ?_ hthreads ?_ (fun entry hentry => ?_) hkept
  · refine (owned_split hsplit').subperm.trans ?_
    exact ((List.subperm_append_left _).mpr hptrs).trans (owned_split hsplit).symm.subperm
  · have hnames := h.names
    rw [hsplit, List.map_append, List.map_cons] at hnames
    rwa [hsplit', List.map_append, List.map_cons]
  · rw [hsplit'] at hentry
    -- the other groups are as before
    have hold (hmem : entry ∈ l₁ ++ l₂) : entry ∈ groups.pools := by
      rw [hsplit]
      exact List.perm_middle.symm.subset (List.mem_cons_of_mem _ hmem)
    rcases List.mem_cons.mp (List.perm_middle.subset hentry) with rfl | hmem
    · exact ⟨hkeys, hbound⟩
    · exact ⟨h.transactions entry (hold hmem), h.bounded entry (hold hmem)⟩

/-- What stays of the free list is its end. -/
theorem keepFree_sublist (frees : List ThreadPoolPtr) : (keepFree frees).Sublist frees :=
  List.drop_sublist _ _

theorem length_keepFree (frees : List ThreadPoolPtr) : (keepFree frees).length ≤ threadNumKeep := by
  rw [keepFree, List.length_drop]
  omega

/-! ## 3. The operations -/

/-- A pool comes from the front of the free list, where a new one is put if there is none. -/
theorem ThreadInv.takeFree (h : groups.ThreadInv) :
    ∃ (groups₁ : ThreadGroups α) (ptr : ThreadPoolPtr) (frees : List ThreadPoolPtr),
      groups₁.ThreadInv ∧ groups₁.pools = groups.pools ∧ groups₁.frees = ptr :: frees ∧
        groups.takeFree = (ptr, { groups₁ with frees }) := by
  unfold ThreadGroups.takeFree
  split
  · next hfrees =>
    refine ⟨⟨groups.pools, [some groups.threads.length], groups.threads ++ [⟨[], false, 0⟩]⟩, _, [],
      ?_, rfl, rfl, by rw [hfrees]⟩
    -- a new pool has a number that no pointer has so far
    have hold : groups.owned = groups.pools.flatMap fun e => retainedPtrs e.2 := by
      rw [owned, hfrees, List.append_nil]
    have hnew : some groups.threads.length ∉ groups.owned :=
      fun hmem => Nat.lt_irrefl _ (h.known _ hmem)
    have hmem {ptr : ThreadPoolPtr} (hptr : ptr ∈ groups.pools.flatMap
        (fun entry => retainedPtrs entry.2) ++ [some groups.threads.length]) :
        ptr ∈ groups.owned ∨ ptr = some groups.threads.length := by
      rwa [← hold, List.mem_append, List.mem_singleton] at hptr
    refine ⟨⟨fun ptr hptr => ?_, ?_, h.bounded, Nat.succ_le_succ (Nat.zero_le _)⟩, h.names,
      h.transactions, fun p hp => ?_⟩
    · rcases hmem hptr with hptr | rfl
      · exact h.nonNull ptr hptr
      · rfl
    · show (groups.pools.flatMap (fun e : String × ThreadGroup => retainedPtrs e.2) ++ [_]).Nodup
      rw [← hold, List.nodup_append]
      refine ⟨h.once, List.pairwise_singleton _ _, fun ptr hptr ptr' hptr' heq => hnew ?_⟩
      rwa [← List.mem_singleton.mp hptr', ← heq]
    · rw [List.length_append]
      rcases hmem hp with hp | hp
      · exact Nat.lt_succ_of_lt (h.known p hp)
      · rw [Option.some.inj hp]
        exact Nat.lt_succ_self _
  · next ptr frees hfrees => exact ⟨groups, ptr, frees, h, rfl, hfrees, rfl⟩

theorem ThreadInv.createThreadGroup (h : groups.ThreadInv) (name : String) (threadNum : Nat) :
    (groups.createThreadGroup name threadNum).2.ThreadInv := by
  unfold ThreadGroups.createThreadGroup
  split
  · exact h
  · next hname =>
    refine h.of_subperm ?_ rfl ?_ (fun entry hentry => ?_) h.kept
    · rw [owned, List.flatMap_append, List.flatMap_singleton]
      exact List.Perm.subperm (by rw [retainedPtrs, List.map_nil, List.append_nil]; rfl)
    · rw [List.map_append, List.nodup_append]
      refine ⟨h.names, List.pairwise_singleton _ _, fun a ha b hb hab => not_mem_keys hname ?_⟩
      rwa [hab, List.mem_singleton.mp hb] at ha
    · rcases List.mem_append.mp hentry with hentry | hentry
      · exact ⟨h.transactions entry hentry, h.bounded entry hentry⟩
      · rw [List.mem_singleton.mp hentry]
        exact ⟨List.nodup_nil, Nat.zero_le _⟩

theorem foldl_ensureTransaction (ptrs : List ThreadPoolPtr) (name : String)
    (groups : ThreadGroups α) :
    (ptrs.foldl (fun groups ptr => groups.ensureTransaction ptr 0 name) groups).pools =
        groups.pools ∧
      (ptrs.foldl (fun groups ptr => groups.ensureTransaction ptr 0 name) groups).frees =
        groups.frees ∧
      (ptrs.foldl (fun groups ptr => groups.ensureTransaction ptr 0 name) groups).threads.length =
        groups.threads.length := by
  induction ptrs generalizing groups with
  | nil => exact ⟨rfl, rfl, rfl⟩
  | cons ptr ptrs ih =>
    obtain ⟨hpools, hfrees, hthreads⟩ := ih (groups.ensureTransaction ptr 0 name)
    exact ⟨hpools.trans addTask_pools, hfrees.trans addTask_frees,
      hthreads.trans (length_addTask _)⟩

/-- The pools of a group, as they are released. -/
def releasedPtrs (group : ThreadGroup) : List ThreadPoolPtr :=
  (group.retains.mergeSort fun a b => a.1 ≤ b.1).map (·.2) |>.filter (·.isSome)

theorem releasedPtrs_subperm (group : ThreadGroup) :
    (releasedPtrs group).Subperm (retainedPtrs group) :=
  List.filter_sublist.subperm.trans ((List.mergeSort_perm _ _).map _).subperm

theorem ThreadInv.destroyThreadGroup (h : groups.ThreadInv) (name : String) :
    (groups.destroyThreadGroup name).2.ThreadInv := by
  unfold ThreadGroups.destroyThreadGroup
  cases hname : groups.pools.lookup name with
  | none => exact h
  | some group =>
    obtain ⟨l₁, l₂, hsplit, hne⟩ := lookup_split h.names hname
    obtain ⟨hpools, hfrees, hthreads⟩ := foldl_ensureTransaction (releasedPtrs group) name groups
    have hrest : (groups.releaseAllTaskThread name group).pools.filter (·.1 ≠ name) = l₁ ++ l₂ := by
      refine (congrArg _ hpools).trans ?_
      rw [hsplit, filter_ne_split hne]
    have hsub : (l₁ ++ l₂).Sublist groups.pools := by
      rw [hsplit]
      exact (List.sublist_cons_self _ _).append_left l₁
    refine h.of_subperm ?_ hthreads ?_ (fun entry hentry => ?_) (length_keepFree _)
    -- the pools of the group go behind the free ones, and some may be given up
    · refine List.Subperm.trans ?_ (owned_split hsplit).symm.subperm
      dsimp only [owned]
      rw [hrest]
      refine (List.subperm_append_left _).mpr ?_
      refine (keepFree_sublist _).subperm.trans ?_
      refine (List.Perm.of_eq (congrArg (· ++ releasedPtrs group) hfrees)).subperm.trans ?_
      exact List.perm_append_comm.subperm.trans
        ((List.subperm_append_right _).mpr (releasedPtrs_subperm group))
    · dsimp only
      rw [hrest]
      exact h.names.sublist (hsub.map _)
    · dsimp only at hentry
      rw [hrest] at hentry
      exact ⟨h.transactions entry (hsub.subset hentry), h.bounded entry (hsub.subset hentry)⟩

theorem ThreadInv.retainTaskThread (h : groups.ThreadInv) (name : String) (transaction : UInt64) :
    (groups.retainTaskThread name transaction).2.ThreadInv := by
  unfold ThreadGroups.retainTaskThread
  cases hname : groups.pools.lookup name with
  | none => exact h
  | some group =>
    dsimp only
    split
    · exact h
    · split
      · exact h
      · next hmax =>
        split
        · exact h
        · next hnew =>
          obtain ⟨groups₁, ptr, frees, h₁, hpools, hfrees, htake⟩ := h.takeFree
          rw [htake]
          refine ThreadInv.addTask ?_ _ _
          have hnone : group.retains.lookup transaction = none :=
            Option.not_isSome_iff_eq_none.mp hnew
          refine h₁.exchange (hpools ▸ hname) rfl rfl ?_ ?_ (Nat.lt_of_not_le hmax) ?_
          -- the pool moves from the front of the free list to the new entry
          · rw [hfrees]
            exact List.perm_middle.symm.subperm
          · exact List.nodup_cons.mpr
              ⟨not_mem_keys hnone, h.transactions _ (mem_of_lookup hname)⟩
          · have hkept := h₁.kept
            rw [hfrees] at hkept
            exact Nat.le_of_succ_le hkept

theorem ThreadInv.releaseTaskThread (h : groups.ThreadInv) (name : String)
    (transaction : UInt64) : (groups.releaseTaskThread name transaction).2.ThreadInv := by
  unfold ThreadGroups.releaseTaskThread
  cases hname : groups.pools.lookup name with
  | none => exact h
  | some group =>
    dsimp only
    split
    · exact h
    · cases htransaction : group.retains.lookup transaction with
      | none => exact h
      | some ptr =>
        have h₁ := h.addTask ptr (.ensureTransaction 0 name)
        have hname₁ : (groups.addTask ptr (.ensureTransaction 0 name)).pools.lookup name =
            some group := by rw [addTask_pools, hname]
        have hkeys := h.transactions _ (mem_of_lookup hname)
        obtain ⟨l₁, l₂, hsplit, hne⟩ := lookup_split hkeys htransaction
        have herase : (eraseTransaction transaction group).retains = l₁ ++ l₂ := by
          rw [eraseTransaction, hsplit, filter_ne_split hne]
        have hsub : (l₁ ++ l₂).Sublist group.retains := by
          rw [hsplit]
          exact (List.sublist_cons_self _ _).append_left l₁
        refine h₁.exchange hname₁ rfl rfl ?_ ?_ ?_ (length_keepFree _)
        · refine ((List.subperm_append_left _).mpr (keepFree_sublist _).subperm).trans ?_
          rw [retainedPtrs, retainedPtrs, herase, hsplit, List.map_append, List.map_append,
            List.map_cons]
          refine List.Perm.subperm ?_
          -- the pool that is released moves from its entry to the end of the free list
          refine List.Perm.trans ?_ (List.perm_middle.symm.append_right _)
          rw [← List.append_assoc]
          exact List.perm_append_comm
        · rw [herase]
          exact hkeys.sublist (hsub.map _)
        · rw [herase]
          exact Nat.le_trans hsub.length_le (h.bounded _ (mem_of_lookup hname))

theorem ThreadInv.startTask (h : groups.ThreadInv) {p : Nat} {task : ThreadTask α}
    (hstart : groups.startTask p = some (task, groups')) : groups'.ThreadInv := by
  unfold ThreadGroups.startTask at hstart
  split at hstart
  · cases hstart
    exact h.of_eq rfl rfl List.length_set
  · cases hstart

theorem ThreadInv.endTask (h : groups.ThreadInv) (p : Nat) : (groups.endTask p).ThreadInv :=
  h.of_eq rfl rfl (List.length_modify ..)

/-- No entry of a group is null. -/
theorem Conserved.lookup_ne_null (h : groups.Conserved)
    (hname : groups.pools.lookup name = some group) (transaction : UInt64) :
    group.retains.lookup transaction ≠ some none := by
  intro hnull
  have hmem : none ∈ groups.owned := List.mem_append_left _ <|
    List.mem_flatMap.mpr ⟨_, mem_of_lookup hname, List.mem_map.mpr ⟨_, mem_of_lookup hnull, rfl⟩⟩
  cases h.nonNull none hmem

theorem postTask_cases (h : groups.Conserved) (name : String) (transaction : UInt64) (task : α) :
    groups.postTask name transaction task = (false, groups) ∨
      ∃ group p, groups.pools.lookup name = some group ∧
        group.retains.lookup transaction = some (some p) ∧
        groups.postTask name transaction task = (true, groups.addTask (some p) (.run task)) := by
  unfold ThreadGroups.postTask
  cases hname : groups.pools.lookup name with
  | none => exact .inl rfl
  | some group =>
    dsimp only
    cases htransaction : group.retains.lookup transaction with
    | none => exact .inl rfl
    | some ptr =>
      cases ptr with
      -- `PostTask` would erase the entry here
      | none => exact absurd htransaction (h.lookup_ne_null hname transaction)
      | some p => exact .inr ⟨group, p, rfl, htransaction, rfl⟩

theorem ThreadInv.postTask (h : groups.ThreadInv) (name : String) (transaction : UInt64)
    (task : α) : (groups.postTask name transaction task).2.ThreadInv := by
  rcases postTask_cases h.toConserved name transaction task with hpost | ⟨_, p, -, -, hpost⟩
  · rw [hpost]
    exact h
  · rw [hpost]
    exact ThreadInv.addTask h (some p) (.run task)

/-! ## 4. Sequences of calls -/

end ThreadGroups

/-- A call to `ThreadGroups`.  The last number of a retention limits the tasks that its pool lets
wait: `AddTask` blocks its caller at that many, and none is refused. -/
inductive GroupCall (α : Type) where
  | createThreadGroup (name : String) (threadNum : UInt32)
  | destroyThreadGroup (name : String)
  | retainTaskThread (name : String) (transaction : UInt64) (maxTaskNum : UInt32)
  | releaseTaskThread (name : String) (transaction : UInt64)
  | postTask (name : String) (transaction : UInt64) (task : α)

/-- Between calls a thread takes its first task, or ends the one that it runs. -/
inductive GroupStep (α : Type) where
  | call (c : GroupCall α)
  | startTask (p : Nat)
  | endTask (p : Nat)

variable {α : Type}

def GroupCall.apply (call : GroupCall α) (groups : ThreadGroups α) : Bool × ThreadGroups α :=
  match call with
  | .createThreadGroup name threadNum => groups.createThreadGroup name threadNum.toNat
  | .destroyThreadGroup name => groups.destroyThreadGroup name
  | .retainTaskThread name transaction _ => groups.retainTaskThread name transaction
  | .releaseTaskThread name transaction => groups.releaseTaskThread name transaction
  | .postTask name transaction task => groups.postTask name transaction task

def GroupStep.apply (step : GroupStep α) (groups : ThreadGroups α) : ThreadGroups α :=
  match step with
  | .call c => (c.apply groups).2
  | .startTask p => ((groups.startTask p).map (·.2)).getD groups
  | .endTask p => groups.endTask p

/-- The groups after a sequence of steps. -/
def GroupStep.run (steps : List (GroupStep α)) : ThreadGroups α :=
  steps.foldl (fun groups step => step.apply groups) .empty

namespace ThreadGroups

variable {groups : ThreadGroups α}

theorem ThreadInv.apply (h : groups.ThreadInv) (call : GroupCall α) :
    (call.apply groups).2.ThreadInv := by
  cases call with
  | createThreadGroup name threadNum => exact h.createThreadGroup name threadNum.toNat
  | destroyThreadGroup name => exact h.destroyThreadGroup name
  | retainTaskThread name transaction maxTaskNum => exact h.retainTaskThread name transaction
  | releaseTaskThread name transaction => exact h.releaseTaskThread name transaction
  | postTask name transaction task => exact h.postTask name transaction task

theorem ThreadInv.step (h : groups.ThreadInv) (step : GroupStep α) :
    (step.apply groups).ThreadInv := by
  cases step with
  | call c => exact ThreadInv.apply h c
  | startTask p =>
    show (((groups.startTask p).map (·.2)).getD groups).ThreadInv
    cases hstart : groups.startTask p with
    | none => exact h
    | some started => exact h.startTask hstart
  | endTask p => exact h.endTask p

theorem ThreadInv.run (steps : List (GroupStep α)) : (GroupStep.run steps).ThreadInv := by
  suffices hrun : ∀ groups : ThreadGroups α, groups.ThreadInv →
      (steps.foldl (fun groups step => step.apply groups) groups).ThreadInv from
    hrun _ ThreadInv.empty
  induction steps with
  | nil => exact fun _ h => h
  | cons step steps ih => exact fun groups h => ih _ (h.step step)

theorem createThreadGroup_of_fail {name : String} {threadNum : Nat}
    (h : (groups.createThreadGroup name threadNum).1 = false) :
    (groups.createThreadGroup name threadNum).2 = groups := by
  unfold createThreadGroup at h ⊢
  cases hname : groups.pools.lookup name with
  | none => simp [hname] at h
  | some group => rfl

theorem destroyThreadGroup_of_fail {name : String}
    (h : (groups.destroyThreadGroup name).1 = false) :
    (groups.destroyThreadGroup name).2 = groups := by
  unfold destroyThreadGroup at h ⊢
  cases hname : groups.pools.lookup name with
  | none => rfl
  | some group => simp [hname] at h

theorem releaseTaskThread_of_fail {name : String} {transaction : UInt64}
    (h : (groups.releaseTaskThread name transaction).1 = false) :
    (groups.releaseTaskThread name transaction).2 = groups := by
  unfold releaseTaskThread at h ⊢
  cases hname : groups.pools.lookup name with
  | none => rfl
  | some group =>
    simp only [hname] at h
    dsimp only
    split
    · rfl
    · next h0 =>
      rw [if_neg h0] at h
      cases htransaction : group.retains.lookup transaction with
      | none => rfl
      | some ptr => simp [htransaction] at h

/-- Only the branch for a null pointer would change what it refuses. -/
theorem Conserved.apply_of_fail (h : groups.Conserved) (call : GroupCall α)
    (hfail : (call.apply groups).1 = false) : (call.apply groups).2 = groups := by
  cases call with
  | createThreadGroup name threadNum => exact createThreadGroup_of_fail hfail
  | destroyThreadGroup name => exact destroyThreadGroup_of_fail hfail
  | retainTaskThread name transaction maxTaskNum => exact retainTaskThread_of_fail hfail
  | releaseTaskThread name transaction => exact releaseTaskThread_of_fail hfail
  | postTask name transaction task =>
    dsimp only [GroupCall.apply] at hfail ⊢
    rcases postTask_cases h name transaction task with hpost | ⟨_, _, -, -, hpost⟩
    · rw [hpost]
    · rw [hpost] at hfail
      cases hfail

/-- After every sequence of steps the threads are conserved, no group holds a null pointer for
`PostTask` to find, and a call that fails changes nothing. -/
theorem threads_conserved (steps : List (GroupStep α)) :
    (GroupStep.run steps).Conserved ∧
      (∀ name group transaction, (GroupStep.run steps).pools.lookup name = some group →
        group.retains.lookup transaction ≠ some none) ∧
      ∀ call : GroupCall α, (call.apply (GroupStep.run steps)).1 = false →
        (call.apply (GroupStep.run steps)).2 = GroupStep.run steps := by
  have h := (ThreadInv.run steps).toConserved
  exact ⟨h, fun _ _ transaction hname => h.lookup_ne_null hname transaction,
    h.apply_of_fail⟩

end ThreadGroups

end UserIam.Common
