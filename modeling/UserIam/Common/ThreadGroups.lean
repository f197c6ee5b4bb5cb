import UserIam.Defines

/-!
# ThreadGroups

Groups of threads that transactions retain and release.  A `ThreadPool` is started with one thread,
which runs its tasks in the order in which they were added, one at a time; a pool is known by its
position in the list of all that were ever started, and a pointer to it may be null.
-/

namespace UserIam.Common

/-! ## 1. Threads -/

/-- A task that a transaction posts, or the one by which a thread takes its name. -/
inductive ThreadTask (α : Type) where
  | ensureTransaction (transaction : UInt64) (name : String)
  | run (task : α)
  deriving DecidableEq, Repr

structure ThreadPool (α : Type) where
  tasks : List (ThreadTask α)
  busy : Bool
  transactionCurr : UInt64

abbrev ThreadPoolPtr := Option Nat

/-- The map `retains_` is a list with at most one entry for a transaction. -/
structure ThreadGroup where
  threadNum : Nat
  retains : List (UInt64 × ThreadPoolPtr)

structure ThreadGroups (α : Type) where
  pools : List (String × ThreadGroup)
  frees : List ThreadPoolPtr
  threads : List (ThreadPool α)

def groupMaxThreadNum : Nat := 4
def threadNumKeep : Nat := 5

namespace ThreadGroups

variable {α : Type}

def empty : ThreadGroups α := ⟨[], [], []⟩

/-- `AddTask` of the pool; a pool takes any number of tasks here. -/
def addTask (ptr : ThreadPoolPtr) (task : ThreadTask α) (groups : ThreadGroups α) :
    ThreadGroups α :=
  match ptr with
  | none => groups
  | some p =>
    { groups with
      threads := groups.threads.modify p fun thread =>
        { thread with tasks := thread.tasks ++ [task] } }

def ensureTransaction (ptr : ThreadPoolPtr) (transaction : UInt64) (name : String) :
    ThreadGroups α → ThreadGroups α :=
  addTask ptr (.ensureTransaction transaction name)

/-- The first free pool, or a new one when there is none. -/
def takeFree (groups : ThreadGroups α) : ThreadPoolPtr × ThreadGroups α :=
  match groups.frees with
  | [] => (some groups.threads.length,
      { groups with threads := groups.threads ++ [⟨[], false, 0⟩] })
  | ptr :: frees => (ptr, { groups with frees })

/-- The pools that are kept for later: the last five. -/
def keepFree (frees : List ThreadPoolPtr) : List ThreadPoolPtr :=
  frees.drop (frees.length - threadNumKeep)

def setGroup (name : String) (group : ThreadGroup) (groups : ThreadGroups α) : ThreadGroups α :=
  { groups with pools := groups.pools.map fun entry =>
      if entry.1 = name then (name, group) else entry }

/-! ## 2. Groups -/

def createThreadGroup (name : String) (threadNum : Nat) (groups : ThreadGroups α) :
    Bool × ThreadGroups α :=
  match groups.pools.lookup name with
  | some _ => (false, groups)
  | none => (true, { groups with pools := groups.pools ++ [(name, ⟨threadNum, []⟩)] })

/-- `ReleaseAllTaskThread`, in the order of the transactions. -/
def releaseAllTaskThread (name : String) (group : ThreadGroup) (groups : ThreadGroups α) :
    ThreadGroups α :=
  let ptrs := (group.retains.mergeSort fun a b => a.1 ≤ b.1).map (·.2) |>.filter (·.isSome)
  let groups := ptrs.foldl (fun groups ptr => groups.ensureTransaction ptr 0 name) groups
  { groups with frees := keepFree (groups.frees ++ ptrs) }

def destroyThreadGroup (name : String) (groups : ThreadGroups α) : Bool × ThreadGroups α :=
  match groups.pools.lookup name with
  | none => (false, groups)
  | some group =>
    let groups := groups.releaseAllTaskThread name group
    (true, { groups with pools := groups.pools.filter (·.1 ≠ name) })

/-! ## 3. Transactions -/

def retainTaskThread (name : String) (transaction : UInt64) (groups : ThreadGroups α) :
    Bool × ThreadGroups α :=
  match groups.pools.lookup name with
  | none => (false, groups)
  | some group =>
    if transaction = 0 then (false, groups)
    else if group.threadNum ≤ group.retains.length then (false, groups)
    else if (group.retains.lookup transaction).isSome then (false, groups)
    else
      let (ptr, groups) := groups.takeFree
      let groups := groups.setGroup name
        { group with retains := (transaction, ptr) :: group.retains }
      (true, groups.ensureTransaction ptr transaction name)

def eraseTransaction (transaction : UInt64) (group : ThreadGroup) : ThreadGroup :=
  { group with retains := group.retains.filter (·.1 ≠ transaction) }

def releaseTaskThread (name : String) (transaction : UInt64) (groups : ThreadGroups α) :
    Bool × ThreadGroups α :=
  match groups.pools.lookup name with
  | none => (false, groups)
  | some group =>
    if transaction = 0 then (false, groups)
    else
      match group.retains.lookup transaction with
      | none => (false, groups)
      | some ptr =>
        let groups := groups.ensureTransaction ptr 0 name
        let groups := { groups with frees := keepFree (groups.frees ++ [ptr]) }
        (true, groups.setGroup name (eraseTransaction transaction group))

def postTask (name : String) (transaction : UInt64) (task : α) (groups : ThreadGroups α) :
    Bool × ThreadGroups α :=
  match groups.pools.lookup name with
  | none => (false, groups)
  | some group =>
    match group.retains.lookup transaction with
    | none => (false, groups)
    | some none => (false, groups.setGroup name (eraseTransaction transaction group))
    | some (some p) => (true, groups.addTask (some p) (.run task))

/-! ## 4. The threads at work -/

/-- A thread that is idle takes its first task. -/
def startTask (p : Nat) (groups : ThreadGroups α) : Option (ThreadTask α × ThreadGroups α) :=
  match groups.threads[p]? with
  | some ⟨task :: tasks, false, transactionCurr⟩ =>
    let transactionCurr := match task with
      | .ensureTransaction transaction _ => transaction
      | .run _ => transactionCurr
    some (task, { groups with threads := groups.threads.set p ⟨tasks, true, transactionCurr⟩ })
  | _ => none

def endTask (p : Nat) (groups : ThreadGroups α) : ThreadGroups α :=
  { groups with threads := groups.threads.modify p fun thread => { thread with busy := false } }

/-! ## 5. Who is retained -/

/-- The transaction has an entry in the group. -/
def retained (name : String) (transaction : UInt64) (groups : ThreadGroups α) : Bool :=
  match groups.pools.lookup name with
  | none => false
  | some group => (group.retains.lookup transaction).isSome

/-- No pointer is null. -/
structure NonNull (groups : ThreadGroups α) : Prop where
  frees : ∀ ptr ∈ groups.frees, ptr.isSome = true
  retains : ∀ entry ∈ groups.pools, ∀ r ∈ entry.2.retains, r.2.isSome = true

variable {name : String} {transaction transaction' : UInt64} {groups : ThreadGroups α}
  {group : ThreadGroup} {ptr : ThreadPoolPtr} {task : ThreadTask α} {p : Nat}

theorem mem_of_lookup {β γ : Type} [BEq β] [LawfulBEq β] {l : List (β × γ)} {a : β} {b : γ}
    (h : l.lookup a = some b) : (a, b) ∈ l := by
  obtain ⟨l₁, l₂, rfl, -⟩ := List.lookup_eq_some_iff.mp h
  exact List.mem_append_right l₁ List.mem_cons_self

@[simp] theorem addTask_pools : (groups.addTask ptr task).pools = groups.pools := by
  cases ptr <;> rfl

@[simp] theorem addTask_frees : (groups.addTask ptr task).frees = groups.frees := by
  cases ptr <;> rfl

@[simp] theorem retained_addTask :
    (groups.addTask ptr task).retained name transaction = groups.retained name transaction := by
  simp [retained]

theorem takeFree_pools : groups.takeFree.2.pools = groups.pools := by
  unfold takeFree
  split <;> rfl

theorem lookup_setGroup {old : ThreadGroup} (h : groups.pools.lookup name = some old) :
    (groups.setGroup name group).pools.lookup name = some group := by
  show (groups.pools.map _).lookup name = some group
  generalize groups.pools = pools at h ⊢
  induction pools with
  | nil => cases h
  | cons e l ih =>
    obtain ⟨a, b⟩ := e
    rw [List.lookup_cons] at h
    rw [List.map_cons, List.lookup_cons]
    by_cases ha : name = a
    · subst ha
      simp
    · simp only [beq_false_of_ne ha] at h
      simpa [beq_false_of_ne ha, Ne.symm ha] using ih h

theorem retained_setGroup (old : ThreadGroup) (h : groups.pools.lookup name = some old) :
    (groups.setGroup name group).retained name transaction =
      (group.retains.lookup transaction).isSome := by
  simp [retained, lookup_setGroup h]

theorem lookup_eraseTransaction : (eraseTransaction transaction group).retains.lookup transaction' =
    if transaction' = transaction then none else group.retains.lookup transaction' := by
  unfold eraseTransaction
  induction group.retains with
  | nil => simp
  | cons e l ih =>
    obtain ⟨a, b⟩ := e
    dsimp only at ih ⊢
    rw [List.filter_cons, List.lookup_cons]
    by_cases ha : a = transaction
    · subst ha
      rw [if_neg (by simp), ih]
      by_cases ht : transaction' = a
      · simp [ht]
      · simp [ht, beq_false_of_ne ht]
    · rw [if_pos (by simpa using ha), List.lookup_cons, ih]
      by_cases ht : transaction' = a
      · subst ht
        simp [ha]
      · simp [beq_false_of_ne ht]

/-- A pool that is retained is retained from then on, and nothing else changes. -/
theorem retained_retainTaskThread :
    (groups.retainTaskThread name transaction).2.retained name transaction' =
      (groups.retained name transaction' ||
        (transaction' == transaction && (groups.retainTaskThread name transaction).1)) := by
  unfold retainTaskThread
  cases hname : groups.pools.lookup name with
  | none => simp
  | some group =>
    dsimp only
    split
    · simp
    · split
      · simp
      · split
        · simp
        · have hpools : groups.takeFree.2.pools.lookup name = some group := by
            rw [takeFree_pools, hname]
          simp only [ensureTransaction, retained_addTask, retained_setGroup group hpools,
            List.lookup_cons, Bool.and_true]
          by_cases ht : transaction' = transaction
          · simp [ht]
          · simp [beq_false_of_ne ht, retained, hname]

theorem retained_releaseTaskThread (hne : transaction ≠ 0) :
    (groups.releaseTaskThread name transaction).2.retained name transaction' =
      (groups.retained name transaction' && transaction' != transaction) := by
  unfold releaseTaskThread
  cases hname : groups.pools.lookup name with
  | none => simp [retained, hname]
  | some group =>
    dsimp only
    rw [if_neg hne]
    cases htransaction : group.retains.lookup transaction with
    | none =>
      simp only [retained, hname]
      by_cases ht : transaction' = transaction
      · simp [ht, htransaction]
      · simp [ht]
    | some ptr =>
      dsimp only
      rw [retained_setGroup group (by simp [ensureTransaction, hname]),
        lookup_eraseTransaction]
      by_cases ht : transaction' = transaction
      · simp [ht]
      · simp [ht, retained, hname]

/-- A post succeeds exactly for a transaction that is retained, and changes no entry. -/
theorem postTask_eq (h : groups.NonNull) (name : String) (transaction : UInt64) (task : α) :
    ∃ ptr, groups.postTask name transaction task =
      (groups.retained name transaction, groups.addTask ptr (.run task)) := by
  unfold postTask retained
  cases hname : groups.pools.lookup name with
  | none => exact ⟨none, rfl⟩
  | some group =>
    dsimp only
    cases htransaction : group.retains.lookup transaction with
    | none => exact ⟨none, rfl⟩
    | some ptr =>
      have hsome := h.retains _ (mem_of_lookup hname) _ (mem_of_lookup htransaction)
      cases ptr with
      | none => cases hsome
      | some p => exact ⟨some p, rfl⟩

/-! ### Pointers -/

theorem NonNull.empty : (empty : ThreadGroups α).NonNull := by
  constructor <;> simp [ThreadGroups.empty]

theorem NonNull.addTask (h : groups.NonNull) (ptr : ThreadPoolPtr) (task : ThreadTask α) :
    (groups.addTask ptr task).NonNull := by
  constructor
  · rw [addTask_frees]
    exact h.frees
  · rw [addTask_pools]
    exact h.retains

theorem NonNull.takeFree (h : groups.NonNull) :
    groups.takeFree.1.isSome = true ∧ groups.takeFree.2.NonNull := by
  unfold ThreadGroups.takeFree
  split
  · exact ⟨rfl, h.frees, h.retains⟩
  · next ptr frees hfrees =>
    have hmem := h.frees
    rw [hfrees] at hmem
    exact ⟨hmem ptr List.mem_cons_self, fun q hq => hmem q (List.mem_cons_of_mem _ hq), h.retains⟩

theorem NonNull.setGroup (h : groups.NonNull) (hgroup : ∀ r ∈ group.retains, r.2.isSome = true) :
    (groups.setGroup name group).NonNull := by
  refine ⟨h.frees, fun entry hentry => ?_⟩
  obtain ⟨e, he, rfl⟩ := List.mem_map.mp hentry
  split
  · exact hgroup
  · exact h.retains e he

theorem NonNull.createThreadGroup (h : groups.NonNull) (name : String) (threadNum : Nat) :
    (groups.createThreadGroup name threadNum).2.NonNull := by
  unfold ThreadGroups.createThreadGroup
  split
  · exact h
  · refine ⟨h.frees, fun entry hentry => ?_⟩
    rcases List.mem_append.mp hentry with hentry | hentry
    · exact h.retains entry hentry
    · rw [List.mem_singleton.mp hentry]
      simp

theorem NonNull.retainTaskThread (h : groups.NonNull) (name : String) (transaction : UInt64) :
    (groups.retainTaskThread name transaction).2.NonNull := by
  unfold ThreadGroups.retainTaskThread
  cases hname : groups.pools.lookup name with
  | none => exact h
  | some group =>
    dsimp only
    split
    · exact h
    · split
      · exact h
      · split
        · exact h
        · obtain ⟨hptr, hgroups⟩ := h.takeFree
          refine NonNull.addTask (NonNull.setGroup hgroups fun r hr => ?_) _ _
          rcases List.mem_cons.mp hr with rfl | hr
          · exact hptr
          · exact h.retains _ (mem_of_lookup hname) r hr

theorem NonNull.releaseTaskThread (h : groups.NonNull) (name : String) (transaction : UInt64) :
    (groups.releaseTaskThread name transaction).2.NonNull := by
  unfold ThreadGroups.releaseTaskThread
  cases hname : groups.pools.lookup name with
  | none => exact h
  | some group =>
    dsimp only
    split
    · exact h
    · cases htransaction : group.retains.lookup transaction with
      | none => exact h
      | some ptr =>
        have hretains := h.retains _ (mem_of_lookup hname)
        have hptr := hretains _ (mem_of_lookup htransaction)
        have hgroups := h.addTask ptr (.ensureTransaction 0 name)
        refine NonNull.setGroup ⟨fun q hq => ?_, hgroups.retains⟩ fun r hr =>
          hretains r (List.mem_filter.mp hr).1
        rcases List.mem_append.mp (List.mem_of_mem_drop hq) with hq | hq
        · exact hgroups.frees q hq
        · rw [List.mem_singleton.mp hq]
          exact hptr

theorem NonNull.startTask (h : groups.NonNull) {groups' : ThreadGroups α}
    (hstart : groups.startTask p = some (task, groups')) : groups'.NonNull := by
  unfold ThreadGroups.startTask at hstart
  split at hstart
  · cases hstart
    exact ⟨h.frees, h.retains⟩
  · cases hstart

theorem retained_startTask {groups' : ThreadGroups α}
    (hstart : groups.startTask p = some (task, groups')) :
    groups'.retained name transaction = groups.retained name transaction := by
  unfold ThreadGroups.startTask at hstart
  split at hstart
  · cases hstart
    rfl
  · cases hstart

theorem releaseTaskThread_zero : groups.releaseTaskThread name 0 = (false, groups) := by
  unfold releaseTaskThread
  cases hname : groups.pools.lookup name with
  | none => rfl
  | some group => exact if_pos rfl

theorem retained_releaseTaskThread_of_ne (hne : transaction' ≠ transaction) :
    (groups.releaseTaskThread name transaction).2.retained name transaction' =
      groups.retained name transaction' := by
  by_cases h0 : transaction = 0
  · rw [h0, releaseTaskThread_zero]
  · rw [retained_releaseTaskThread h0]
    simp [hne]

theorem ne_zero_of_retainTaskThread (h : (groups.retainTaskThread name transaction).1 = true) :
    transaction ≠ 0 := by
  rintro rfl
  unfold retainTaskThread at h
  cases hname : groups.pools.lookup name <;> simp [hname] at h

/-- A retention that fails changes nothing. -/
theorem retainTaskThread_of_fail (h : (groups.retainTaskThread name transaction).1 = false) :
    (groups.retainTaskThread name transaction).2 = groups := by
  unfold retainTaskThread at h ⊢
  cases hname : groups.pools.lookup name with
  | none => rfl
  | some group =>
    simp only [hname] at h
    dsimp only
    split
    · rfl
    · next h0 =>
      rw [if_neg h0] at h
      split
      · rfl
      · next hmax =>
        rw [if_neg hmax] at h
        split
        · rfl
        · next hnew =>
          rw [if_neg hnew] at h
          cases h

/-- Only a transaction that is not retained can be. -/
theorem not_retained_of_retainTaskThread
    (h : (groups.retainTaskThread name transaction).1 = true) :
    groups.retained name transaction = false := by
  unfold retainTaskThread at h
  unfold retained
  cases hname : groups.pools.lookup name with
  | none => rfl
  | some group =>
    simp only [hname] at h
    split at h
    · cases h
    · split at h
      · cases h
      · split at h
        · cases h
        · next hnew => exact Bool.eq_false_iff.mpr hnew

/-- Not every pool of the group is retained. -/
def hasFree (name : String) (groups : ThreadGroups α) : Bool :=
  match groups.pools.lookup name with
  | none => false
  | some group => group.retains.length < group.threadNum

theorem retainTaskThread_of_hasFree (hfree : groups.hasFree name = true) (h0 : transaction ≠ 0)
    (hnot : groups.retained name transaction = false) :
    (groups.retainTaskThread name transaction).1 = true := by
  unfold hasFree at hfree
  unfold retained at hnot
  unfold retainTaskThread
  cases hname : groups.pools.lookup name with
  | none => simp [hname] at hfree
  | some group =>
    simp only [hname] at hfree hnot ⊢
    rw [if_neg h0, if_neg (Nat.not_le.mpr (of_decide_eq_true hfree)), if_neg (by simp [hnot])]

/-! ### Tasks -/

/-- Every task that waits for its thread satisfies `P`. -/
def AllTasks (P : α → Prop) (groups : ThreadGroups α) : Prop :=
  ∀ thread ∈ groups.threads, ∀ a, .run a ∈ thread.tasks → P a

variable {P : α → Prop}

theorem AllTasks.mono {P' : α → Prop} (h : groups.AllTasks P) (hP : ∀ a, P a → P' a) :
    groups.AllTasks P' :=
  fun thread hthread a ha => hP a (h thread hthread a ha)

theorem AllTasks.addTask (h : groups.AllTasks P) (ptr : ThreadPoolPtr)
    (htask : ∀ a, task = .run a → P a) : (groups.addTask ptr task).AllTasks P := by
  cases ptr with
  | none => exact h
  | some p =>
    intro thread hthread a ha
    obtain ⟨n, hn, hget⟩ := List.mem_iff_getElem.mp hthread
    have hn' : n < groups.threads.length := by simpa [ThreadGroups.addTask] using hn
    simp only [ThreadGroups.addTask, List.getElem_modify] at hget
    split at hget
    · subst hget
      rcases List.mem_append.mp ha with ha | ha
      · exact h _ (List.getElem_mem hn') a ha
      · exact htask a (List.mem_singleton.mp ha).symm
    · subst hget
      exact h _ (List.getElem_mem hn') a ha

theorem AllTasks.ensureTransaction (h : groups.AllTasks P) (ptr : ThreadPoolPtr)
    (transaction : UInt64) (name : String) :
    (groups.ensureTransaction ptr transaction name).AllTasks P :=
  h.addTask ptr fun _ ha => by cases ha

theorem AllTasks.takeFree (h : groups.AllTasks P) : groups.takeFree.2.AllTasks P := by
  unfold ThreadGroups.takeFree
  split
  · intro thread hthread a ha
    rcases List.mem_append.mp hthread with hthread | hthread
    · exact h thread hthread a ha
    · rw [List.mem_singleton.mp hthread] at ha
      cases ha
  · exact h

theorem AllTasks.retainTaskThread (h : groups.AllTasks P) (name : String) (transaction : UInt64) :
    (groups.retainTaskThread name transaction).2.AllTasks P := by
  unfold ThreadGroups.retainTaskThread
  cases groups.pools.lookup name with
  | none => exact h
  | some group =>
    dsimp only
    split
    · exact h
    · split
      · exact h
      · split
        · exact h
        · refine AllTasks.ensureTransaction ?_ _ _ _
          exact h.takeFree

theorem AllTasks.releaseTaskThread (h : groups.AllTasks P) (name : String)
    (transaction : UInt64) : (groups.releaseTaskThread name transaction).2.AllTasks P := by
  unfold ThreadGroups.releaseTaskThread
  cases groups.pools.lookup name with
  | none => exact h
  | some group =>
    dsimp only
    split
    · exact h
    · cases group.retains.lookup transaction with
      | none => exact h
      | some ptr => exact h.ensureTransaction ptr 0 name

theorem AllTasks.postTask (h : groups.AllTasks P) (name : String) (transaction : UInt64) {a : α}
    (ha : P a) : (groups.postTask name transaction a).2.AllTasks P := by
  unfold ThreadGroups.postTask
  cases groups.pools.lookup name with
  | none => exact h
  | some group =>
    dsimp only
    cases group.retains.lookup transaction with
    | none => exact h
    | some ptr =>
      cases ptr with
      | none => exact h
      | some p =>
        refine h.addTask (some p) fun b hb => ?_
        cases hb
        exact ha

theorem AllTasks.endTask (h : groups.AllTasks P) (p : Nat) : (groups.endTask p).AllTasks P := by
  intro thread hthread a ha
  obtain ⟨n, hn, hget⟩ := List.mem_iff_getElem.mp hthread
  have hn' : n < groups.threads.length := by simpa [ThreadGroups.endTask] using hn
  simp only [ThreadGroups.endTask, List.getElem_modify] at hget
  split at hget <;> subst hget <;> exact h _ (List.getElem_mem hn') a ha

/-- A task that is started is one that waited. -/
theorem AllTasks.startTask (h : groups.AllTasks P) {groups' : ThreadGroups α}
    (hstart : groups.startTask p = some (task, groups')) :
    groups'.AllTasks P ∧ ∀ a, task = .run a → P a := by
  unfold ThreadGroups.startTask at hstart
  split at hstart
  · next first tasks transactionCurr hthread =>
    cases hstart
    have hmem := List.mem_of_getElem? hthread
    refine ⟨fun thread hthread' a ha => ?_, fun a ha => ?_⟩
    · rcases List.mem_or_eq_of_mem_set hthread' with hthread' | rfl
      · exact h thread hthread' a ha
      · exact h _ hmem a (List.mem_cons_of_mem _ ha)
    · exact h _ hmem a (ha ▸ List.mem_cons_self)
  · cases hstart

end ThreadGroups

end UserIam.Common
