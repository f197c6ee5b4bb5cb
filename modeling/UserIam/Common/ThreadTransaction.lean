import Mathlib.Data.List.Nodup
import Mathlib.Data.List.Pairwise
import UserIam.Common.ThreadConservation

/-!
# Tasks run in their own transaction

A pool that is released keeps the tasks of its former owner in its queue, and the number by which a
thread knows its transaction is itself set by a task.  Each queue is in the order in which its
owners came, and each owner's tasks follow the owner's own tag.
-/

namespace UserIam.Common

/-! ## 1. One thread at a time -/

section Thread

variable {α : Type}

/-- The transaction of the thread once it has taken the task. -/
def ThreadTask.transactionAfter (transactionCurr : UInt64) : ThreadTask α → UInt64
  | .ensureTransaction transaction _ => transaction
  | .run _ => transactionCurr

/-- What the thread runs of the task, when it is one that was posted. -/
def ThreadTask.run? : ThreadTask α → Option α
  | .ensureTransaction _ _ => none
  | .run task => some task

namespace ThreadGroups

variable {groups groups' : ThreadGroups α} {ptr : ThreadPoolPtr} {task : ThreadTask α} {p q : Nat}

/-- A pool that was never started has nothing to do. -/
def thread (groups : ThreadGroups α) (p : Nat) : ThreadPool α :=
  (groups.threads[p]?).getD ⟨[], false, 0⟩

theorem thread_addTask_self (hp : p < groups.threads.length) :
    (groups.addTask (some p) task).thread p =
      { groups.thread p with tasks := (groups.thread p).tasks ++ [task] } := by
  simp only [thread, addTask, List.getElem?_modify_eq, List.getElem?_eq_getElem hp]
  rfl

theorem thread_addTask_of_ne (hne : ptr ≠ some p) :
    (groups.addTask ptr task).thread p = groups.thread p := by
  cases ptr with
  | none => rfl
  | some q =>
    have hq : q ≠ p := fun h => hne (congrArg some h)
    simp only [thread, addTask, List.getElem?_modify_ne _ _ hq]

/-- A new thread is as one that was never started. -/
theorem thread_takeFree : groups.takeFree.2.thread p = groups.thread p := by
  unfold takeFree
  split
  · by_cases hp : p < groups.threads.length
    · simp only [thread, List.getElem?_append_left hp]
    · have hlen := Nat.le_of_not_lt hp
      rw [thread, thread, List.getElem?_eq_none hlen, List.getElem?_append_right hlen]
      cases p - groups.threads.length <;> rfl
  · rfl

@[simp] theorem thread_setGroup (name : String) (group : ThreadGroup) :
    (groups.setGroup name group).thread p = groups.thread p :=
  rfl

/-- Only an idle thread takes a task, its first. -/
theorem startTask_cases (hstart : groups.startTask p = some (task, groups')) :
    groups'.pools = groups.pools ∧ (groups.thread p).busy = false ∧
      (groups.thread p).tasks = task :: (groups'.thread p).tasks ∧ (groups'.thread p).busy = true ∧
      (groups'.thread p).transactionCurr =
        task.transactionAfter (groups.thread p).transactionCurr ∧
      ∀ q, q ≠ p → groups'.thread q = groups.thread q := by
  unfold startTask at hstart
  split at hstart
  · next first tasks transactionCurr hthread =>
    cases hstart
    obtain ⟨hlen, -⟩ := List.getElem?_eq_some_iff.mp hthread
    simp only [thread, hthread, List.getElem?_set_self hlen, Option.getD_some, true_and]
    refine ⟨by cases task <;> rfl, fun q hq => ?_⟩
    rw [List.getElem?_set_ne (Ne.symm hq)]
  · cases hstart

theorem thread_endTask : (groups.endTask p).thread q =
    if q = p then { groups.thread p with busy := false } else groups.thread q := by
  split
  · next h =>
    subst h
    simp only [thread, endTask, List.getElem?_modify_eq]
    cases groups.threads[q]? <;> rfl
  · next h => simp only [thread, endTask, List.getElem?_modify_ne _ _ (Ne.symm h)]

end ThreadGroups

end Thread

/-! ## 2. A queue -/

/-- A task that was accepted: who posted it, in which retention, and how many came before it. -/
structure Posted (α : Type) where
  name : String
  transaction : UInt64
  retention : Nat
  serial : Nat
  task : α
  deriving DecidableEq, Repr

section Queue

variable {α : Type} {transactionCurr : UInt64} {tasks : List (ThreadTask (Posted α))}
  {x : Posted α} {task : ThreadTask (Posted α)}

/-- Every task in the queue will find its own transaction. -/
def Tagged (transactionCurr : UInt64) : List (ThreadTask (Posted α)) → Prop
  | [] => True
  | .ensureTransaction transaction _ :: tasks => Tagged transaction tasks
  | .run x :: tasks => x.transaction = transactionCurr ∧ Tagged transactionCurr tasks

/-- The transaction of the thread when the queue is empty. -/
def lastTag (transactionCurr : UInt64) (tasks : List (ThreadTask (Posted α))) : UInt64 :=
  tasks.foldl ThreadTask.transactionAfter transactionCurr

/-- The queue without the tags. -/
def posts (tasks : List (ThreadTask (Posted α))) : List (Posted α) :=
  tasks.filterMap ThreadTask.run?

theorem Tagged.concat_tag (h : Tagged transactionCurr tasks) (transaction : UInt64)
    (name : String) :
    Tagged transactionCurr (tasks ++ [ThreadTask.ensureTransaction transaction name]) := by
  induction tasks generalizing transactionCurr with
  | nil => trivial
  | cons task tasks ih =>
    cases task with
    | ensureTransaction transaction' name' => exact ih h
    | run x => exact ⟨h.1, ih h.2⟩

theorem Tagged.concat_run (h : Tagged transactionCurr tasks)
    (hx : x.transaction = lastTag transactionCurr tasks) :
    Tagged transactionCurr (tasks ++ [ThreadTask.run x]) := by
  induction tasks generalizing transactionCurr with
  | nil => exact ⟨hx, trivial⟩
  | cons task tasks ih =>
    cases task with
    | ensureTransaction transaction' name' => exact ih h hx
    | run y => exact ⟨h.1, ih h.2 hx⟩

/-- The task by which a thread takes the name. -/
def tagTask (tag : UInt64 × String) : ThreadTask α := .ensureTransaction tag.1 tag.2

theorem Tagged.append_tags (h : Tagged transactionCurr tasks) (tags : List (UInt64 × String)) :
    Tagged transactionCurr (tasks ++ tags.map tagTask) := by
  induction tags generalizing tasks with
  | nil => rwa [List.map_nil, List.append_nil]
  | cons tag tags ih =>
    rw [List.map_cons, List.append_cons]
    exact ih (h.concat_tag tag.1 tag.2)

theorem lastTag_concat (task : ThreadTask (Posted α)) : lastTag transactionCurr (tasks ++ [task]) =
    task.transactionAfter (lastTag transactionCurr tasks) := by
  rw [lastTag, lastTag, List.foldl_concat]

theorem Tagged.tail (h : Tagged transactionCurr (task :: tasks)) :
    Tagged (task.transactionAfter transactionCurr) tasks := by
  cases task with
  | ensureTransaction transaction name => exact h
  | run x => exact h.2

theorem posts_append_tags (tags : List (UInt64 × String)) :
    posts (tasks ++ tags.map tagTask) = posts tasks := by
  rw [posts, List.filterMap_append, List.filterMap_map]
  refine (congrArg _ (List.filterMap_eq_nil_iff.mpr fun _ _ => rfl)).trans (List.append_nil _)

theorem posts_concat_run : posts (tasks ++ [ThreadTask.run x]) = posts tasks ++ [x] := by
  simp [posts, ThreadTask.run?]

/-! ### Order -/

variable {accepted finished : List (Posted α)} {line : List (Posted α)}

/-- The tasks that were accepted before `x` in its retention are among those of the list. -/
def After (accepted finished : List (Posted α)) (x : Posted α) : Prop :=
  ∀ y ∈ accepted, y.retention = x.retention → y.serial < x.serial → y ∈ finished

/-- Each task of the line comes after those that were accepted before it. -/
def InOrder (accepted : List (Posted α)) : List (Posted α) → List (Posted α) → Prop
  | _, [] => True
  | finished, x :: line =>
    After accepted finished x ∧ InOrder accepted (finished ++ [x]) line

theorem InOrder.mono {finished' : List (Posted α)} (h : InOrder accepted finished line)
    (hsub : finished ⊆ finished') : InOrder accepted finished' line := by
  induction line generalizing finished finished' with
  | nil => trivial
  | cons x line ih =>
    refine ⟨fun y hy hret hlt => hsub (h.1 y hy hret hlt), ih h.2 ?_⟩
    exact List.append_subset.mpr
      ⟨List.subset_append_of_subset_left _ hsub, List.subset_append_right _ _⟩

theorem InOrder.concat (h : InOrder accepted finished line)
    (hx : After accepted (finished ++ line) x) : InOrder accepted finished (line ++ [x]) := by
  induction line generalizing finished with
  | nil => exact ⟨by rwa [List.append_nil] at hx, trivial⟩
  | cons y line ih => exact ⟨h.1, ih h.2 (by rwa [List.append_cons] at hx)⟩

/-- A task that is accepted later comes before none. -/
theorem InOrder.accept (h : InOrder accepted finished line)
    (hserial : ∀ y ∈ line, y.serial ≤ x.serial) : InOrder (accepted ++ [x]) finished line := by
  induction line generalizing finished with
  | nil => trivial
  | cons y line ih =>
    rw [List.forall_mem_cons] at hserial
    refine ⟨fun z hz hret hlt => ?_, ih h.2 hserial.2⟩
    rcases List.mem_append.mp hz with hz | hz
    · exact h.1 z hz hret hlt
    · rw [List.mem_singleton.mp hz] at hlt
      exact absurd hlt (Nat.not_lt.mpr hserial.1)

end Queue

/-! ## 3. Who holds which thread -/

namespace ThreadGroups

section Holds

variable {α : Type} {groups groups' : ThreadGroups α} {group : ThreadGroup} {name name' : String}
  {transaction transaction' : UInt64} {p q : Nat}

/-- The transaction of the group retains the pool. -/
def Holds (groups : ThreadGroups α) (name : String) (transaction : UInt64) (p : Nat) : Prop :=
  ∃ group, (name, group) ∈ groups.pools ∧ (transaction, some p) ∈ group.retains

theorem Holds.mem_owned (h : groups.Holds name transaction p) : some p ∈ groups.owned := by
  obtain ⟨group, hgroup, hretain⟩ := h
  refine List.mem_append_left _ (List.mem_flatMap.mpr ⟨_, hgroup, ?_⟩)
  exact List.mem_map.mpr ⟨_, hretain, rfl⟩

/-- A pool is held once. -/
theorem Holds.owner_eq (hinv : groups.ThreadInv) (h : groups.Holds name transaction p)
    (h' : groups.Holds name' transaction' p) : name = name' ∧ transaction = transaction' := by
  obtain ⟨group, hgroup, hretain⟩ := h
  obtain ⟨group', hgroup', hretain'⟩ := h'
  obtain ⟨hnodup, hdisjoint⟩ := List.nodup_flatMap.mp (List.nodup_append.mp hinv.once).1
  have hmem : some p ∈ retainedPtrs group := List.mem_map.mpr ⟨_, hretain, rfl⟩
  have hmem' : some p ∈ retainedPtrs group' := List.mem_map.mpr ⟨_, hretain', rfl⟩
  -- the entries of a group have different pools, and two groups share none
  by_cases heq : (name, group) = (name', group')
  · cases heq
    have hretains := List.inj_on_of_nodup_map (hnodup _ hgroup) hretain hretain' rfl
    exact ⟨rfl, (Prod.mk.inj hretains).1⟩
  · have hsymm : Std.Symm (Function.onFun List.Disjoint fun entry : String × ThreadGroup =>
        retainedPtrs entry.2) := ⟨fun _ _ hd _ ha ha' => hd ha' ha⟩
    exact absurd hmem' (hdisjoint.forall hgroup hgroup' heq hmem)

/-- A transaction holds one pool. -/
theorem Holds.pool_eq (hinv : groups.ThreadInv) (h : groups.Holds name transaction p)
    (h' : groups.Holds name transaction q) : p = q := by
  obtain ⟨group, hgroup, hretain⟩ := h
  obtain ⟨group', hgroup', hretain'⟩ := h'
  cases List.inj_on_of_nodup_map hinv.names hgroup hgroup' rfl
  cases List.inj_on_of_nodup_map (hinv.transactions _ hgroup) hretain hretain' rfl
  rfl

theorem Holds.of_pools (hpools : groups'.pools = groups.pools)
    (h : groups'.Holds name transaction p) : groups.Holds name transaction p := by
  rwa [Holds, ← hpools]

theorem Holds.addTask (h : groups.Holds name transaction p) (ptr : ThreadPoolPtr)
    (task : ThreadTask α) : (groups.addTask ptr task).Holds name transaction p :=
  h.of_pools addTask_pools.symm

theorem Holds.setGroup_cases (h : (groups.setGroup name group).Holds name' transaction p) :
    (name' = name ∧ (transaction, some p) ∈ group.retains) ∨
      (name' ≠ name ∧ groups.Holds name' transaction p) := by
  obtain ⟨group', hgroup, hretain⟩ := h
  obtain ⟨entry, hentry, heq⟩ := List.mem_map.mp hgroup
  by_cases hname : entry.1 = name
  · rw [if_pos hname] at heq
    cases heq
    exact .inl ⟨rfl, hretain⟩
  · rw [if_neg hname] at heq
    subst heq
    exact .inr ⟨hname, group', hentry, hretain⟩

theorem thread_addTask_cases (ptr : ThreadPoolPtr) (task : ThreadTask α) (p : Nat) :
    (groups.addTask ptr task).thread p = groups.thread p ∨
      (groups.addTask ptr task).thread p =
        { groups.thread p with tasks := (groups.thread p).tasks ++ [task] } := by
  by_cases hptr : ptr = some p
  · subst hptr
    by_cases hp : p < groups.threads.length
    · exact .inr (thread_addTask_self hp)
    · left
      simp only [thread, addTask, List.getElem?_modify_eq,
        List.getElem?_eq_none (Nat.le_of_not_lt hp)]
      rfl
  · exact .inl (thread_addTask_of_ne hptr)

/-- Threads take names that are not yet theirs, and whoever still holds one finds it as it was. -/
structure GivesUp (groups groups' : ThreadGroups α) : Prop where
  retagged : ∀ p, ∃ tags : List (UInt64 × String), groups'.thread p =
    { groups.thread p with tasks := (groups.thread p).tasks ++ tags.map tagTask }
  holds : ∀ name transaction p, groups'.Holds name transaction p →
    groups.Holds name transaction p ∧ groups'.thread p = groups.thread p

theorem retagged_self (groups : ThreadGroups α) (p : Nat) :
    ∃ tags : List (UInt64 × String), groups.thread p =
      { groups.thread p with tasks := (groups.thread p).tasks ++ tags.map tagTask } :=
  ⟨[], by rw [List.map_nil, List.append_nil]⟩

theorem GivesUp.refl (groups : ThreadGroups α) : GivesUp groups groups :=
  ⟨retagged_self groups, fun _ _ _ h => ⟨h, rfl⟩⟩

theorem retagged_ensureTransaction (groups : ThreadGroups α) (ptr : ThreadPoolPtr)
    (transaction : UInt64) (name : String) (p : Nat) : ∃ tags : List (UInt64 × String),
      (groups.ensureTransaction ptr transaction name).thread p =
        { groups.thread p with tasks := (groups.thread p).tasks ++ tags.map tagTask } := by
  rcases thread_addTask_cases ptr (.ensureTransaction transaction name) p with h | h
  · rw [ensureTransaction, h]
    exact retagged_self groups p
  · exact ⟨[(transaction, name)], h⟩

theorem retagged_foldl (ptrs : List ThreadPoolPtr) (name : String) (groups : ThreadGroups α)
    (p : Nat) :
    ∃ tags : List (UInt64 × String),
      (ptrs.foldl (fun groups ptr => groups.ensureTransaction ptr 0 name) groups).thread p =
        { groups.thread p with tasks := (groups.thread p).tasks ++ tags.map tagTask } := by
  induction ptrs generalizing groups with
  | nil => exact retagged_self groups p
  | cons ptr ptrs ih =>
    obtain ⟨tags, htags⟩ := retagged_ensureTransaction groups ptr 0 name p
    obtain ⟨tags', htags'⟩ := ih (groups.ensureTransaction ptr 0 name)
    refine ⟨tags ++ tags', ?_⟩
    rw [List.foldl_cons, htags', htags, List.map_append, List.append_assoc]

theorem thread_foldl_of_not_mem {ptrs : List ThreadPoolPtr} (hp : some p ∉ ptrs) (name : String) :
    (ptrs.foldl (fun groups ptr => groups.ensureTransaction ptr 0 name) groups).thread p =
      groups.thread p := by
  induction ptrs generalizing groups with
  | nil => rfl
  | cons ptr ptrs ih =>
    rw [List.mem_cons, not_or] at hp
    exact (ih hp.2).trans (thread_addTask_of_ne (Ne.symm hp.1))

theorem GivesUp.createThreadGroup (groups : ThreadGroups α) (name : String) (threadNum : Nat) :
    GivesUp groups (groups.createThreadGroup name threadNum).2 := by
  unfold ThreadGroups.createThreadGroup
  split
  · exact .refl groups
  · refine ⟨retagged_self groups, ?_⟩
    rintro name' transaction p ⟨group, hgroup, hretain⟩
    rcases List.mem_append.mp hgroup with hgroup | hgroup
    · exact ⟨⟨group, hgroup, hretain⟩, rfl⟩
    · cases List.mem_singleton.mp hgroup
      cases hretain

theorem GivesUp.destroyThreadGroup (hinv : groups.ThreadInv) (name : String) :
    GivesUp groups (groups.destroyThreadGroup name).2 := by
  unfold ThreadGroups.destroyThreadGroup
  cases hname : groups.pools.lookup name with
  | none => exact .refl groups
  | some group =>
    obtain ⟨hpools, -, -⟩ := foldl_ensureTransaction (releasedPtrs group) name groups
    refine ⟨retagged_foldl (releasedPtrs group) name groups, ?_⟩
    rintro name' transaction p ⟨group', hgroup, hretain⟩
    obtain ⟨hgroup, hne⟩ := List.mem_filter.mp hgroup
    have hold : groups.Holds name' transaction p := ⟨group', hpools ▸ hgroup, hretain⟩
    -- a pool that is released was held by the group that is gone
    refine ⟨hold, thread_foldl_of_not_mem (fun hmem => ?_) name⟩
    obtain ⟨⟨transaction', ptr⟩, hretain', hptr⟩ :=
      List.mem_map.mp ((releasedPtrs_subperm group).subset hmem)
    cases hptr
    have howner := hold.owner_eq hinv ⟨group, mem_of_lookup hname, hretain'⟩
    exact of_decide_eq_true hne howner.1

theorem GivesUp.releaseTaskThread (hinv : groups.ThreadInv) (name : String)
    (transaction : UInt64) : GivesUp groups (groups.releaseTaskThread name transaction).2 := by
  unfold ThreadGroups.releaseTaskThread
  cases hname : groups.pools.lookup name with
  | none => exact .refl groups
  | some group =>
    dsimp only
    split
    · exact .refl groups
    · cases htransaction : group.retains.lookup transaction with
      | none => exact .refl groups
      | some ptr =>
        refine ⟨retagged_ensureTransaction groups ptr 0 name, fun name' transaction' p hholds => ?_⟩
        -- what is still held was held, and not by the transaction that releases
        have hold : groups.Holds name' transaction' p ∧
            ¬ (name' = name ∧ transaction' = transaction) := by
          rcases hholds.setGroup_cases with ⟨rfl, hretain⟩ | ⟨hne, hholds⟩
          · obtain ⟨hretain, hne⟩ := List.mem_filter.mp hretain
            exact ⟨⟨group, mem_of_lookup hname, hretain⟩,
              fun h => of_decide_eq_true hne h.2⟩
          · exact ⟨hholds.of_pools addTask_pools, fun h => hne h.1⟩
        refine ⟨hold.1, thread_addTask_of_ne fun hptr => ?_⟩
        subst hptr
        exact hold.2 (hold.1.owner_eq hinv ⟨group, mem_of_lookup hname, mem_of_lookup htransaction⟩)

/-- The pool that comes from the free list is none of those that are held. -/
theorem takeFree_some (hinv : groups.ThreadInv) : ∃ p, groups.takeFree.1 = some p := by
  obtain ⟨groups₁, ptr, frees, h₁, -, hfrees, htake⟩ := hinv.takeFree
  rw [htake]
  exact Option.isSome_iff_exists.mp
    (h₁.nonNull ptr (List.mem_append_right _ (hfrees ▸ List.mem_cons_self)))

/-- A retention fails, or gives the transaction a pool that none else holds. -/
theorem retainTaskThread_cases (hinv : groups.ThreadInv) (name : String) (transaction : UInt64) :
    groups.retainTaskThread name transaction = (false, groups) ∨
      ∃ p, (groups.retainTaskThread name transaction).1 = true ∧
        (groups.retainTaskThread name transaction).2.thread p = { groups.thread p with
          tasks := (groups.thread p).tasks ++ [ThreadTask.ensureTransaction transaction name] } ∧
        (∀ q, q ≠ p →
          (groups.retainTaskThread name transaction).2.thread q = groups.thread q) ∧
        ∀ name' transaction' q,
          (groups.retainTaskThread name transaction).2.Holds name' transaction' q →
            (name' = name ∧ transaction' = transaction ∧ q = p) ∨
              (groups.Holds name' transaction' q ∧ q ≠ p ∧
                ¬ (name' = name ∧ transaction' = transaction)) := by
  have hinv' := hinv.retainTaskThread name transaction
  unfold ThreadGroups.retainTaskThread at hinv' ⊢
  cases hname : groups.pools.lookup name with
  | none => exact .inl rfl
  | some group =>
    simp only [hname] at hinv'
    dsimp only
    split
    · exact .inl rfl
    · next h0 =>
      rw [if_neg h0] at hinv'
      split
      · exact .inl rfl
      · next hmax =>
        rw [if_neg hmax] at hinv'
        split
        · exact .inl rfl
        · next hnew =>
          rw [if_neg hnew] at hinv'
          right
          obtain ⟨p, hptr⟩ := takeFree_some hinv
          rw [hptr] at hinv' ⊢
          have hnone : ∀ q, (transaction, some q) ∉ group.retains := fun q hq =>
            not_mem_keys (Option.not_isSome_iff_eq_none.mp hnew) (List.mem_map.mpr ⟨_, hq, rfl⟩)
          have hset : (groups.takeFree.2.setGroup name
              { group with retains := (transaction, some p) :: group.retains }).Holds
                name transaction p :=
            ⟨_, mem_of_lookup (lookup_setGroup (takeFree_pools.symm ▸ hname)), List.mem_cons_self⟩
          have hself := hset.addTask (some p) (.ensureTransaction transaction name)
          have hlen := Nat.lt_of_lt_of_eq (hinv'.known p hself.mem_owned) (length_addTask _)
          refine ⟨p, rfl, ?_, fun q hq => ?_, fun name' transaction' q hholds => ?_⟩
          · refine (thread_addTask_self hlen).trans ?_
            rw [thread_setGroup, thread_takeFree]
          · exact (thread_addTask_of_ne fun h => hq (Option.some.inj h).symm).trans thread_takeFree
          · rcases (hholds.of_pools addTask_pools).setGroup_cases with ⟨rfl, hretain⟩ | ⟨hne, hold⟩
            · rcases List.mem_cons.mp hretain with heq | hold
              · cases heq
                exact .inl ⟨rfl, rfl, rfl⟩
              · have hne : transaction' ≠ transaction := by
                  rintro rfl
                  exact hnone q hold
                -- were it the same pool, two transactions would hold it
                refine .inr ⟨⟨group, mem_of_lookup hname, hold⟩, ?_, fun h => hne h.2⟩
                rintro rfl
                exact hne (hholds.owner_eq hinv' hself).2
            · refine .inr ⟨hold.of_pools takeFree_pools, ?_, fun h => hne h.1⟩
              rintro rfl
              exact hne (hholds.owner_eq hinv' hself).1

end Holds

end ThreadGroups

/-! ## 4. What was posted, and what has run -/

/-- The groups with their history: `retention` numbers the last retention of each transaction of a
group, and `running` is the posted task that a thread runs. -/
structure ThreadRun (α : Type) where
  groups : ThreadGroups (Posted α)
  retention : String → UInt64 → Nat
  retentions : Nat
  accepted : List (Posted α)
  running : Nat → Option (Posted α)
  finished : List (Posted α)

namespace ThreadRun

variable {α : Type}

def empty : ThreadRun α := ⟨.empty, fun _ _ => 0, 0, [], fun _ => none, []⟩

def retainTaskThread (name : String) (transaction : UInt64) (s : ThreadRun α) : ThreadRun α :=
  let (retained, groups) := s.groups.retainTaskThread name transaction
  if retained then
    { s with
      groups
      retention := fun name' transaction' =>
        if name' = name ∧ transaction' = transaction then s.retentions
        else s.retention name' transaction'
      retentions := s.retentions + 1 }
  else { s with groups }

def postTask (name : String) (transaction : UInt64) (task : α) (s : ThreadRun α) : ThreadRun α :=
  let x : Posted α :=
    ⟨name, transaction, s.retention name transaction, s.accepted.length, task⟩
  let (accepted, groups) := s.groups.postTask name transaction x
  if accepted then { s with groups, accepted := s.accepted ++ [x] } else { s with groups }

def startTask (p : Nat) (s : ThreadRun α) : ThreadRun α :=
  match s.groups.startTask p with
  | none => s
  | some (task, groups) =>
    { s with groups, running := fun q => if q = p then task.run? else s.running q }

def endTask (p : Nat) (s : ThreadRun α) : ThreadRun α :=
  { s with
    groups := s.groups.endTask p
    running := fun q => if q = p then none else s.running q
    finished := s.finished ++ (s.running p).toList }

def step (s : ThreadRun α) : GroupStep α → ThreadRun α
  | .call (.createThreadGroup name threadNum) =>
    { s with groups := (s.groups.createThreadGroup name threadNum.toNat).2 }
  | .call (.destroyThreadGroup name) =>
    { s with groups := (s.groups.destroyThreadGroup name).2 }
  | .call (.retainTaskThread name transaction _) => s.retainTaskThread name transaction
  | .call (.releaseTaskThread name transaction) =>
    { s with groups := (s.groups.releaseTaskThread name transaction).2 }
  | .call (.postTask name transaction task) => s.postTask name transaction task
  | .startTask p => s.startTask p
  | .endTask p => s.endTask p

def run (steps : List (GroupStep α)) : ThreadRun α := steps.foldl step empty

/-- What the thread runs, and then what waits for it. -/
def line (s : ThreadRun α) (p : Nat) : List (Posted α) :=
  (s.running p).toList ++ posts (s.groups.thread p).tasks

structure ThreadOk (s : ThreadRun α) (p : Nat) : Prop where
  tagged : Tagged (s.groups.thread p).transactionCurr (s.groups.thread p).tasks
  own : ∀ x, s.running p = some x → (s.groups.thread p).transactionCurr = x.transaction
  idle : (s.groups.thread p).busy = false → s.running p = none
  known : ∀ x ∈ s.line p, x ∈ s.accepted
  order : InOrder s.accepted s.finished (s.line p)

/-- The queue of a pool that is held ends with the tasks of its holder. -/
structure HolderOk (s : ThreadRun α) (name : String) (transaction : UInt64) (p : Nat) :
    Prop where
  tag : lastTag (s.groups.thread p).transactionCurr (s.groups.thread p).tasks = transaction
  number : s.retention name transaction < s.retentions
  posted : ∀ y ∈ s.accepted, y.retention = s.retention name transaction →
    y ∈ s.finished ++ s.line p

structure Inv (s : ThreadRun α) : Prop where
  groups : s.groups.ThreadInv
  serial : ∀ y ∈ s.accepted, y.serial < s.accepted.length
  number : ∀ y ∈ s.accepted, y.retention < s.retentions
  threads : ∀ p, s.ThreadOk p
  holders : ∀ name transaction p, s.groups.Holds name transaction p →
    s.HolderOk name transaction p
  distinct : ∀ name transaction p name' transaction' p', s.groups.Holds name transaction p →
    s.groups.Holds name' transaction' p' →
      s.retention name transaction = s.retention name' transaction' →
        name = name' ∧ transaction = transaction'

variable {s s' : ThreadRun α} {name : String} {transaction : UInt64} {p : Nat}

theorem Inv.empty : (empty : ThreadRun α).Inv := by
  refine ⟨.empty, ?_, ?_, fun p => ?_, ?_, ?_⟩
  · intro y hy
    cases hy
  · intro y hy
    cases hy
  · refine ⟨trivial, ?_, fun _ => rfl, ?_, trivial⟩
    · intro x hx
      cases hx
    · intro x hx
      cases hx
  · rintro name transaction p ⟨group, hgroup, -⟩
    cases hgroup
  · rintro name transaction p _ _ _ ⟨group, hgroup, -⟩
    cases hgroup

theorem line_of_retagged (hrunning : s'.running p = s.running p)
    (hthread : ∃ tags : List (UInt64 × String), s'.groups.thread p =
      { s.groups.thread p with tasks := (s.groups.thread p).tasks ++ tags.map tagTask }) :
    s'.line p = s.line p := by
  obtain ⟨tags, htags⟩ := hthread
  rw [line, line, hrunning, htags, posts_append_tags]

/-- Tags at the end of its queue leave a thread as it is. -/
theorem ThreadOk.retagged (h : s.ThreadOk p) (haccepted : s'.accepted = s.accepted)
    (hrunning : s'.running p = s.running p) (hfinished : s'.finished = s.finished)
    (hthread : ∃ tags : List (UInt64 × String), s'.groups.thread p =
      { s.groups.thread p with tasks := (s.groups.thread p).tasks ++ tags.map tagTask }) :
    s'.ThreadOk p := by
  have hline := line_of_retagged hrunning hthread
  obtain ⟨tags, htags⟩ := hthread
  constructor
  · rw [htags]
    exact h.tagged.append_tags tags
  · rw [htags, hrunning]
    exact h.own
  · rw [htags, hrunning]
    exact h.idle
  · rw [hline, haccepted]
    exact h.known
  · rw [hline, haccepted, hfinished]
    exact h.order

/-- A call that hands out no pool. -/
theorem Inv.givesUp (h : s.Inv) {groups' : ThreadGroups (Posted α)} (hinv : groups'.ThreadInv)
    (hgives : s.groups.GivesUp groups') : ({ s with groups := groups' } : ThreadRun α).Inv := by
  refine ⟨hinv, h.serial, h.number, fun p => ?_, fun name transaction p hholds => ?_, ?_⟩
  · exact (h.threads p).retagged rfl rfl rfl (hgives.retagged p)
  · obtain ⟨hold, hthread⟩ := hgives.holds name transaction p hholds
    obtain ⟨htag, hnumber, hposted⟩ := h.holders name transaction p hold
    refine ⟨by rwa [hthread], hnumber, fun y hy hret => ?_⟩
    rw [line, hthread]
    exact hposted y hy hret
  · intro name transaction p name' transaction' p' hholds hholds'
    exact h.distinct name transaction p name' transaction' p' (hgives.holds _ _ _ hholds).1
      (hgives.holds _ _ _ hholds').1

/-- A retention is new, and its tag is the last in the queue of the pool that it gets. -/
theorem Inv.retainTaskThread (h : s.Inv) (name : String) (transaction : UInt64) :
    (s.retainTaskThread name transaction).Inv := by
  have hinv := h.groups.retainTaskThread name transaction
  rcases ThreadGroups.retainTaskThread_cases h.groups name transaction with
    hfail | ⟨p, hok, hself, hother, hholds⟩
  · rw [ThreadRun.retainTaskThread, hfail]
    exact h
  · rw [ThreadRun.retainTaskThread]
    generalize s.groups.retainTaskThread name transaction = result at hinv hok hself hother hholds
    obtain ⟨retained, groups⟩ := result
    dsimp only at hinv hok hself hother hholds ⊢
    rw [if_pos hok]
    have hretag (q : Nat) : ∃ tags : List (UInt64 × String), groups.thread q =
        { s.groups.thread q with tasks := (s.groups.thread q).tasks ++ tags.map tagTask } := by
      by_cases hq : q = p
      · rw [hq]
        exact ⟨[(transaction, name)], hself⟩
      · rw [hother q hq]
        exact ThreadGroups.retagged_self s.groups q
    refine ⟨hinv, h.serial, fun y hy => Nat.lt_succ_of_lt (h.number y hy),
      fun q => (h.threads q).retagged rfl rfl rfl (hretag q), ?_, ?_⟩
    · intro name' transaction' q hq
      rcases hholds name' transaction' q hq with ⟨rfl, rfl, rfl⟩ | ⟨hold, hne, hnot⟩
      · refine ⟨?_, ?_, fun y hy hret => ?_⟩
        · rw [hself, lastTag_concat]
          rfl
        · dsimp only
          rw [if_pos ⟨rfl, rfl⟩]
          exact Nat.lt_succ_self _
        -- no task has the number of the new retention
        · dsimp only at hret
          rw [if_pos ⟨rfl, rfl⟩] at hret
          exact absurd (h.number y hy) (hret ▸ Nat.lt_irrefl _)
      · obtain ⟨htag, hnumber, hposted⟩ := h.holders name' transaction' q hold
        refine ⟨by rwa [hother q hne], ?_, fun y hy hret => ?_⟩
        · dsimp only
          rw [if_neg hnot]
          exact Nat.lt_succ_of_lt hnumber
        · dsimp only at hret
          rw [if_neg hnot] at hret
          rw [line, hother q hne]
          exact hposted y hy hret
    -- the new retention has a number of its own, and the others keep theirs
    · intro name₁ transaction₁ p₁ name₂ transaction₂ p₂ h₁ h₂ hret
      dsimp only at hret
      rcases hholds name₁ transaction₁ p₁ h₁ with ⟨rfl, rfl, -⟩ | ⟨hold₁, -, hnot₁⟩
      · rcases hholds name₂ transaction₂ p₂ h₂ with ⟨rfl, rfl, -⟩ | ⟨hold₂, -, hnot₂⟩
        · exact ⟨rfl, rfl⟩
        · rw [if_pos ⟨rfl, rfl⟩, if_neg hnot₂] at hret
          exact absurd (h.holders _ _ _ hold₂).number (hret ▸ Nat.lt_irrefl _)
      · rcases hholds name₂ transaction₂ p₂ h₂ with ⟨rfl, rfl, -⟩ | ⟨hold₂, -, hnot₂⟩
        · rw [if_neg hnot₁, if_pos ⟨rfl, rfl⟩] at hret
          exact absurd (h.holders _ _ _ hold₁).number (hret ▸ Nat.lt_irrefl _)
        · rw [if_neg hnot₁, if_neg hnot₂] at hret
          exact h.distinct _ _ _ _ _ _ hold₁ hold₂ hret

section Post

variable {x : Posted α}

/-- A post for another thread. -/
theorem ThreadOk.accept (h : s.ThreadOk p) (hgroups : s'.groups.thread p = s.groups.thread p)
    (hrunning : s'.running p = s.running p) (hfinished : s'.finished = s.finished)
    (haccepted : s'.accepted = s.accepted ++ [x])
    (hserial : ∀ y ∈ s.line p, y.serial ≤ x.serial) : s'.ThreadOk p := by
  have hline : s'.line p = s.line p := by rw [line, line, hrunning, hgroups]
  constructor
  · rw [hgroups]
    exact h.tagged
  · rw [hgroups, hrunning]
    exact h.own
  · rw [hgroups, hrunning]
    exact h.idle
  · rw [hline, haccepted]
    exact fun y hy => List.mem_append_left _ (h.known y hy)
  · rw [hline, haccepted, hfinished]
    exact h.order.accept hserial

theorem line_post (hgroups : s'.groups.thread p =
      { s.groups.thread p with tasks := (s.groups.thread p).tasks ++ [ThreadTask.run x] })
    (hrunning : s'.running p = s.running p) : s'.line p = s.line p ++ [x] := by
  rw [line, line, hrunning, hgroups, posts_concat_run, List.append_assoc]

/-- A post for the thread itself, by the transaction whose tag is the last in its queue. -/
theorem ThreadOk.post (h : s.ThreadOk p)
    (hgroups : s'.groups.thread p =
      { s.groups.thread p with tasks := (s.groups.thread p).tasks ++ [ThreadTask.run x] })
    (hrunning : s'.running p = s.running p) (hfinished : s'.finished = s.finished)
    (haccepted : s'.accepted = s.accepted ++ [x])
    (hserial : ∀ y ∈ s.line p, y.serial ≤ x.serial)
    (htag : x.transaction =
      lastTag (s.groups.thread p).transactionCurr (s.groups.thread p).tasks)
    (hposted : ∀ y ∈ s.accepted, y.retention = x.retention → y ∈ s.finished ++ s.line p) :
    s'.ThreadOk p := by
  have hline := line_post hgroups hrunning
  constructor
  · rw [hgroups]
    exact h.tagged.concat_run htag
  · rw [hgroups, hrunning]
    exact h.own
  · rw [hgroups, hrunning]
    exact h.idle
  · rw [hline, haccepted]
    intro y hy
    rcases List.mem_append.mp hy with hy | hy
    · exact List.mem_append_left _ (h.known y hy)
    · exact List.mem_append_right _ hy
  · rw [hline, haccepted, hfinished]
    refine (h.order.accept hserial).concat fun y hy hret hlt => ?_
    rcases List.mem_append.mp hy with hy | hy
    · exact hposted y hy hret
    · rw [List.mem_singleton.mp hy] at hlt
      exact absurd hlt (Nat.lt_irrefl _)

/-- A post goes behind its holder's tag and the holder's other posts. -/
theorem Inv.postTask (h : s.Inv) (name : String) (transaction : UInt64) (task : α) :
    (s.postTask name transaction task).Inv := by
  rw [ThreadRun.postTask]
  generalize hx : (⟨name, transaction, s.retention name transaction, s.accepted.length, task⟩ :
    Posted α) = x
  rcases ThreadGroups.postTask_cases h.groups.toConserved name transaction x with
    hfail | ⟨group, p, hname, htransaction, hok⟩
  · rw [hfail]
    exact h
  rw [hok]
  have hholder : s.groups.Holds name transaction p :=
    ⟨group, ThreadGroups.mem_of_lookup hname, ThreadGroups.mem_of_lookup htransaction⟩
  obtain ⟨htag, hnumber, hposted⟩ := h.holders name transaction p hholder
  have hserial : x.serial = s.accepted.length := by rw [← hx]
  have hret : x.retention = s.retention name transaction := by rw [← hx]
  have hlater (q : Nat) : ∀ y ∈ s.line q, y.serial ≤ x.serial := fun y hy =>
    hserial ▸ Nat.le_of_lt (h.serial y ((h.threads q).known y hy))
  let s' : ThreadRun α :=
    { s with groups := s.groups.addTask (some p) (.run x), accepted := s.accepted ++ [x] }
  have hself : s'.groups.thread p = _ :=
    ThreadGroups.thread_addTask_self (h.groups.known p hholder.mem_owned)
  have hother (q : Nat) (hq : q ≠ p) : s'.groups.thread q = s.groups.thread q :=
    ThreadGroups.thread_addTask_of_ne fun heq => hq (Option.some.inj heq).symm
  have hholds {name' : String} {transaction' : UInt64} {q : Nat}
      (hq : s'.groups.Holds name' transaction' q) : s.groups.Holds name' transaction' q :=
    hq.of_pools ThreadGroups.addTask_pools
  show s'.Inv
  refine ⟨h.groups.addTask (some p) (.run x), fun y hy => ?_, fun y hy => ?_,
    fun q => ?_, fun name' transaction' q hq => ?_,
    fun name₁ transaction₁ p₁ name₂ transaction₂ p₂ h₁ h₂ =>
      h.distinct _ _ _ _ _ _ (hholds h₁) (hholds h₂)⟩
  · rw [List.length_append]
    rcases List.mem_append.mp hy with hy | hy
    · exact Nat.lt_succ_of_lt (h.serial y hy)
    · rw [List.mem_singleton.mp hy, hserial]
      exact Nat.lt_succ_self _
  · rcases List.mem_append.mp hy with hy | hy
    · exact h.number y hy
    · rw [List.mem_singleton.mp hy, hret]
      exact hnumber
  · by_cases hq : q = p
    · subst hq
      refine (h.threads q).post hself rfl rfl rfl (hlater q) ?_ (hret ▸ hposted)
      rw [htag, ← hx]
    · exact (h.threads q).accept (hother q hq) rfl rfl rfl (hlater q)
  · have hold := hholds hq
    obtain ⟨htag', hnumber', hposted'⟩ := h.holders name' transaction' q hold
    by_cases hqp : q = p
    · subst hqp
      refine ⟨?_, hnumber', fun y hy hyret => ?_⟩
      · rw [hself, lastTag_concat]
        exact htag'
      · rw [line_post hself rfl, ← List.append_assoc]
        rcases List.mem_append.mp hy with hy | hy
        · exact List.mem_append_left _ (hposted' y hy hyret)
        · exact List.mem_append_right _ hy
    · refine ⟨by rwa [hother q hqp], hnumber', fun y hy hyret => ?_⟩
      rw [line, hother q hqp]
      rcases List.mem_append.mp hy with hy | hy
      · exact hposted' y hy hyret
      · -- the post would be of the same retention, and so for the pool of the same holder
        rw [List.mem_singleton.mp hy, hret] at hyret
        obtain ⟨rfl, rfl⟩ := h.distinct _ _ _ _ _ _ hholder hold hyret
        exact absurd (hold.pool_eq h.groups hholder) hqp

end Post

/-- The task that starts stays in the line, and so do the others. -/
theorem Inv.line_startTask (h : s.Inv) (p q : Nat) : (s.startTask p).line q = s.line q := by
  rw [ThreadRun.startTask]
  cases hstart : s.groups.startTask p with
  | none => rfl
  | some started =>
    obtain ⟨task, groups⟩ := started
    obtain ⟨-, hidle, htasks, -, -, hother⟩ := ThreadGroups.startTask_cases hstart
    rw [line, line]
    dsimp only
    by_cases hq : q = p
    · rw [if_pos hq, hq, (h.threads p).idle hidle, htasks]
      cases task <;> rfl
    · rw [if_neg hq, hother q hq]

/-- A task that starts was the first of its queue. -/
theorem Inv.startTask (h : s.Inv) (p : Nat) : (s.startTask p).Inv := by
  have hline := h.line_startTask p
  revert hline
  rw [ThreadRun.startTask]
  cases hstart : s.groups.startTask p with
  | none => exact fun _ => h
  | some started =>
    intro hline
    obtain ⟨task, groups⟩ := started
    obtain ⟨hpools, hidle, htasks, hbusy, hcurr, hother⟩ := ThreadGroups.startTask_cases hstart
    let s' : ThreadRun α :=
      { s with groups, running := fun q => if q = p then task.run? else s.running q }
    have hrun : s'.running p = task.run? := if_pos rfl
    have hrun' (q : Nat) (hq : q ≠ p) : s'.running q = s.running q := if_neg hq
    show s'.Inv
    refine ⟨h.groups.startTask hstart, h.serial, h.number, fun q => ?_,
      fun name transaction q hq => ?_, ?_⟩
    · obtain ⟨htagged, hown, hidle', hknown, horder⟩ := h.threads q
      by_cases hq : q = p
      · subst hq
        rw [htasks] at htagged
        refine ⟨?_, ?_, ?_, hline q ▸ hknown, hline q ▸ horder⟩
        · rw [hcurr]
          exact htagged.tail
        · rw [hrun, hcurr]
          intro x hx
          -- a tag is not run; a posted task has just its tag before it
          cases task with
          | ensureTransaction transaction name => cases hx
          | run y =>
            cases hx
            exact htagged.1.symm
        · rw [hbusy]
          exact fun hfalse => Bool.noConfusion hfalse
      · refine ⟨?_, ?_, ?_, hline q ▸ hknown, hline q ▸ horder⟩
        · rwa [hother q hq]
        · rwa [hother q hq, hrun' q hq]
        · rwa [hother q hq, hrun' q hq]
    · obtain ⟨htag, hnumber, hposted⟩ := h.holders name transaction q (hq.of_pools hpools)
      refine ⟨?_, hnumber, hline q ▸ hposted⟩
      by_cases hqp : q = p
      · subst hqp
        rw [htasks] at htag
        rw [hcurr]
        exact htag
      · rwa [hother q hqp]
    · exact fun _ _ _ _ _ _ h₁ h₂ =>
        h.distinct _ _ _ _ _ _ (h₁.of_pools hpools) (h₂.of_pools hpools)

theorem thread_endTask_self (s : ThreadRun α) (p : Nat) :
    (s.endTask p).groups.thread p = { s.groups.thread p with busy := false } :=
  ThreadGroups.thread_endTask.trans (if_pos rfl)

theorem thread_endTask_of_ne (s : ThreadRun α) {p q : Nat} (hq : q ≠ p) :
    (s.endTask p).groups.thread q = s.groups.thread q :=
  ThreadGroups.thread_endTask.trans (if_neg hq)

theorem line_endTask_self (s : ThreadRun α) (p : Nat) :
    s.line p = (s.running p).toList ++ (s.endTask p).line p := by
  have hrun : (s.endTask p).running p = none := if_pos rfl
  rw [line, line, thread_endTask_self, hrun]
  rfl

theorem line_endTask_of_ne (s : ThreadRun α) {p q : Nat} (hq : q ≠ p) :
    (s.endTask p).line q = s.line q := by
  have hrun : (s.endTask p).running q = s.running q := if_neg hq
  rw [line, line, thread_endTask_of_ne s hq, hrun]

/-- A task that ends was the first of its line. -/
theorem Inv.endTask (h : s.Inv) (p : Nat) : (s.endTask p).Inv := by
  have hself := thread_endTask_self s p
  have hother (q : Nat) (hq : q ≠ p) := thread_endTask_of_ne s hq
  have hrun : (s.endTask p).running p = none := if_pos rfl
  have hrun' (q : Nat) (hq : q ≠ p) : (s.endTask p).running q = s.running q := if_neg hq
  have hline := line_endTask_self s p
  have hline' (q : Nat) (hq : q ≠ p) := line_endTask_of_ne s hq
  have hfinished : s.finished ⊆ (s.endTask p).finished := List.subset_append_left _ _
  refine ⟨h.groups.endTask p, h.serial, h.number, fun q => ?_, fun name transaction q hq => ?_,
    h.distinct⟩
  · obtain ⟨htagged, hown, hidle, hknown, horder⟩ := h.threads q
    by_cases hq : q = p
    · subst hq
      refine ⟨?_, ?_, fun _ => hrun, fun x hx => hknown x ?_, ?_⟩
      · rw [hself]
        exact htagged
      · rw [hrun]
        intro x hx
        cases hx
      · rw [hline]
        exact List.mem_append_right _ hx
      · rw [hline] at horder
        rw [show (s.endTask q).finished = s.finished ++ (s.running q).toList from rfl]
        -- the task that ends is the head of the line
        cases hx : s.running q with
        | none =>
          rw [hx] at horder
          rwa [Option.toList_none, List.append_nil]
        | some x =>
          rw [hx] at horder
          exact horder.2
    · refine ⟨?_, ?_, ?_, ?_, ?_⟩
      · rwa [hother q hq]
      · rwa [hother q hq, hrun' q hq]
      · rwa [hother q hq, hrun' q hq]
      · rwa [hline' q hq]
      · rw [hline' q hq]
        exact horder.mono hfinished
  · obtain ⟨htag, hnumber, hposted⟩ := h.holders name transaction q hq
    by_cases hqp : q = p
    · subst hqp
      refine ⟨by rwa [hself], hnumber, fun y hy hret => ?_⟩
      have hmem := hposted y hy hret
      rwa [hline, ← List.append_assoc] at hmem
    · refine ⟨by rwa [hother q hqp], hnumber, fun y hy hret => ?_⟩
      rw [hline' q hqp]
      rcases List.mem_append.mp (hposted y hy hret) with hmem | hmem
      · exact List.mem_append_left _ (hfinished hmem)
      · exact List.mem_append_right _ hmem

theorem Inv.step (h : s.Inv) (step : GroupStep α) : (s.step step).Inv := by
  cases step with
  | call call =>
    cases call with
    | createThreadGroup name threadNum =>
      exact h.givesUp (h.groups.createThreadGroup name threadNum.toNat)
        (.createThreadGroup s.groups name threadNum.toNat)
    | destroyThreadGroup name =>
      exact h.givesUp (h.groups.destroyThreadGroup name) (.destroyThreadGroup h.groups name)
    | retainTaskThread name transaction maxTaskNum => exact h.retainTaskThread name transaction
    | releaseTaskThread name transaction =>
      exact h.givesUp (h.groups.releaseTaskThread name transaction)
        (.releaseTaskThread h.groups name transaction)
    | postTask name transaction task => exact h.postTask name transaction task
  | startTask p => exact h.startTask p
  | endTask p => exact h.endTask p

/-! ### No task is lost -/

/-- Every task that was accepted has ended, or is in the line of a thread. -/
def Kept (s : ThreadRun α) : Prop :=
  ∀ x ∈ s.accepted, x ∈ s.finished ∨ ∃ p, x ∈ s.line p

theorem Kept.of_line (h : s.Kept) (haccepted : s'.accepted = s.accepted)
    (hfinished : s'.finished = s.finished) (hline : ∀ p, s'.line p = s.line p) : s'.Kept := by
  intro x hx
  rw [haccepted] at hx
  rw [hfinished]
  exact (h x hx).imp_right fun ⟨p, hp⟩ => ⟨p, (hline p).symm ▸ hp⟩

theorem Kept.givesUp (h : s.Kept) {groups' : ThreadGroups (Posted α)}
    (hgives : s.groups.GivesUp groups') : ({ s with groups := groups' } : ThreadRun α).Kept :=
  h.of_line rfl rfl fun p => line_of_retagged rfl (hgives.retagged p)

theorem Kept.retainTaskThread (h : s.Kept) (hinv : s.Inv) (name : String)
    (transaction : UInt64) : (s.retainTaskThread name transaction).Kept := by
  rcases ThreadGroups.retainTaskThread_cases hinv.groups name transaction with
    hfail | ⟨p, hok, hself, hother, -⟩
  · rw [ThreadRun.retainTaskThread, hfail]
    exact h
  · rw [ThreadRun.retainTaskThread]
    dsimp only
    rw [if_pos hok]
    refine h.of_line rfl rfl fun q => line_of_retagged rfl ?_
    by_cases hq : q = p
    · rw [hq]
      exact ⟨[(transaction, name)], hself⟩
    · dsimp only
      rw [hother q hq]
      exact ThreadGroups.retagged_self s.groups q

theorem Kept.postTask (h : s.Kept) (hinv : s.Inv) (name : String) (transaction : UInt64)
    (task : α) : (s.postTask name transaction task).Kept := by
  rw [ThreadRun.postTask]
  generalize (⟨name, transaction, s.retention name transaction, s.accepted.length, task⟩ :
    Posted α) = x
  rcases ThreadGroups.postTask_cases hinv.groups.toConserved name transaction x with
    hfail | ⟨group, p, hname, htransaction, hok⟩
  · rw [hfail]
    exact h
  rw [hok]
  have hholder : s.groups.Holds name transaction p :=
    ⟨group, ThreadGroups.mem_of_lookup hname, ThreadGroups.mem_of_lookup htransaction⟩
  let s' : ThreadRun α :=
    { s with groups := s.groups.addTask (some p) (.run x), accepted := s.accepted ++ [x] }
  have hself : s'.line p = s.line p ++ [x] :=
    line_post (ThreadGroups.thread_addTask_self (hinv.groups.known p hholder.mem_owned)) rfl
  show s'.Kept
  intro y hy
  rcases List.mem_append.mp hy with hy | hy
  · refine (h y hy).imp_right fun ⟨q, hq⟩ => ⟨q, ?_⟩
    by_cases hqp : q = p
    · subst hqp
      rw [hself]
      exact List.mem_append_left _ hq
    · have hother : s'.groups.thread q = s.groups.thread q :=
        ThreadGroups.thread_addTask_of_ne fun heq => hqp (Option.some.inj heq).symm
      rw [line, hother]
      exact hq
  · refine .inr ⟨p, ?_⟩
    rw [hself]
    exact List.mem_append_right _ hy

theorem Kept.startTask (h : s.Kept) (hinv : s.Inv) (p : Nat) : (s.startTask p).Kept := by
  have hline := hinv.line_startTask p
  revert hline
  rw [ThreadRun.startTask]
  cases s.groups.startTask p with
  | none => exact fun _ => h
  | some started => exact h.of_line rfl rfl

theorem Kept.endTask (h : s.Kept) (p : Nat) : (s.endTask p).Kept := by
  intro x hx
  rcases h x hx with hfinished | ⟨q, hq⟩
  · exact .inl (List.mem_append_left _ hfinished)
  · by_cases hqp : q = p
    · subst hqp
      rw [line_endTask_self] at hq
      -- the head of the line has ended
      rcases List.mem_append.mp hq with hq | hq
      · exact .inl (List.mem_append_right _ hq)
      · exact .inr ⟨q, hq⟩
    · exact .inr ⟨q, (line_endTask_of_ne s hqp).symm ▸ hq⟩

theorem Kept.step (h : s.Kept) (hinv : s.Inv) (step : GroupStep α) : (s.step step).Kept := by
  cases step with
  | call call =>
    cases call with
    | createThreadGroup name threadNum =>
      exact h.givesUp (.createThreadGroup s.groups name threadNum.toNat)
    | destroyThreadGroup name => exact h.givesUp (.destroyThreadGroup hinv.groups name)
    | retainTaskThread name transaction maxTaskNum => exact h.retainTaskThread hinv name transaction
    | releaseTaskThread name transaction =>
      exact h.givesUp (.releaseTaskThread hinv.groups name transaction)
    | postTask name transaction task => exact h.postTask hinv name transaction task
  | startTask p => exact h.startTask hinv p
  | endTask p => exact h.endTask p

theorem inv_run (steps : List (GroupStep α)) : (run steps).Inv ∧ (run steps).Kept := by
  suffices hrun : ∀ s : ThreadRun α, s.Inv → s.Kept →
      (steps.foldl ThreadRun.step s).Inv ∧ (steps.foldl ThreadRun.step s).Kept from
    hrun _ Inv.empty fun _ hx => by cases hx
  induction steps with
  | nil => exact fun _ h hkept => ⟨h, hkept⟩
  | cons step steps ih => exact fun s h hkept => ih _ (h.step step) (hkept.step h step)

end ThreadRun

/-! ## 5. Without the history -/

section Map

variable {α β : Type} (f : α → β)

def ThreadTask.map : ThreadTask α → ThreadTask β
  | .ensureTransaction transaction name => .ensureTransaction transaction name
  | .run task => .run (f task)

def ThreadPool.map (thread : ThreadPool α) : ThreadPool β :=
  ⟨thread.tasks.map (ThreadTask.map f), thread.busy, thread.transactionCurr⟩

namespace ThreadGroups

/-- Other tasks in the same queues. -/
def map (groups : ThreadGroups α) : ThreadGroups β :=
  ⟨groups.pools, groups.frees, groups.threads.map (ThreadPool.map f)⟩

variable {groups : ThreadGroups α}

theorem map_modify {threads : List (ThreadPool α)} {p : Nat} {g : ThreadPool α → ThreadPool α}
    {g' : ThreadPool β → ThreadPool β} (h : ∀ thread, (g thread).map f = g' (thread.map f)) :
    (threads.modify p g).map (ThreadPool.map f) =
      (threads.map (ThreadPool.map f)).modify p g' := by
  refine List.ext_getElem? fun q => ?_
  by_cases hq : p = q
  · subst hq
    rw [List.getElem?_map, List.getElem?_modify_eq, List.getElem?_modify_eq, List.getElem?_map]
    cases threads[p]? with
    | none => rfl
    | some thread => exact congrArg some (h thread)
  · rw [List.getElem?_map, List.getElem?_modify_ne _ _ hq, List.getElem?_modify_ne _ _ hq,
      List.getElem?_map]

theorem map_addTask (ptr : ThreadPoolPtr) (task : ThreadTask α) :
    (groups.addTask ptr task).map f = (groups.map f).addTask ptr (task.map f) := by
  cases ptr with
  | none => rfl
  | some p =>
    rw [map, map, addTask, addTask]
    congr 1
    refine map_modify f fun thread => ?_
    simp [ThreadPool.map]

theorem map_ensureTransaction (ptr : ThreadPoolPtr) (transaction : UInt64) (name : String) :
    (groups.ensureTransaction ptr transaction name).map f =
      (groups.map f).ensureTransaction ptr transaction name :=
  map_addTask f ptr _

theorem map_pools (groups : ThreadGroups α) : (groups.map f).pools = groups.pools := rfl

theorem map_takeFree :
    (groups.map f).takeFree = Prod.map id (map f) groups.takeFree := by
  obtain ⟨pools, frees, threads⟩ := groups
  cases frees with
  | nil => simp [takeFree, map, ThreadPool.map]
  | cons ptr frees => rfl

theorem map_foldl (ptrs : List ThreadPoolPtr) (name : String) (groups : ThreadGroups α) :
    (ptrs.foldl (fun groups ptr => groups.ensureTransaction ptr 0 name) groups).map f =
      ptrs.foldl (fun groups ptr => groups.ensureTransaction ptr 0 name) (groups.map f) := by
  induction ptrs generalizing groups with
  | nil => rfl
  | cons ptr ptrs ih => rw [List.foldl_cons, List.foldl_cons, ih, map_ensureTransaction]

theorem map_createThreadGroup (name : String) (threadNum : Nat) :
    (groups.map f).createThreadGroup name threadNum =
      Prod.map id (map f) (groups.createThreadGroup name threadNum) := by
  unfold createThreadGroup
  rw [map_pools]
  cases groups.pools.lookup name <;> rfl

theorem map_destroyThreadGroup (name : String) : (groups.map f).destroyThreadGroup name =
    Prod.map id (map f) (groups.destroyThreadGroup name) := by
  unfold destroyThreadGroup releaseAllTaskThread
  rw [map_pools]
  cases groups.pools.lookup name with
  | none => rfl
  | some group =>
    dsimp only
    rw [← map_foldl]
    rfl

theorem map_retainTaskThread (name : String) (transaction : UInt64) :
    (groups.map f).retainTaskThread name transaction =
      Prod.map id (map f) (groups.retainTaskThread name transaction) := by
  unfold retainTaskThread
  rw [map_pools, map_takeFree]
  cases groups.pools.lookup name with
  | none => rfl
  | some group =>
    dsimp only
    split_ifs
    · rfl
    · rfl
    · rfl
    · dsimp only [Prod.map, id]
      rw [map_ensureTransaction]
      rfl

theorem map_releaseTaskThread (name : String) (transaction : UInt64) :
    (groups.map f).releaseTaskThread name transaction =
      Prod.map id (map f) (groups.releaseTaskThread name transaction) := by
  unfold releaseTaskThread
  rw [map_pools]
  cases groups.pools.lookup name with
  | none => rfl
  | some group =>
    dsimp only
    split_ifs
    · rfl
    · cases group.retains.lookup transaction with
      | none => rfl
      | some ptr =>
        dsimp only
        rw [← map_ensureTransaction]
        rfl

theorem map_postTask (name : String) (transaction : UInt64) (task : α) :
    (groups.map f).postTask name transaction (f task) =
      Prod.map id (map f) (groups.postTask name transaction task) := by
  unfold postTask
  rw [map_pools]
  cases groups.pools.lookup name with
  | none => rfl
  | some group =>
    dsimp only
    cases group.retains.lookup transaction with
    | none => rfl
    | some ptr =>
      cases ptr with
      | none => rfl
      | some p => exact congrArg (Prod.mk true) (map_addTask f (some p) (.run task)).symm

theorem map_startTask (p : Nat) : (groups.map f).startTask p =
    (groups.startTask p).map (Prod.map (ThreadTask.map f) (map f)) := by
  unfold startTask
  have hthread : (groups.map f).threads[p]? = groups.threads[p]?.map (ThreadPool.map f) :=
    List.getElem?_map
  rw [hthread]
  rcases groups.threads[p]? with - | ⟨_ | ⟨task, tasks⟩, _ | _, transactionCurr⟩
  · rfl
  · rfl
  · rfl
  · cases task <;>
      simp [ThreadPool.map, map, ThreadTask.map, List.map_set]
  · rfl

theorem map_endTask (p : Nat) : (groups.map f).endTask p = (groups.endTask p).map f := by
  rw [map, map, endTask, endTask]
  congr 1
  exact (map_modify f fun _ => rfl).symm

end ThreadGroups

end Map

namespace ThreadRun

variable {α : Type}

theorem retainTaskThread_groups (s : ThreadRun α) (name : String) (transaction : UInt64) :
    (s.retainTaskThread name transaction).groups =
      (s.groups.retainTaskThread name transaction).2 := by
  unfold retainTaskThread
  dsimp only
  split <;> rfl

theorem postTask_groups (s : ThreadRun α) (name : String) (transaction : UInt64) (task : α) :
    ∃ x : Posted α, x.task = task ∧ (s.postTask name transaction task).groups =
      (s.groups.postTask name transaction x).2 := by
  unfold postTask
  dsimp only
  split <;> exact ⟨_, rfl, rfl⟩

theorem startTask_groups (s : ThreadRun α) (p : Nat) :
    (s.startTask p).groups = ((s.groups.startTask p).map (·.2)).getD s.groups := by
  unfold startTask
  cases s.groups.startTask p <;> rfl

/-- The history is only looked on: what the groups do, they do without it. -/
theorem step_groups (s : ThreadRun α) (step : GroupStep α) :
    (s.step step).groups.map Posted.task = step.apply (s.groups.map Posted.task) := by
  cases step with
  | call call =>
    cases call with
    | createThreadGroup name threadNum =>
      exact (congrArg Prod.snd (ThreadGroups.map_createThreadGroup _ name threadNum.toNat)).symm
    | destroyThreadGroup name =>
      exact (congrArg Prod.snd (ThreadGroups.map_destroyThreadGroup _ name)).symm
    | retainTaskThread name transaction maxTaskNum =>
      refine (congrArg _ (retainTaskThread_groups s name transaction)).trans ?_
      exact (congrArg Prod.snd (ThreadGroups.map_retainTaskThread _ name transaction)).symm
    | releaseTaskThread name transaction =>
      exact (congrArg Prod.snd (ThreadGroups.map_releaseTaskThread _ name transaction)).symm
    | postTask name transaction task =>
      obtain ⟨x, rfl, hx⟩ := postTask_groups s name transaction task
      refine (congrArg _ hx).trans ?_
      exact (congrArg Prod.snd (ThreadGroups.map_postTask Posted.task name transaction x)).symm
  | startTask p =>
    refine (congrArg _ (startTask_groups s p)).trans ?_
    show _ = (((s.groups.map Posted.task).startTask p).map (·.2)).getD (s.groups.map Posted.task)
    rw [ThreadGroups.map_startTask]
    cases s.groups.startTask p <;> rfl
  | endTask p => exact (ThreadGroups.map_endTask _ p).symm

theorem run_groups (steps : List (GroupStep α)) :
    (run steps).groups.map Posted.task = GroupStep.run steps := by
  suffices hrun : ∀ s : ThreadRun α, (steps.foldl step s).groups.map Posted.task =
      steps.foldl (fun groups step => step.apply groups) (s.groups.map Posted.task) from
    hrun empty
  induction steps with
  | nil => exact fun _ => rfl
  | cons step steps ih => exact fun s => (ih _).trans (by rw [step_groups]; rfl)

/-- After every sequence of steps, a task that was accepted has ended, is running or waits in the
queue of a thread; a thread that runs a posted task has the transaction that posted it, and every
task that the same retention was given before has ended. -/
theorem runs_in_transaction (steps : List (GroupStep α)) :
    (run steps).groups.map Posted.task = GroupStep.run steps ∧
      (∀ x ∈ (run steps).accepted, x ∈ (run steps).finished ∨
        ∃ p, (run steps).running p = some x ∨
          ThreadTask.run x ∈ ((run steps).groups.thread p).tasks) ∧
      ∀ p x, (run steps).running p = some x →
        x ∈ (run steps).accepted ∧
          ((run steps).groups.thread p).transactionCurr = x.transaction ∧
          ∀ y ∈ (run steps).accepted, y.retention = x.retention → y.serial < x.serial →
            y ∈ (run steps).finished := by
  obtain ⟨hinv, hkept⟩ := inv_run steps
  refine ⟨run_groups steps, fun x hx => ?_, fun p x hx => ?_⟩
  · refine (hkept x hx).imp_right fun ⟨p, hp⟩ => ⟨p, ?_⟩
    rcases List.mem_append.mp hp with hrunning | hwaits
    · exact .inl (Option.mem_toList.mp hrunning)
    · obtain ⟨task, htask, hrun⟩ := List.mem_filterMap.mp hwaits
      cases task with
      | ensureTransaction => cases hrun
      | run y =>
        cases hrun
        exact .inr htask
  · obtain ⟨-, hown, -, hknown, horder⟩ := hinv.threads p
    rw [line, hx] at hknown horder
    exact ⟨hknown x List.mem_cons_self, hown x hx, horder.1⟩

/-- The pool of the first transaction is retained by the second while both its tasks wait. -/
def handedOver : List (GroupStep Nat) :=
  [.call (.createThreadGroup "auth" 4), .call (.retainTaskThread "auth" 1 128),
   .call (.postTask "auth" 1 10), .call (.postTask "auth" 1 11),
   .call (.releaseTaskThread "auth" 1), .call (.retainTaskThread "auth" 2 128),
   .call (.postTask "auth" 2 20), .startTask 0, .endTask 0, .startTask 0, .endTask 0,
   .startTask 0]

/-- The second task of the first transaction runs, in that transaction and after the first one. -/
theorem runs_in_transaction_example :
    (run handedOver).running 0 = some ⟨"auth", 1, 0, 1, 11⟩ ∧
      ((run handedOver).groups.thread 0).transactionCurr = 1 ∧
      ⟨"auth", 1, 0, 0, 10⟩ ∈ (run handedOver).finished := by
  have hrunning : (run handedOver).running 0 = some ⟨"auth", 1, 0, 1, 11⟩ := by decide +kernel
  have haccepted : ⟨"auth", 1, 0, 0, 10⟩ ∈ (run handedOver).accepted := by decide +kernel
  obtain ⟨-, -, hruns⟩ := runs_in_transaction handedOver
  obtain ⟨-, htransaction, hbefore⟩ := hruns 0 _ hrunning
  exact ⟨hrunning, htransaction, hbefore _ haccepted rfl (by decide)⟩

end ThreadRun

end UserIam.Common
