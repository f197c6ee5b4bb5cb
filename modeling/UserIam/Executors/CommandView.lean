import UserIam.Conc.Typestate
import UserIam.Executors.HdiDisconnect

/-!
# What a thread knows of a command

The thread that starts a command, the threads that answer it and a disconnect that finds it in the
set: what each of them can tell of the command from what it has done itself, and why that stays
true while the others run.
-/

namespace UserIam.Executors

open Conc CoAuth

/-! ## 1. What happens to one command -/

/-- The driver refuses the request of the command. -/
def refuses (c : AsyncCommand) : ExecutorEvent → Bool
  | .op _ (.returnHdi c') resultCode => c' = c ∧ resultCode ≠ ResultCode.success
  | _ => false

/-- The driver answers the command. -/
def answers (c : AsyncCommand) : ExecutorEvent → Bool
  | .spawn _ (.onResult c' _ _) => c' = c
  | _ => false

def starts (c : AsyncCommand) : ExecutorCall → Bool
  | .start c' _ _ => c' = c
  | _ => false

/-- The command calls `Finish` of its messenger. -/
def finishes (c : AsyncCommand) : ExecutorEvent → Bool
  | .op _ (.finish c' _ _ _ _) _ => c' = c
  | _ => false

/-- `StartProcess` of the command returns a code other than `SUCCESS`. -/
def startFails (c : AsyncCommand) : ExecutorEvent → Bool
  | .op _ (.returned c' resultCode) _ => c' = c ∧ resultCode ≠ ResultCode.success
  | _ => false

/-- The driver has got the command. -/
def ExecutorState.handed (s : ExecutorState) (c : AsyncCommand) : Bool :=
  (s.command c).any (·.handed)

/-! ## 2. What a thread knows of the command -/

inductive CommandRole where
  | starter
  | answerer
  | disconnecter
  | other
  deriving DecidableEq

/-- `references` are the thread's own references to the executor, `holds` says that it owns
`Executor::mutex_` and `found` that it has seen the command in the set since it does; the other
fields say what the thread has done. -/
structure CommandView where
  role : CommandRole
  references : Nat := 0
  holds : Bool := false
  found : Bool := false
  inserted : Bool := false
  erased : Bool := false
  called : Bool := false
  refused : Bool := false
  finished : Bool := false
  failed : Bool := false

/-- What the thread knows after an operation, field by field. -/
def CommandView.step (c : AsyncCommand) (v : CommandView) (o : ExecutorOp) (r : ExecutorRes o) :
    CommandView where
  role := v.role
  references :=
    match o, r with
    | .lockExecutor, executor => if executor then v.references + 1 else v.references
    | .releaseExecutor, _ => v.references - 1
    | _, _ => v.references
  holds :=
    match o with
    | .lock .executor => true
    | .unlock .executor => false
    | _ => v.holds
  found :=
    match o, r with
    | .listCommands, commands => decide (c ∈ commands)
    | .unlock .executor, _ => false
    | .clearCommands, _ => false
    | .eraseCommand c', _ => if c' = c then false else v.found
    | _, _ => v.found
  inserted :=
    match o with
    | .insertCommand c' => if c' = c then true else v.inserted
    | _ => v.inserted
  erased :=
    match o with
    | .eraseCommand c' => if c' = c then true else v.erased
    | _ => v.erased
  called :=
    match o with
    | .callHdi c' _ => if c' = c then true else v.called
    | _ => v.called
  refused :=
    match o, r with
    | .returnHdi c', resultCode =>
      if c' = c ∧ resultCode ≠ ResultCode.success then true else v.refused
    | _, _ => v.refused
  finished :=
    match o with
    | .finish c' _ _ _ _ => if c' = c then true else v.finished
    | _ => v.finished
  failed :=
    match o with
    | .returned c' resultCode => if c' = c ∧ resultCode ≠ .success then true else v.failed
    | _ => v.failed

/-- A thread with a reference finds the executor, and one that owns the mutex does not get it
again. -/
def CommandView.possible (v : CommandView) : (o : ExecutorOp) → ExecutorRes o → Bool
  | .lockExecutor, executor => executor || v.references = 0
  | .lock .executor, _ => !v.holds
  | _, _ => true

def CommandView.next (c : AsyncCommand) (v : CommandView) (o : ExecutorOp) (r : ExecutorRes o) :
    Option CommandView :=
  if v.possible o r then some (v.step c o r) else none

/-- The set is worked on under the mutex; only the thread that starts the command puts it in, and
hands it to the driver. -/
def CommandView.may (c : AsyncCommand) (v : CommandView) : ExecutorOp → Prop
  | .unlock .executor => v.holds = true
  | .listCommands => v.holds = true
  | .clearCommands => v.holds = true
  | .eraseCommand _ => v.holds = true
  | .insertCommand c' => c' = c → v.role = .starter ∧ v.erased = false
  | .callHdi c' _ => c' = c → v.role = .starter
  | _ => True

/-- A command finishes when it is answered or when a disconnect has found it; one whose start has
failed has left the set, and the driver that has got it has refused it. -/
structure CommandView.Fact (v : CommandView) : Prop where
  found : v.found = true → v.holds = true
  finished : v.finished = true → v.role = .answerer ∨ v.role = .disconnecter ∧ v.found = true
  failed : v.failed = true → v.role = .starter ∧ (v.inserted = true → v.erased = true) ∧
    (v.called = true → v.refused = true)

abbrev commandTypestate (c : AsyncCommand) : Typestate ExecutorOp ExecutorRes CommandView :=
  ⟨CommandView.may c, CommandView.next c, CommandView.Fact, fun _ => True⟩

/-- What a thread knows is true. -/
structure CommandLink (c : AsyncCommand) (w : ExecutorWorld) (t : Nat) (v : CommandView) :
    Prop where
  references : v.references ≤ w.state.holders.count t
  holds : v.holds = true → w.state.owner .executor = some t
  found : v.found = true → c ∈ w.state.command2Respond
  refused : v.refused = true → w.trace.any (refuses c) = true
  finished : ∀ e ∈ w.trace, e.tid = t → finishes c e = true → v.finished = true
  failed : ∀ e ∈ w.trace, e.tid = t → startFails c e = true → v.failed = true
  starter : v.role = .starter → w.spawned (starts c) = [t] ∧ w.state.command c ≠ none
  unique : v.role = .starter → c ∈ w.state.command2Respond → v.inserted = true ∧ v.erased = false
  called : v.role = .starter → w.state.handed c = true → v.called = true
  answerer : v.role = .answerer → w.state.handed c = true ∧ w.trace.any (answers c) = true

/-! ## 3. What an operation does to the command -/

section Handle

variable {c : AsyncCommand} {o : ExecutorOp} {tid t : Nat} {env : ExecutorEnv} {s : ExecutorState}

theorem executorHandle_count (h : o = .releaseExecutor → t ≠ tid) :
    s.holders.count t ≤ (executorHandle tid env s o).2.holders.count t := by
  cases o with
  | lockExecutor =>
    show _ ≤ (s.lockExecutor tid).2.holders.count t
    unfold ExecutorState.lockExecutor
    split
    · exact List.count_le_count_cons
    · exact Nat.le_refl _
  | releaseExecutor =>
    show _ ≤ (s.holders.erase tid).count t
    rw [List.count_erase_of_ne (h rfl)]
  | insertCommand c =>
    show _ ≤ (s.insertCommand c).holders.count t
    rw [insertCommand_holders]
  | _ => exact Nat.le_refl _

theorem mem_of_executorHandle (h : c ∈ (executorHandle tid env s o).2.command2Respond)
    (hinsert : o ≠ .insertCommand c) : c ∈ s.command2Respond := by
  cases o with
  | lockExecutor => exact lockExecutor_command2Respond s tid ▸ h
  | insertCommand c' =>
    rcases mem_insertCommand s c' |>.mp h with rfl | h
    · exact absurd rfl hinsert
    · exact h
  | eraseCommand c' => exact List.mem_of_mem_filter h
  | clearCommands => cases h
  | _ => exact h

theorem executorHandle_mem (herase : o ≠ .eraseCommand c) (hclear : o ≠ .clearCommands)
    (h : c ∈ s.command2Respond) : c ∈ (executorHandle tid env s o).2.command2Respond := by
  cases o with
  | lockExecutor => exact (lockExecutor_command2Respond s tid).symm ▸ h
  | insertCommand c' => exact (mem_insertCommand s c').mpr (.inr h)
  | eraseCommand c' =>
    refine List.mem_filter.mpr ⟨h, ?_⟩
    simp only [decide_eq_true_eq]
    rintro rfl
    exact herase rfl
  | clearCommands => exact absurd rfl hclear
  | _ => exact h

theorem executorHandle_handed (hcall : ∀ request, o ≠ .callHdi c request) :
    (executorHandle tid env s o).2.handed c = s.handed c := by
  have hchange (command : CommandState) : (o.change c command).handed = command.handed := by
    cases o with
    | callHdi c' request =>
      have hne : c ≠ c' := by
        rintro rfl
        exact hcall request rfl
      exact congrArg _ (if_neg hne)
    | setFinished | clearExecutorMessenger | nextTransNum | getFuture | setResult =>
      dsimp only [ExecutorOp.change]
      split <;> rfl
    | _ => rfl
  rw [ExecutorState.handed, ExecutorState.handed, executorHandle_change]
  cases s.command c with
  | none => rfl
  | some command => exact hchange command

theorem handed_of_executorHandle (h : (executorHandle tid env s o).2.handed c = true)
    (hcall : ∀ request, o ≠ .callHdi c request) : s.handed c = true :=
  (executorHandle_handed hcall).symm.trans h

theorem executorHandle_handed_of_handed (h : s.handed c = true) :
    (executorHandle tid env s o).2.handed c = true := by
  by_cases hcall : ∃ request, o = .callHdi c request
  · obtain ⟨request, rfl⟩ := hcall
    unfold ExecutorState.handed at h ⊢
    rw [executorHandle_change]
    cases hc : s.command c with
    | none => simp [hc] at h
    | some command =>
      show (if c = c then { command with handed := true } else command : CommandState).handed = true
      rw [if_pos rfl]
  · rw [executorHandle_handed fun request h => hcall ⟨request, h⟩, h]

theorem executorHandle_command : (executorHandle tid env s o).2.command c = none ↔
    s.command c = none := by
  rw [executorHandle_change, Option.map_eq_none_iff]

end Handle

/-! ## 4. Knowledge is true -/

section Sound

variable {c : AsyncCommand} {w : ExecutorWorld} {t tid : Nat} {u v v' : CommandView}
  {o : ExecutorOp} {env : ExecutorEnv} {s : ExecutorState}

/-- What a step has to leave alone for the knowledge of a thread to stay true. -/
theorem CommandLink.frame (h : CommandLink c w t v) {s : ExecutorState} {e : ExecutorEvent}
    (hreferences : w.state.holders.count t ≤ s.holders.count t)
    (hholds : v.holds = true → s.owner .executor = some t)
    (hfound : v.found = true → c ∈ s.command2Respond)
    (hset : v.role = .starter → c ∈ s.command2Respond → c ∈ w.state.command2Respond)
    (hhanded : v.role = .starter → s.handed c = true → w.state.handed c = true)
    (hkept : w.state.handed c = true → s.handed c = true)
    (hcommand : w.state.command c ≠ none → s.command c ≠ none)
    (hspawned : v.role = .starter → (w.push s e).spawned (starts c) = w.spawned (starts c))
    (he : e.tid ≠ t) : CommandLink c (w.push s e) t v where
  references := Nat.le_trans h.references hreferences
  holds := hholds
  found := hfound
  refused hrefused := by simp [h.refused hrefused]
  finished d hd htid hfinish := by
    rw [World.push_trace, List.mem_append, List.mem_singleton] at hd
    rcases hd with hd | rfl
    · exact h.finished d hd htid hfinish
    · exact absurd htid he
  failed d hd htid hfail := by
    rw [World.push_trace, List.mem_append, List.mem_singleton] at hd
    rcases hd with hd | rfl
    · exact h.failed d hd htid hfail
    · exact absurd htid he
  starter hrole := ⟨(hspawned hrole).trans (h.starter hrole).1, hcommand (h.starter hrole).2⟩
  unique hrole hmem := h.unique hrole (hset hrole hmem)
  called hrole hc := h.called hrole (hhanded hrole hc)
  answerer hrole := by
    refine ⟨hkept (h.answerer hrole).1, ?_⟩
    simp [(h.answerer hrole).2]

/-- An operation of another thread. -/
theorem CommandLink.other (ht : t ≠ tid) (hu : CommandLink c w t u) (hv : CommandLink c w tid v)
    (hfactu : u.Fact) (hmay : v.may c o) (hen : executor.enabled tid o env w.state = true) :
    CommandLink c (executor.perform w tid o env) t u := by
  have howner (hholds : u.holds = true) : w.state.owner .executor ≠ some tid := fun h =>
    ht (Option.some.inj ((hu.holds hholds).symm.trans h))
  have hstarter (hrole : u.role = .starter) : v.role ≠ .starter := fun h =>
    ht (List.singleton_inj.mp ((hu.starter hrole).1.symm.trans (hv.starter h).1))
  -- what a thread knows belongs to it: the mutex, what it has found under it, its own command
  refine hu.frame (executorHandle_count fun _ => ht) (fun hholds => ?_) (fun hfound => ?_)
    (fun hrole hmem => mem_of_executorHandle hmem ?_) (fun hrole hhanded => ?_)
    executorHandle_handed_of_handed (fun h => ?_) (fun _ => World.spawned_push_op) (Ne.symm ht)
  · refine (executorHandle_owner_executor tid env _ ?_ ?_).trans (hu.holds hholds)
    · rintro rfl
      have hfree := executor_mutex_free hen
      cases hfree.symm.trans (hu.holds hholds)
    · rintro rfl
      exact howner hholds (hv.holds hmay)
  · refine executorHandle_mem ?_ ?_ (hu.found hfound)
    · rintro rfl
      exact howner (hfactu.found hfound) (hv.holds hmay)
    · rintro rfl
      exact howner (hfactu.found hfound) (hv.holds hmay)
  · rintro rfl
    exact hstarter hrole (hmay rfl).1
  · refine handed_of_executorHandle hhanded ?_
    rintro request rfl
    exact hstarter hrole (hmay rfl)
  · exact fun hnone => h (executorHandle_command.mp hnone)

/-! ### What a thread learns from its own operations -/

theorem step_references (h : v.references ≤ s.holders.count tid) :
    (v.step c o (executorHandle tid env s o).1).references ≤
      (executorHandle tid env s o).2.holders.count tid := by
  cases o with
  | lockExecutor =>
    show (if (s.lockExecutor tid).1 then v.references + 1 else v.references) ≤
      (s.lockExecutor tid).2.holders.count tid
    unfold ExecutorState.lockExecutor
    by_cases halive : s.alive = true
    · rw [if_pos halive]
      show v.references + 1 ≤ (tid :: s.holders).count tid
      rw [List.count_cons_self]
      omega
    · rw [if_neg halive]
      exact h
  | releaseExecutor =>
    show v.references - 1 ≤ (s.holders.erase tid).count tid
    rw [List.count_erase_self]
    omega
  | _ => exact Nat.le_trans h (executorHandle_count nofun)

theorem step_holds (h : v.holds = true → s.owner .executor = some tid)
    (hholds : (v.step c o (executorHandle tid env s o).1).holds = true) :
    (executorHandle tid env s o).2.owner .executor = some tid := by
  by_cases hlock : o = .lock .executor
  · subst hlock
    show Function.update s.owner .executor (some tid) .executor = some tid
    rw [Function.update_self]
  · by_cases hunlock : o = .unlock .executor
    · subst hunlock
      cases hholds
    · rw [executorHandle_owner_executor tid env s hlock hunlock]
      refine h ?_
      cases o with
      | lock mutex =>
        cases mutex with
        | executor => exact absurd rfl hlock
        | command => exact hholds
      | unlock mutex =>
        cases mutex with
        | executor => exact absurd rfl hunlock
        | command => exact hholds
      | _ => exact hholds

theorem step_found (h : v.found = true → c ∈ s.command2Respond)
    (hfound : (v.step c o (executorHandle tid env s o).1).found = true) :
    c ∈ (executorHandle tid env s o).2.command2Respond := by
  cases o with
  | unlock mutex =>
    cases mutex with
    | executor => cases hfound
    | command => exact h hfound
  | listCommands => exact of_decide_eq_true hfound
  | eraseCommand c' =>
    have hcases : (if c' = c then false else v.found) = true := hfound
    split at hcases
    · cases hcases
    · next hne => exact executorHandle_mem (by simpa using hne) nofun (h hcases)
  | clearCommands => cases hfound
  | _ => exact executorHandle_mem nofun nofun (h hfound)

theorem step_refused {r : ExecutorRes o} {h : List ExecutorEvent}
    (hv : v.refused = true → h.any (refuses c) = true)
    (hrefused : (v.step c o r).refused = true) :
    (h ++ [Event.op tid o r]).any (refuses c) = true := by
  rw [List.any_append, Bool.or_eq_true]
  cases o with
  | returnHdi c' =>
    have hcases : (if c' = c ∧ r ≠ ResultCode.success then true else v.refused) = true := hrefused
    split at hcases
    · next hrefuses => exact .inr (by simpa [refuses] using hrefuses)
    · exact .inl (hv hcases)
  | _ => exact .inl (hv hrefused)

theorem step_finished (tid : Nat) {r : ExecutorRes o}
    (h : v.finished = true ∨ finishes c (.op tid o r) = true) :
    (v.step c o r).finished = true := by
  cases o with
  | finish c' scheduleId srcType resultCode finalResult =>
    show (if c' = c then true else v.finished) = true
    rcases h with h | h
    · rw [h, ite_self]
    · exact if_pos (by simpa [finishes] using h)
  | _ => exact h.resolve_right nofun

theorem step_failed (tid : Nat) {r : ExecutorRes o}
    (h : v.failed = true ∨ startFails c (.op tid o r) = true) :
    (v.step c o r).failed = true := by
  cases o with
  | returned c' resultCode =>
    show (if c' = c ∧ resultCode ≠ .success then true else v.failed) = true
    rcases h with h | h
    · rw [h, ite_self]
    · exact if_pos (by simpa [startFails] using h)
  | _ => exact h.resolve_right nofun

theorem step_unique (hmay : v.may c o)
    (h : c ∈ s.command2Respond → v.inserted = true ∧ v.erased = false)
    (hmem : c ∈ (executorHandle tid env s o).2.command2Respond) :
    (v.step c o (executorHandle tid env s o).1).inserted = true ∧
      (v.step c o (executorHandle tid env s o).1).erased = false := by
  cases o with
  | insertCommand c' =>
    show (if c' = c then true else v.inserted) = true ∧ v.erased = false
    by_cases hc : c' = c
    · exact ⟨if_pos hc, (hmay hc).2⟩
    · rw [if_neg hc]
      refine h (mem_of_executorHandle hmem ?_)
      simpa using hc
  | eraseCommand c' =>
    show v.inserted = true ∧ (if c' = c then true else v.erased) = false
    have hne : c' ≠ c := by
      rintro rfl
      simpa using (List.mem_filter.mp hmem).2
    rw [if_neg hne]
    exact h (mem_of_executorHandle hmem nofun)
  | _ => exact h (mem_of_executorHandle hmem nofun)

theorem step_called (h : s.handed c = true → v.called = true)
    (hhanded : (executorHandle tid env s o).2.handed c = true) :
    (v.step c o (executorHandle tid env s o).1).called = true := by
  cases o with
  | callHdi c' request =>
    show (if c' = c then true else v.called) = true
    by_cases hc : c' = c
    · exact if_pos hc
    · rw [if_neg hc]
      refine h (handed_of_executorHandle hhanded fun request' => ?_)
      simp [hc]
  | _ => exact h (handed_of_executorHandle hhanded nofun)

/-- An operation of the thread itself. -/
theorem CommandLink.own (h : CommandLink c w tid v) (hmay : v.may c o)
    (hen : executor.enabled tid o env w.state = true) :
    ∃ v', v.next c o (executor.answer w tid o env) = some v' ∧
      CommandLink c (executor.perform w tid o env) tid v' := by
  have hpossible : v.possible o (executorHandle tid env w.state o).1 = true := by
    cases o with
    | lockExecutor =>
      show ((w.state.lockExecutor tid).1 || decide (v.references = 0)) = true
      rw [Bool.or_eq_true, decide_eq_true_eq]
      by_cases hzero : v.references = 0
      · exact .inr hzero
      · -- its own reference keeps the executor
        have hmem : tid ∈ w.state.holders :=
          List.count_pos_iff.mp (Nat.lt_of_lt_of_le (Nat.pos_of_ne_zero hzero) h.references)
        have halive : w.state.alive = true := by
          unfold ExecutorState.alive
          cases hholders : w.state.holders with
          | nil => simp [hholders] at hmem
          | cons => simp
        unfold ExecutorState.lockExecutor
        rw [if_pos halive]
        exact .inl rfl
    | lock mutex =>
      cases mutex with
      | executor =>
        show (!v.holds) = true
        cases hholds : v.holds with
        | false => rfl
        | true =>
          -- a mutex that the thread owns is not free
          have hfree := executor_mutex_free hen
          cases hfree.symm.trans (h.holds hholds)
      | command => rfl
    | _ => rfl
  refine ⟨_, if_pos hpossible, ?_⟩
  constructor
  · exact step_references h.references
  · exact step_holds h.holds
  · exact step_found h.found
  · exact step_refused h.refused
  · intro e he htid hfinishes
    rw [Machine.perform, World.push_trace, List.mem_append, List.mem_singleton] at he
    rcases he with he | rfl
    · exact step_finished tid (.inl (h.finished e he htid hfinishes))
    · exact step_finished tid (.inr hfinishes)
  · intro e he htid hfails
    rw [Machine.perform, World.push_trace, List.mem_append, List.mem_singleton] at he
    rcases he with he | rfl
    · exact step_failed tid (.inl (h.failed e he htid hfails))
    · exact step_failed tid (.inr hfails)
  · intro hrole
    obtain ⟨hspawned, hcommand⟩ := h.starter hrole
    exact ⟨World.spawned_push_op.trans hspawned,
      fun hnone => hcommand (executorHandle_command.mp hnone)⟩
  · exact fun hrole => step_unique hmay (h.unique hrole)
  · exact fun hrole => step_called (h.called hrole)
  · intro hrole
    obtain ⟨hhanded, hanswers⟩ := h.answerer hrole
    refine ⟨executorHandle_handed_of_handed hhanded, ?_⟩
    rw [Machine.perform, World.push_trace, List.any_append, hanswers, Bool.true_or]

end Sound

end UserIam.Executors
