import UserIam.Executors.AsyncCommand

/-!
# The driver disconnects

`Executor::mutex_` and the mutexes of the commands: who takes which while it holds which.  The loop
of a disconnect walks the set of commands under the mutex that ending a command takes again.
-/

namespace UserIam.Executors

open Conc CoAuth

/-! ## 1. Mutexes -/

def executorLockKind : ExecutorOp → Option (ExecutorMutex × Bool)
  | .lock mutex => some (mutex, true)
  | .unlock mutex => some (mutex, false)
  | _ => none

/-- The mutex that a field is read and written under. -/
def executorGuard : ExecutorOp → Option ExecutorMutex
  | .insertCommand _ => some .executor
  | .eraseCommand _ => some .executor
  | .listCommands => some .executor
  | .clearCommands => some .executor
  | .isFinished c => some (.command c)
  | .setFinished c => some (.command c)
  | .getExecutorMessenger c => some (.command c)
  | .clearExecutorMessenger c => some (.command c)
  | .transNum c => some (.command c)
  | .nextTransNum c => some (.command c)
  | .setResult c _ => some (.command c)
  | _ => none

theorem executorHandle_owner_of_none {tid : Nat} {o : ExecutorOp} (env : ExecutorEnv)
    (s : ExecutorState) (ho : executorLockKind o = none) :
    (executorHandle tid env s o).2.owner = s.owner := by
  cases o with
  | lock => cases ho
  | unlock => cases ho
  | lockExecutor => exact lockExecutor_owner s tid
  | insertCommand c => exact insertCommand_owner s c
  | _ => rfl

theorem executorAccept_owner {call : ExecutorCall} {s s' : ExecutorState}
    (h : executorAccept s call = some s') : s'.owner = s.owner :=
  (executorAccept_frame h).1

theorem executor_mutex : executor.Mutex executorLockKind ExecutorState.owner where
  free {_ o} _ _ _ ho hen := by
    cases o <;> cases ho
    exact Option.isNone_iff_eq_none.mp hen
  locks {_ o} _ _ _ ho := by
    cases o <;> cases ho
    rfl
  unlocks {_ o} _ _ _ ho := by
    cases o <;> cases ho
    rfl
  other ho := executorHandle_owner_of_none _ _ ho
  accept h := executorAccept_owner h

theorem executor_mutex_free {tid : Nat} {mutex : ExecutorMutex} {env : ExecutorEnv}
    {s : ExecutorState} (hen : executor.enabled tid (.lock mutex) env s = true) :
    s.owner mutex = none :=
  executor_mutex.free rfl hen

/-! ## 2. Which mutex is taken under which -/

/-- The discipline of the executor, for a choice of the mutexes that may be taken. -/
def executorLocking (takes : List ExecutorMutex → ExecutorMutex → Prop)
    (allowed : (o : ExecutorOp) → ExecutorRes o → Prop) :
    Machine.LockDiscipline ExecutorOp ExecutorRes ExecutorMutex :=
  ⟨executorLockKind, executorGuard, takes, allowed⟩

section Locking

variable {takes : List ExecutorMutex → ExecutorMutex → Prop}
  {allowed : (o : ExecutorOp) → ExecutorRes o → Prop} {held : List ExecutorMutex}

/-- What the program leaves of the mutexes it has started with: all. -/
abbrev LocksBack {α : Type} (takes : List ExecutorMutex → ExecutorMutex → Prop)
    (allowed : (o : ExecutorOp) → ExecutorRes o → Prop) (held : List ExecutorMutex)
    (p : ExecutorProg α) : Prop :=
  Machine.Locks (executorLocking takes allowed) (fun _ held' => held' = held) held p

theorem LocksBack.bind {α β : Type} {p : ExecutorProg α} {f : α → ExecutorProg β}
    (hp : LocksBack takes allowed held p) (hf : ∀ a, LocksBack takes allowed held (f a)) :
    LocksBack takes allowed held (p >>= f) :=
  Machine.Locks.bind hp fun a _ h => h ▸ hf a

theorem LocksBack.skip {α : Type} {o : ExecutorOp} {k : ExecutorRes o → ExecutorProg α}
    (ho : executorLockKind o = none) (hguard : executorGuard o = none)
    (hk : ∀ r, allowed o r → LocksBack takes allowed held (k r)) :
    LocksBack takes allowed held (.call o k) := by
  refine (Machine.locks_call_of_none ho).mpr ⟨fun id hid => ?_, hk⟩
  cases hguard.symm.trans hid

/-- The operations that the program performs with the mutexes it has. -/
theorem LocksBack.of_all {α : Type} {p : ExecutorProg α}
    (hp : p.All ((executorLocking takes allowed).Under held)) : LocksBack takes allowed held p :=
  Machine.locks_of_all hp

/-- The program after it has given the mutex back. -/
theorem locks_unlock {α : Type} {mutex : ExecutorMutex} {k : Unit → ExecutorProg α}
    (hk : ∀ r, LocksBack takes allowed held (k r)) :
    Machine.Locks (executorLocking takes allowed) (fun _ held' => held' = held) (mutex :: held)
      (.call (.unlock mutex) k) := by
  refine (Machine.locks_call_unlock rfl).mpr ⟨List.mem_cons_self, fun r => ?_⟩
  rw [List.erase_cons_head]
  exact hk r

/-- Work under a mutex, and what follows it. -/
theorem locks_bind {α β : Type} {mutex : ExecutorMutex} {p : ExecutorProg α}
    {f : α → ExecutorProg β} (hp : LocksBack takes allowed (mutex :: held) p)
    (hf : ∀ a, Machine.Locks (executorLocking takes allowed) (fun _ held' => held' = held)
      (mutex :: held) (f a)) :
    Machine.Locks (executorLocking takes allowed) (fun _ held' => held' = held) (mutex :: held)
      (p >>= f) :=
  Machine.Locks.bind hp fun a _ h => h ▸ hf a

section Under

variable {d : Machine.LockDiscipline ExecutorOp ExecutorRes ExecutorMutex}

theorem under_of_guard {o : ExecutorOp} {mutex : ExecutorMutex} (ho : executorLockKind o = none)
    (hguard : executorGuard o = some mutex) (hmem : mutex ∈ held) :
    (executorLocking takes allowed).Under held o := by
  refine ⟨ho, fun id hid => ?_⟩
  cases hguard.symm.trans hid
  exact hmem

theorem under_of_none {o : ExecutorOp} (ho : executorLockKind o = none)
    (hguard : executorGuard o = none) : (executorLocking takes allowed).Under held o := by
  refine ⟨ho, fun id hid => ?_⟩
  cases hguard.symm.trans hid

end Under

variable {c : AsyncCommand}

theorem addCommand_locksBack (htakes : takes held .executor) :
    LocksBack takes allowed held (addCommand c) := by
  refine (Machine.locks_call_lock rfl).mpr ⟨htakes, fun _ => ?_⟩
  refine locks_bind (p := atomic (.insertCommand c)) ?_ fun _ => locks_unlock fun _ => rfl
  exact .of_all ⟨under_of_guard rfl rfl List.mem_cons_self, fun _ => trivial⟩

theorem removeCommand_locksBack (htakes : takes held .executor) :
    LocksBack takes allowed held (removeCommand c) := by
  refine (Machine.locks_call_lock rfl).mpr ⟨htakes, fun _ => ?_⟩
  refine locks_bind (p := atomic (.eraseCommand c)) ?_ fun _ => locks_unlock fun _ => rfl
  exact .of_all ⟨under_of_guard rfl rfl List.mem_cons_self, fun _ => trivial⟩

theorem commandExecutorHdi_locksBack : LocksBack takes allowed held commandExecutorHdi := by
  refine LocksBack.skip rfl rfl fun executor _ => ?_
  cases executor with
  | false => rfl
  | true => exact .skip rfl rfl fun _ _ => .skip rfl rfl fun _ _ => rfl

theorem endProcess_locksBack (htakes : takes held .executor) :
    LocksBack takes allowed held (endProcess c) := by
  refine LocksBack.skip rfl rfl fun executor _ => ?_
  cases executor with
  | false => rfl
  | true => exact (removeCommand_locksBack htakes).bind fun _ => .skip rfl rfl fun _ _ => rfl

theorem finishSchedule_locksBack (hmem : .command c ∈ held) (result : ResultCode)
    (extraInfo : List UInt8) :
    LocksBack takes allowed held (finishSchedule c result extraInfo) := by
  refine .of_all ⟨under_of_none rfl rfl, fun authAttributes => ?_⟩
  cases authAttributes with
  | false => trivial
  | true =>
    refine ⟨under_of_guard rfl rfl hmem, fun messenger => ?_⟩
    cases messenger with
    | false => trivial
    | true =>
      exact ⟨under_of_none rfl rfl, fun _ => ⟨under_of_guard rfl rfl hmem, fun _ => trivial⟩⟩

theorem onResultInner_locksBack (hmem : .command c ∈ held) (result : ResultCode)
    (extraInfo : List UInt8) : LocksBack takes allowed held (onResultInner c result extraInfo) := by
  unfold onResultInner
  cases c.type with
  | custom => exact .of_all ⟨under_of_guard rfl rfl hmem, fun _ => trivial⟩
  | _ => exact finishSchedule_locksBack hmem result extraInfo

theorem onResult_locksBack (hcommand : takes held (.command c))
    (hexecutor : takes (.command c :: held) .executor) (result : ResultCode)
    (extraInfo : List UInt8) : LocksBack takes allowed held (onResult c result extraInfo) := by
  have hmem : .command c ∈ .command c :: held := List.mem_cons_self
  refine (Machine.locks_call_lock rfl).mpr ⟨hcommand, fun _ => ?_⟩
  refine locks_bind (p := atomic (.isFinished c))
    (.of_all ⟨under_of_guard rfl rfl hmem, fun _ => trivial⟩) fun finished => ?_
  cases finished with
  | true => exact locks_unlock fun _ => rfl
  | false =>
    refine locks_bind (p := atomic (.setFinished c))
      (.of_all ⟨under_of_guard rfl rfl hmem, fun _ => trivial⟩) fun _ => ?_
    refine locks_bind (onResultInner_locksBack hmem result extraInfo) fun _ => ?_
    exact locks_bind (endProcess_locksBack hexecutor) fun _ => locks_unlock fun _ => rfl

theorem sendAcquireInfo_locksBack (hmem : .command c ∈ held) (extraInfo : List UInt8) :
    LocksBack takes allowed held (sendAcquireInfo c extraInfo) := by
  have hnext : (executorLocking takes allowed).Under held (.nextTransNum c) :=
    under_of_guard rfl rfl hmem
  refine .of_all ⟨under_of_none rfl rfl, fun msg => ?_⟩
  cases msg with
  | false => trivial
  | true =>
    refine ⟨under_of_guard rfl rfl hmem, fun transNum => ?_⟩
    refine ⟨under_of_guard rfl rfl hmem, fun messenger => ?_⟩
    cases messenger with
    | false => exact ⟨hnext, fun _ => trivial⟩
    | true => exact ⟨under_of_none rfl rfl, fun _ => ⟨hnext, fun _ => trivial⟩⟩

theorem onAcquireInfo_locksBack (hcommand : takes held (.command c)) (extraInfo : List UInt8) :
    LocksBack takes allowed held (onAcquireInfo c extraInfo) := by
  have hmem : .command c ∈ .command c :: held := List.mem_cons_self
  refine (Machine.locks_call_lock rfl).mpr ⟨hcommand, fun _ => ?_⟩
  refine locks_bind (p := atomic (.isFinished c))
    (.of_all ⟨under_of_guard rfl rfl hmem, fun _ => trivial⟩) fun finished => ?_
  cases finished with
  | true => exact locks_unlock fun _ => rfl
  | false =>
    refine locks_bind (p := onAcquireInfoInner c extraInfo) ?_ fun _ => locks_unlock fun _ => rfl
    unfold onAcquireInfoInner
    cases c.type with
    | custom => rfl
    | _ => exact sendAcquireInfo_locksBack hmem extraInfo

theorem hdiRequest_locksBack (request : HdiRequest) :
    LocksBack takes allowed held (hdiRequest c request) :=
  .of_all ⟨under_of_none rfl rfl, fun _ => ⟨under_of_none rfl rfl, fun _ => trivial⟩⟩

theorem customSendRequest_locksBack (hcommand : takes held (.command c))
    (hexecutor : takes (.command c :: held) .executor) (attributes : AuthAttributes) :
    LocksBack takes allowed held (customSendRequest c attributes) := by
  refine LocksBack.skip rfl rfl fun _ _ => ?_
  dsimp only [Prog.bind]
  split
  · rfl
  · refine (hdiRequest_locksBack _).bind fun ret => ?_
    split
    · exact (onResult_locksBack hcommand hexecutor ret []).bind fun _ => rfl
    · rfl

theorem sendRequest_locksBack (hcommand : takes held (.command c))
    (hexecutor : takes (.command c :: held) .executor) (attributes : Option AuthAttributes) :
    LocksBack takes allowed held (sendRequest c attributes) := by
  cases attributes with
  | none => rfl
  | some attributes =>
    refine commandExecutorHdi_locksBack.bind fun hdi => ?_
    cases hdi with
    | false => rfl
    | true =>
      simp only [Bool.not_true, Bool.false_eq_true, if_false]
      cases c.type with
      | custom => exact customSendRequest_locksBack hcommand hexecutor attributes
      | _ => exact .skip rfl rfl fun _ _ => hdiRequest_locksBack _

theorem startProcess_locksBack (hstart : takes held .executor) (hcommand : takes held (.command c))
    (hexecutor : takes (.command c :: held) .executor) (attributes : Option AuthAttributes) :
    LocksBack takes allowed held (startProcess c attributes) := by
  refine LocksBack.skip rfl rfl fun executor _ => ?_
  cases executor with
  | false => rfl
  | true =>
    refine (addCommand_locksBack hstart).bind fun _ => ?_
    refine (sendRequest_locksBack hcommand hexecutor attributes).bind fun ret => ?_
    split
    · exact (endProcess_locksBack hstart).bind fun _ => .skip rfl rfl fun _ _ => rfl
    · exact .skip rfl rfl fun _ _ => rfl

theorem getResult_locksBack : LocksBack takes allowed held (getResult c) := by
  refine LocksBack.skip rfl rfl fun valid _ => ?_
  cases valid with
  | false => rfl
  | true => exact .skip rfl rfl fun _ _ => rfl

theorem processCommand_locksBack (hstart : takes held .executor)
    (hcommand : takes held (.command c)) (hexecutor : takes (.command c :: held) .executor)
    (attributes : Option AuthAttributes) :
    LocksBack takes allowed held (processCommand c attributes) := by
  refine (startProcess_locksBack hstart hcommand hexecutor attributes).bind fun ret => ?_
  refine LocksBack.skip rfl rfl fun _ _ => ?_
  cases c.type with
  | custom =>
    dsimp only
    split
    · rfl
    · exact getResult_locksBack
  | _ => rfl

theorem respondEach_locksBack (hcommand : ∀ c, takes held (.command c))
    (hexecutor : ∀ c, takes (.command c :: held) .executor) (commands : List AsyncCommand) :
    LocksBack takes allowed held (respondEach commands) := by
  induction commands with
  | nil => rfl
  | cons c commands ih => exact (onResult_locksBack (hcommand c) (hexecutor c) _ _).bind fun _ => ih

theorem respondCallbackOnDisconnect_locksBack (hstart : takes held .executor)
    (hlist : ∀ commands, allowed .listCommands commands →
      LocksBack takes allowed (.executor :: held) (respondEach commands)) :
    LocksBack takes allowed held respondCallbackOnDisconnect := by
  refine (Machine.locks_call_lock rfl).mpr ⟨hstart, fun _ => ?_⟩
  refine (Machine.locks_call_of_none rfl).mpr ⟨fun id hid => ?_, fun commands hcommands => ?_⟩
  · cases hid
    exact List.mem_cons_self
  · refine locks_bind (p := respondEach commands) (hlist commands hcommands) fun _ => ?_
    refine locks_bind (p := atomic .clearCommands) ?_ fun _ => locks_unlock fun _ => rfl
    exact .of_all ⟨under_of_guard rfl rfl List.mem_cons_self, fun _ => trivial⟩

/-- A disconnect takes the mutexes of the commands under `Executor::mutex_`, and then that one
again, unless it finds no command. -/
theorem driverOnHdiDisconnect_locksBack (hstart : takes held .executor)
    (hlist : ∀ commands, allowed .listCommands commands →
      LocksBack takes allowed (.executor :: held) (respondEach commands)) :
    LocksBack takes allowed held driverOnHdiDisconnect := by
  refine LocksBack.skip rfl rfl fun executor _ => ?_
  cases executor with
  | false => rfl
  | true =>
    refine LocksBack.bind (p := onHdiDisconnect) ?_ fun _ => .skip rfl rfl fun _ _ => rfl
    exact .skip rfl rfl fun _ _ => respondCallbackOnDisconnect_locksBack hstart hlist

theorem executorBody_locks (hstart : takes [] .executor) (hcommand : ∀ c, takes [] (.command c))
    (hexecutor : ∀ c, takes [.command c] .executor)
    (hlist : ∀ commands, allowed .listCommands commands →
      LocksBack takes allowed [.executor] (respondEach commands)) (call : ExecutorCall) :
    LocksBack takes allowed [] (executorBody call) := by
  cases call with
  | start c attributes executorMessenger =>
    exact (processCommand_locksBack hstart (hcommand c) (hexecutor c) attributes).bind fun _ => rfl
  | onResult c result extraInfo => exact onResult_locksBack (hcommand c) (hexecutor c) _ _
  | onAcquireInfo c acquire extraInfo => exact onAcquireInfo_locksBack (hcommand c) _
  | onHdiDisconnect => exact driverOnHdiDisconnect_locksBack hstart hlist
  | release => rfl

end Locking

/-! ## 3. Every run -/

/-- Any mutex may be taken at any time. -/
abbrev anyLocking : Machine.LockDiscipline ExecutorOp ExecutorRes ExecutorMutex :=
  executorLocking (fun _ _ => True) fun _ _ => True

variable {ok : ExecutorWorld → ExecutorMove → Prop} {c : ExecutorConfig}

/-- The fields are read and written under their mutexes, and a mutex is given back by the thread
that has taken it. -/
theorem Reachable.guarded (hc : executor.Reachable ok .initial c) :
    executor.Reachable
      (fun w mv => ok w mv ∧ Machine.Guards anyLocking ExecutorState.owner w mv) .initial c := by
  have hbody : ∀ call, Machine.Locks anyLocking (fun _ held => held = []) [] (executorBody call) :=
    executorBody_locks trivial (fun _ => trivial) (fun _ => trivial)
      fun commands _ => respondEach_locksBack (fun _ => trivial) (fun _ => trivial) commands
  exact hc.guarded (d := anyLocking) executor_mutex (fun _ => rfl) hbody fun _ _ _ _ _ => trivial

/-! ### The set while it is empty -/

/-- What tells whether a thread has cleared the set and not given the mutex back since. -/
def clearMark : ExecutorEvent → Option Bool
  | .op _ .clearCommands _ => some true
  | .op _ (.insertCommand _) _ => some false
  | .op _ (.unlock .executor) _ => some false
  | _ => none

/-- The thread has cleared the set and neither given the mutex back nor put a command in since. -/
def Cleared (w : ExecutorWorld) (t : Nat) : Prop := (w.marks clearMark t).getLast? = some true

theorem executorHandle_owner_executor {o : ExecutorOp} (tid : Nat) (env : ExecutorEnv)
    (s : ExecutorState) (hlock : o ≠ .lock .executor) (hunlock : o ≠ .unlock .executor) :
    (executorHandle tid env s o).2.owner .executor = s.owner .executor := by
  cases o with
  | lock mutex =>
    refine Function.update_of_ne (fun h => hlock ?_) _ _
    rw [← h]
  | unlock mutex =>
    refine Function.update_of_ne (fun h => hunlock ?_) _ _
    rw [← h]
  | _ => rw [executorHandle_owner_of_none _ _ rfl]

theorem executorHandle_empty {o : ExecutorOp} (tid : Nat) (env : ExecutorEnv) {s : ExecutorState}
    (hinsert : ∀ c, o ≠ .insertCommand c) (hs : s.command2Respond = []) :
    (executorHandle tid env s o).2.command2Respond = [] := by
  cases o with
  | lockExecutor => exact (lockExecutor_command2Respond s tid).trans hs
  | insertCommand c => exact absurd rfl (hinsert c)
  | eraseCommand c =>
    show s.command2Respond.filter _ = []
    rw [hs, List.filter_nil]
  | clearCommands => rfl
  | _ => exact hs

theorem executorAccept_command2Respond {call : ExecutorCall} {s s' : ExecutorState}
    (h : executorAccept s call = some s') : s'.command2Respond = s.command2Respond :=
  (executorAccept_frame h).2.1

/-- A thread that has cleared the set owns the mutex, and the set is still empty. -/
theorem reachable_cleared (hc : executor.Reachable ok .initial c) (t : Nat)
    (h : Cleared c.world t) :
    c.world.state.owner .executor = some t ∧ c.world.state.command2Respond = [] := by
  have hguarded := Reachable.guarded hc
  clear hc
  induction hguarded generalizing t with
  | init => cases h
  | @spawn c call s hc hok hs ih =>
    rw [Cleared, World.marks_push] at h
    rw [World.push_state, executorAccept_owner hs, executorAccept_command2Respond hs]
    refine ih t ?_
    by_cases ht : t = c.threads.length
    · subst ht
      simpa [clearMark, Cleared] using h
    · rwa [Event.tid_spawn, Function.update_of_ne ht] at h
  | @run c tid o k env hc hok ht hen ih =>
    obtain ⟨-, hguard, hunlock⟩ := hok
    rw [Cleared, Machine.perform, World.marks_push, Event.tid_op] at h
    rw [Machine.perform, World.push_state]
    show (executorHandle tid env c.world.state o).2.owner .executor = some t ∧ _
    -- an operation on the set or its mutex is the owner's
    have hkeep (hcleared : Cleared c.world t) (hinsert : ∀ c, o ≠ .insertCommand c)
        (hback : o ≠ .unlock .executor) :
        (executorHandle tid env c.world.state o).2.owner .executor = some t ∧
          (executorHandle tid env c.world.state o).2.command2Respond = [] := by
      obtain ⟨howner, hempty⟩ := ih t hcleared
      refine ⟨?_, executorHandle_empty tid env hinsert hempty⟩
      rw [executorHandle_owner_executor tid env _ ?_ hback, howner]
      rintro rfl
      have hfree := executor_mutex_free hen
      rw [howner] at hfree
      cases hfree
    -- The thread itself may let go of the mutex; another one cannot have it.
    by_cases htid : t = tid
    · subst htid
      rw [Function.update_self] at h
      cases o with
      | clearCommands => exact ⟨hguard rfl .executor rfl, rfl⟩
      | insertCommand => simp [clearMark] at h
      | unlock mutex =>
        cases mutex with
        | executor => simp [clearMark] at h
        | command => exact hkeep (by simpa [clearMark, Cleared] using h) (by simp) (by simp)
      | _ => exact hkeep (by simpa [clearMark, Cleared] using h) (by simp) (by simp)
    · rw [Function.update_of_ne htid] at h
      refine hkeep h ?_ ?_
      · rintro c' rfl
        have howner := hguard rfl .executor rfl
        exact htid (Option.some.inj ((ih t h).1.symm.trans howner))
      · rintro rfl
        have howner := hunlock .executor rfl
        exact htid (Option.some.inj ((ih t h).1.symm.trans howner))

/-! ## 4. Disconnects that find no command -/

/-- The operation ends a command with this code. -/
def ExecutorOp.ends (c : AsyncCommand) (resultCode : ResultCode) : ExecutorOp → Prop
  | .finish c' _ _ resultCode' _ => c' = c ∧ resultCode' = resultCode
  | .setResult c' resultCode' => c' = c ∧ resultCode' = resultCode
  | _ => False

/-- Thread `t` waits for a mutex that `t'` has. -/
abbrev WaitsFor (c : ExecutorConfig) (t t' : Nat) : Prop :=
  Machine.WaitsFor executorLockKind ExecutorState.owner c t t'

/-- Nobody waits for himself or in a circle of two, every thread goes on or waits for one that does,
and a disconnect ends every command that it has found and leaves the set empty. -/
structure DisconnectSafe (c : ExecutorConfig) : Prop where
  notSelf : ∀ t, ¬WaitsFor c t t
  notMutual : ∀ t t', ¬(WaitsFor c t t' ∧ WaitsFor c t' t)
  goesOn : ∀ t p, c.threads[t]? = some p → p ≠ .ret () →
    ∃ t', Relation.ReflTransGen (WaitsFor c) t t' ∧ Machine.CanStep executor c t'
  ends : ∀ t commands, .op t .listCommands commands ∈ c.world.trace → Cleared c.world t →
    ∀ command ∈ commands, ∃ o r, .op t o r ∈ c.world.trace ∧ o.ends command .generalError
  clears : ∀ t, Cleared c.world t → c.world.state.command2Respond = []

/-- A disconnect walks the set of commands only when it is empty. -/
def FindsNone (w : ExecutorWorld) : ExecutorMove → Prop
  | .op _ .listCommands _ => w.state.command2Respond = []
  | _ => True

instance (w : ExecutorWorld) (mv : ExecutorMove) : Decidable (FindsNone w mv) := by
  cases mv with
  | spawn t call => exact isTrue trivial
  | op t o env =>
    cases o with
    | listCommands => exact inferInstanceAs (Decidable (w.state.command2Respond = []))
    | _ => exact isTrue trivial

/-- The mutex of a command comes before the executor's. -/
def executorRank : ExecutorMutex → Nat
  | .command _ => 0
  | .executor => 1

/-- Mutexes are taken in ascending order, and a disconnect finds no command. -/
abbrev ascendingLocking : Machine.LockDiscipline ExecutorOp ExecutorRes ExecutorMutex :=
  executorLocking (fun held mutex => ∀ mutex' ∈ held, executorRank mutex' < executorRank mutex)
    fun o r =>
      match o, r with
      | .listCommands, commands => commands = []
      | _, _ => True

theorem reachable_ascending (hc : executor.Reachable FindsNone .initial c) :
    Machine.LockInv ascendingLocking ExecutorState.owner c := by
  refine Machine.reachable_lockInv (d := ascendingLocking) executor_mutex (fun _ => rfl) ?_ ?_ hc
  · refine executorBody_locks (by simp) (by simp) (by simp [executorRank]) fun commands h => ?_
    cases h
    rfl
  · intro w tid o env hok
    cases o with
    | listCommands => exact hok
    | _ => trivial

theorem findsNone_answers (hc : executor.Reachable FindsNone .initial c) {t : Nat}
    {commands : List AsyncCommand} (h : .op t .listCommands commands ∈ c.world.trace) :
    commands = [] := by
  induction hc with
  | init => cases h
  | spawn _ _ _ ih =>
    rw [World.push_trace, List.mem_append, List.mem_singleton] at h
    rcases h with h | h
    · exact ih h
    · cases h
  | run _ hok _ _ ih =>
    rw [Machine.perform, World.push_trace, List.mem_append, List.mem_singleton] at h
    rcases h with h | h
    · exact ih h
    · cases h
      exact hok

/-- **Disconnects that find no command.**  In every run in which each disconnect walks an empty set
nobody waits in a circle, and disconnects return. -/
theorem disconnect_safe (c : ExecutorConfig) (hc : executor.Reachable FindsNone .initial c) :
    DisconnectSafe c := by
  have hlocks := reachable_ascending hc
  have hascending : ascendingLocking.Ascending executorRank := fun _ _ h => h
  refine ⟨fun t h => ?_, fun t t' h => ?_, fun t p ht hp => ?_, fun t commands h _ => ?_,
    fun t h => (reachable_cleared hc t h).2⟩
  · exact hlocks.acyclic hascending t (.single h)
  · exact hlocks.acyclic hascending t (.tail (.single h.1) h.2)
  · refine hlocks.progress hascending (show ∀ mutex, executorRank mutex ≤ 1 from ?_) ?_ ?_ ht hp
    · intro mutex
      cases mutex <;> simp [executorRank]
    · intro t o id ho hfree
      cases o <;> cases ho
      exact ⟨{}, Option.isNone_iff_eq_none.mpr hfree⟩
    · intro t o ho
      refine ⟨{}, ?_⟩
      cases o with
      | lock mutex => exact absurd rfl (ho mutex)
      | _ => rfl
  · rw [findsNone_answers hc h]
    simp

/-! ### A command that the driver still works on -/

def waitsForItself (c : ExecutorConfig) (t : Nat) : Bool :=
  match c.threads[t]? with
  | some (.call (.lock mutex) _) => c.world.state.owner mutex = some t
  | _ => false

theorem waitsFor_of_waitsForItself {t : Nat} (h : waitsForItself c t = true) : WaitsFor c t t := by
  unfold waitsForItself at h
  split at h
  · next mutex k ht => exact ⟨.lock mutex, k, mutex, ht, rfl, by simpa using h⟩
  · cases h

def authCommand : AsyncCommand := ⟨0, .auth, 7⟩

/-- The driver accepts a request and disconnects before it answers: ending the command takes the
mutex that the loop holds. -/
theorem disconnect_blocks :
    ¬∀ c : ExecutorConfig, executor.Reachable Machine.anyMove .initial c → DisconnectSafe c := by
  intro h
  have hrun : ((executor.exec Machine.anyMove ⟨⟨.initial, []⟩, []⟩
      (.spawn (.start authCommand (some .new) true) :: List.replicate 12 (.run 0 {}) ++
        .spawn .onHdiDisconnect :: List.replicate 12 (.run 1 {}))).map
          (waitsForItself · 1)) = some true := by
    decide +kernel
  obtain ⟨c, hc, hwaits⟩ := Option.map_eq_some_iff.mp hrun
  exact (h c (Machine.Reachable.init.exec hc)).notSelf 1 (waitsFor_of_waitsForItself hwaits)

/-- The driver answers the request and then disconnects. -/
theorem disconnect_safe_example : ∃ c : ExecutorConfig, DisconnectSafe c ∧
    c.threads.map Prog.returned = [true, true, true] := by
  have hrun : ((executor.exec FindsNone ⟨⟨.initial, []⟩, []⟩
      (.spawn (.start authCommand (some .new) true) :: List.replicate 12 (.run 0 {}) ++
        .spawn (.onResult authCommand .success []) :: List.replicate 13 (.run 1 {}) ++
        .spawn .onHdiDisconnect :: List.replicate 7 (.run 2 {}))).map
          (·.threads.map Prog.returned)) = some [true, true, true] := by
    decide +kernel
  obtain ⟨c, hc, hreturned⟩ := Option.map_eq_some_iff.mp hrun
  exact ⟨c, disconnect_safe c (Machine.Reachable.init.exec hc), hreturned⟩

end UserIam.Executors
