import UserIam.CoAuth.ExecutorMessengerIpc
import UserIam.Conc.Promise
import UserIam.Executors.AsyncCommand
import UserIam.UserAuth.UserAuthSystem

/-!
# The way of an acquire code

A report of the driver as one program, from the command through the two sides of the IPC and CoAuth
to the callback of the authentication, and the tasks that the callback posts.  The command sends the
extra information; the code itself stays behind.
-/

namespace UserIam.Executors

open Conc CoAuth
open UserAuth (UserAuthOp UserAuthRes UserAuthProg UserAuthState UserAuthTask
  UserAuthCallbackImplCoAuth)

/-! ## 1. One program -/

inductive AcquireOp where
  | executor (o : ExecutorOp)
  | coAuth (o : CoAuthOp)
  | userAuth (o : UserAuthOp)
  | hang

@[reducible] def AcquireRes : AcquireOp → Type
  | .executor o => ExecutorRes o
  | .coAuth o => CoAuthRes o
  | .userAuth o => UserAuthRes o
  | .hang => Empty

abbrev AcquireProg := Prog AcquireOp AcquireRes
abbrev AcquireStep := (o : AcquireOp) × AcquireRes o

/-- What carries the messages, and the authentication whose schedule is at work: `scheduleCallback`
is the callback that CoAuth was given, the `i`-th one of the service. -/
structure AcquirePath (P : Type) where
  fuel : Nat
  ipc : Ipc P
  service : CoAuthService
  scheduleCallback : CoAuthCallback
  i : Nat
  self : UserAuthCallbackImplCoAuth

def atUserAuth {α : Type} (p : UserAuthProg α) : AcquireProg α :=
  p.interp fun o => Prog.op (AcquireOp.userAuth o)

section Path

variable {P : Type} (path : AcquirePath P)

/-- The callback of the schedule is the authentication's. -/
def atCoAuth : (o : CoAuthOp) → AcquireProg (CoAuthRes o)
  | .onAcquireInfo scheduleId callback acquire =>
    if callback = path.scheduleCallback then
      atUserAuth (UserAuth.onAcquireInfo path.i path.self acquire)
    else Prog.op (AcquireOp.coAuth (.onAcquireInfo scheduleId callback acquire))
  | o => Prog.op (AcquireOp.coAuth o)

/-- The messenger of a command is a proxy of the one in the service. -/
def throughMessenger : (o : ExecutorOp) → AcquireProg (ExecutorRes o)
  | .sendData _ scheduleId transNum srcType dstType msg =>
    match proxySendData path.fuel path.ipc path.service scheduleId transNum srcType dstType
      (some msg) with
    | some request => request.interp (atCoAuth path)
    -- the request does not come to its end
    | none => .call .hang fun r => r.elim
  | o => Prog.op (AcquireOp.executor o)

/-- `OnAcquireInfo` of a command, which only logs the code. -/
def commandOnAcquireInfo (c : AsyncCommand) (_acquire : Int32) (extraInfo : List UInt8) :
    ExecutorProg Unit :=
  onAcquireInfo c extraInfo

def reportAcquire (c : AsyncCommand) (acquire : Int32) (extraInfo : List UInt8) :
    AcquireProg Unit :=
  (commandOnAcquireInfo c acquire extraInfo).interp (throughMessenger path)

end Path

/-! ## 2. While the schedule runs -/

/-- The command is open and has its messenger. -/
def CommandRuns (c : AsyncCommand) (s : ExecutorState) : Prop :=
  ∃ command, s.command c = some command ∧ command.isFinished = false ∧
    command.executorMessenger = true

def ScheduleRuns (scheduleId : UInt64) (callback : CoAuthCallback) (s : CoAuthState) : Prop :=
  s.pool.findScheduleCallback scheduleId = (.success, some callback)

/-- The thread of the context is retained, and there is no result yet. -/
structure AuthRuns (i : Nat) (contextId : UInt64) (s : UserAuthState) : Prop where
  nonNull : s.groups.NonNull
  retained : s.groups.retained UserAuth.groupAuth contextId = true
  unfinished : s.isResultDone i = false

section During

variable {P : Type} (path : AcquirePath P) (c : AsyncCommand)

/-- Every operation is performed in some state in which the schedule has not finished; between two
of them anything else may happen.  An allocation succeeds. -/
def During : (o : AcquireOp) → AcquireRes o → Prop
  | .executor o, r => ∃ tid env s, CommandRuns c s ∧ env.allocated = true ∧
      r = (executorHandle tid env s o).1
  | .coAuth o, r => ∃ env s, ScheduleRuns c.scheduleId path.scheduleCallback s ∧
      r = (coAuthHandle env s o).1
  | .userAuth o, r => ∃ tid env s, AuthRuns path.i path.self.callbackContextId s ∧
      r = (UserAuth.userAuthHandle tid env s o).1
  | .hang, _ => False

/-- A task that the thread of the context has accepted. -/
def acceptedTask : AcquireStep → Option UserAuthTask
  | ⟨.userAuth (.postTask _ task), ret⟩ => if ret then some task else none
  | _ => none

/-- A call of the client. -/
structure ClientAcquire where
  callback : UserAuth.ClientCallback
  acquireModule : Int32
  acquireInfo : UInt32
  extraInfo : Int32
  deriving DecidableEq

def clientAcquire : AcquireStep → Option ClientAcquire
  | ⟨.userAuth (.onAcquireInfo callback acquireModule acquireInfo extraInfo), _⟩ =>
    some ⟨callback, acquireModule, acquireInfo, extraInfo⟩
  | _ => none

/-- The report of the driver has led to these calls of the client: it runs to its end, and so does
every task that has been accepted on the way. -/
def Leads (acquire : Int32) (extraInfo : List UInt8) (calls : List ClientAcquire) : Prop :=
  ∃ es ess, (reportAcquire path c acquire extraInfo).Trace () es ∧
    List.Forall₂ (fun task es' => (atUserAuth (UserAuth.runTask (.run task))).Trace () es')
      (es.filterMap acceptedTask) ess ∧
    (∀ e ∈ es ++ ess.flatten, During path c e.1 e.2) ∧
    calls = (es ++ ess.flatten).filterMap clientAcquire

/-- The client is told the code of the driver, once, and nothing else. -/
def DeliversAcquire (acquire : Int32) (extraInfo : List UInt8) : Prop :=
  (∃ calls, Leads path c acquire extraInfo calls) ∧
    ∀ calls, Leads path c acquire extraInfo calls →
      calls.map (fun call => (call.callback, call.acquireInfo)) =
        [(path.self.callback, acquire.toUInt32)]

end During

/-! ## 3. What is seen on the way -/

section Seen

open Prog

variable {P : Type} {path : AcquirePath P} {c : AsyncCommand}

/-- What has been posted, and what the client has been told. -/
structure AcquireSeen (tasks : List UserAuthTask) (calls : List ClientAcquire)
    (es : List AcquireStep) : Prop where
  tasks : es.filterMap acceptedTask = tasks
  calls : es.filterMap clientAcquire = calls

theorem acquireSeen_nil : AcquireSeen [] [] [] := ⟨rfl, rfl⟩

theorem AcquireSeen.append {tasks tasks' : List UserAuthTask} {calls calls' : List ClientAcquire}
    {es es' : List AcquireStep} (h : AcquireSeen tasks calls es)
    (h' : AcquireSeen tasks' calls' es') :
    AcquireSeen (tasks ++ tasks') (calls ++ calls') (es ++ es') where
  tasks := by rw [List.filterMap_append, h.tasks, h'.tasks]
  calls := by rw [List.filterMap_append, h.calls, h'.calls]

/-- The schedule can be at work. -/
theorem during_answer {o : AcquireOp} (ho : o ≠ .hang) : ∃ r, During path c o r := by
  cases o with
  | executor o =>
    let s : ExecutorState :=
      { ExecutorState.initial with command := fun _ => some { executorMessenger := true } }
    exact ⟨(executorHandle 0 {} s o).1, 0, {}, s, ⟨_, rfl, rfl, rfl⟩, rfl, rfl⟩
  | coAuth o =>
    let s : CoAuthState :=
      { CoAuthState.initial with
        pool := { CoAuthState.initial.pool with
          scheResPool := fun _ => some ⟨1, ⟨c.scheduleId, [], 0, 0, 0⟩, path.scheduleCallback⟩ } }
    exact ⟨(coAuthHandle {} s o).1, {}, s, rfl, rfl⟩
  | userAuth o =>
    let contextId := path.self.callbackContextId
    let s : UserAuthState :=
      { UserAuthState.initial with
        groups := ⟨[(UserAuth.groupAuth, ⟨1, [(contextId, some 0)]⟩)], [], [⟨[], false, 0⟩]⟩ }
    refine ⟨(UserAuth.userAuthHandle 0 {} s o).1, 0, {}, s, ⟨⟨?_, ?_⟩, ?_, rfl⟩, rfl⟩
    · intro ptr hptr
      cases hptr
    · intro entry hentry r hr
      obtain rfl := List.mem_singleton.mp hentry
      obtain rfl := List.mem_singleton.mp hr
      rfl
    · simp [s, contextId, Common.ThreadGroups.retained]
  | hang => exact absurd rfl ho

/-- An operation that shows nothing. -/
def AcquireOp.Quiet : AcquireOp → Prop
  | .userAuth (.postTask ..) => False
  | .userAuth (.onAcquireInfo ..) => False
  | .hang => False
  | _ => True

theorem AcquireOp.Quiet.seen {o : AcquireOp} (ho : o.Quiet) (r : AcquireRes o) :
    AcquireSeen [] [] [⟨o, r⟩] := by
  cases o with
  | userAuth o => cases o <;> first | exact ⟨rfl, rfl⟩ | cases ho
  | hang => cases ho
  | _ => exact ⟨rfl, rfl⟩

theorem AcquireOp.Quiet.answer {o : AcquireOp} (ho : o.Quiet) : ∃ r, During path c o r := by
  refine during_answer ?_
  rintro rfl
  exact ho

/-- A quiet operation in front changes nothing of what is seen. -/
theorem meets_acquire_call {α : Type} {o : AcquireOp} {k : AcquireRes o → AcquireProg α}
    {tasks : List UserAuthTask} {calls : List ClientAcquire} (ho : o.Quiet)
    (hk : ∀ r, During path c o r →
      (k r).Meets (During path c) fun _ es => AcquireSeen tasks calls es) :
    (Prog.call o k).Meets (During path c) fun _ es => AcquireSeen tasks calls es :=
  meets_call.mpr ⟨ho.answer, fun r hr => (hk r hr).mono fun _ _ hes => (ho.seen r).append hes⟩

/-- Nothing is seen of what comes after. -/
theorem meets_acquire_before {α β : Type} {p : AcquireProg α} {f : α → AcquireProg β}
    {tasks : List UserAuthTask} {calls : List ClientAcquire}
    (hp : p.Meets (During path c) fun _ es => AcquireSeen tasks calls es)
    (hf : ∀ a, (f a).Meets (During path c) fun _ es => AcquireSeen [] [] es) :
    (p >>= f).Meets (During path c) fun _ es => AcquireSeen tasks calls es := by
  refine hp.bind fun a es hes => (hf a).mono fun _ es' hes' => ?_
  have hboth := hes.append hes'
  rw [List.append_nil, List.append_nil] at hboth
  exact hboth

/-! ### In the service -/

/-- The callback posts a task, which the thread of the context accepts. -/
theorem onAcquireInfo_seen (acquire : UInt32) :
    (atUserAuth (UserAuth.onAcquireInfo path.i path.self acquire)).Meets (During path c)
      fun _ es => AcquireSeen [.onAcquireInfoHandle path.i path.self acquire] [] es := by
  refine meets_call.mpr ⟨during_answer (by simp), fun ret hret => ?_⟩
  obtain ⟨tid, env, s, hs, rfl⟩ := hret
  -- the context has its thread, which accepts the task
  obtain ⟨ptr, hpost⟩ := Common.ThreadGroups.postTask_eq hs.nonNull UserAuth.groupAuth
    path.self.callbackContextId (UserAuthTask.onAcquireInfoHandle path.i path.self acquire)
  have hanswer : (UserAuth.userAuthHandle tid env s (.postTask path.self.callbackContextId
      (.onAcquireInfoHandle path.i path.self acquire))).1 = true :=
    (congrArg Prod.fst hpost).trans hs.retained
  simp only [hanswer]
  exact ⟨rfl, rfl⟩

theorem onAcquireInfoHandle_seen (acquire : UInt32) :
    (atUserAuth (UserAuth.runTask (.run (.onAcquireInfoHandle path.i path.self acquire)))).Meets
      (During path c) fun _ es =>
        AcquireSeen [] [⟨path.self.callback, path.self.authType.toInt32, acquire, 0⟩] es := by
  refine meets_acquire_call (o := .userAuth (.lock path.i)) trivial fun _ _ => ?_
  refine meets_acquire_call (o := .userAuth (.isResultDone path.i)) trivial fun done hdone => ?_
  obtain ⟨tid, env, s, hs, rfl⟩ := hdone
  have hopen : (UserAuth.userAuthHandle tid env s (.isResultDone path.i)).1 = false := hs.unfinished
  simp only [hopen]
  refine meets_call.mpr ⟨during_answer (by simp), fun _ _ => ?_⟩
  exact meets_call.mpr ⟨during_answer (by simp), fun _ _ => ⟨rfl, rfl⟩⟩

/-! ### Through the messenger -/

/-- What the callback is made to post by a message. -/
def messageTasks (path : AcquirePath P) (message : List UInt8) : List UserAuthTask :=
  if message.length = 4 then
    [.onAcquireInfoHandle path.i path.self (UInt32.ofNat (Bytes.leNat message))]
  else []

theorem atCoAuth_callback (scheduleId : UInt64) (acquire : UInt32) :
    atCoAuth path (.onAcquireInfo scheduleId path.scheduleCallback acquire) =
      atUserAuth (UserAuth.onAcquireInfo path.i path.self acquire) :=
  if_pos rfl

theorem sendData_seen (hservice : path.service.scheResPool = true) (message : List UInt8) :
    ((sendData path.service c.scheduleId (some message)).interp (atCoAuth path)).Meets
      (During path c) fun _ es => AcquireSeen (messageTasks path message) [] es := by
  unfold sendData
  dsimp only
  rw [if_neg (by simp [hservice])]
  refine meets_acquire_call (o := .coAuth (.findScheduleCallback c.scheduleId)) trivial
    fun found hfound => ?_
  obtain ⟨env, s, hs, rfl⟩ := hfound
  have hcallback : (coAuthHandle env s (.findScheduleCallback c.scheduleId)).1 =
      (.success, some path.scheduleCallback) := hs
  rw [hcallback]
  show (Prog.interp (atCoAuth path) (if ResultCode.success ≠ .success then .ret ResultCode.fail
    else if message.length ≠ 4 then .ret ResultCode.fail
    else Prog.op (.onAcquireInfo c.scheduleId path.scheduleCallback
      (UInt32.ofNat (Bytes.leNat message))) >>= fun _ => .ret ResultCode.success)).Meets _ _
  rw [if_neg (not_not.mpr rfl)]
  -- only four bytes are taken for a code
  by_cases hlength : message.length = 4
  · rw [messageTasks, if_pos hlength, if_neg (not_not.mpr hlength), interp_bind, interp_op,
      atCoAuth_callback]
    exact meets_acquire_before (onAcquireInfo_seen _) fun _ => acquireSeen_nil
  · rw [messageTasks, if_neg hlength, if_pos hlength]
    exact acquireSeen_nil

theorem CommandRuns.not_finished {tid : Nat} {env : ExecutorEnv} {s : ExecutorState}
    (hs : CommandRuns c s) : (executorHandle tid env s (.isFinished c)).1 = false := by
  obtain ⟨command, hcommand, hopen, -⟩ := hs
  show (s.command c).any (·.isFinished) = false
  rw [hcommand]
  exact hopen

theorem CommandRuns.messenger {tid : Nat} {env : ExecutorEnv} {s : ExecutorState}
    (hs : CommandRuns c s) : (executorHandle tid env s (.getExecutorMessenger c)).1 = true := by
  obtain ⟨command, hcommand, -, hmessenger⟩ := hs
  show (s.command c).any (·.executorMessenger) = true
  rw [hcommand]
  exact hmessenger

section Message

variable {contents : P → List (Ipc.ParcelApi.Item ParcelKind ParcelKind.Carrier)}
  (hparcel : path.ipc.parcel.Lawful contents) (haccepts : path.ipc.parcel.Accepts)
  (hdelivers : path.ipc.delivers = true) (hservice : path.service.scheResPool = true)

include hparcel haccepts hdelivers hservice

theorem throughMessenger_seen (c' : AsyncCommand) (transNum : UInt64) (srcType dstType : Int32)
    (message : List UInt8) :
    (throughMessenger path (.sendData c' c.scheduleId transNum srcType dstType message)).Meets
      (During path c) fun _ es => AcquireSeen (messageTasks path message) [] es := by
  obtain ⟨k, hproxy⟩ := proxySendData_eq hparcel haccepts hdelivers path.fuel path.service
    c.scheduleId transNum srcType dstType message
  unfold throughMessenger
  simp only [hproxy]
  rw [interp_bind]
  exact meets_acquire_before (sendData_seen hservice message) fun _ => acquireSeen_nil

theorem sendAcquireInfo_seen (extraInfo : List UInt8) :
    ((sendAcquireInfo c extraInfo).interp (throughMessenger path)).Meets (During path c)
      fun _ es => AcquireSeen (messageTasks path extraInfo) [] es := by
  have hsend (transNum : UInt64) :
      ((messengerSendData c transNum extraInfo).interp (throughMessenger path)).Meets
        (During path c) fun _ es => AcquireSeen (messageTasks path extraInfo) [] es := by
    refine meets_acquire_call (o := .executor (.getExecutorMessenger c)) trivial
      fun messenger hmessenger => ?_
    obtain ⟨tid, env, s, hs, -, rfl⟩ := hmessenger
    rw [hs.messenger]
    show ((atomic (.sendData c c.scheduleId transNum typeAllInOne typeCoAuth extraInfo)).interp
      (throughMessenger path)).Meets _ _
    rw [interp_op]
    exact throughMessenger_seen hparcel haccepts hdelivers hservice c _ _ _ extraInfo
  refine meets_acquire_call (o := .executor .makeShared) trivial fun msg hmsg => ?_
  obtain ⟨tid, env, s, -, hallocated, rfl⟩ := hmsg
  have hshared : (executorHandle tid env s .makeShared).1 = true := hallocated
  rw [hshared]
  refine meets_acquire_call (o := .executor (.transNum c)) trivial fun transNum _ => ?_
  show ((messengerSendData c transNum.toUInt64 extraInfo >>= fun _ =>
    atomic (.nextTransNum c)).interp (throughMessenger path)).Meets _ _
  rw [interp_bind]
  refine meets_acquire_before (hsend _) fun _ => ?_
  exact meets_acquire_call (o := .executor (.nextTransNum c)) trivial fun _ _ => acquireSeen_nil

/-- The message of a command is what the driver reports beside the code. -/
theorem reportAcquire_seen (hauth : c.type = .auth) (acquire : Int32) (extraInfo : List UInt8) :
    (reportAcquire path c acquire extraInfo).Meets (During path c)
      fun _ es => AcquireSeen (messageTasks path extraInfo) [] es := by
  have hinner : onAcquireInfoInner c extraInfo = sendAcquireInfo c extraInfo := by
    rw [onAcquireInfoInner, hauth]
  unfold reportAcquire commandOnAcquireInfo onAcquireInfo
  rw [hinner]
  refine meets_acquire_call (o := .executor (.lock (.command c))) trivial fun _ _ => ?_
  refine meets_acquire_call (o := .executor (.isFinished c)) trivial fun finished hfinished => ?_
  obtain ⟨tid, env, s, hs, -, rfl⟩ := hfinished
  rw [hs.not_finished]
  show ((sendAcquireInfo c extraInfo >>= fun _ => atomic (.unlock (.command c))).interp
    (throughMessenger path)).Meets _ _
  rw [interp_bind]
  refine meets_acquire_before (sendAcquireInfo_seen hparcel haccepts hdelivers hservice extraInfo)
    fun _ => ?_
  exact meets_acquire_call (o := .executor (.unlock (.command c))) trivial fun _ _ =>
    acquireSeen_nil

/-! ## 4. What the client is told -/

omit hparcel haccepts hdelivers hservice

/-- The calls that a message leads to. -/
def messageCalls (path : AcquirePath P) (message : List UInt8) : List ClientAcquire :=
  if message.length = 4 then
    [⟨path.self.callback, path.self.authType.toInt32, UInt32.ofNat (Bytes.leNat message), 0⟩]
  else []

/-- The tasks of a message run to their end, and the client hears of each. -/
theorem messageTasks_calls {message : List UInt8} {ess : List (List AcquireStep)}
    (hrun : List.Forall₂ (fun task es' => (atUserAuth (UserAuth.runTask (.run task))).Trace () es')
      (messageTasks path message) ess) (hess : ∀ e ∈ ess.flatten, During path c e.1 e.2) :
    ess.flatten.filterMap clientAcquire = messageCalls path message := by
  unfold messageTasks at hrun
  unfold messageCalls
  by_cases hlength : message.length = 4
  · rw [if_pos hlength] at hrun
    rw [if_pos hlength]
    obtain ⟨es', rest, htask, hnil, rfl⟩ := List.forall₂_cons_left_iff.mp hrun
    obtain rfl := List.forall₂_nil_left_iff.mp hnil
    rw [List.flatten_cons, List.flatten_nil, List.append_nil] at hess ⊢
    exact ((onAcquireInfoHandle_seen (c := c) _).of_trace htask hess).calls
  · rw [if_neg hlength] at hrun
    rw [if_neg hlength]
    obtain rfl := List.forall₂_nil_left_iff.mp hrun
    rfl

include hparcel haccepts hdelivers hservice

theorem leads_iff (hauth : c.type = .auth) (acquire : Int32) (extraInfo : List UInt8)
    (calls : List ClientAcquire) :
    Leads path c acquire extraInfo calls ↔ calls = messageCalls path extraInfo := by
  have hreport := reportAcquire_seen hparcel haccepts hdelivers hservice hauth acquire extraInfo
  constructor
  · rintro ⟨es, ess, htrace, hrun, hduring, rfl⟩
    rw [List.forall_mem_append] at hduring
    have hseen := hreport.of_trace htrace hduring.1
    rw [hseen.tasks] at hrun
    rw [List.filterMap_append, hseen.calls, messageTasks_calls hrun hduring.2]
    rfl
  · rintro rfl
    obtain ⟨⟨⟩, es, htrace, hes, hseen⟩ := hreport.exists
    -- the report can be run to its end, and so can the task that it posts
    have hexists : ∃ ess : List (List AcquireStep),
        List.Forall₂ (fun task es' => (atUserAuth (UserAuth.runTask (.run task))).Trace () es')
          (messageTasks path extraInfo) ess ∧ ∀ e ∈ ess.flatten, During path c e.1 e.2 := by
      unfold messageTasks
      split
      · obtain ⟨⟨⟩, es', htask, hes', -⟩ := (onAcquireInfoHandle_seen (c := c) _).exists
        refine ⟨[es'], .cons htask .nil, ?_⟩
        rw [List.flatten_cons, List.flatten_nil, List.append_nil]
        exact hes'
      · exact ⟨[], .nil, fun e he => by cases he⟩
    obtain ⟨ess, hrun, hess⟩ := hexists
    refine ⟨es, ess, htrace, hseen.tasks ▸ hrun, List.forall_mem_append.mpr ⟨hes, hess⟩, ?_⟩
    rw [List.filterMap_append, hseen.calls, messageTasks_calls hrun hess]
    rfl

/-- **When an acquire code arrives.**  The extra information is the code, in little-endian bytes. -/
theorem deliversAcquire_iff (hauth : c.type = .auth) (acquire : Int32) (extraInfo : List UInt8) :
    DeliversAcquire path c acquire extraInfo ↔
      extraInfo = Bytes.leBytes 4 acquire.toUInt32.toNat := by
  have hleads := leads_iff hparcel haccepts hdelivers hservice hauth acquire extraInfo
  constructor
  · rintro ⟨-, hall⟩
    have hcalls := hall _ ((hleads _).mpr rfl)
    -- the one call shows the code of the bytes, and four bytes are known by their code
    unfold messageCalls at hcalls
    split at hcalls
    · next hlength =>
      have hcode : UInt32.ofNat (Bytes.leNat extraInfo) = acquire.toUInt32 :=
        (Prod.mk.inj (List.singleton_injective hcalls)).2
      have hlt : Bytes.leNat extraInfo < 2 ^ 32 := by
        have hbytes := Bytes.leNat_lt extraInfo
        rw [hlength] at hbytes
        exact hbytes
      rw [← hcode, UInt32.toNat_ofNat_of_lt' hlt, ← hlength, Bytes.leBytes_leNat]
    · cases hcalls
  · intro hextra
    have hlength : extraInfo.length = 4 := by rw [hextra, Bytes.length_leBytes]
    have hlt : acquire.toUInt32.toNat < 256 ^ 4 := acquire.toUInt32.toNat_lt
    have hcode : UInt32.ofNat (Bytes.leNat extraInfo) = acquire.toUInt32 := by
      rw [hextra, Bytes.leNat_leBytes, Nat.mod_eq_of_lt hlt, UInt32.ofNat_toNat]
    refine ⟨⟨_, (hleads _).mpr rfl⟩, fun calls hcalls => ?_⟩
    rw [(hleads calls).mp hcalls, messageCalls, if_pos hlength, hcode]
    rfl

end Message

end Seen

/-! ### A code that stays behind -/

def acquirePath : AcquirePath (List (Ipc.ParcelApi.Item ParcelKind ParcelKind.Carrier)) where
  fuel := 1
  ipc := ⟨Ipc.ParcelApi.ofList, fun _ _ reply => (.fail, reply), true⟩
  service := ⟨true, true, true⟩
  scheduleCallback := 0
  i := 0
  self := UserAuth.scenarioCallback

/-- The driver reports a code and nothing beside it: the client is told nothing. -/
theorem deliversAcquire_counterexample :
    ¬∀ (c : AsyncCommand) (acquire : Int32) (extraInfo : List UInt8), c.type = .auth →
      DeliversAcquire acquirePath c acquire extraInfo := by
  intro h
  obtain ⟨-, hall⟩ := h ⟨1, .auth, 7⟩ 1 [] rfl
  have hleads : Leads acquirePath ⟨1, .auth, 7⟩ 1 [] [] ↔ [] = messageCalls acquirePath [] :=
    leads_iff Ipc.ParcelApi.ofList_lawful Ipc.ParcelApi.ofList_accepts rfl rfl rfl 1 [] []
  cases hall [] (hleads.mpr rfl)

theorem deliversAcquire_iff_example :
    DeliversAcquire acquirePath ⟨1, .auth, 7⟩ 1 [1, 0, 0, 0] := by
  have hiff : DeliversAcquire acquirePath ⟨1, .auth, 7⟩ 1 [1, 0, 0, 0] ↔ _ :=
    deliversAcquire_iff Ipc.ParcelApi.ofList_lawful Ipc.ParcelApi.ofList_accepts rfl rfl rfl 1 _
  exact hiff.mpr rfl

end UserIam.Executors
