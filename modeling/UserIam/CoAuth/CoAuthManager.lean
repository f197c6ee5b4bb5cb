import UserIam.CoAuth.AuthResPool
import UserIam.Conc.Invariant

/-!
# CoAuthManager, ExecutorMessenger and CallMonitor

How a schedule is begun, finished, cancelled and timed out.  Every pool method, every call of the
event handler and every call into a callback object is one atomic step; any number of calls run
interleaved.  A `Finish` that an executor makes from inside `OnBeginExecute` or `OnEndExecute` is a
call that runs between two steps of the caller.
-/

namespace UserIam.CoAuth

open Conc

/-! ## 1. The shared state and its atomic operations -/

/-- `tasks` are the names of the timeouts that the event handler still has to run. -/
structure CoAuthState where
  pool : AuthResPool
  tasks : List UInt64

def CoAuthState.initial : CoAuthState := ⟨.empty, []⟩

/-- The pointers that the services check before they use them. -/
structure CoAuthService where
  coAuthResMgrPtr : Bool
  eventHandler : Bool
  scheResPool : Bool

/-- Calls into a callback object carry the schedule on whose behalf they are made. -/
inductive CoAuthOp where
  | saveScheduleCallback (scheduleId : UInt64) (scheduleInfo : ScheduleInfo)
      (callback : Option CoAuthCallback)
  | findScheduleCallback (scheduleId : UInt64)
  | findScheduleInfo (scheduleId : UInt64)
  | getScheduleCount (scheduleId : UInt64)
  | scheduleCountMinus (scheduleId : UInt64)
  | deleteScheduleCallback (scheduleId : UInt64)
  | findExecutorCallback (authType : AuthType)
  | insertExecutor (executorID : UInt64) (executorInfo : Option AuthExecutor)
      (callback : Option ExecutorCallback)
  | deleteExecutorCallback (executorID : UInt64)
  | postHighPriorityTask (name : UInt64)
  | removeTask (name : UInt64)
  | onBeginExecute (executor : ExecutorCallback) (scheduleId : UInt64) (publicKey : List UInt8)
      (commandAttrs : AuthAttributes)
  | onEndExecute (executor : ExecutorCallback) (scheduleId : UInt64) (commandAttrs : AuthAttributes)
  | onFinish (scheduleId : UInt64) (callback : CoAuthCallback) (resultCode : UInt32)
      (scheduleToken : List UInt8)
  | onAcquireInfo (scheduleId : UInt64) (callback : CoAuthCallback) (acquire : UInt32)

@[reducible] def CoAuthRes : CoAuthOp → Type
  | .saveScheduleCallback .. => ResultCode
  | .findScheduleCallback .. => ResultCode × Option CoAuthCallback
  | .findScheduleInfo .. => ResultCode × Option ScheduleInfo
  | .getScheduleCount .. => UInt64
  | .scheduleCountMinus .. => ResultCode
  | .deleteScheduleCallback .. => ResultCode
  | .findExecutorCallback .. => ResultCode × Option ExecutorCallback
  | .insertExecutor .. => ResultCode
  | .deleteExecutorCallback .. => ResultCode
  | .postHighPriorityTask .. => Unit
  | .removeTask .. => Unit
  | .onBeginExecute .. => ResultCode
  | .onEndExecute .. => ResultCode
  | .onFinish .. => Unit
  | .onAcquireInfo .. => Unit

/-- What the environment decides: the code that an executor returns, and what an uninitialised
variable contains. -/
structure CoAuthEnv where
  resultCode : ResultCode := .success
  scheduleCount : UInt64 := 0

def coAuthHandle (env : CoAuthEnv) (s : CoAuthState) : (o : CoAuthOp) → CoAuthRes o × CoAuthState
  | .saveScheduleCallback scheduleId scheduleInfo callback =>
    let (code, pool) := s.pool.insertSchedule scheduleId scheduleInfo callback
    (code, { s with pool })
  | .findScheduleCallback scheduleId => (s.pool.findScheduleCallback scheduleId, s)
  | .findScheduleInfo scheduleId => (s.pool.getScheduleInfo scheduleId, s)
  | .getScheduleCount scheduleId => ((s.pool.getScheduleCount scheduleId env.scheduleCount).2, s)
  | .scheduleCountMinus scheduleId =>
    let (code, pool) := s.pool.scheduleCountMinus scheduleId
    (code, { s with pool })
  | .deleteScheduleCallback scheduleId =>
    let (code, pool) := s.pool.deleteScheduleCallback scheduleId
    (code, { s with pool })
  | .findExecutorCallback authType => (s.pool.findExecutorCallback authType, s)
  | .insertExecutor executorID executorInfo callback =>
    let (code, pool) := s.pool.insertExecutor executorID executorInfo callback
    (code, { s with pool })
  | .deleteExecutorCallback executorID =>
    let (code, pool) := s.pool.deleteExecutorCallback executorID
    (code, { s with pool })
  | .postHighPriorityTask name => ((), { s with tasks := s.tasks ++ [name] })
  | .removeTask name => ((), { s with tasks := s.tasks.filter (· ≠ name) })
  | .onBeginExecute .. => (env.resultCode, s)
  | .onEndExecute .. => (env.resultCode, s)
  | .onFinish .. => ((), s)
  | .onAcquireInfo .. => ((), s)

abbrev CoAuthProg := Prog CoAuthOp CoAuthRes

/-- One atomic step. -/
abbrev atomic (o : CoAuthOp) : CoAuthProg (CoAuthRes o) := .op o

/-! ## 2. CallMonitor -/

def monitorCall (service : CoAuthService) (scheduleId : UInt64) : CoAuthProg Unit :=
  if service.eventHandler then atomic (.postHighPriorityTask scheduleId) else pure ()

def monitorRemoveCall (service : CoAuthService) (scheduleId : UInt64) : CoAuthProg Unit :=
  if service.eventHandler then atomic (.removeTask scheduleId) else pure ()

/-! ## 3. CoAuthManager -/

structure AuthInfo where
  pkgName : List UInt8
  callerUid : UInt64

def setAuthAttributes (commandAttrs : AuthAttributes) (scheduleInfo : ScheduleInfo)
    (authInfo : AuthInfo) : AuthAttributes :=
  let callerName := authInfo.pkgName
  let value := authInfo.callerUid
  let commandAttrs := (commandAttrs.setUint32Value authScheduleMode scheduleInfo.scheduleMode).2
  let commandAttrs := (commandAttrs.setUint64Value authSubtype scheduleInfo.authSubType).2
  let commandAttrs := (commandAttrs.setUint64Value authTemplateId scheduleInfo.templateId).2
  let commandAttrs := (commandAttrs.setUint64Value authCallerUid value).2
  (commandAttrs.setUint8ArrayValue authCallerName callerName).2

/-- The loop of `BeginExecute` over the executors that are left.  A missing executor is skipped; of
the failing ones the last result stays. -/
def beginExecute (scheduleInfo : ScheduleInfo) (scheduleId : UInt64) (authInfo : AuthInfo) :
    List ExecutorInfo → ResultCode → CoAuthProg ResultCode
  | [], executeRet => pure executeRet
  | executor :: executors, executeRet => do
    let (findRet, executorCallback) ← atomic (.findExecutorCallback executor.authType)
    match executorCallback with
    | none => beginExecute scheduleInfo scheduleId authInfo executors executeRet
    | some executorCallback =>
      if findRet ≠ .success then beginExecute scheduleInfo scheduleId authInfo executors executeRet
      else
        let commandAttrs := setAuthAttributes .new scheduleInfo authInfo
        let ret ← atomic
          (.onBeginExecute executorCallback scheduleId executor.publicKey commandAttrs)
        beginExecute scheduleInfo scheduleId authInfo executors
          (if ret ≠ .success then ret else executeRet)

/-- `BeginSchedule` and `CoAuthHandle`. -/
def beginSchedule (service : CoAuthService) (scheduleInfo : ScheduleInfo) (authInfo : AuthInfo) :
    Option CoAuthCallback → CoAuthProg Unit
  | none => pure ()
  | some callback =>
    let scheduleId := scheduleInfo.scheduleId
    if scheduleInfo.executors.length = 0 then
      atomic (.onFinish scheduleId callback ResultCode.fail.toUInt32 [])
    else if !service.coAuthResMgrPtr then
      atomic (.onFinish scheduleId callback ResultCode.fail.toUInt32 [])
    else do
      let saveRet ← atomic (.saveScheduleCallback scheduleId scheduleInfo (some callback))
      if saveRet ≠ .success then atomic (.onFinish scheduleId callback saveRet.toUInt32 [])
      else
        -- The timer starts before the executors are asked.
        monitorCall service scheduleId
        let executeRet ←
          beginExecute scheduleInfo scheduleId authInfo scheduleInfo.executors .success
        if executeRet ≠ .success then
          -- one executor that fails ends the schedule, though others may be working
          let _ ← atomic (.onFinish scheduleId callback executeRet.toUInt32 [])
          let _ ← atomic (.deleteScheduleCallback scheduleId)
          monitorRemoveCall service scheduleId
        else pure ()

/-- The loop of `Cancel` over the executors that are left. -/
def endExecute (scheduleInfo : ScheduleInfo) (scheduleId : UInt64) :
    List ExecutorInfo → ResultCode → CoAuthProg ResultCode
  | [], executeRet => pure executeRet
  | executor :: executors, executeRet => do
    let (onceRet, executorCallback) ← atomic (.findExecutorCallback executor.authType)
    match executorCallback with
    | none => endExecute scheduleInfo scheduleId executors executeRet
    | some executorCallback =>
      if onceRet ≠ 0 then endExecute scheduleInfo scheduleId executors executeRet
      else
        let commandAttrs :=
          (AuthAttributes.new.setUint32Value authScheduleMode scheduleInfo.scheduleMode).2
        let commandAttrs := (commandAttrs.setUint64Value authSubtype scheduleInfo.authSubType).2
        let commandAttrs := (commandAttrs.setUint64Value authTemplateId scheduleInfo.templateId).2
        let onceRet ← atomic (.onEndExecute executorCallback scheduleId commandAttrs)
        endExecute scheduleInfo scheduleId executors
          (if onceRet ≠ .success then onceRet else executeRet)

def cancel (service : CoAuthService) (scheduleId : UInt64) : CoAuthProg ResultCode :=
  if !service.coAuthResMgrPtr then pure .fail
  else do
    let (ret, scheduleInfo) ← atomic (.findScheduleInfo scheduleId)
    match scheduleInfo with
    | none => pure .fail
    | some scheduleInfo =>
      if ret ≠ .success then pure .fail
      else if scheduleInfo.executors.length = 0 then pure .fail
      -- The schedule stays in the pool.
      else endExecute scheduleInfo scheduleId scheduleInfo.executors .success

def timeOut (service : CoAuthService) (scheduleId : UInt64) : CoAuthProg Unit :=
  if !service.coAuthResMgrPtr then pure ()
  else do
    let (findRet, callback) ← atomic (.findScheduleCallback scheduleId)
    match callback with
    | none => pure ()
    | some callback =>
      if findRet ≠ .success then pure ()
      else
        let _ ← atomic (.onFinish scheduleId callback ResultCode.timeout.toUInt32 [])
        -- what the executors answer does not matter any more
        let _ ← cancel service scheduleId
        let _ ← atomic (.deleteScheduleCallback scheduleId)
        pure ()

/-! ## 4. ExecutorMessenger -/

/-- `message` is the content of the message, `none` a null pointer. -/
def sendData (service : CoAuthService) (scheduleId : UInt64) (message : Option (List UInt8)) :
    CoAuthProg ResultCode :=
  match message with
  | none => pure .fail
  | some message =>
    if !service.scheResPool then pure .fail
    else do
      let (findRet, callback) ← atomic (.findScheduleCallback scheduleId)
      match callback with
      | none => pure .fail
      | some callback =>
        if findRet ≠ .success then pure .fail
        -- the only message there is: an acquire code
        else if message.length ≠ 4 then pure .fail
        else
          let acquire := UInt32.ofNat (Bytes.leNat message)
          let _ ← atomic (.onAcquireInfo scheduleId callback acquire)
          pure .success

/-- The token of a finish: what the executor's result holds, for a success only. -/
def finishToken (resultCode : ResultCode) (finalResult : AuthAttributes) : List UInt8 :=
  if resultCode = .success then (finalResult.getUint8ArrayValue authResult []).2 else []

/-- The rest of `Finish`, for the call that reads a count of one or less. -/
def finishLast (scheduleId : UInt64) (resultCode : ResultCode)
    (finalResult : Option AuthAttributes) : CoAuthProg ResultCode := do
  let (findRet, callback) ← atomic (.findScheduleCallback scheduleId)
  match callback with
  | none => pure .fail
  | some callback =>
    if findRet ≠ .success then pure .fail
    else
      match finalResult with
      | none =>
        let _ ← atomic (.onFinish scheduleId callback ResultCode.fail.toUInt32 [])
        let _ ← atomic (.deleteScheduleCallback scheduleId)
        pure .fail
      | some finalResult =>
        let scheduleResult := finishToken resultCode finalResult
        let _ ← atomic (.onFinish scheduleId callback resultCode.toUInt32 scheduleResult)
        let _ ← atomic (.deleteScheduleCallback scheduleId)
        pure .success

def finish (service : CoAuthService) (scheduleId : UInt64) (resultCode : ResultCode)
    (finalResult : Option AuthAttributes) : CoAuthProg ResultCode :=
  if !service.scheResPool then pure .fail
  else do
    let scheCount ← atomic (.getScheduleCount scheduleId)
    if scheCount > 1 then -- the last one will sign the token
      -- a step of its own: another call may have read the same count
      let _ ← atomic (.scheduleCountMinus scheduleId)
      pure .success
    else
      monitorRemoveCall service scheduleId
      finishLast scheduleId resultCode finalResult

/-! ## 5. The machine -/

/-- A timeout can only start while its task is pending.  Of a registration and a death notice only
the step on the pool is a call here. -/
inductive CoAuthCall where
  | beginSchedule (scheduleInfo : ScheduleInfo) (authInfo : AuthInfo)
      (callback : Option CoAuthCallback)
  | finish (scheduleId : UInt64) (srcType : Int32) (resultCode : ResultCode)
      (finalResult : Option AuthAttributes)
  | timeOut (scheduleId : UInt64)
  | cancel (scheduleId : UInt64)
  | sendData (scheduleId transNum : UInt64) (srcType dstType : Int32)
      (message : Option (List UInt8))
  | register (executorID : UInt64) (executorInfo : Option AuthExecutor)
      (callback : Option ExecutorCallback)
  | onRemoteDied (executorID : UInt64)

def coAuthAccept (s : CoAuthState) : CoAuthCall → Option CoAuthState
  | .timeOut scheduleId =>
    if scheduleId ∈ s.tasks then some { s with tasks := s.tasks.erase scheduleId } else none
  | _ => some s

/-- Starting a call leaves the pool alone. -/
theorem coAuthAccept_pool {s s' : CoAuthState} {call : CoAuthCall}
    (hs : coAuthAccept s call = some s') : s'.pool = s.pool := by
  cases call <;> simp only [coAuthAccept] at hs <;> try split at hs
  all_goals cases hs
  all_goals rfl

def coAuthBody (service : CoAuthService) : CoAuthCall → CoAuthProg Unit
  | .beginSchedule scheduleInfo authInfo callback =>
    beginSchedule service scheduleInfo authInfo callback
  | .finish scheduleId _ resultCode finalResult =>
    Prog.discard (finish service scheduleId resultCode finalResult)
  | .timeOut scheduleId => timeOut service scheduleId
  | .cancel scheduleId => Prog.discard (cancel service scheduleId)
  | .sendData scheduleId _ _ _ message => Prog.discard (sendData service scheduleId message)
  | .register executorID executorInfo callback =>
    Prog.discard (atomic (.insertExecutor executorID executorInfo callback))
  | .onRemoteDied executorID => Prog.discard (atomic (.deleteExecutorCallback executorID))

abbrev CoAuthWorld := World CoAuthOp CoAuthRes CoAuthState CoAuthCall
abbrev CoAuthEvent := Event CoAuthOp CoAuthRes CoAuthCall
abbrev CoAuthMove := Move CoAuthOp CoAuthEnv CoAuthCall
abbrev CoAuthConfig := Config CoAuthOp CoAuthRes CoAuthState CoAuthCall

def coAuth (service : CoAuthService) :
    Machine CoAuthOp CoAuthRes CoAuthEnv CoAuthState CoAuthCall where
  enabled _ _ _ _ := true
  handle _ o env s := coAuthHandle env s o
  accept call s := coAuthAccept s call
  body := coAuthBody service

/-! ## 6. What a call is about -/

def CoAuthOp.schedule : CoAuthOp → Option UInt64
  | .saveScheduleCallback id .. => some id
  | .findScheduleCallback id => some id
  | .findScheduleInfo id => some id
  | .getScheduleCount id => some id
  | .scheduleCountMinus id => some id
  | .deleteScheduleCallback id => some id
  | .postHighPriorityTask name => some name
  | .removeTask name => some name
  | .onBeginExecute _ id .. => some id
  | .onEndExecute _ id .. => some id
  | .onFinish id .. => some id
  | .onAcquireInfo id .. => some id
  | .findExecutorCallback _ => none
  | .insertExecutor .. => none
  | .deleteExecutorCallback _ => none

def CoAuthCall.schedule : CoAuthCall → Option UInt64
  | .beginSchedule info .. => some info.scheduleId
  | .finish id .. => some id
  | .timeOut id => some id
  | .cancel id => some id
  | .sendData id .. => some id
  | .register .. => none
  | .onRemoteDied _ => none

/-- The operations that store another callback for the schedule, or take its callback away. -/
def CoAuthOp.replaces (S : UInt64) : CoAuthOp → Bool
  | .saveScheduleCallback id .. => id = S
  | .deleteScheduleCallback id => id = S
  | _ => false

theorem callback_of_not_replaces {S : UInt64} {o : CoAuthOp} (ho : o.replaces S = false)
    (env : CoAuthEnv) (s : CoAuthState) :
    ((coAuthHandle env s o).2.pool.scheResPool S).map (·.callback) =
      (s.pool.scheResPool S).map (·.callback) := by
  cases o with
  | saveScheduleCallback id info callback =>
    have hne : id ≠ S := of_decide_eq_false ho
    rw [coAuthHandle, AuthResPool.insertSchedule_of_ne _ _ _ hne]
  | deleteScheduleCallback id =>
    have hne : id ≠ S := of_decide_eq_false ho
    rw [coAuthHandle, AuthResPool.deleteScheduleCallback_of_ne _ _ _ hne]
  | scheduleCountMinus id =>
    by_cases hid : id = S
    · subst hid
      rw [coAuthHandle, AuthResPool.scheduleCountMinus_self, Option.map_map]
      congr 1
      funext register
      show (if register.executorNum ≤ 0 then register else _).callback = _
      split <;> rfl
    · rw [coAuthHandle, AuthResPool.scheduleCountMinus_of_ne _ _ _ hid]
  | insertExecutor => rw [coAuthHandle, AuthResPool.insertExecutor_scheResPool]
  | deleteExecutorCallback => rw [coAuthHandle, AuthResPool.deleteExecutorCallback_scheResPool]
  | _ => rfl

def CoAuthOp.About (id : UInt64) (o : CoAuthOp) : Prop :=
  ∀ S, o.schedule = some S → S = id

theorem CoAuthOp.about_of_some {id : UInt64} {o : CoAuthOp} (h : o.schedule = some id) :
    o.About id := by
  intro S hS
  exact Option.some.inj (hS.symm.trans h)

theorem CoAuthOp.about_of_none {id : UInt64} {o : CoAuthOp} (h : o.schedule = none) :
    o.About id := by
  intro S hS
  cases hS.symm.trans h

variable {service : CoAuthService} {id : UInt64} {P : CoAuthOp → Prop}

theorem monitorCall_all (hpost : P (.postHighPriorityTask id)) :
    (monitorCall service id).All P := by
  rw [monitorCall]
  split
  · exact Prog.all_op.mpr hpost
  · trivial

theorem monitorRemoveCall_all (hremove : P (.removeTask id)) :
    (monitorRemoveCall service id).All P := by
  rw [monitorRemoveCall]
  split
  · exact Prog.all_op.mpr hremove
  · trivial

section Loops

variable (hfind : ∀ authType, P (.findExecutorCallback authType))

include hfind

theorem beginExecute_all
    (hbegin : ∀ executor publicKey attrs, P (.onBeginExecute executor id publicKey attrs))
    (info : ScheduleInfo) (authInfo : AuthInfo) (executors : List ExecutorInfo)
    (executeRet : ResultCode) : (beginExecute info id authInfo executors executeRet).All P := by
  induction executors generalizing executeRet with
  | nil => trivial
  | cons executor executors ih =>
    refine ⟨hfind _, fun r => ?_⟩
    obtain ⟨findRet, _ | callback⟩ := r
    · exact ih _
    · dsimp only [Prog.bind]
      split
      · exact ih _
      · exact ⟨hbegin _ _ _, fun ret => ih _⟩

theorem endExecute_all (hend : ∀ executor attrs, P (.onEndExecute executor id attrs))
    (info : ScheduleInfo) (executors : List ExecutorInfo) (executeRet : ResultCode) :
    (endExecute info id executors executeRet).All P := by
  induction executors generalizing executeRet with
  | nil => trivial
  | cons executor executors ih =>
    refine ⟨hfind _, fun r => ?_⟩
    obtain ⟨onceRet, _ | callback⟩ := r
    · exact ih _
    · dsimp only [Prog.bind]
      split
      · exact ih _
      · exact ⟨hend _ _, fun ret => ih _⟩

/-- What `CoAuthHandle` performs. -/
theorem beginSchedule_all {info : ScheduleInfo} (hid : info.scheduleId = id)
    (hsave : ∀ callback, P (.saveScheduleCallback id info callback))
    (hpost : P (.postHighPriorityTask id)) (hremove : P (.removeTask id))
    (hbegin : ∀ executor publicKey attrs, P (.onBeginExecute executor id publicKey attrs))
    (hfinish : ∀ callback resultCode, P (.onFinish id callback resultCode []))
    (hdelete : P (.deleteScheduleCallback id)) (authInfo : AuthInfo)
    (callback : Option CoAuthCallback) :
    (beginSchedule service info authInfo callback).All P := by
  subst hid
  cases callback with
  | none => trivial
  | some callback =>
    rw [beginSchedule]
    refine Prog.all_ite.mpr ⟨fun _ => Prog.all_op.mpr (hfinish _ _), fun _ => ?_⟩
    refine Prog.all_ite.mpr ⟨fun _ => Prog.all_op.mpr (hfinish _ _), fun _ => ?_⟩
    refine ⟨hsave _, fun saveRet => ?_⟩
    refine Prog.all_ite.mpr ⟨fun _ => Prog.all_op.mpr (hfinish _ _), fun _ => ?_⟩
    refine (monitorCall_all hpost).bind fun _ =>
      (beginExecute_all hfind hbegin _ _ _ _).bind fun executeRet => ?_
    refine Prog.all_ite.mpr ⟨fun _ => ?_, fun _ => trivial⟩
    exact ⟨hfinish _ _, fun _ => ⟨hdelete, fun _ => monitorRemoveCall_all hremove⟩⟩

end Loops

/-- The operations of a call that asks the executors of a schedule to start or to end. -/
def CoAuthOp.asksExecutors : CoAuthOp → Bool
  | .findScheduleInfo _ => true
  | .findExecutorCallback _ => true
  | .onBeginExecute .. => true
  | .onEndExecute .. => true
  | _ => false

/-- The same for one schedule. -/
def CoAuthOp.Asks (id : UInt64) (o : CoAuthOp) : Prop := o.asksExecutors = true ∧ o.About id

theorem beginExecute_asks (info : ScheduleInfo) (id : UInt64) (authInfo : AuthInfo)
    (executors : List ExecutorInfo) (executeRet : ResultCode) :
    (beginExecute info id authInfo executors executeRet).All (CoAuthOp.Asks id) :=
  beginExecute_all (fun _ => ⟨rfl, CoAuthOp.about_of_none rfl⟩)
    (fun _ _ _ => ⟨rfl, CoAuthOp.about_of_some rfl⟩) info authInfo executors executeRet

theorem endExecute_asks (info : ScheduleInfo) (id : UInt64) (executors : List ExecutorInfo)
    (executeRet : ResultCode) :
    (endExecute info id executors executeRet).All (CoAuthOp.Asks id) :=
  endExecute_all (fun _ => ⟨rfl, CoAuthOp.about_of_none rfl⟩)
    (fun _ _ => ⟨rfl, CoAuthOp.about_of_some rfl⟩) info executors executeRet

theorem cancel_asks (id : UInt64) : (cancel service id).All (CoAuthOp.Asks id) := by
  rw [cancel]
  split
  · trivial
  · refine ⟨⟨rfl, CoAuthOp.about_of_some rfl⟩, fun r => ?_⟩
    obtain ⟨ret, _ | info⟩ := r
    · trivial
    · dsimp only [Prog.bind]
      split
      · trivial
      · split
        · trivial
        · exact endExecute_asks _ _ _ _

theorem cancel_about : (cancel service id).All (CoAuthOp.About id) :=
  (cancel_asks id).mono fun _ ho => ho.2

theorem timeOut_about : (timeOut service id).All (CoAuthOp.About id) := by
  rw [timeOut]
  split
  · trivial
  · refine ⟨CoAuthOp.about_of_some rfl, fun r => ?_⟩
    obtain ⟨findRet, _ | callback⟩ := r
    · trivial
    · dsimp only [Prog.bind]
      split
      · trivial
      · refine ⟨CoAuthOp.about_of_some rfl, fun _ => ?_⟩
        exact cancel_about.bind fun _ => ⟨CoAuthOp.about_of_some rfl, fun _ => trivial⟩

/-- The operations of `SendData`. -/
def CoAuthOp.relays : CoAuthOp → Bool
  | .findScheduleCallback _ | .onAcquireInfo .. => true
  | _ => false

theorem sendData_relays (id : UInt64) (message : Option (List UInt8)) :
    (sendData service id message).All fun o => o.relays = true ∧ o.About id := by
  cases message with
  | none => trivial
  | some message =>
    rw [sendData]
    split
    · trivial
    · refine ⟨⟨rfl, CoAuthOp.about_of_some rfl⟩, fun r => ?_⟩
      obtain ⟨findRet, _ | callback⟩ := r
      · trivial
      · dsimp only [Prog.bind]
        split
        · trivial
        · split
          · trivial
          · exact ⟨⟨rfl, CoAuthOp.about_of_some rfl⟩, fun _ => trivial⟩

theorem finishLast_about (resultCode : ResultCode) (finalResult : Option AuthAttributes) :
    (finishLast id resultCode finalResult).All (CoAuthOp.About id) := by
  rw [finishLast]
  refine ⟨CoAuthOp.about_of_some rfl, fun r => ?_⟩
  obtain ⟨findRet, _ | callback⟩ := r
  · trivial
  · dsimp only [Prog.bind]
    split
    · trivial
    · have hdelete : (CoAuthOp.deleteScheduleCallback id).About id := CoAuthOp.about_of_some rfl
      cases finalResult with
      | none => exact ⟨CoAuthOp.about_of_some rfl, fun _ => ⟨hdelete, fun _ => trivial⟩⟩
      | some finalResult =>
        exact ⟨CoAuthOp.about_of_some rfl, fun _ => ⟨hdelete, fun _ => trivial⟩⟩

theorem finish_about (resultCode : ResultCode) (finalResult : Option AuthAttributes) :
    (finish service id resultCode finalResult).All (CoAuthOp.About id) := by
  rw [finish]
  split
  · trivial
  · refine ⟨CoAuthOp.about_of_some rfl, fun scheCount => ?_⟩
    dsimp only [Prog.bind]
    split
    · exact ⟨CoAuthOp.about_of_some rfl, fun _ => trivial⟩
    · exact (monitorRemoveCall_all (CoAuthOp.about_of_some rfl)).bind fun _ =>
        finishLast_about resultCode finalResult

theorem beginSchedule_about (info : ScheduleInfo) (authInfo : AuthInfo)
    (callback : Option CoAuthCallback) :
    (beginSchedule service info authInfo callback).All (CoAuthOp.About info.scheduleId) := by
  have habout {o : CoAuthOp} (ho : o.schedule = some info.scheduleId) :
      o.About info.scheduleId := CoAuthOp.about_of_some ho
  exact beginSchedule_all (fun _ => CoAuthOp.about_of_none rfl) rfl (fun _ => habout rfl)
    (habout rfl) (habout rfl) (fun _ _ _ => habout rfl) (fun _ _ => habout rfl) (habout rfl)
    authInfo callback

/-- A call leaves the schedules that it is not about alone. -/
theorem coAuthBody_about {call : CoAuthCall} {S : UInt64} (h : call.schedule ≠ some S) :
    (coAuthBody service call).All fun o => o.schedule ≠ some S := by
  have hother : ∀ {id : UInt64}, some id ≠ some S → ∀ o : CoAuthOp, o.About id →
      o.schedule ≠ some S := fun hid o ho hS => hid (congrArg some (ho S hS).symm)
  cases call with
  | beginSchedule info authInfo callback =>
    exact (beginSchedule_about info authInfo callback).mono (hother h)
  | finish id srcType resultCode finalResult =>
    exact ((finish_about resultCode finalResult).mono (hother h)).discard
  | timeOut id => exact timeOut_about.mono (hother h)
  | cancel id => exact (cancel_about.mono (hother h)).discard
  | sendData id transNum srcType dstType message =>
    exact ((sendData_relays id message).mono fun o ho => hother h o ho.2).discard
  | register executorID executorInfo callback => exact ⟨nofun, fun _ => trivial⟩
  | onRemoteDied executorID => exact ⟨nofun, fun _ => trivial⟩

end UserIam.CoAuth
