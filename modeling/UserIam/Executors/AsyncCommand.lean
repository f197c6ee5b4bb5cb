import UserIam.CoAuth.AuthAttributes
import UserIam.Conc.LockOrder

/-!
# Executor and AsyncCommand

The process of an executor: the commands that it has asked its driver to carry out, how the driver
answers them and how it disconnects.  Every access to a shared field and every call into the driver
or the messenger is one step, and the call into the driver and its return are two, so that the
driver can answer a command from inside the call.  Mutexes are the non-recursive ones of the source.
-/

namespace UserIam.Executors

open Conc CoAuth

/-! ## 1. Commands -/

inductive CommandType where
  | auth
  | enroll
  | identify
  | custom
  deriving DecidableEq, Repr

/-- A command object: which object it is, and what its constructor sets for good. -/
structure AsyncCommand where
  commandId : Nat
  type : CommandType
  scheduleId : UInt64
  deriving DecidableEq, Repr

/-- The fields of a command that change.  `handed` says that the driver has got the command as its
callback, `future` that `future_` is valid, and `promised` is the result behind the promise. -/
structure CommandState where
  executorMessenger : Bool
  isFinished : Bool := false
  transNum : UInt32 := 1
  handed : Bool := false
  future : Bool := false
  promised : Option ResultCode := none

/-- What the driver is asked to do. -/
inductive HdiRequest where
  | authenticate (scheduleId callerUid : UInt64) (templateIdList : List UInt64)
      (extraInfo : List UInt8)
  | enroll (scheduleId callerUid : UInt64) (extraInfo : List UInt8)
  | identify (scheduleId callerUid : UInt64) (extraInfo : List UInt8)
  | sendCommand (commandId : UInt32) (extraInfo : List UInt8)

def allInOne : Int32 := 3
def typeAllInOne : Int32 := 3
def typeCoAuth : Int32 := 0

/-! ## 2. The shared state and its atomic operations -/

inductive ExecutorMutex where
  | command (c : AsyncCommand)
  | executor
  deriving DecidableEq

/-- `executorList` says that the driver's list still holds the executor; `holders` are the threads
that hold a reference of their own, once for each.  The set of commands is ordered by the objects'
addresses. -/
structure ExecutorState where
  executorList : Bool
  holders : List Nat
  executorHdi : Bool
  command2Respond : List AsyncCommand
  command : AsyncCommand → Option CommandState
  owner : ExecutorMutex → Option Nat

def ExecutorState.initial : ExecutorState := ⟨true, [], true, [], fun _ => none, fun _ => none⟩

/-- The executor has not been released. -/
def ExecutorState.alive (s : ExecutorState) : Bool := s.executorList || !s.holders.isEmpty

/-- The `lock` of a weak pointer to the executor. -/
def ExecutorState.lockExecutor (s : ExecutorState) (tid : Nat) : Bool × ExecutorState :=
  if s.alive then (true, { s with holders := tid :: s.holders }) else (false, s)

def ExecutorState.insertCommand (s : ExecutorState) (c : AsyncCommand) : ExecutorState :=
  if c ∈ s.command2Respond then s
  else
    { s with
      command2Respond := s.command2Respond.orderedInsert (·.commandId ≤ ·.commandId) c }

def ExecutorState.updateCommand (s : ExecutorState) (c : AsyncCommand)
    (f : CommandState → CommandState) : ExecutorState :=
  { s with command := Function.update s.command c ((s.command c).map f) }

/-- `lockExecutor` is the `lock` of a weak pointer and `releaseExecutor` the end of the shared one;
`returned` marks what `StartProcess` returns. -/
inductive ExecutorOp where
  | lock (mutex : ExecutorMutex)
  | unlock (mutex : ExecutorMutex)
  | lockExecutor
  | releaseExecutor
  | getExecutorHdi
  | clearExecutorHdi
  | insertCommand (c : AsyncCommand)
  | eraseCommand (c : AsyncCommand)
  | listCommands
  | clearCommands
  | isFinished (c : AsyncCommand)
  | setFinished (c : AsyncCommand)
  | getExecutorMessenger (c : AsyncCommand)
  | clearExecutorMessenger (c : AsyncCommand)
  | transNum (c : AsyncCommand)
  | nextTransNum (c : AsyncCommand)
  | makeShared
  | uninitialized
  | callHdi (c : AsyncCommand) (request : HdiRequest)
  | returnHdi (c : AsyncCommand)
  | getFuture (c : AsyncCommand)
  | hasFuture (c : AsyncCommand)
  | setResult (c : AsyncCommand) (resultCode : ResultCode)
  | waitResult (c : AsyncCommand)
  | finish (c : AsyncCommand) (scheduleId : UInt64) (srcType : Int32) (resultCode : ResultCode)
      (finalResult : AuthAttributes)
  | sendData (c : AsyncCommand) (scheduleId transNum : UInt64) (srcType dstType : Int32)
      (msg : List UInt8)
  | returned (c : AsyncCommand) (resultCode : ResultCode)

@[reducible] def ExecutorRes : ExecutorOp → Type
  | .lockExecutor => Bool
  | .getExecutorHdi => Bool
  | .listCommands => List AsyncCommand
  | .isFinished _ => Bool
  | .getExecutorMessenger _ => Bool
  | .transNum _ => UInt32
  | .makeShared => Bool
  | .uninitialized => UInt64
  | .returnHdi _ => ResultCode
  | .hasFuture _ => Bool
  | .waitResult _ => ResultCode
  | .finish .. => ResultCode
  | .sendData .. => ResultCode
  | _ => Unit

/-- What the environment decides: what the driver and the messenger return, whether an allocation
succeeds, and what an uninitialised variable contains. -/
structure ExecutorEnv where
  resultCode : ResultCode := .success
  allocated : Bool := true
  word : UInt64 := 0

def executorEnabled (o : ExecutorOp) (s : ExecutorState) : Bool :=
  match o with
  | .lock mutex => (s.owner mutex).isNone
  | _ => true

def executorHandle (tid : Nat) (env : ExecutorEnv) (s : ExecutorState) :
    (o : ExecutorOp) → ExecutorRes o × ExecutorState
  | .lock mutex => ((), { s with owner := Function.update s.owner mutex (some tid) })
  | .unlock mutex => ((), { s with owner := Function.update s.owner mutex none })
  | .lockExecutor => s.lockExecutor tid
  | .releaseExecutor => ((), { s with holders := s.holders.erase tid })
  | .getExecutorHdi => (s.executorHdi, s)
  | .clearExecutorHdi => ((), { s with executorHdi := false })
  | .insertCommand c => ((), s.insertCommand c)
  | .eraseCommand c => ((), { s with command2Respond := s.command2Respond.filter (· ≠ c) })
  | .listCommands => (s.command2Respond, s)
  | .clearCommands => ((), { s with command2Respond := [] })
  | .isFinished c => ((s.command c).any (·.isFinished), s)
  | .setFinished c => ((), s.updateCommand c fun command => { command with isFinished := true })
  | .getExecutorMessenger c => ((s.command c).any (·.executorMessenger), s)
  | .clearExecutorMessenger c =>
    ((), s.updateCommand c fun command => { command with executorMessenger := false })
  | .transNum c => ((s.command c).elim 1 (·.transNum), s)
  | .nextTransNum c =>
    ((), s.updateCommand c fun command => { command with transNum := command.transNum + 1 })
  | .makeShared => (env.allocated, s)
  | .uninitialized => (env.word, s)
  | .callHdi c _ => ((), s.updateCommand c fun command => { command with handed := true })
  | .returnHdi _ => (env.resultCode, s)
  | .getFuture c => ((), s.updateCommand c fun command => { command with future := true })
  | .hasFuture c => ((s.command c).any (·.future), s)
  | .setResult c resultCode =>
    ((), s.updateCommand c fun command => { command with promised := some resultCode })
  | .waitResult c => (((s.command c).bind (·.promised)).getD .timeout, s)
  | .finish .. => (env.resultCode, s)
  | .sendData .. => (env.resultCode, s)
  | .returned .. => ((), s)

abbrev ExecutorProg := Prog ExecutorOp ExecutorRes

/-- One atomic step. -/
abbrev atomic (o : ExecutorOp) : ExecutorProg (ExecutorRes o) := .op o

/-! ## 3. Executor -/

def addCommand (c : AsyncCommand) : ExecutorProg Unit := do
  let _ ← atomic (.lock .executor)
  let _ ← atomic (.insertCommand c)
  atomic (.unlock .executor)

def removeCommand (c : AsyncCommand) : ExecutorProg Unit := do
  let _ ← atomic (.lock .executor)
  let _ ← atomic (.eraseCommand c)
  atomic (.unlock .executor)

/-! ## 4. AsyncCommandBase -/

/-- `GetExecutorHdi` of a command. -/
def commandExecutorHdi : ExecutorProg Bool := do
  let executor ← atomic .lockExecutor
  if !executor then pure false
  else
    let hdi ← atomic .getExecutorHdi
    let _ ← atomic .releaseExecutor
    pure hdi

def endProcess (c : AsyncCommand) : ExecutorProg Unit := do
  let executor ← atomic .lockExecutor
  if !executor then pure ()
  else
    removeCommand c
    atomic .releaseExecutor

def messengerSendData (c : AsyncCommand) (transNum : UInt64) (msg : List UInt8) :
    ExecutorProg ResultCode := do
  let messenger ← atomic (.getExecutorMessenger c)
  if !messenger then pure .fail
  else atomic (.sendData c c.scheduleId transNum typeAllInOne typeCoAuth msg)

def messengerFinish (c : AsyncCommand) (resultCode : ResultCode) (finalResult : AuthAttributes) :
    ExecutorProg ResultCode := do
  let messenger ← atomic (.getExecutorMessenger c)
  if !messenger then pure .fail
  else
    let ret ← atomic (.finish c c.scheduleId allInOne resultCode finalResult)
    -- one result is all that the messenger is for
    let _ ← atomic (.clearExecutorMessenger c)
    pure ret

/-- What a command of a schedule reports. -/
def resultAttributes (result : ResultCode) (extraInfo : List UInt8) : AuthAttributes :=
  let authAttributes := (AuthAttributes.new.setUint32Value authResultCode result.toUInt32).2
  (authAttributes.setUint8ArrayValue authResult extraInfo).2

/-- `OnResultInner` of the commands that belong to a schedule. -/
def finishSchedule (c : AsyncCommand) (result : ResultCode) (extraInfo : List UInt8) :
    ExecutorProg Unit := do
  let authAttributes ← atomic .makeShared
  if !authAttributes then pure ()
  else
    let _ ← messengerFinish c result (resultAttributes result extraInfo)
    pure ()

def onResultInner (c : AsyncCommand) (result : ResultCode) (extraInfo : List UInt8) :
    ExecutorProg Unit :=
  match c.type with
  | .auth => finishSchedule c result extraInfo
  | .enroll => finishSchedule c result extraInfo
  | .identify => finishSchedule c result extraInfo
  | .custom => atomic (.setResult c result)

def onResult (c : AsyncCommand) (result : ResultCode) (extraInfo : List UInt8) :
    ExecutorProg Unit := do
  let _ ← atomic (.lock (.command c))
  let finished ← atomic (.isFinished c)
  if finished then atomic (.unlock (.command c))
  else
    let _ ← atomic (.setFinished c)
    onResultInner c result extraInfo
    -- The mutex of the command is still held while the executor's is taken.
    endProcess c
    atomic (.unlock (.command c))

/-- `OnAcquireInfoInner` of the commands that belong to a schedule. -/
def sendAcquireInfo (c : AsyncCommand) (extraInfo : List UInt8) : ExecutorProg Unit := do
  let msg ← atomic .makeShared
  if !msg then pure ()
  else
    let transNum ← atomic (.transNum c)
    let _ ← messengerSendData c transNum.toUInt64 extraInfo
    atomic (.nextTransNum c)

def onAcquireInfoInner (c : AsyncCommand) (extraInfo : List UInt8) : ExecutorProg Unit :=
  match c.type with
  | .auth => sendAcquireInfo c extraInfo
  | .enroll => sendAcquireInfo c extraInfo
  | .identify => sendAcquireInfo c extraInfo
  | .custom => pure () -- not supported

def onAcquireInfo (c : AsyncCommand) (extraInfo : List UInt8) : ExecutorProg Unit := do
  let _ ← atomic (.lock (.command c))
  let finished ← atomic (.isFinished c)
  if finished then atomic (.unlock (.command c))
  else
    onAcquireInfoInner c extraInfo
    atomic (.unlock (.command c))

/-- `OnHdiDisconnect` of a command. -/
def commandOnHdiDisconnect (c : AsyncCommand) : ExecutorProg Unit :=
  onResult c .generalError []

/-! ## 5. What the commands ask of the driver -/

def hdiRequest (c : AsyncCommand) (request : HdiRequest) : ExecutorProg ResultCode := do
  let _ ← atomic (.callHdi c request)
  atomic (.returnHdi c)

/-- The template and the caller of a request.  The caller's variable has no initial value. -/
def templateOf (attributes : AuthAttributes) : UInt64 :=
  (attributes.getUint64Value authTemplateId 0).2

def callerOf (attributes : AuthAttributes) (callerUid : UInt64) : UInt64 :=
  (attributes.getUint64Value authCallerUid callerUid).2

def authSendRequest (c : AsyncCommand) (attributes : AuthAttributes) : ExecutorProg ResultCode := do
  let callerUid ← atomic .uninitialized
  hdiRequest c
    (.authenticate c.scheduleId (callerOf attributes callerUid) [templateOf attributes] [])

def enrollSendRequest (c : AsyncCommand) (attributes : AuthAttributes) :
    ExecutorProg ResultCode := do
  let callerUid ← atomic .uninitialized
  hdiRequest c
    (.enroll c.scheduleId (callerOf attributes callerUid)
      (Bytes.leBytes 8 (templateOf attributes).toNat))

/-- The list of templates is filled and not used. -/
def identifySendRequest (c : AsyncCommand) (attributes : AuthAttributes) :
    ExecutorProg ResultCode := do
  let callerUid ← atomic .uninitialized
  hdiRequest c (.identify c.scheduleId (callerOf attributes callerUid) [])

def maxTemplateListLen : Nat := 1000

def customSendRequest (c : AsyncCommand) (attributes : AuthAttributes) :
    ExecutorProg ResultCode := do
  let _ ← atomic (.getFuture c)
  let commandId := (attributes.getUint32Value authPropertyMode 0).2
  let templateIdList := (attributes.getUint64ArrayValue authTemplateIdList []).2
  if ¬templateIdList.length < maxTemplateListLen then pure .generalError
  else
    let extraInfo := templateIdList.flatMap fun v => Bytes.leBytes 8 v.toNat
    let ret ← hdiRequest c (.sendCommand commandId extraInfo)
    if ret ≠ .success then
      onResult c ret []
      pure ret
    else pure .success

def sendRequest (c : AsyncCommand) (attributes : Option AuthAttributes) :
    ExecutorProg ResultCode :=
  match attributes with
  | none => pure .generalError
  | some attributes => do
    let hdi ← commandExecutorHdi
    if !hdi then pure .generalError
    else
      match c.type with
      | .auth => authSendRequest c attributes
      | .enroll => enrollSendRequest c attributes
      | .identify => identifySendRequest c attributes
      | .custom => customSendRequest c attributes

def startProcess (c : AsyncCommand) (attributes : Option AuthAttributes) :
    ExecutorProg ResultCode := do
  let executor ← atomic .lockExecutor
  if !executor then pure .generalError
  else
    addCommand c
    let ret ← sendRequest c attributes
    if ret ≠ .success then
      endProcess c
      let _ ← atomic .releaseExecutor
      pure ret
    else
      let _ ← atomic .releaseExecutor
      pure .success

/-- `GetResult` of a custom command. -/
def getResult (c : AsyncCommand) : ExecutorProg ResultCode := do
  let valid ← atomic (.hasFuture c)
  if !valid then pure .generalError else atomic (.waitResult c)

/-- `ProcessAuthCommand`, `ProcessEnrollCommand`, `ProcessIdentifyCommand` and
`ProcessCustomCommand` on the command they have made. -/
def processCommand (c : AsyncCommand) (attributes : Option AuthAttributes) :
    ExecutorProg ResultCode := do
  let ret ← startProcess c attributes
  let _ ← atomic (.returned c ret)
  match c.type with
  | .custom => if ret ≠ .success then pure ret else getResult c
  | _ => pure ret

/-! ## 6. The driver disconnects -/

/-- The loop over the commands that are left. -/
def respondEach : List AsyncCommand → ExecutorProg Unit
  | [] => pure ()
  | c :: commands => do
    commandOnHdiDisconnect c
    respondEach commands

def respondCallbackOnDisconnect : ExecutorProg Unit := do
  let _ ← atomic (.lock .executor)
  let commands ← atomic .listCommands
  respondEach commands
  let _ ← atomic .clearCommands
  atomic (.unlock .executor)

def onHdiDisconnect : ExecutorProg Unit := do
  let _ ← atomic .clearExecutorHdi
  respondCallbackOnDisconnect

/-- The driver's loop keeps a reference to the executor while it runs. -/
def driverOnHdiDisconnect : ExecutorProg Unit := do
  let executor ← atomic .lockExecutor
  if !executor then pure ()
  else
    onHdiDisconnect
    atomic .releaseExecutor

/-! ## 7. The machine -/

/-- `start` makes a command and starts it; `release` takes the executor off the driver's list. -/
inductive ExecutorCall where
  | start (c : AsyncCommand) (attributes : Option AuthAttributes) (executorMessenger : Bool)
  | onResult (c : AsyncCommand) (result : ResultCode) (extraInfo : List UInt8)
  | onAcquireInfo (c : AsyncCommand) (acquire : Int32) (extraInfo : List UInt8)
  | onHdiDisconnect
  | release

/-- A command is made once, and only the driver that has got it can answer it. -/
def executorAccept (s : ExecutorState) : ExecutorCall → Option ExecutorState
  | .start c _ executorMessenger =>
    match s.command c with
    | some _ => none
    | none =>
      let executorMessenger := executorMessenger && c.type ≠ .custom
      some { s with command := Function.update s.command c (some { executorMessenger }) }
  | .onResult c _ _ => if (s.command c).any (·.handed) then some s else none
  | .onAcquireInfo c _ _ => if (s.command c).any (·.handed) then some s else none
  | .onHdiDisconnect => some s
  | .release => some { s with executorList := false }

/-- Starting a call takes no lock, touches no map and holds no executor. -/
theorem executorAccept_frame {call : ExecutorCall} {s s' : ExecutorState}
    (h : executorAccept s call = some s') :
    s'.owner = s.owner ∧ s'.command2Respond = s.command2Respond ∧ s'.holders = s.holders := by
  cases call with
  | start c attributes executorMessenger =>
    simp only [executorAccept] at h
    split at h <;> cases h
    exact ⟨rfl, rfl, rfl⟩
  | onHdiDisconnect | release =>
    cases h
    exact ⟨rfl, rfl, rfl⟩
  | _ =>
    simp only [executorAccept] at h
    split at h <;> cases h
    exact ⟨rfl, rfl, rfl⟩

def executorBody : ExecutorCall → ExecutorProg Unit
  | .start c attributes _ => Prog.discard (processCommand c attributes)
  | .onResult c result extraInfo => onResult c result extraInfo
  | .onAcquireInfo c _ extraInfo => onAcquireInfo c extraInfo
  | .onHdiDisconnect => driverOnHdiDisconnect
  | .release => pure ()

abbrev ExecutorWorld := World ExecutorOp ExecutorRes ExecutorState ExecutorCall
abbrev ExecutorEvent := Event ExecutorOp ExecutorRes ExecutorCall
abbrev ExecutorMove := Move ExecutorOp ExecutorEnv ExecutorCall
abbrev ExecutorConfig := Config ExecutorOp ExecutorRes ExecutorState ExecutorCall

def executor : Machine ExecutorOp ExecutorRes ExecutorEnv ExecutorState ExecutorCall where
  enabled _ o _ s := executorEnabled o s
  handle tid o env s := executorHandle tid env s o
  accept call s := executorAccept s call
  body := executorBody

/-! ## 8. What an operation leaves alone -/

section Fields

variable (s : ExecutorState) (c : AsyncCommand) (tid : Nat)

@[simp] theorem lockExecutor_owner : (s.lockExecutor tid).2.owner = s.owner := by
  unfold ExecutorState.lockExecutor
  split <;> rfl

@[simp] theorem lockExecutor_command2Respond :
    (s.lockExecutor tid).2.command2Respond = s.command2Respond := by
  unfold ExecutorState.lockExecutor
  split <;> rfl

@[simp] theorem lockExecutor_command : (s.lockExecutor tid).2.command = s.command := by
  unfold ExecutorState.lockExecutor
  split <;> rfl

@[simp] theorem insertCommand_owner : (s.insertCommand c).owner = s.owner := by
  unfold ExecutorState.insertCommand
  split <;> rfl

@[simp] theorem insertCommand_holders : (s.insertCommand c).holders = s.holders := by
  unfold ExecutorState.insertCommand
  split <;> rfl

@[simp] theorem insertCommand_command : (s.insertCommand c).command = s.command := by
  unfold ExecutorState.insertCommand
  split <;> rfl

/-! ### What an operation does to a command -/

/-- What the operation makes of the command `c`. -/
def ExecutorOp.change (c : AsyncCommand) : ExecutorOp → CommandState → CommandState
  | .setFinished c', command => if c = c' then { command with isFinished := true } else command
  | .clearExecutorMessenger c', command =>
    if c = c' then { command with executorMessenger := false } else command
  | .nextTransNum c', command =>
    if c = c' then { command with transNum := command.transNum + 1 } else command
  | .callHdi c' _, command => if c = c' then { command with handed := true } else command
  | .getFuture c', command => if c = c' then { command with future := true } else command
  | .setResult c' resultCode, command =>
    if c = c' then { command with promised := some resultCode } else command
  | _, command => command

theorem updateCommand_command (s : ExecutorState) (c c' : AsyncCommand)
    (f : CommandState → CommandState) : (s.updateCommand c' f).command c =
      (s.command c).map fun command => if c = c' then f command else command := by
  show Function.update s.command c' _ c = _
  by_cases hc : c = c'
  · subst hc
    simp only [Function.update_self, if_true]
  · rw [Function.update_of_ne hc]
    simp only [if_neg hc, Option.map_id']

/-- A command is only changed by the operations on it, and none makes or takes it away. -/
theorem executorHandle_change (tid : Nat) (env : ExecutorEnv) (s : ExecutorState)
    (o : ExecutorOp) (c : AsyncCommand) :
    (executorHandle tid env s o).2.command c = (s.command c).map (o.change c) := by
  cases o with
  | lockExecutor =>
    show (s.lockExecutor tid).2.command c = _
    rw [lockExecutor_command]
    exact (Option.map_id' ..).symm
  | insertCommand c' =>
    show (s.insertCommand c').command c = _
    rw [insertCommand_command]
    exact (Option.map_id' ..).symm
  | setFinished | clearExecutorMessenger | nextTransNum | callHdi | getFuture | setResult =>
    exact updateCommand_command s c _ _
  | _ => exact (Option.map_id' ..).symm

theorem mem_insertCommand {c' : AsyncCommand} :
    c' ∈ (s.insertCommand c).command2Respond ↔ c' = c ∨ c' ∈ s.command2Respond := by
  unfold ExecutorState.insertCommand
  split
  · next h =>
    refine ⟨Or.inr, fun hc' => ?_⟩
    rcases hc' with rfl | hc'
    · exact h
    · exact hc'
  · exact List.mem_orderedInsert _

end Fields

/-! ## 9. What a command does -/

section Programs

variable {P : ExecutorOp → Prop} {c : AsyncCommand}

theorem endProcess_all (hlock : P .lockExecutor) (hmutex : P (.lock .executor))
    (herase : P (.eraseCommand c)) (hunlock : P (.unlock .executor))
    (hrelease : P .releaseExecutor) : (endProcess c).All P := by
  refine ⟨hlock, fun executor => ?_⟩
  cases executor with
  | false => trivial
  | true =>
    exact ⟨hmutex, fun _ => ⟨herase, fun _ => ⟨hunlock, fun _ => ⟨hrelease, fun _ => trivial⟩⟩⟩⟩

/-- The result of a custom command is kept for the one who waits. -/
theorem onResult_custom_all (hcustom : c.type = .custom) {result : ResultCode}
    (hlock : P (.lock (.command c))) (hfinished : P (.isFinished c)) (hset : P (.setFinished c))
    (hresult : P (.setResult c result)) (hend : (endProcess c).All P)
    (hunlock : P (.unlock (.command c))) (extraInfo : List UInt8) :
    (onResult c result extraInfo).All P := by
  refine ⟨hlock, fun _ => ⟨hfinished, fun finished => ?_⟩⟩
  cases finished with
  | true => exact ⟨hunlock, fun _ => trivial⟩
  | false =>
    refine ⟨hset, fun _ => ?_⟩
    rw [onResultInner, hcustom]
    exact ⟨hresult, fun _ => hend.bind fun _ => ⟨hunlock, fun _ => trivial⟩⟩

end Programs

end UserIam.Executors
