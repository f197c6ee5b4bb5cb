import UserIam.Conc.Promise
import UserIam.Executors.AsyncCommand

/-!
# FrameworkExecutorCallback

What the process of an executor does with the calls of the service: a command for the driver, or a
call of one of the driver's own functions.
-/

namespace UserIam.Executors

open Conc CoAuth

/-! ## 1. What the callback calls -/

/-- `ScheduleMode` -/
def scheduleModeEnroll : UInt32 := 0
def scheduleModeAuth : UInt32 := 1

/-- `AuthPropertyMode` -/
def propermodeDelete : UInt32 := 0
def propermodeGet : UInt32 := 1

structure TemplateInfo where
  executorType : UInt32
  freezingTime : Int32
  remainTimes : Int32
  extraInfo : List UInt8

/-- `command` is an operation on the executor and its commands.  `makeCommand` is the allocation of
a new one, answered by which object it is; the rest are functions of the driver. -/
inductive FrameworkOp where
  | command (o : ExecutorOp)
  | makeCommand
  | cancel (scheduleId : UInt64)
  | delete (templateIdList : List UInt64)
  | getTemplateInfo (templateId : UInt64)

@[reducible] def FrameworkRes : FrameworkOp → Type
  | .command o => ExecutorRes o
  | .makeCommand => Option Nat
  | .cancel _ => ResultCode
  | .delete _ => ResultCode
  | .getTemplateInfo _ => ResultCode × TemplateInfo

abbrev FrameworkProg := Prog FrameworkOp FrameworkRes
abbrev FrameworkStep := (o : FrameworkOp) × FrameworkRes o

/-- A program over the executor and its commands. -/
def onCommands {α : Type} (p : ExecutorProg α) : FrameworkProg α :=
  p.interp fun o => Prog.op (FrameworkOp.command o)

/-! ## 2. Processing a call -/

/-- The functions that go past the commands hold the executor until they return. -/
def withExecutorHdi {α : Type} (generalError : α) (p : FrameworkProg α) : FrameworkProg α := do
  let executor ← Prog.op (FrameworkOp.command .lockExecutor)
  if !executor then return generalError
  let hdi ← Prog.op (FrameworkOp.command .getExecutorHdi)
  if !hdi then
    let _ ← Prog.op (FrameworkOp.command .releaseExecutor)
    return generalError
  let ret ← p
  let _ ← Prog.op (FrameworkOp.command .releaseExecutor)
  return ret

/-- `ProcessEnrollCommand`, `ProcessAuthCommand` and `ProcessCustomCommand`. -/
def processNewCommand (type : CommandType) (scheduleId : UInt64) (properties : AuthAttributes) :
    FrameworkProg ResultCode := do
  match ← Prog.op FrameworkOp.makeCommand with
  | none => return .generalError
  | some commandId => onCommands (processCommand ⟨commandId, type, scheduleId⟩ (some properties))

def processEnrollCommand := processNewCommand .enroll
def processAuthCommand := processNewCommand .auth
def processCustomCommand := processNewCommand .custom 0

/-- What the driver returns is not looked at. -/
def processCancelCommand (scheduleId : UInt64) : FrameworkProg ResultCode :=
  withExecutorHdi .generalError do
    let _ ← Prog.op (FrameworkOp.cancel scheduleId)
    return .success

def processDeleteTemplateCommand (properties : AuthAttributes) : FrameworkProg ResultCode :=
  withExecutorHdi .generalError do
    let _ ← Prog.op (FrameworkOp.delete [templateOf properties])
    return .success

/-- `UnpackUint64`; the value stays when there are not enough bytes. -/
def unpackUint64 (src : List UInt8) (index : Nat) (data : UInt64) : UInt64 :=
  if src.length < index ∨ src.length - index < 8 then data
  else UInt64.ofNat (Bytes.readLe 8 src index)

def templateValues (values : AuthAttributes) (templateInfo : TemplateInfo) : AuthAttributes :=
  let subType := unpackUint64 templateInfo.extraInfo 0 0
  let values := (values.setUint64Value authSubtype subType).2
  let values := (values.setUint32Value authRemainTime templateInfo.freezingTime.toUInt32).2
  (values.setUint32Value authRemainCount templateInfo.remainTimes.toUInt32).2

def processGetTemplateCommand (conditions : AuthAttributes) :
    Option AuthAttributes → FrameworkProg (ResultCode × Option AuthAttributes)
  | none => return (.generalError, none)
  | some values => withExecutorHdi (.generalError, some values) do
    let (_, templateInfo) ← Prog.op (FrameworkOp.getTemplateInfo (templateOf conditions))
    return (.success, some (templateValues values templateInfo))

/-! ## 3. FrameworkExecutorCallback -/

def frameworkOnBeginExecute (scheduleId : UInt64) :
    Option AuthAttributes → FrameworkProg ResultCode
  | none => return .generalError
  | some commandAttrs =>
    let (ret, commandId) := commandAttrs.getUint32Value authScheduleMode 0
    if ret ≠ .success then return .generalError
    else if commandId = scheduleModeEnroll then processEnrollCommand scheduleId commandAttrs
    else if commandId = scheduleModeAuth then processAuthCommand scheduleId commandAttrs
    else return .generalError

def frameworkOnEndExecute (scheduleId : UInt64) : Option AuthAttributes → FrameworkProg ResultCode
  | none => return .generalError
  | some consumerAttr =>
    let (ret, commandId) := consumerAttr.getUint32Value authScheduleMode 0
    if ret ≠ .success then return .generalError
    else if commandId = scheduleModeAuth then processCancelCommand scheduleId
    else if commandId = scheduleModeEnroll then processCancelCommand scheduleId
    else return .generalError

def frameworkOnSetProperty : Option AuthAttributes → FrameworkProg ResultCode
  | none => return .generalError
  | some properties =>
    let (ret, commandId) := properties.getUint32Value authPropertyMode 0
    if ret ≠ .success then return .generalError
    else if commandId = propermodeDelete then processDeleteTemplateCommand properties
    else processCustomCommand properties

/-- The values are an object of the caller. -/
def frameworkOnGetProperty (conditions values : Option AuthAttributes) :
    FrameworkProg (ResultCode × Option AuthAttributes) :=
  match conditions with
  | none => return (.generalError, values)
  | some conditions =>
    let (ret, commandId) := conditions.getUint32Value authPropertyMode 0
    if ret ≠ .success then return (.generalError, values)
    else if commandId ≠ propermodeGet then return (.generalError, values)
    else processGetTemplateCommand conditions values

/-! ## 4. A custom command -/

def ExecutorOp.request : ExecutorOp → Option HdiRequest
  | .callHdi _ request => some request
  | _ => none

abbrev ExecutorStep := (o : ExecutorOp) × ExecutorRes o

/-- What the driver is asked to do. -/
def hdiRequests (es : List ExecutorStep) : List HdiRequest :=
  es.filterMap fun e => e.1.request

/-- The executor is there, and its driver is connected. -/
def Connected : (o : ExecutorOp) → ExecutorRes o → Prop
  | .lockExecutor, executor => executor = true
  | .getExecutorHdi, hdi => hdi = true
  | _, _ => True

theorem connected_answer (o : ExecutorOp) : ∃ r, Connected o r := by
  refine ⟨(executorHandle 0 {} .initial o).1, ?_⟩
  cases o <;> first | rfl | trivial

theorem hdiRequests_append (es es' : List ExecutorStep) :
    hdiRequests (es ++ es') = hdiRequests es ++ hdiRequests es' :=
  List.filterMap_append

section Custom

open Prog

variable {α : Type} {c : AsyncCommand}

/-- A program that asks the driver for nothing. -/
theorem meets_of_quiet {p : ExecutorProg α} (hp : p.All fun o => o.request = none) :
    p.Meets Connected fun _ es => hdiRequests es = [] := by
  refine (hp.meets fun o _ => connected_answer o).mono fun _ es hes => ?_
  exact List.filterMap_eq_nil_iff.mpr hes

theorem addCommand_quiet (c : AsyncCommand) : (addCommand c).All fun o => o.request = none :=
  ⟨rfl, fun _ => ⟨rfl, fun _ => ⟨rfl, fun _ => trivial⟩⟩⟩

theorem endProcess_asksNothing (c : AsyncCommand) :
    (endProcess c).All fun o => o.request = none :=
  endProcess_all rfl rfl rfl rfl rfl

theorem onResult_asksNothing (hcustom : c.type = .custom) (result : ResultCode)
    (extraInfo : List UInt8) : (onResult c result extraInfo).All fun o => o.request = none :=
  onResult_custom_all (P := fun o => o.request = none) hcustom rfl rfl rfl rfl
    (endProcess_asksNothing c) rfl extraInfo

theorem getResult_quiet (c : AsyncCommand) : (getResult c).All fun o => o.request = none := by
  refine ⟨rfl, fun valid => ?_⟩
  cases valid with
  | false => trivial
  | true => exact ⟨rfl, fun _ => trivial⟩

variable {attributes : AuthAttributes} {mode : UInt32} {templateIdList : List UInt64}

/-- The mode and the template ids that a custom command takes out of its attributes. -/
structure Commands (attributes : AuthAttributes) (mode : UInt32) (templateIdList : List UInt64) :
    Prop where
  mode : attributes.valueMap .uint32Type authPropertyMode = some mode
  templates : attributes.valueMap .uint64ArrayType authTemplateIdList = some templateIdList

/-- The bytes of template ids. -/
def templateBytes (templateIdList : List UInt64) : List UInt8 :=
  templateIdList.flatMap fun v => Bytes.leBytes 8 v.toNat

theorem customSendRequest_requests (hcustom : c.type = .custom)
    (hcommands : Commands attributes mode templateIdList)
    (hlength : templateIdList.length < maxTemplateListLen) :
    (customSendRequest c attributes).Meets Connected fun _ es =>
      hdiRequests es = [.sendCommand mode (templateBytes templateIdList)] := by
  have hmode : (attributes.getUint32Value authPropertyMode 0).2 = mode := by
    rw [AuthAttributes.getUint32Value, AuthAttributes.getValue, hcommands.mode]
  have htemplates : (attributes.getUint64ArrayValue authTemplateIdList []).2 = templateIdList := by
    rw [AuthAttributes.getUint64ArrayValue, AuthAttributes.getValue, hcommands.templates]
  unfold customSendRequest
  refine meets_op_bind.mpr ⟨connected_answer _, fun _ _ => ?_⟩
  rw [hmode, htemplates, if_neg (not_not.mpr hlength)]
  refine meets_call.mpr ⟨connected_answer _, fun _ _ => ?_⟩
  refine meets_call.mpr ⟨connected_answer _, fun result _ => ?_⟩
  -- whatever the driver returns, it is not asked again
  have hrest : (if result ≠ .success then do
        onResult c result []
        pure result
      else pure .success : ExecutorProg ResultCode).All fun o => o.request = none := by
    split
    · exact (onResult_asksNothing hcustom result []).bind fun _ => trivial
    · trivial
  refine (meets_of_quiet hrest).mono fun _ es hes => ?_
  show HdiRequest.sendCommand _ _ :: hdiRequests es = _
  rw [hes]
  rfl

theorem sendRequest_custom (hcustom : c.type = .custom) (attributes : AuthAttributes) :
    sendRequest c (some attributes) = commandExecutorHdi >>= fun hdi =>
      if !hdi then pure .generalError else customSendRequest c attributes := by
  rw [sendRequest, hcustom]

/-- What `StartProcess` does with the driver's code. -/
theorem startProcess_ends (c : AsyncCommand) (result : ResultCode) :
    (if result ≠ .success then do
        endProcess c
        let _ ← atomic .releaseExecutor
        pure result
      else do
        let _ ← atomic .releaseExecutor
        pure .success : ExecutorProg ResultCode).All fun o => o.request = none := by
  split
  · exact (endProcess_asksNothing c).bind fun _ => ⟨rfl, fun _ => trivial⟩
  · exact ⟨rfl, fun _ => trivial⟩

theorem startProcess_requests (hcustom : c.type = .custom)
    (hcommands : Commands attributes mode templateIdList)
    (hlength : templateIdList.length < maxTemplateListLen) :
    (startProcess c (some attributes)).Meets Connected fun _ es =>
      hdiRequests es = [.sendCommand mode (templateBytes templateIdList)] := by
  unfold startProcess
  refine meets_op_bind.mpr ⟨connected_answer _, fun executor hexecutor => ?_⟩
  obtain rfl : executor = true := hexecutor
  refine (meets_of_quiet (addCommand_quiet c)).bind fun _ es₁ hes₁ => ?_
  have hsend : (sendRequest c (some attributes)).Meets Connected fun _ es =>
      hdiRequests es = [.sendCommand mode (templateBytes templateIdList)] := by
    rw [sendRequest_custom hcustom]
    refine meets_call.mpr ⟨connected_answer _, fun executor hexecutor => ?_⟩
    obtain rfl : executor = true := hexecutor
    refine meets_call.mpr ⟨connected_answer _, fun hdi hhdi => ?_⟩
    obtain rfl : hdi = true := hhdi
    refine meets_call.mpr ⟨connected_answer _, fun _ _ => ?_⟩
    exact customSendRequest_requests hcustom hcommands hlength
  refine hsend.bind fun result es₂ hes₂ => ?_
  refine (meets_of_quiet (startProcess_ends c result)).mono fun _ es₃ hes₃ => ?_
  show hdiRequests (es₁ ++ (es₂ ++ es₃)) = _
  rw [hdiRequests_append, hdiRequests_append, hes₁, hes₂, hes₃]
  rfl

/-- With a connected driver, a custom command becomes one `SendCommand`. -/
theorem processCommand_requests (hcustom : c.type = .custom)
    (hcommands : Commands attributes mode templateIdList)
    (hlength : templateIdList.length < maxTemplateListLen) :
    (processCommand c (some attributes)).Meets Connected fun _ es =>
      hdiRequests es = [.sendCommand mode (templateBytes templateIdList)] := by
  unfold processCommand
  refine (startProcess_requests hcustom hcommands hlength).bind fun result es₁ hes₁ => ?_
  refine meets_op_bind.mpr ⟨connected_answer _, fun _ _ => ?_⟩
  rw [hcustom]
  have hrest : (if result ≠ .success then pure result else getResult c).All
      fun o => o.request = none := by
    split
    · trivial
    · exact getResult_quiet c
  refine (meets_of_quiet hrest).mono fun _ es₂ hes₂ => ?_
  show hdiRequests (es₁ ++ _ :: es₂) = _
  rw [hdiRequests_append, hes₁]
  show _ ++ hdiRequests es₂ = _
  rw [hes₂]
  rfl

end Custom

/-! ## 5. A property that is set -/

def FrameworkOp.request : FrameworkOp → Option HdiRequest
  | .command o => o.request
  | _ => none

def frameworkRequests (es : List FrameworkStep) : List HdiRequest :=
  es.filterMap fun e => e.1.request

/-- The executor is connected, and a command can be allocated. -/
def FrameworkConnected : (o : FrameworkOp) → FrameworkRes o → Prop
  | .command o, r => Connected o r
  | .makeCommand, commandId => commandId ≠ none
  | _, _ => True

theorem frameworkConnected_answer (o : FrameworkOp) : ∃ r, FrameworkConnected o r := by
  cases o with
  | command o => exact connected_answer o
  | makeCommand => exact ⟨some 0, Option.some_ne_none 0⟩
  | cancel | delete => exact ⟨.success, trivial⟩
  | getTemplateInfo => exact ⟨(.success, ⟨0, 0, 0, []⟩), trivial⟩

theorem frameworkRequests_embed (es : List ExecutorStep) :
    frameworkRequests (es.map (Prog.embStep FrameworkOp.command)) = hdiRequests es := by
  rw [frameworkRequests, List.filterMap_map]
  rfl

/-- Every mode but the deletion goes to the driver as a command. -/
theorem frameworkOnSetProperty_requests {properties : AuthAttributes} {mode : UInt32}
    {templateIdList : List UInt64} (hcommands : Commands properties mode templateIdList)
    (hmode : mode ≠ propermodeDelete) (hlength : templateIdList.length < maxTemplateListLen) :
    (frameworkOnSetProperty (some properties)).Meets FrameworkConnected fun _ es =>
      frameworkRequests es = [.sendCommand mode (templateBytes templateIdList)] := by
  have hvalue : properties.getUint32Value authPropertyMode 0 = (.success, mode) := by
    rw [AuthAttributes.getUint32Value, AuthAttributes.getValue, hcommands.mode]
  unfold frameworkOnSetProperty
  simp only [hvalue]
  rw [if_neg (not_not.mpr rfl), if_neg hmode]
  refine Prog.meets_call.mpr ⟨frameworkConnected_answer _, fun commandId hcommand => ?_⟩
  obtain ⟨commandId, rfl⟩ := Option.ne_none_iff_exists'.mp hcommand
  have hprocess := processCommand_requests (c := ⟨commandId, .custom, 0⟩) rfl hcommands hlength
  refine Prog.Meets.mono (Prog.Meets.embed hprocess) ?_
  rintro _ es ⟨es', rfl, hes'⟩
  show frameworkRequests (es'.map _) = _
  rw [frameworkRequests_embed, hes']

end UserIam.Executors
