import UserIam.Executors.TemplateFreeze

/-!
# The templates of a schedule

A schedule on its way from the HDI through CoAuth and the two sides of the IPC to the drivers of its
executors.  The HDI names a list of templates, and the driver is given a list again.
-/

namespace UserIam.Executors

open Conc CoAuth
open UserIDM (HdiScheduleInfo)

/-! ## 1. One program -/

/-- `process` is an operation of the IPC, or one in the process of an executor. -/
inductive BeginOp where
  | coAuth (o : CoAuthOp)
  | process (o : FreezeOp)

@[reducible] def BeginRes : BeginOp → Type
  | .coAuth o => CoAuthRes o
  | .process o => FreezeRes o

abbrev BeginProg := Prog BeginOp BeginRes
abbrev BeginStep := (o : BeginOp) × BeginRes o

section Services

variable {P : Type} (fuel : Nat) (ipc : Ipc P)
  (onMessengerReadyStub : P → P → ExecutorCallbackProg (ResultCode × P))

/-- What `OnBeginExecute` of the proxy writes before it packs the attributes. -/
def beginHeader (scheduleId : UInt64) (publicKey : List UInt8) : Option P := do
  let data ← ipc.parcel.write ipc.parcel.empty .interfaceToken executorCallbackDescriptor
  let data ← ipc.parcel.write data .uint64 scheduleId
  ipc.parcel.write data .uint8Vector publicKey

def proxyOnBeginExecute (remote : ExecutorCallback) (scheduleId : UInt64) (publicKey : List UInt8)
    (commandAttrs : AuthAttributes) : FreezeProg ResultCode :=
  match beginHeader ipc scheduleId publicKey with
  | none => return .fail
  | some data => do
    let (locals, _) ← Prog.op FreezeOp.locals
    match commandAttrs.pack fuel locals with
    -- `Pack` does not come to its end
    | none => freezeHang
    | some (buffer, _) =>
      match ipc.parcel.write data .uint8Vector buffer with
      | none => return .fail
      | some data => do
        match ← sendToExecutor fuel ipc onMessengerReadyStub remote onBeginExecuteCode data with
        | none => return .fail
        | some reply => return reply.result.getD .fail

/-- The executors of CoAuth are proxies. -/
def throughExecutors : (o : CoAuthOp) → BeginProg (CoAuthRes o)
  | .onBeginExecute remote scheduleId publicKey commandAttrs =>
    (proxyOnBeginExecute fuel ipc onMessengerReadyStub remote scheduleId publicKey
      commandAttrs).interp fun o => Prog.op (BeginOp.process o)
  | o => Prog.op (BeginOp.coAuth o)

/-- `BeginSchedule` on behalf of a caller, who is named by its number. -/
def beginFor (service : CoAuthService) (scheduleInfo : ScheduleInfo) (callerID : UInt64)
    (callback : CoAuthCallback) : BeginProg Unit :=
  (beginSchedule service scheduleInfo ⟨UserIDM.callerNameOf callerID, callerID⟩
    (some callback)).interp (throughExecutors fuel ipc onMessengerReadyStub)

end Services

/-! ## 2. What the surroundings do -/

/-- The schedule is new, its executors are registered, and their drivers are connected. -/
def Begins : (o : BeginOp) → BeginRes o → Prop
  | .coAuth (.saveScheduleCallback ..), code => code = .success
  | .coAuth (.findExecutorCallback _), answer => answer.1 = .success ∧ answer.2 ≠ none
  | .process (.executor _ o), r => FrameworkConnected o r
  | _, _ => True

def BeginOp.request : BeginOp → Option HdiRequest
  | .process (.executor _ o) => o.request
  | _ => none

/-- What the drivers of the executors are asked to do. -/
def beginRequests (es : List BeginStep) : List HdiRequest :=
  es.filterMap fun e => e.1.request

theorem beginRequests_append (es es' : List BeginStep) :
    beginRequests (es ++ es') = beginRequests es ++ beginRequests es' :=
  List.filterMap_append

theorem begins_answer {o : BeginOp} (ho : o ≠ .process .hang) : ∃ r, Begins o r := by
  cases o with
  | coAuth o =>
    cases o with
    | findExecutorCallback authType => exact ⟨(.success, some 0), rfl, Option.some_ne_none 0⟩
    | saveScheduleCallback => exact ⟨.success, rfl⟩
    | _ => exact ⟨default, trivial⟩
  | process o =>
    cases o with
    | executor remote o => exact frameworkConnected_answer o
    | userAuth o => exact ⟨(UserAuth.userAuthHandle 0 {} .initial o).1, trivial⟩
    | credential user authType o => exact ⟨(UserIDM.userIDMHandle 0 {} .initial o).1, trivial⟩
    | findExecutorCallback authType => exact ⟨none, trivial⟩
    | locals => exact ⟨(⟨false, 0, 0⟩, 0), trivial⟩
    | hang => exact absurd rfl ho

/-- An operation that asks no driver for anything. -/
theorem meets_begin_call {α : Type} {p : BeginProg α} {requests : List HdiRequest} {o : BeginOp}
    (ho : o.request = none) (r : BeginRes o)
    (hp : p.Meets Begins fun _ es => beginRequests es = requests) :
    p.Meets Begins fun _ es => beginRequests (⟨o, r⟩ :: es) = requests := by
  refine hp.mono fun _ es hes => ?_
  have hskip := List.filterMap_cons_none (f := fun e : BeginStep => e.1.request) (a := ⟨o, r⟩)
    (l := es) ho
  exact hskip.trans hes

/-! ## 3. The command of an executor -/

section Command

open Prog

variable {c : AsyncCommand} {attributes : AuthAttributes}

/-- What an authentication command asks for. -/
def authRequest (scheduleId callerUid templateId : UInt64) : HdiRequest :=
  .authenticate scheduleId callerUid [templateId] []

theorem authSendRequest_requests {callerUid : UInt64}
    (hcaller : attributes.valueMap .uint64Type authCallerUid = some callerUid) :
    (authSendRequest c attributes).Meets Connected fun _ es =>
      hdiRequests es = [authRequest c.scheduleId callerUid (templateOf attributes)] := by
  -- the attributes name the caller, so that what is in the local before does not matter
  have hcallerOf (uninitialized : UInt64) : callerOf attributes uninitialized = callerUid := by
    rw [callerOf, AuthAttributes.getUint64Value, AuthAttributes.getValue, hcaller]
  unfold authSendRequest
  refine meets_op_bind.mpr ⟨connected_answer _, fun uninitialized _ => ?_⟩
  rw [hcallerOf]
  refine meets_call.mpr ⟨connected_answer _, fun _ _ => ?_⟩
  exact meets_call.mpr ⟨connected_answer _, fun _ _ => rfl⟩

theorem processCommand_authenticates (hauth : c.type = .auth) {callerUid : UInt64}
    (hcaller : attributes.valueMap .uint64Type authCallerUid = some callerUid) :
    (processCommand c (some attributes)).Meets Connected fun _ es =>
      hdiRequests es = [authRequest c.scheduleId callerUid (templateOf attributes)] := by
  have hsend : (sendRequest c (some attributes)).Meets Connected fun _ es =>
      hdiRequests es = [authRequest c.scheduleId callerUid (templateOf attributes)] := by
    have heq : sendRequest c (some attributes) = commandExecutorHdi >>= fun hdi =>
        if !hdi then pure .generalError else authSendRequest c attributes := by
      rw [sendRequest, hauth]
    rw [heq]
    refine meets_call.mpr ⟨connected_answer _, fun executor hexecutor => ?_⟩
    obtain rfl : executor = true := hexecutor
    refine meets_call.mpr ⟨connected_answer _, fun hdi hhdi => ?_⟩
    obtain rfl : hdi = true := hhdi
    refine meets_call.mpr ⟨connected_answer _, fun _ _ => ?_⟩
    exact authSendRequest_requests hcaller
  have hstart : (startProcess c (some attributes)).Meets Connected fun _ es =>
      hdiRequests es = [authRequest c.scheduleId callerUid (templateOf attributes)] := by
    unfold startProcess
    refine meets_op_bind.mpr ⟨connected_answer _, fun executor hexecutor => ?_⟩
    obtain rfl : executor = true := hexecutor
    refine (meets_of_quiet (addCommand_quiet c)).bind fun _ es₁ hes₁ => ?_
    refine hsend.bind fun result es₂ hes₂ => ?_
    refine (meets_of_quiet (startProcess_ends c result)).mono fun _ es₃ hes₃ => ?_
    show hdiRequests (es₁ ++ (es₂ ++ es₃)) = _
    rw [hdiRequests_append, hdiRequests_append, hes₁, hes₂, hes₃]
    rfl
  unfold processCommand
  refine hstart.bind fun result es₁ hes₁ => ?_
  refine meets_op_bind.mpr ⟨connected_answer _, fun _ _ => ?_⟩
  rw [hauth]
  show hdiRequests (es₁ ++ _) = _
  rw [hdiRequests_append, hes₁]
  rfl

theorem frameworkOnBeginExecute_authenticates (scheduleId : UInt64) {callerUid templateId : UInt64}
    (hmode : attributes.valueMap .uint32Type authScheduleMode = some scheduleModeAuth)
    (htemplate : attributes.valueMap .uint64Type authTemplateId = some templateId)
    (hcaller : attributes.valueMap .uint64Type authCallerUid = some callerUid) :
    (frameworkOnBeginExecute scheduleId (some attributes)).Meets FrameworkConnected fun _ es =>
      frameworkRequests es = [authRequest scheduleId callerUid templateId] := by
  have hvalue : attributes.getUint32Value authScheduleMode 0 = (.success, scheduleModeAuth) := by
    rw [AuthAttributes.getUint32Value, AuthAttributes.getValue, hmode]
  have hid : templateOf attributes = templateId := by
    rw [templateOf, AuthAttributes.getUint64Value, AuthAttributes.getValue, htemplate]
  have hne : scheduleModeAuth ≠ scheduleModeEnroll := by decide
  unfold frameworkOnBeginExecute
  simp only [hvalue]
  -- the mode is there, and it is not the one of an enrolment
  rw [if_neg (not_not.mpr rfl), if_neg hne, if_pos trivial]
  refine meets_call.mpr ⟨frameworkConnected_answer _, fun commandId hcommand => ?_⟩
  obtain ⟨commandId, rfl⟩ := Option.ne_none_iff_exists'.mp hcommand
  have hprocess := processCommand_authenticates (c := ⟨commandId, .auth, scheduleId⟩) rfl hcaller
  refine Meets.mono (Meets.embed hprocess) ?_
  rintro _ es ⟨es', rfl, hes'⟩
  show frameworkRequests (es'.map _) = _
  rw [frameworkRequests_embed, hes', hid]

end Command

/-! ## 4. From CoAuth to the driver -/

/-- What `SetAuthAttributes` sets. -/
def beginCalls (scheduleInfo : ScheduleInfo) (callerID : UInt64) : List SetCall :=
  [⟨.uint32Type, authScheduleMode, scheduleInfo.scheduleMode⟩,
    ⟨.uint64Type, authSubtype, scheduleInfo.authSubType⟩,
    ⟨.uint64Type, authTemplateId, scheduleInfo.templateId⟩,
    ⟨.uint64Type, authCallerUid, callerID⟩,
    ⟨.uint8ArrayType, authCallerName, UserIDM.callerNameOf callerID⟩]

section Send

open Prog AuthAttributes

variable {P : Type} {fuel : Nat} {ipc : Ipc P}
  {contents : P → List (Ipc.ParcelApi.Item ParcelKind ParcelKind.Carrier)}
  (hparcel : ipc.parcel.Lawful contents) (haccepts : ipc.parcel.Accepts)
  (hdelivers : ipc.delivers = true) (hfuel : 8 ≤ fuel)
  {onMessengerReadyStub : P → P → ExecutorCallbackProg (ResultCode × P)}
  {scheduleInfo : ScheduleInfo} {callerID : UInt64}
  (hmode : scheduleInfo.scheduleMode = scheduleModeAuth)

theorem setAuthAttributes_eq :
    setAuthAttributes .new scheduleInfo ⟨UserIDM.callerNameOf callerID, callerID⟩ =
      new.setAll (beginCalls scheduleInfo callerID) := rfl

variable (scheduleInfo callerID) in
theorem setOnce_beginCalls : SetOnce (beginCalls scheduleInfo callerID) :=
  of_decide_eq_true rfl

variable (scheduleInfo callerID) in
theorem packedSize_beginCalls :
    (new.setAll (beginCalls scheduleInfo callerID)).packedSize < 2 ^ 32 := by
  have hname := length_callerNameOf_le callerID
  rw [(setOnce_beginCalls scheduleInfo callerID).packedSize_eq]
  simp only [beginCalls, List.map_cons, List.map_nil, List.sum_cons, List.sum_nil,
    SetCall.length_record, SetCall.payload, Bytes.length_leBytes]
  omega

variable (scheduleInfo callerID) in
include hfuel in
/-- What the stub makes of the packed attributes has the mode, the template and the caller. -/
theorem relayed_beginCalls (locals : PackLocals) :
    ∃ buffer a' received,
      (new.setAll (beginCalls scheduleInfo callerID)).pack fuel locals = some (buffer, a') ∧
      (new.unpack fuel buffer).bind (·.object) = some received ∧
      received.valueMap .uint32Type authScheduleMode = some scheduleInfo.scheduleMode ∧
      received.valueMap .uint64Type authTemplateId = some scheduleInfo.templateId ∧
      received.valueMap .uint64Type authCallerUid = some callerID := by
  have hcount : (new.setAll (beginCalls scheduleInfo callerID)).existAttributes.length = 5 :=
    (setOnce_beginCalls scheduleInfo callerID).length_existAttributes_eq
  have henough : 5 + 2 ≤ fuel := Nat.le_trans (by omega) hfuel
  obtain ⟨stored, hrelayed, -, -, hvalues⟩ :=
    relayed_setAll (packedSize_beginCalls scheduleInfo callerID) henough (by omega) locals
  obtain ⟨buffer, a', hpack, hunpack⟩ := pack_of_relayed hrelayed
  refine ⟨buffer, a', _, hpack, hunpack, ?_, ?_, ?_⟩
  · rw [hvalues _ _ (by decide)]
    rfl
  · rw [hvalues _ _ (by decide)]
    rfl
  · rw [hvalues _ _ (by decide)]
    rfl

/-- The request that the driver of each executor gets. -/
def scheduleRequest (scheduleInfo : ScheduleInfo) (callerID : UInt64) : HdiRequest :=
  authRequest scheduleInfo.scheduleId callerID scheduleInfo.templateId

include hmode in
theorem onBeginExecute_authenticates {remote : ExecutorCallback} {received : AuthAttributes}
    (hreceived :
      received.valueMap .uint32Type authScheduleMode = some scheduleInfo.scheduleMode ∧
      received.valueMap .uint64Type authTemplateId = some scheduleInfo.templateId ∧
      received.valueMap .uint64Type authCallerUid = some callerID) :
    ((atExecutor remote (frameworkOnBeginExecute scheduleInfo.scheduleId
      (some received))).interp fun o => Prog.op (BeginOp.process o)).Meets Begins fun _ es =>
        beginRequests es = [scheduleRequest scheduleInfo callerID] := by
  obtain ⟨hreceivedMode, htemplate, hcaller⟩ := hreceived
  rw [hmode] at hreceivedMode
  have hframework := frameworkOnBeginExecute_authenticates scheduleInfo.scheduleId
    hreceivedMode htemplate hcaller
  have hatExecutor : (atExecutor remote (frameworkOnBeginExecute scheduleInfo.scheduleId
      (some received))).Meets (fun o r => Begins (.process o) r) fun _ es =>
        ∃ es', es = es'.map (embStep (FreezeOp.executor remote)) ∧
          frameworkRequests es' = [scheduleRequest scheduleInfo callerID] :=
    Meets.embed hframework
  refine Meets.mono (Meets.embed hatExecutor) ?_
  rintro _ es ⟨_, rfl, es', rfl, hes'⟩
  rw [← hes', beginRequests, List.filterMap_map, List.filterMap_map]
  rfl

include hparcel hdelivers hmode in
/-- A request with these bytes, from the proxy to the driver. -/
theorem sendToExecutor_authenticates {remote : ExecutorCallback} {data : P}
    {publicKey buffer : List UInt8} {received : AuthAttributes}
    (hdata : contents data =
      [⟨.interfaceToken, executorCallbackDescriptor⟩, ⟨.uint64, scheduleInfo.scheduleId⟩,
        ⟨.uint8Vector, publicKey⟩, ⟨.uint8Vector, buffer⟩])
    (hunpack : (new.unpack fuel buffer).bind (·.object) = some received)
    (hreceived :
      received.valueMap .uint32Type authScheduleMode = some scheduleInfo.scheduleMode ∧
      received.valueMap .uint64Type authTemplateId = some scheduleInfo.templateId ∧
      received.valueMap .uint64Type authCallerUid = some callerID) :
    ((sendToExecutor fuel ipc onMessengerReadyStub remote onBeginExecuteCode data).interp
      fun o => Prog.op (BeginOp.process o)).Meets Begins fun _ es =>
        beginRequests es = [scheduleRequest scheduleInfo callerID] := by
  unfold sendToExecutor
  rw [if_neg (by simp [hdelivers]), interp_bind, interp_op]
  refine meets_op_bind.mpr ⟨begins_answer (by simp), fun answer _ => ?_⟩
  obtain ⟨locals, authTypeLocal⟩ := answer
  refine meets_begin_call (o := .process .locals) rfl (locals, authTypeLocal) ?_
  dsimp only
  rw [callbackOnRemoteRequest_beginExecute hparcel hdata hunpack, interp_call, bind_assoc,
    interp_bind]
  refine (onBeginExecute_authenticates hmode hreceived).bind fun ret es hes => ?_
  rw [interp_ret, ret_bind]
  -- the code is written into the reply or not, and the request has been made
  split
  · show beginRequests (es ++ []) = _
    rwa [List.append_nil]
  · show beginRequests (es ++ []) = _
    rwa [List.append_nil]

include hparcel in
theorem beginHeader_contents {scheduleId : UInt64} {publicKey : List UInt8} {data : P}
    (h : beginHeader ipc scheduleId publicKey = some data) :
    contents data = [⟨.interfaceToken, executorCallbackDescriptor⟩, ⟨.uint64, scheduleId⟩,
      ⟨.uint8Vector, publicKey⟩] := by
  obtain ⟨data₁, h₁, h⟩ := Option.bind_eq_some_iff.mp h
  obtain ⟨data₂, h₂, h₃⟩ := Option.bind_eq_some_iff.mp h
  rw [hparcel.write h₃, hparcel.write h₂, hparcel.write h₁, hparcel.empty]
  rfl

include haccepts in
theorem beginHeader_accepted (scheduleId : UInt64) (publicKey : List UInt8) :
    ∃ data, beginHeader ipc scheduleId publicKey = some data := by
  obtain ⟨data₁, h₁⟩ := haccepts.write ipc.parcel.empty .interfaceToken executorCallbackDescriptor
  obtain ⟨data₂, h₂⟩ := haccepts.write data₁ .uint64 scheduleId
  obtain ⟨data₃, h₃⟩ := haccepts.write data₂ .uint8Vector publicKey
  refine ⟨data₃, ?_⟩
  simp [beginHeader, h₁, h₂, h₃]

variable (onMessengerReadyStub callerID)

include hparcel haccepts hdelivers hfuel hmode in
/-- The pass from process to process. -/
theorem proxyOnBeginExecute_authenticates (remote : ExecutorCallback) (publicKey : List UInt8) :
    ((proxyOnBeginExecute fuel ipc onMessengerReadyStub remote scheduleInfo.scheduleId publicKey
      (new.setAll (beginCalls scheduleInfo callerID))).interp
        fun o => Prog.op (BeginOp.process o)).Meets Begins fun _ es =>
          beginRequests es = [scheduleRequest scheduleInfo callerID] := by
  obtain ⟨data, hheader⟩ := beginHeader_accepted haccepts scheduleInfo.scheduleId publicKey
  have hcontents := beginHeader_contents hparcel hheader
  unfold proxyOnBeginExecute
  rw [hheader]
  dsimp only
  rw [interp_bind, interp_op]
  refine meets_op_bind.mpr ⟨begins_answer (by simp), fun answer _ => ?_⟩
  obtain ⟨locals, authTypeLocal⟩ := answer
  refine meets_begin_call (o := .process .locals) rfl (locals, authTypeLocal) ?_
  obtain ⟨buffer, a', received, hpack, hunpack, hreceived⟩ :=
    relayed_beginCalls hfuel scheduleInfo callerID locals
  obtain ⟨data', hwrite⟩ := haccepts.write data .uint8Vector buffer
  have hdata := hparcel.write hwrite
  rw [hcontents] at hdata
  dsimp only
  rw [hpack]
  dsimp only
  rw [hwrite]
  dsimp only
  rw [interp_bind]
  refine (sendToExecutor_authenticates hparcel hdelivers hmode hdata hunpack hreceived).bind
    fun reply es hes => ?_
  cases reply with
  | none =>
    show beginRequests (es ++ []) = _
    rwa [List.append_nil]
  | some reply =>
    show beginRequests (es ++ []) = _
    rwa [List.append_nil]

include hparcel haccepts hdelivers hfuel hmode in
theorem beginExecute_authenticates (executors : List ExecutorInfo) (executeRet : ResultCode) :
    ((beginExecute scheduleInfo scheduleInfo.scheduleId ⟨UserIDM.callerNameOf callerID, callerID⟩
      executors executeRet).interp (throughExecutors fuel ipc onMessengerReadyStub)).Meets Begins
        fun _ es => beginRequests es =
          List.replicate executors.length (scheduleRequest scheduleInfo callerID) := by
  -- the executors are found and asked one after the other
  induction executors generalizing executeRet with
  | nil => rfl
  | cons executor executors ih =>
    rw [beginExecute, interp_bind, interp_op]
    refine meets_op_bind.mpr ⟨begins_answer (by simp), fun answer hanswer => ?_⟩
    refine meets_begin_call (o := .coAuth (.findExecutorCallback executor.authType)) rfl answer ?_
    obtain ⟨findRet, executorCallback⟩ := answer
    obtain ⟨rfl, hfound⟩ := hanswer
    obtain ⟨remote, rfl⟩ := Option.ne_none_iff_exists'.mp hfound
    dsimp only
    rw [if_neg (not_not.mpr rfl), interp_bind, interp_op]
    have hone := proxyOnBeginExecute_authenticates hparcel haccepts hdelivers hfuel
      onMessengerReadyStub callerID hmode remote executor.publicKey
    rw [← setAuthAttributes_eq] at hone
    refine Meets.bind hone fun ret es hes => (ih _).mono fun _ es' hes' => ?_
    rw [beginRequests_append, hes, hes']
    rfl

/-- An operation of CoAuth that asks no executor to begin. -/
def BeginsNothing : CoAuthOp → Prop
  | .onBeginExecute .. => False
  | _ => True

theorem throughExecutors_nothing {o : CoAuthOp} (ho : BeginsNothing o) :
    (throughExecutors fuel ipc onMessengerReadyStub o).All
      fun o => o.request = none ∧ o ≠ .process .hang := by
  cases o with
  | onBeginExecute => exact ho.elim
  | _ => exact ⟨⟨rfl, by simp⟩, fun _ => trivial⟩

theorem beginsNothing_requests {α : Type} {p : CoAuthProg α} (hp : p.All BeginsNothing) :
    (p.interp (throughExecutors fuel ipc onMessengerReadyStub)).Meets Begins
      fun _ es => beginRequests es = [] := by
  have hall := All.interp (f := throughExecutors fuel ipc onMessengerReadyStub) hp
    fun _ ho => throughExecutors_nothing _ ho
  refine (hall.meets fun o ho => begins_answer ho.2).mono fun _ es hes => ?_
  exact List.filterMap_eq_nil_iff.mpr fun e he => (hes e he).1

theorem monitorCall_nothing (service : CoAuthService) (scheduleId : UInt64) :
    (monitorCall service scheduleId).All BeginsNothing := by
  unfold monitorCall
  split
  · exact ⟨trivial, fun _ => trivial⟩
  · trivial

theorem monitorRemoveCall_nothing (service : CoAuthService) (scheduleId : UInt64) :
    (monitorRemoveCall service scheduleId).All BeginsNothing := by
  unfold monitorRemoveCall
  split
  · exact ⟨trivial, fun _ => trivial⟩
  · trivial

include hparcel haccepts hdelivers hfuel hmode in
/-- The driver of every executor is asked to authenticate, with the one template that is left. -/
theorem beginFor_authenticates {service : CoAuthService} (hservice : service.coAuthResMgrPtr = true)
    (hexecutors : scheduleInfo.executors ≠ []) (callback : CoAuthCallback) :
    (beginFor fuel ipc onMessengerReadyStub service scheduleInfo callerID callback).Meets Begins
      fun _ es => beginRequests es = List.replicate scheduleInfo.executors.length
        (scheduleRequest scheduleInfo callerID) := by
  unfold beginFor beginSchedule
  dsimp only
  rw [if_neg (by simpa using hexecutors), if_neg (by simp [hservice]), interp_bind, interp_op]
  refine meets_op_bind.mpr ⟨begins_answer (by simp), fun saveRet hsave => ?_⟩
  obtain rfl : saveRet = .success := hsave
  refine meets_begin_call (o := .coAuth (.saveScheduleCallback ..)) rfl ResultCode.success ?_
  rw [if_neg (not_not.mpr rfl), interp_bind]
  -- what comes before the loop and after it asks for nothing
  refine (beginsNothing_requests _ (monitorCall_nothing _ _)).bind fun _ es₁ hes₁ => ?_
  rw [interp_bind]
  have hloop := beginExecute_authenticates hparcel haccepts hdelivers hfuel
    onMessengerReadyStub callerID hmode scheduleInfo.executors .success
  refine Meets.bind hloop fun executeRet es₂ hes₂ => ?_
  refine Meets.mono (beginsNothing_requests _ ?_) fun _ es₃ hes₃ => ?_
  · split
    · exact ⟨trivial, fun _ => ⟨trivial, fun _ => monitorRemoveCall_nothing _ _⟩⟩
    · trivial
  · show beginRequests (es₁ ++ (es₂ ++ es₃)) = _
    rw [beginRequests_append, beginRequests_append, hes₁, hes₂, hes₃, List.append_nil]
    rfl

end Send

/-! ## 5. The templates that are matched -/

/-- The list of templates that an authentication is asked to match. -/
def HdiRequest.templateIdList : HdiRequest → List UInt64
  | .authenticate _ _ templateIdList _ => templateIdList
  | _ => []

/-- The driver of every executor in the schedule gets a list with all the schedule's templates. -/
def AllMatched (hdiInfo : HdiScheduleInfo) (es : List BeginStep) : Prop :=
  (beginRequests es).length = hdiInfo.executors.length ∧
    ∀ request ∈ beginRequests es, ∀ templateId ∈ hdiInfo.templateIds,
      templateId ∈ request.templateIdList

theorem copyScheduleInfo_eq_some {hdiInfo : HdiScheduleInfo} {scheduleInfo : ScheduleInfo}
    (h : UserAuth.copyScheduleInfo hdiInfo = some scheduleInfo) :
    hdiInfo.templateIds.head? = some scheduleInfo.templateId ∧
      scheduleInfo.scheduleMode = hdiInfo.scheduleMode ∧ scheduleInfo.executors ≠ [] ∧
      scheduleInfo.executors.length = hdiInfo.executors.length := by
  unfold UserAuth.copyScheduleInfo UserIDM.copyScheduleInfo at h
  split at h
  · cases h
  · next templateId _ htemplates =>
    split at h
    · cases h
    · next hexecutors =>
      split at h
      · cases h
        refine ⟨by rw [htemplates]; rfl, rfl, ?_, List.length_map ..⟩
        simpa using hexecutors
      · cases h

/-- The requests of a schedule match all its templates exactly if there is one template only. -/
theorem allMatched_iff {hdiInfo : HdiScheduleInfo} {scheduleInfo : ScheduleInfo}
    (hcopy : UserAuth.copyScheduleInfo hdiInfo = some scheduleInfo) {callerID : UInt64}
    {es : List BeginStep} (hes : beginRequests es = List.replicate scheduleInfo.executors.length
      (scheduleRequest scheduleInfo callerID)) :
    AllMatched hdiInfo es ↔
      ∀ templateId ∈ hdiInfo.templateIds, hdiInfo.templateIds.head? = some templateId := by
  obtain ⟨hhead, -, hexecutors, hlength⟩ := copyScheduleInfo_eq_some hcopy
  have hlist (templateId : UInt64) :
      templateId ∈ (scheduleRequest scheduleInfo callerID).templateIdList ↔
        hdiInfo.templateIds.head? = some templateId := by
    rw [hhead, Option.some.injEq, eq_comm]
    exact List.mem_singleton
  unfold AllMatched
  rw [hes, List.length_replicate]
  constructor
  · rintro ⟨-, hmatched⟩ templateId htemplate
    refine (hlist templateId).mp (hmatched _ ?_ templateId htemplate)
    exact List.mem_replicate.mpr ⟨by simpa using hexecutors, rfl⟩
  · refine fun hone => ⟨hlength, fun request hrequest templateId htemplate => ?_⟩
    rw [List.eq_of_mem_replicate hrequest]
    exact (hlist templateId).mpr (hone templateId htemplate)

/-- **The templates of a schedule.**  When a schedule is begun for an authentication and nothing
fails on the way, every driver is asked to match all the templates of the schedule exactly if the
schedule names no template but its first one. -/
theorem scheduled_templates_iff {P : Type} {fuel : Nat} {ipc : Ipc P}
    {contents : P → List (Ipc.ParcelApi.Item ParcelKind ParcelKind.Carrier)}
    (hparcel : ipc.parcel.Lawful contents) (haccepts : ipc.parcel.Accepts)
    (hdelivers : ipc.delivers = true) (hfuel : 8 ≤ fuel)
    (onMessengerReadyStub : P → P → ExecutorCallbackProg (ResultCode × P))
    {service : CoAuthService} (hservice : service.coAuthResMgrPtr = true)
    {hdiInfo : HdiScheduleInfo} {scheduleInfo : ScheduleInfo}
    (hbegun : UserAuth.copyScheduleInfo hdiInfo = some scheduleInfo)
    (hmode : hdiInfo.scheduleMode = scheduleModeAuth) (callerID : UInt64)
    (callback : CoAuthCallback) :
    (beginFor fuel ipc onMessengerReadyStub service scheduleInfo callerID callback).Meets Begins
        (fun _ es => AllMatched hdiInfo es) ↔
      ∀ templateId ∈ hdiInfo.templateIds, hdiInfo.templateIds.head? = some templateId := by
  obtain ⟨-, hinfo, hexecutors, -⟩ := copyScheduleInfo_eq_some hbegun
  have hmeets := beginFor_authenticates hparcel haccepts hdelivers hfuel onMessengerReadyStub
    callerID (hinfo.trans hmode) hservice hexecutors callback
  constructor
  -- one run is possible, and it has asked for the first template alone
  · intro hmatched
    obtain ⟨_, es, -, -, hes, hall⟩ := (hmeets.and hmatched).exists
    exact (allMatched_iff hbegun hes).mp hall
  · exact fun hone => hmeets.mono fun _ _ hes => (allMatched_iff hbegun hes).mpr hone

/-- A schedule for one face executor. -/
def faceSchedule (templateIds : List UInt64) : HdiScheduleInfo :=
  ⟨7, templateIds, 0, scheduleModeAuth, [⟨1, .face, List.replicate 32 0⟩]⟩

theorem scheduled_templates_iff_example :
    (beginFor 8 faceIpc (fun _ reply => .ret (.success, reply)) ⟨true, true, true⟩
      ⟨7, [⟨1, .face, List.replicate 32 0⟩], 258, 0, scheduleModeAuth⟩ 5 9).Meets Begins
        fun _ es => AllMatched (faceSchedule [258]) es := by
  refine (scheduled_templates_iff Ipc.ParcelApi.ofList_lawful Ipc.ParcelApi.ofList_accepts
    (rfl : faceIpc.delivers = true) (Nat.le_refl 8) (fun _ reply => .ret (.success, reply)) rfl
    ?_ ?_ 5 9).mpr ?_
  · rfl
  · rfl
  · exact List.forall_mem_singleton.mpr rfl

/-- The second of two templates is not matched. -/
theorem scheduled_templates_counterexample :
    ¬(beginFor 8 faceIpc (fun _ reply => .ret (.success, reply)) ⟨true, true, true⟩
      ⟨7, [⟨1, .face, List.replicate 32 0⟩], 1, 0, scheduleModeAuth⟩ 5 9).Meets Begins
        fun _ es => AllMatched (faceSchedule [1, 2]) es := by
  intro hmatched
  have hcopy : UserAuth.copyScheduleInfo (faceSchedule [1, 2]) =
      some ⟨7, [⟨1, .face, List.replicate 32 0⟩], 1, 0, scheduleModeAuth⟩ := rfl
  obtain ⟨-, hmode, hexecutors, -⟩ := copyScheduleInfo_eq_some hcopy
  have hmeets := beginFor_authenticates Ipc.ParcelApi.ofList_lawful Ipc.ParcelApi.ofList_accepts
    (rfl : faceIpc.delivers = true) (Nat.le_refl 8) (fun _ reply => .ret (.success, reply)) 5
    hmode (rfl : (⟨true, true, true⟩ : CoAuthService).coAuthResMgrPtr = true) hexecutors 9
  obtain ⟨_, es, -, -, hes, hall⟩ := (hmeets.and hmatched).exists
  have hone := (allMatched_iff hcopy hes).mp hall
  have hsecond := hone 2 (List.mem_cons_of_mem _ (List.mem_singleton_self 2))
  exact absurd (Option.some.inj hsecond) (by decide)

end UserIam.Executors
