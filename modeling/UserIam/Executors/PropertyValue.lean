import UserIam.Executors.PropertySystem

/-!
# What a query reports

The fields that the client of a query gets are those that the driver has answered for the template
of the user's first credential.  On their way the values are packed three times and unpacked three
times.
-/

namespace UserIam.Executors

open Conc CoAuth Prog AuthAttributes
open UserAuth (ClientCallback ExecutorProperty GetPropertyRequest WireItem)
open UserIDM (HdiCredentialInfo)

/-! ## 1. Surroundings that answer -/

/-- The HDI knows the user's credentials of the type, the executor of the type is connected, and its
driver answers with this information about the first template.  Everything else is left open. -/
def Queried (remote : ExecutorCallback) (userId : Int32) (authType : AuthType)
    (first : HdiCredentialInfo) (rest : List HdiCredentialInfo) (info : TemplateInfo) :
    (o : FreezeOp) → FreezeRes o → Prop
  | .credential user type .getHdiInterface, hdiInterface =>
    user = userId → type = authType → hdiInterface = true
  | .credential _ _ (.getCredential user type), answer =>
    user = userId → type = authType → answer = (.success, first :: rest)
  | .findExecutorCallback type, callback => type = authType → callback = some remote
  | .executor _ (.command o), r => Connected o r
  | .executor remote' (.getTemplateInfo templateId), answer =>
    remote' = remote → templateId = first.templateId → answer.2 = info
  | _, _ => True

/-- The sub type in the extra information. -/
def subTypeOf (info : TemplateInfo) : UInt64 := unpackUint64 info.extraInfo 0 0

/-- What `ProcessGetTemplateCommand` sets. -/
def valueCalls (info : TemplateInfo) : List SetCall :=
  [⟨.uint64Type, authSubtype, subTypeOf info⟩,
    ⟨.uint32Type, authRemainTime, info.freezingTime.toUInt32⟩,
    ⟨.uint32Type, authRemainCount, info.remainTimes.toUInt32⟩]

/-- The object has the values of the template. -/
structure HasValues (info : TemplateInfo) (values : AuthAttributes) : Prop where
  subType : values.valueMap .uint64Type authSubtype = some (subTypeOf info)
  freezingTime : values.valueMap .uint32Type authRemainTime = some info.freezingTime.toUInt32
  remainTimes : values.valueMap .uint32Type authRemainCount = some info.remainTimes.toUInt32

theorem setOnce_valueCalls (info : TemplateInfo) : SetOnce (valueCalls info) :=
  of_decide_eq_true rfl

/-- The values survive a pass. -/
theorem relayed_valueCalls {fuel : Nat} (hfuel : 8 ≤ fuel) (info : TemplateInfo)
    (locals : PackLocals) :
    ∃ values, relayed fuel locals (templateValues new info) = some values ∧
      HasValues info values := by
  have hcount : (new.setAll (valueCalls info)).existAttributes.length = 3 :=
    (setOnce_valueCalls info).length_existAttributes_eq
  have hsize : (new.setAll (valueCalls info)).packedSize < 2 ^ 32 := by
    rw [(setOnce_valueCalls info).packedSize_eq]
    simp only [valueCalls, List.map_cons, List.map_nil, List.sum_cons, List.sum_nil,
      SetCall.length_record, SetCall.payload, Bytes.length_leBytes]
    omega
  have henough : (new.setAll (valueCalls info)).existAttributes.length + 2 ≤ fuel := by omega
  obtain ⟨stored, hrelayed, -, -, hvalues⟩ := relayed_setAll hsize henough (by omega) locals
  refine ⟨_, hrelayed, ?_, ?_, ?_⟩
  · rw [hvalues _ _ (by decide)]
    rfl
  · rw [hvalues _ _ (by decide)]
    rfl
  · rw [hvalues _ _ (by decide)]
    rfl

section Surroundings

variable {remote : ExecutorCallback} {userId : Int32} {authType : AuthType}
  {first : HdiCredentialInfo} {rest : List HdiCredentialInfo} {info : TemplateInfo}

theorem queried_answer {o : FreezeOp} (ho : o ≠ .hang) :
    ∃ r, Queried remote userId authType first rest info o r := by
  cases o with
  | userAuth o => exact ⟨(UserAuth.userAuthHandle 0 {} .initial o).1, trivial⟩
  | credential user type o =>
    refine ⟨(UserIDM.userIDMHandle 0 { credentials := first :: rest } .initial o).1, ?_⟩
    cases o <;> first | trivial | exact fun _ _ => rfl
  | findExecutorCallback type => exact ⟨some remote, fun _ => rfl⟩
  | locals => exact ⟨(⟨false, 0, 0⟩, 0), trivial⟩
  | executor remote' o =>
    cases o with
    | command o => exact connected_answer o
    | getTemplateInfo templateId => exact ⟨(.success, info), fun _ _ => rfl⟩
    | makeCommand => exact ⟨none, trivial⟩
    | cancel | delete => exact ⟨.success, trivial⟩
  | hang => exact absurd rfl ho

/-! ## 2. At the executor -/

/-- The conditions ask for the template. -/
structure AsksFor (templateId : UInt64) (conditions : AuthAttributes) : Prop where
  mode : conditions.valueMap .uint32Type authPropertyMode = some propermodeGet
  templateId : conditions.valueMap .uint64Type authTemplateId = some templateId

theorem AsksFor.templateOf {templateId : UInt64} {conditions : AuthAttributes}
    (h : AsksFor templateId conditions) : templateOf conditions = templateId := by
  rw [Executors.templateOf, getUint64Value, getValue, h.templateId]

/-- The driver is asked for the template, and its answer is put into the values. -/
theorem frameworkOnGetProperty_values {conditions : AuthAttributes}
    (h : AsksFor first.templateId conditions) :
    (atExecutor remote (frameworkOnGetProperty (some conditions) (some new))).Meets
      (Queried remote userId authType first rest info)
      fun a _ => a = (.success, some (templateValues new info)) := by
  have hmode : conditions.getUint32Value authPropertyMode 0 = (.success, propermodeGet) := by
    rw [getUint32Value, getValue, h.mode]
  have hanswer (o : FrameworkOp) : ∃ r, Queried remote userId authType first rest info
      (.executor remote o) r := queried_answer (by simp)
  unfold frameworkOnGetProperty
  simp only [hmode]
  rw [if_neg (not_not.mpr rfl), if_neg (not_not.mpr rfl)]
  unfold processGetTemplateCommand withExecutorHdi atExecutor
  dsimp only
  -- the executor, its driver, the driver's answer, the release
  refine meets_op_bind.mpr ⟨hanswer _, fun executor hexecutor => ?_⟩
  obtain rfl : executor = true := hexecutor
  refine meets_op_bind.mpr ⟨hanswer _, fun hdi hhdi => ?_⟩
  obtain rfl : hdi = true := hhdi
  refine meets_op_bind.mpr ⟨hanswer _, fun answer hinfo => ?_⟩
  obtain ⟨ret, templateInfo⟩ := answer
  obtain rfl : templateInfo = info := hinfo rfl h.templateOf
  exact meets_op_bind.mpr ⟨hanswer _, fun _ _ => rfl⟩

/-! ## 3. From CoAuth to the executor and back -/

section Request

variable {P : Type} {fuel : Nat} {ipc : CoAuth.Ipc P}
  {contents : P → List (Ipc.ParcelApi.Item ParcelKind ParcelKind.Carrier)}
  (hparcel : ipc.parcel.Lawful contents) (haccepts : ipc.parcel.Accepts)
  (hdelivers : ipc.delivers = true) (hfuel : 8 ≤ fuel)
  {onMessengerReadyStub : P → P → ExecutorCallbackProg (ResultCode × P)}

include hparcel in
/-- The stub hands over what `Unpack` makes of the message, with a new object for the values. -/
theorem callbackOnRemoteRequest_getProperty {data : P} {buffer : List UInt8}
    (hdata : contents data =
      [⟨.interfaceToken, executorCallbackDescriptor⟩, ⟨.uint8Vector, buffer⟩])
    {conditions : AuthAttributes}
    (hunpack : (new.unpack fuel buffer).bind (·.object) = some conditions)
    (locals : PackLocals) (reply : P) :
    callbackOnRemoteRequest fuel ipc true locals onMessengerReadyStub onGetPropertyCode data reply =
      .call (.onGetProperty conditions new) fun r => writeValues fuel ipc locals reply r.1 r.2 := by
  obtain ⟨data₁, htoken, hdata₁⟩ := hparcel.read_of_contents hdata
  obtain ⟨data₂, hvector, -⟩ := hparcel.read_of_contents hdata₁
  have hcodes : onGetPropertyCode ≠ onMessengerReadyCode ∧ onGetPropertyCode ≠ onBeginExecuteCode ∧
      onGetPropertyCode ≠ onEndExecuteCode ∧ onGetPropertyCode ≠ onSetPropertyCode := by decide
  unfold callbackOnRemoteRequest
  simp only [htoken]
  rw [if_neg (not_not.mpr rfl), if_neg hcodes.1, if_neg hcodes.2.1, if_neg hcodes.2.2.1,
    if_neg hcodes.2.2.2, if_pos trivial]
  unfold onGetPropertyStub unpackMessage
  simp only [hvector, hunpack]
  rfl

include hparcel haccepts in
/-- What is written into the reply is the code and the packed values. -/
theorem writeValues_eq {values : AuthAttributes} {buffer : List UInt8} {a' : AuthAttributes}
    {locals : PackLocals} (hpack : values.pack fuel locals = some (buffer, a')) (ret : ResultCode) :
    ∃ reply, contents reply = [⟨.int32, ret⟩, ⟨.uint8Vector, buffer⟩] ∧
      writeValues fuel ipc locals ipc.parcel.empty ret values = pure (.success, reply) := by
  obtain ⟨reply₁, hret⟩ := haccepts.write ipc.parcel.empty .int32 ret
  obtain ⟨reply₂, hvector⟩ := haccepts.write reply₁ .uint8Vector buffer
  refine ⟨reply₂, ?_, ?_⟩
  · rw [hparcel.write hvector, hparcel.write hret, hparcel.empty]
    rfl
  · simp only [writeValues, hret, hpack, hvector]

include hparcel haccepts hdelivers hfuel in
theorem sendToExecutor_values {data : P} {buffer : List UInt8} {conditions : AuthAttributes}
    (hdata : contents data =
      [⟨.interfaceToken, executorCallbackDescriptor⟩, ⟨.uint8Vector, buffer⟩])
    (hunpack : (new.unpack fuel buffer).bind (·.object) = some conditions)
    (h : AsksFor first.templateId conditions) :
    (sendToExecutor fuel ipc onMessengerReadyStub remote onGetPropertyCode data).Meets
      (Queried remote userId authType first rest info) fun reply _ =>
        ∃ buffer values, reply = some ⟨some .success, some buffer⟩ ∧
          (new.unpack fuel buffer).bind (·.object) = some values ∧ HasValues info values := by
  unfold sendToExecutor
  rw [if_neg (by simp [hdelivers])]
  refine meets_op_bind.mpr ⟨queried_answer (by simp), fun answer _ => ?_⟩
  obtain ⟨locals, authTypeLocal⟩ := answer
  dsimp only
  rw [callbackOnRemoteRequest_getProperty hparcel hdata hunpack, interp_call, bind_assoc]
  unfold atCallback
  dsimp only
  rw [bind_assoc]
  refine (frameworkOnGetProperty_values h).bind fun a es ha => ?_
  subst ha
  obtain ⟨values, hrelayed, hvalues⟩ := relayed_valueCalls hfuel info locals
  obtain ⟨sent, a', hpack, hsent⟩ := pack_of_relayed hrelayed
  obtain ⟨reply, hreply, hwrite⟩ := writeValues_eq hparcel haccepts hpack .success
  obtain ⟨reply₁, hret, hreply₁⟩ := hparcel.read_of_contents hreply
  obtain ⟨reply₂, hvector, -⟩ := hparcel.read_of_contents hreply₁
  simp only [pure_eq, ret_bind, Option.getD_some, hwrite, interp_ret, ne_eq, not_true_eq_false,
    if_false, hret, hvector]
  exact ⟨sent, values, rfl, hsent, hvalues⟩

include hparcel haccepts hdelivers hfuel in
/-- The proxy fills the values in from the reply. -/
theorem proxyOnGetProperty_values {properties received : AuthAttributes} {locals : PackLocals}
    (hsent : relayed fuel locals properties = some received)
    (h : AsksFor first.templateId received) :
    ((proxyOnGetProperty ipc.parcel fuel locals remote (some properties) (some new)).interp
      (throughProxy fuel ipc onMessengerReadyStub)).Meets
        (Queried remote userId authType first rest info) fun a _ =>
          ∃ values, a = (.success, some values) ∧ HasValues info values := by
  obtain ⟨buffer, a', hpack, hunpack⟩ := pack_of_relayed hsent
  obtain ⟨data, hsend⟩ := sendProperty_accepted hpack haccepts remote onGetPropertyCode
  have hdata := sendProperty_carries hparcel hpack remote onGetPropertyCode
  rw [hsend] at hdata
  unfold proxyOnGetProperty
  dsimp only
  rw [hsend, interp_bind, interp_op]
  refine (sendToExecutor_values hparcel haccepts hdelivers hfuel hdata.1.2 hunpack h).bind
    fun reply es hreply => ?_
  obtain ⟨buffer', values, rfl, hvalues, hhas⟩ := hreply
  dsimp only
  rw [hvalues]
  exact ⟨values, rfl, hhas⟩

/-- What `GetExecutorProp` of the adapter sets. -/
def queryCalls (callerUid : UInt64) (pkgName : List UInt8) (templateId : UInt64)
    (authType : AuthType) : List SetCall :=
  [⟨.uint32Type, CoAuth.authType, authType⟩, ⟨.uint32Type, authPropertyMode, propermodeGet⟩,
    ⟨.uint64Type, authTemplateId, templateId⟩, ⟨.uint64Type, authCallerUid, callerUid⟩,
    ⟨.uint8ArrayType, authCallerName, pkgName⟩]

theorem setOnce_queryCalls (callerUid : UInt64) (pkgName : List UInt8) (templateId : UInt64)
    (authType : AuthType) : SetOnce (queryCalls callerUid pkgName templateId authType) :=
  of_decide_eq_true rfl

include hparcel haccepts hdelivers hfuel in
/-- CoAuth answers a query with the values of the template. -/
theorem queryExecutorProp_values {callerUid : UInt64} {pkgName : List UInt8}
    (hname : pkgName.length ≤ 80) :
    (queryExecutorProp fuel ipc onMessengerReadyStub
      (new.setAll (queryCalls callerUid pkgName first.templateId authType))).Meets
        (Queried remote userId authType first rest info) fun a _ =>
          a.1 = .success ∧ HasValues info a.2 := by
  have honce := setOnce_queryCalls callerUid pkgName first.templateId authType
  have hcount := honce.length_existAttributes_eq
  have hsize : (new.setAll (queryCalls callerUid pkgName first.templateId
      authType)).packedSize < 2 ^ 32 := by
    rw [honce.packedSize_eq]
    simp only [queryCalls, List.map_cons, List.map_nil, List.sum_cons, List.sum_nil,
      SetCall.length_record, SetCall.payload, Bytes.length_leBytes]
    omega
  have hauthType (authTypeLocal : AuthType) :
      (new.setAll (queryCalls callerUid pkgName first.templateId authType)).getUint32Value
        CoAuth.authType authTypeLocal = (.success, authType) := rfl
  have hfive : (queryCalls callerUid pkgName first.templateId authType).length = 5 := rfl
  unfold queryExecutorProp
  refine meets_op_bind.mpr ⟨queried_answer (by simp), fun answer _ => ?_⟩
  obtain ⟨locals, authTypeLocal⟩ := answer
  refine meets_op_bind.mpr ⟨queried_answer (by simp), fun answer _ => ?_⟩
  obtain ⟨locals', authTypeLocal'⟩ := answer
  -- the service's own pass, and the one to the executor
  obtain ⟨stored, hrelayed, hsize', hcount', hstored⟩ :=
    relayed_setAll hsize (Nat.le_trans (by omega) hfuel) (by omega) locals'
  obtain ⟨received, hsent, -, -, hreceived⟩ :=
    relayed_setAll (Nat.lt_of_le_of_lt hsize' hsize) (Nat.le_trans (by omega) hfuel) (by omega)
      locals
  have hasks : AsksFor first.templateId (new.setAll received) := by
    refine ⟨?_, ?_⟩
    · rw [hreceived _ _ (by decide), hstored _ _ (by decide)]
      rfl
    · rw [hreceived _ _ (by decide), hstored _ _ (by decide)]
      rfl
  simp only [relayGet, CoAuth.getExecutorProp, relayCalls, Prog.op_bind, hrelayed, hauthType,
    Prog.interp_call]
  refine meets_op_bind.mpr ⟨queried_answer (by simp), fun callback hcallback => ?_⟩
  obtain rfl : callback = some remote := hcallback rfl
  dsimp only
  refine (proxyOnGetProperty_values hparcel haccepts hdelivers hfuel hsent hasks).bind
    fun a es ha => ?_
  obtain ⟨values, rfl, hhas⟩ := ha
  exact ⟨rfl, hhas⟩

end Request

/-- The credentials of the type are what the HDI answers, in its order. -/
theorem getAuthInfoCtrl_queried :
    ((UserIDM.getAuthInfoCtrl userId authType).interp fun o =>
      Prog.op (FreezeOp.credential userId authType o)).Meets
        (Queried remote userId authType first rest info) fun answer _ =>
          answer = (.success, (first :: rest).map UserIDM.copyCredentialFromHdi) := by
  rw [UserIDM.getAuthInfoCtrl, UserIDM.queryCredential, interp_bind, interp_op]
  refine meets_op_bind.mpr ⟨queried_answer (by simp), fun hdiInterface hhdi => ?_⟩
  obtain rfl : hdiInterface = true := hhdi rfl rfl
  rw [if_neg (by simp), interp_bind, interp_op]
  refine meets_op_bind.mpr ⟨queried_answer (by simp), fun answer hanswer => ?_⟩
  obtain rfl : answer = (.success, first :: rest) := hanswer rfl rfl
  dsimp only
  rw [if_neg (not_not.mpr rfl), if_neg (by simp)]
  rfl

end Surroundings

/-! ## 4. The whole way -/

/-- What the driver's information says about a key. -/
def templateField (info : TemplateInfo) (key : UInt32) : Option UInt64 :=
  if key = UserAuth.authSubTypeKey then some (subTypeOf info)
  else if key = UserAuth.remainTimesKey then some info.remainTimes.toUInt32.toUInt64
  else if key = UserAuth.freezingTimeKey then some info.freezingTime.toUInt32.toUInt64
  else none

/-- The report is a success if every key exists, and then its fields are the driver's. -/
structure Reports (info : TemplateInfo) (request : GetPropertyRequest) (report : ExecutorProperty) :
    Prop where
  success : report.result = .success ↔ ∀ key ∈ request.keys, (templateField info key).isSome = true
  fields : report.result = .success →
    ∀ key ∈ request.keys, report.field key = templateField info key

theorem HasValues.supplied {info : TemplateInfo} {values : AuthAttributes}
    (h : HasValues info values) (key : UInt32) :
    UserAuth.supplied values key = templateField info key := by
  unfold UserAuth.supplied templateField
  rw [h.subType, h.remainTimes, h.freezingTime]
  rfl

theorem getExecutorProp_asks (callerUid : UInt64) (pkgName : List UInt8) (templateId : UInt64)
    (request : GetPropertyRequest) (result : ExecutorProperty) :
    UserAuth.getExecutorProp callerUid pkgName templateId request result =
      .call (.getExecutorProp (new.setAll (queryCalls callerUid pkgName templateId
        request.authType))) fun r => .ret (UserAuth.answered request result r) := by
  obtain ⟨conditions, heq⟩ :=
    UserAuth.getExecutorProp_eq callerUid pkgName templateId request result
  -- the first operation, by evaluation of the setters
  have hfirst : ∃ k, UserAuth.getExecutorProp callerUid pkgName templateId request result =
      .call (.getExecutorProp (new.setAll (queryCalls callerUid pkgName templateId
        request.authType))) k := ⟨_, rfl⟩
  obtain ⟨k, hk⟩ := hfirst
  rw [heq] at hk ⊢
  cases hk
  rfl

/-- Every answer with the driver's values is reported as it is. -/
theorem answered_reports {info : TemplateInfo} {request : GetPropertyRequest}
    {r : ResultCode × AuthAttributes} (hret : r.1 = .success) (hvalues : HasValues info r.2) :
    Reports info request (UserAuth.answered request {} r).2 := by
  obtain ⟨conditions, htrace⟩ := UserAuth.trace_answered 0 [] 0 request {} r
  obtain ⟨conditions', r', hes, -, hcode, hfields⟩ := UserAuth.getExecutorProp_codes htrace
  cases hes
  refine ⟨?_, fun hsuccess key hkey => ?_⟩
  · rw [hcode]
    simp only [hret, true_and, hvalues.supplied]
  · rw [hfields hsuccess key hkey, hvalues.supplied]

/-- The account service answers with the user's account first, and the services behind as above. -/
def SystemQueried (remote : ExecutorCallback) (userId : Int32) (authType : AuthType)
    (first : HdiCredentialInfo) (rest : List HdiCredentialInfo) (info : TemplateInfo) :
    (o : SystemOp) → SystemRes o → Prop
  | .freeze o, r => Queried remote userId authType first rest info o r
  | .service .queryActiveOsAccountIds, r => ∃ others, r = (.success, userId :: others)
  | _, _ => True

theorem heard_freeze (es : List ((o : FreezeOp) × FreezeRes o)) :
    heard (es.map (embStep SystemOp.freeze)) = [] := by
  rw [heard, List.filter_eq_nil_iff]
  intro o ho
  obtain ⟨e, he, rfl⟩ := List.mem_map.mp ho
  obtain ⟨e', -, rfl⟩ := List.mem_map.mp he
  exact Bool.false_ne_true

section System

variable {P P' : Type} {wire : UserAuth.WireIpc P} {wireContents : P → List WireItem}
  (hwire : wire.parcel.Lawful wireContents) (hwrites : wire.parcel.Accepts)
  {fuel : Nat} {ipc : CoAuth.Ipc P'}
  {contents : P' → List (Ipc.ParcelApi.Item ParcelKind ParcelKind.Carrier)}
  (hparcel : ipc.parcel.Lawful contents) (haccepts : ipc.parcel.Accepts)
  (hdelivers : ipc.delivers = true) (hfuel : 8 ≤ fuel)
  {onMessengerReadyStub : P' → P' → ExecutorCallbackProg (ResultCode × P')}
  {remote : ExecutorCallback} {userId : Int32} {request : GetPropertyRequest}
  {first : HdiCredentialInfo} {rest : List HdiCredentialInfo} {info : TemplateInfo}
  {callback : ClientCallback}

/-- A program behind the service, seen from the whole. -/
theorem onFreeze_meets {α : Type} {p : FreezeProg α} {post : α → Prop}
    (h : p.Meets (Queried remote userId request.authType first rest info) fun a _ => post a) :
    (onFreeze p).Meets (SystemQueried remote userId request.authType first rest info)
      fun a es => post a ∧ heard es = [] := by
  have hembed : (onFreeze p).Meets (SystemQueried remote userId request.authType first rest info)
      fun a es => ∃ es' : List ((o : FreezeOp) × FreezeRes o),
        es = es'.map (embStep SystemOp.freeze) ∧ post a := Meets.embed h
  refine hembed.mono ?_
  rintro a es ⟨es', rfl, ha⟩
  exact ⟨ha, heard_freeze es'⟩

include hwrites in
theorem faithful_keeps (answer : UserAuth.CallbackCall) :
    ¬(Connection.faithful wire).Drops answer := by
  obtain ⟨data, hdata⟩ := hwrites.message answer.message
  rintro (hunwritten | hlost)
  · rw [show (Connection.faithful wire).wire.parcel.message answer.message = some data from hdata]
      at hunwritten
    cases hunwritten
  · cases hlost

include hwire hwrites in
/-- The service calls the client's callback as if it were its own. -/
theorem faithful_tells {stubOf : ClientCallback → UserAuth.UserAuthAsyncStub SystemOp SystemRes}
    (hstub : stubOf callback = .ofGetPropCallback (clientGetPropCallback callback))
    (report : ExecutorProperty) :
    (serviceCallback (.faithful wire) stubOf callback).onExecutorPropertyInfo report =
      .call (.onGetProperty callback report) fun _ => .ret () := by
  rcases serviceCallback_on (.faithful wire) stubOf callback hwire
    (.onExecutorPropertyInfo report) with ⟨hdrops, -⟩ | ⟨-, h⟩
  · exact absurd hdrops (faithful_keeps hwrites _)
  · refine h.trans ?_
    rw [hstub]
    rfl

include hwire hwrites hparcel haccepts hdelivers hfuel in
theorem getPropAuthInfo_reports {callerUid : UInt64} {pkgName : List UInt8}
    (hname : pkgName.length ≤ 80)
    {stubOf : ClientCallback → UserAuth.UserAuthAsyncStub SystemOp SystemRes}
    (hstub : stubOf callback = .ofGetPropCallback (clientGetPropCallback callback)) :
    ((UserAuth.getPropAuthInfo userId callerUid pkgName request callback).interp
      (throughSystem (.faithful wire) fuel ipc onMessengerReadyStub stubOf)).Meets
        (SystemQueried remote userId request.authType first rest info) fun _ es =>
          ∃ report, heard es = [.onGetProperty callback report] ∧ Reports info request report := by
  rw [getPropAuthInfo_through]
  refine (onFreeze_meets getAuthInfoCtrl_queried).bind fun answer es hanswer => ?_
  obtain ⟨rfl, hes⟩ := hanswer
  rw [List.map_cons]
  unfold UserAuth.onGetInfoGetProp
  dsimp only
  rw [getExecutorProp_asks]
  -- the adapter's one question, and then the report
  have hquery : (queryExecutorProp fuel ipc onMessengerReadyStub
      (new.setAll (queryCalls callerUid pkgName first.templateId request.authType))).Meets
        (Queried remote userId request.authType first rest info) fun a _ =>
          a.1 = .success ∧ HasValues info a.2 :=
    queryExecutorProp_values hparcel haccepts hdelivers hfuel hname
  rw [Prog.interp_bind, interp_call, bind_assoc, bind_assoc]
  refine (onFreeze_meets hquery).bind fun r es' hr => ?_
  obtain ⟨⟨hret, hvalues⟩, hes'⟩ := hr
  simp only [interp_ret, pure_eq, ret_bind]
  rw [faithful_tells hwire hwrites hstub]
  refine meets_call.mpr ⟨⟨(), trivial⟩, fun r' _ => ⟨_, ?_, answered_reports hret hvalues⟩⟩
  rw [heard_append, heard_append, hes, hes']
  exact heard_op rfl r'

section Client

/-- A kit that grants everything. -/
def grantingKit : AccessTokenKit := ⟨fun _ _ => true, fun _ => true, fun _ => (.success, 100)⟩

variable {kit : AccessTokenKit} {caller : Caller}
  (hgrants : kit.grants caller UserAuth.accessUserAuthInternalPermission = true)

include hgrants hwire hwrites hparcel haccepts hdelivers hfuel in
/-- The service, for a user or for the one whose account is active. -/
theorem serve_query_reports {requested : Option Int32} (huser : requested.getD userId = userId)
    {stubOf : ClientCallback → UserAuth.UserAuthAsyncStub SystemOp SystemRes}
    (hstub : stubOf callback = .ofGetPropCallback (clientGetPropCallback callback)) :
    ((requested.elim (UserAuth.getProperty kit caller request callback) fun userId =>
      UserAuth.getPropertyById kit caller userId request callback).interp
        (throughSystem (.faithful wire) fuel ipc onMessengerReadyStub stubOf)).Meets
          (SystemQueried remote userId request.authType first rest info) fun _ es =>
            ∃ report, heard es = [.onGetProperty callback report] ∧
              Reports info request report := by
  have hname := length_callerNameOf_le caller.id
  cases requested with
  | some requested =>
    obtain rfl : requested = userId := huser
    rw [Option.elim_some, UserAuth.getPropertyById, UserAuth.withPropertyPermission_granted hgrants]
    exact getPropAuthInfo_reports hwire hwrites hparcel haccepts hdelivers hfuel hname hstub
  | none =>
    rw [Option.elim_none, UserAuth.getProperty, UserAuth.withPropertyPermission_granted hgrants,
      interp_bind, interp_op]
    refine meets_op_bind.mpr ⟨⟨(.success, [userId]), [], rfl⟩, fun answer hanswer => ?_⟩
    obtain ⟨others, rfl⟩ := hanswer
    dsimp only
    rw [if_neg (not_not.mpr rfl)]
    exact getPropAuthInfo_reports hwire hwrites hparcel haccepts hdelivers hfuel hname hstub

include hwire hwrites in
/-- What the client asks for is what the service serves. -/
theorem clientGetProperty_served (hcast : wire.ifaceCast callback = true)
    (requested : Option Int32) :
    clientGetProperty (.faithful wire) fuel ipc onMessengerReadyStub kit caller requested request
        callback =
      (requested.elim (UserAuth.getProperty kit caller request callback) fun userId =>
        UserAuth.getPropertyById kit caller userId request callback).interp
          (throughSystem (.faithful wire) fuel ipc onMessengerReadyStub
            fun callback => .ofGetPropCallback (clientGetPropCallback callback)) := by
  cases requested with
  | none =>
    refine (withProxy_client ..).trans ((if_pos rfl).trans ?_)
    exact UserAuth.userAuthPost_answered (if_pos hcast) hwire hwrites
  | some requested =>
    refine (withProxy_client ..).trans ((if_pos rfl).trans ?_)
    exact UserAuth.userAuthPost_answered (if_pos hcast) hwire hwrites

include hgrants hwire hwrites hparcel haccepts hdelivers hfuel in
/-- **A query reports what the driver has answered.**  The client's callback is called once, with
the driver's values for the keys that were asked for, and with an error if one of them does not
exist. -/
theorem getProperty_reports (hcast : wire.ifaceCast callback = true) {requested : Option Int32}
    (huser : requested.getD userId = userId) :
    (clientGetProperty (.faithful wire) fuel ipc onMessengerReadyStub kit caller requested request
      callback).Meets (SystemQueried remote userId request.authType first rest info) fun _ es =>
        ∃ report, heard es = [.onGetProperty callback report] ∧ Reports info request report := by
  rw [clientGetProperty_served hwire hwrites hcast]
  exact serve_query_reports hwire hwrites hparcel haccepts hdelivers hfuel hgrants huser rfl

def faceQuery : GetPropertyRequest := ⟨.face, [1, 2]⟩

def faceInfo : TemplateInfo := ⟨0, 30, 4, [8, 0, 0, 0, 0, 0, 0, 0]⟩

/-- The active user's face; the caller does not say which user. -/
theorem getProperty_reports_face :
    (clientGetProperty (.faithful UserAuth.listIpc) 8 faceIpc
      (fun _ reply => .ret (.success, reply)) grantingKit ⟨0, 5, 20⟩ none faceQuery 7).Meets
        (SystemQueried 11 100 faceQuery.authType ⟨0, .face, 1, 258⟩ [] faceInfo) fun _ es =>
          ∃ report, heard es = [.onGetProperty 7 report] ∧ Reports faceInfo faceQuery report :=
  getProperty_reports Ipc.CheckedApi.ofList_lawful Ipc.ParcelApi.ofList_accepts
    Ipc.ParcelApi.ofList_lawful Ipc.ParcelApi.ofList_accepts rfl (Nat.le_refl 8) rfl rfl rfl

end Client

end System

end UserIam.Executors
