import UserIam.CoAuth.ExecutorCallbackStub
import UserIam.CoAuth.PropertyRelay
import UserIam.Executors.FrameworkExecutorCallback
import UserIam.UserAuth.UserAuthSystem

/-!
# Freezing and thawing templates

The end of a pin authentication as one program, from the callback of the authentication service
through the credential manager, CoAuth and the two sides of the IPC to the driver of the executor.
The calls in between are synchronous.
-/

namespace UserIam.Executors

open Conc CoAuth
open UserAuth (UserAuthOp UserAuthRes UserAuthProg UserAuthCallbackImplCoAuth)
open UserIDM (UserIDMOp UserIDMRes HdiCredentialInfo)

/-! ## 1. One program -/

/-- What is left to the surroundings.  `credential` is an operation of the credential manager on a
query, `executor` one in the process of an executor; `locals` are the variables of CoAuth that may
stay uninitialised. -/
inductive FreezeOp where
  | userAuth (o : UserAuthOp)
  | credential (userId : Int32) (authType : AuthType) (o : UserIDMOp)
  | findExecutorCallback (authType : AuthType)
  | locals
  | executor (remote : ExecutorCallback) (o : FrameworkOp)
  | hang

@[reducible] def FreezeRes : FreezeOp → Type
  | .userAuth o => UserAuthRes o
  | .credential _ _ o => UserIDMRes o
  | .findExecutorCallback _ => Option ExecutorCallback
  | .locals => AuthAttributes.PackLocals × AuthType
  | .executor _ o => FrameworkRes o
  | .hang => Empty

abbrev FreezeProg := Prog FreezeOp FreezeRes
abbrev FreezeStep := (o : FreezeOp) × FreezeRes o

def freezeHang {α : Type} : FreezeProg α := .call .hang fun r => r.elim

/-- A program in the process of an executor. -/
def atExecutor {α : Type} (remote : ExecutorCallback) (p : FrameworkProg α) : FreezeProg α :=
  p.interp fun o => Prog.op (FreezeOp.executor remote o)

/-- The callback of the stub is a `FrameworkExecutorCallback`. -/
def atCallback (remote : ExecutorCallback) :
    (o : ExecutorCallbackOp) → FreezeProg (ExecutorCallbackRes o)
  | .onBeginExecute scheduleId _ commandAttrs =>
    atExecutor remote (frameworkOnBeginExecute scheduleId (some commandAttrs))
  | .onEndExecute scheduleId consumerAttr =>
    atExecutor remote (frameworkOnEndExecute scheduleId (some consumerAttr))
  | .onSetProperty properties => atExecutor remote (frameworkOnSetProperty (some properties))
  | .onGetProperty conditions values => do
    let (ret, values') ← atExecutor remote (frameworkOnGetProperty (some conditions) (some values))
    return (ret, values'.getD values)
  | .hang => freezeHang

section Services

variable {P : Type} (fuel : Nat) (ipc : Ipc P)
  (onMessengerReadyStub : P → P → ExecutorCallbackProg (ResultCode × P))

/-- `SendRequest` of the proxy: the stub in the other process serves the request. -/
def sendToExecutor (remote : ExecutorCallback) (code : UInt32) (data : P) :
    FreezeProg (Option PropertyReply) := do
  if !ipc.delivers then return none
  let (locals, _) ← Prog.op FreezeOp.locals
  let (result, reply) ←
    (callbackOnRemoteRequest fuel ipc true locals onMessengerReadyStub code data
      ipc.parcel.empty).interp (atCallback remote)
  if result ≠ .success then return none
  let (ret, reply) := ipc.parcel.read reply .int32
  return some ⟨some ret, some (ipc.parcel.read reply .uint8Vector).1⟩

/-- The callback of the request only writes a log. -/
def throughProxy : (o : PropertyOp P) → FreezeProg (PropertyRes o)
  | .findExecutorCallback authType => Prog.op (FreezeOp.findExecutorCallback authType)
  | .sendRequest remote code data => sendToExecutor fuel ipc onMessengerReadyStub remote code data
  | .onResult _ => return ()
  | .hang => freezeHang

def sendExecutorProp (conditions : AuthAttributes) : FreezeProg Unit := do
  let (locals, _) ← Prog.op FreezeOp.locals
  let (locals', authTypeLocal) ← Prog.op FreezeOp.locals
  (relaySet ipc.parcel fuel locals locals' authTypeLocal conditions
    (some fun result => Prog.op (PropertyOp.onResult result))).interp
      (throughProxy fuel ipc onMessengerReadyStub)

def throughServices : (o : UserAuthOp) → FreezeProg (UserAuthRes o)
  | .getAuthInfoCtrl userId authType =>
    (UserIDM.getAuthInfoCtrl userId authType).interp fun o =>
      Prog.op (FreezeOp.credential userId authType o)
  | .setExecutorProp conditions => sendExecutorProp fuel ipc onMessengerReadyStub conditions
  | o => Prog.op (FreezeOp.userAuth o)

/-- `OnFinishHandle` of the authentication's `i`-th callback. -/
def finishAuthentication (i : Nat) (self : UserAuthCallbackImplCoAuth) (resultCode : UInt32)
    (scheduleToken : List UInt8) : FreezeProg Unit :=
  (UserAuth.onFinishHandle i self resultCode scheduleToken).interp
    (throughServices fuel ipc onMessengerReadyStub)

end Services

/-! ## 2. What the surroundings do -/

/-- Of all executors in the pool, one is a face executor, and its callback is there. -/
def OneFace (pool : AuthResPool) (face : ExecutorCallback) : Prop :=
  (pool.authResPool.filter fun entry =>
    entry.2.executorInfo.any fun info => info.authType = .face).map (·.2.callback) = [some face]

/-- The finish decides: there is no result yet, and the verdict is not undone.  The HDI answers the
query for the user's faces, and the one face executor is connected.  Everything else is left
open. -/
def Decides (face : ExecutorCallback) (userId : Int32) (hdiInfos : List HdiCredentialInfo) :
    (o : FreezeOp) → FreezeRes o → Prop
  | .userAuth (.isResultDone _), done => done = false
  | .userAuth (.updateAuthenticationResult ..), answer => answer.1 ≠ .eRetUndone
  | .credential user authType .getHdiInterface, hdiInterface =>
    user = userId → authType = .face → hdiInterface = true
  | .credential _ _ (.getCredential user authType), answer =>
    user = userId → authType = .face → answer = (.success, hdiInfos)
  | .findExecutorCallback authType, callback =>
    ∃ pool, OneFace pool face ∧ callback = (pool.findExecutorCallback authType).2
  | .executor remote o, r => remote = face → FrameworkConnected o r
  | _, _ => True

/-- What the driver of an executor is asked to do. -/
def FreezeOp.request (remote : ExecutorCallback) : FreezeOp → Option HdiRequest
  | .executor remote' o => if remote' = remote then o.request else none
  | _ => none

def driverRequests (remote : ExecutorCallback) (es : List FreezeStep) : List HdiRequest :=
  es.filterMap fun e => e.1.request remote

/-- What `UpdateAuthenticationResult` has returned. -/
def verdictOf : FreezeStep → Option ResultCode
  | ⟨.userAuth (.updateAuthenticationResult ..), answer⟩ => some answer.1
  | _ => none

def verdicts (es : List FreezeStep) : List ResultCode :=
  es.filterMap verdictOf

/-- What the driver of an executor has been asked, and what the verdicts have been. -/
structure Seen (face : ExecutorCallback) (requests : List HdiRequest) (codes : List ResultCode)
    (es : List FreezeStep) : Prop where
  requests : driverRequests face es = requests
  verdicts : verdicts es = codes

/-- An operation that shows nothing of this, and that is answered. -/
def FreezeOp.Quiet : FreezeOp → Prop
  | .userAuth (.updateAuthenticationResult ..) => False
  | .executor .. => False
  | .hang => False
  | _ => True

section Runs

open Prog AuthAttributes

variable {face : ExecutorCallback} {userId : Int32} {hdiInfos : List HdiCredentialInfo}

theorem OneFace.findExecutorCallback {pool : AuthResPool} (h : OneFace pool face) :
    (pool.findExecutorCallback .face).2 = some face := by
  have hhead := congrArg List.head? h
  rw [List.head?_map, List.head?_filter] at hhead
  obtain ⟨entry, hfind, hcallback⟩ := Option.map_eq_some_iff.mp hhead
  rw [AuthResPool.findExecutorCallback, hfind]
  exact hcallback

theorem decides_answer {o : FreezeOp} (ho : o ≠ .hang) :
    ∃ r, Decides face userId hdiInfos o r := by
  cases o with
  | userAuth o =>
    refine ⟨(UserAuth.userAuthHandle 0 {} .initial o).1, ?_⟩
    cases o <;> first | trivial | rfl | exact (show ResultCode.success ≠ .eRetUndone by decide)
  | credential user authType o =>
    refine ⟨(UserIDM.userIDMHandle 0 { credentials := hdiInfos } .initial o).1, ?_⟩
    cases o <;> first | trivial | exact fun _ _ => rfl
  | findExecutorCallback authType =>
    exact ⟨_, ⟨[(1, ⟨some ⟨.face⟩, some face⟩)], fun _ => none⟩, rfl, rfl⟩
  | locals => exact ⟨(⟨false, 0, 0⟩, 0), trivial⟩
  | executor remote o =>
    obtain ⟨r, hr⟩ := frameworkConnected_answer o
    exact ⟨r, fun _ => hr⟩
  | hang => exact absurd rfl ho

theorem Seen.append {requests requests' : List HdiRequest} {codes codes' : List ResultCode}
    {es es' : List FreezeStep} (h : Seen face requests codes es)
    (h' : Seen face requests' codes' es') :
    Seen face (requests ++ requests') (codes ++ codes') (es ++ es') where
  requests := by
    rw [driverRequests, List.filterMap_append]
    exact congrArg₂ (· ++ ·) h.requests h'.requests
  verdicts := by
    rw [Executors.verdicts, List.filterMap_append]
    exact congrArg₂ (· ++ ·) h.verdicts h'.verdicts

theorem seen_nil : Seen face [] [] [] := ⟨rfl, rfl⟩

theorem FreezeOp.Quiet.seen {o : FreezeOp} (ho : o.Quiet) (r : FreezeRes o) :
    Seen face [] [] [⟨o, r⟩] := by
  cases o with
  | userAuth o => cases o <;> first | exact ⟨rfl, rfl⟩ | cases ho
  | executor => cases ho
  | hang => cases ho
  | _ => exact ⟨rfl, rfl⟩

theorem seen_of_quiet {es : List FreezeStep} (h : ∀ e ∈ es, e.1.Quiet) : Seen face [] [] es := by
  induction es with
  | nil => exact seen_nil
  | cons e es ih =>
    rw [List.forall_mem_cons] at h
    exact (h.1.seen e.2).append (ih h.2)

theorem meets_quiet {α : Type} {p : FreezeProg α} (hp : p.All FreezeOp.Quiet) :
    p.Meets (Decides face userId hdiInfos) fun _ es => Seen face [] [] es := by
  refine (hp.meets fun o ho => decides_answer ?_).mono fun _ es => seen_of_quiet
  rintro rfl
  exact ho

/-- What the driver is asked by two programs, one after the other. -/
theorem meets_seen_bind {α β : Type} {p : FreezeProg α} {f : α → FreezeProg β}
    {requests requests' : List HdiRequest} {codes codes' : List ResultCode}
    (hp : p.Meets (Decides face userId hdiInfos) fun _ es => Seen face requests codes es)
    (hf : ∀ a, (f a).Meets (Decides face userId hdiInfos) fun _ es =>
      Seen face requests' codes' es) :
    (p >>= f).Meets (Decides face userId hdiInfos) fun _ es =>
      Seen face (requests ++ requests') (codes ++ codes') es :=
  hp.bind fun a _ hes => (hf a).mono fun _ _ hes' => hes.append hes'

/-- A quiet operation in front changes nothing of what is seen. -/
theorem meets_seen_call {α : Type} {p : FreezeProg α} {requests : List HdiRequest}
    {codes : List ResultCode} {o : FreezeOp} (ho : o.Quiet) (r : FreezeRes o)
    (hp : p.Meets (Decides face userId hdiInfos) fun _ es => Seen face requests codes es) :
    p.Meets (Decides face userId hdiInfos) fun _ es => Seen face requests codes (⟨o, r⟩ :: es) :=
  hp.mono fun _ _ hes => (ho.seen r).append hes

/-- The credentials of the user's faces are what the HDI answers, in its order. -/
theorem getAuthInfoCtrl_answer (hne : hdiInfos ≠ []) :
    ((UserIDM.getAuthInfoCtrl userId .face).interp fun o =>
      Prog.op (FreezeOp.credential userId .face o)).Meets (Decides face userId hdiInfos)
        fun answer es => answer = (.success, hdiInfos.map UserIDM.copyCredentialFromHdi) ∧
          Seen face [] [] es := by
  rw [UserIDM.getAuthInfoCtrl, UserIDM.queryCredential, interp_bind, interp_op]
  refine meets_op_bind.mpr ⟨decides_answer (by simp), fun hdiInterface hhdi => ?_⟩
  obtain rfl : hdiInterface = true := hhdi rfl rfl
  rw [if_neg (by simp), interp_bind, interp_op]
  refine meets_op_bind.mpr ⟨decides_answer (by simp), fun answer hanswer => ?_⟩
  obtain rfl : answer = (.success, hdiInfos) := hanswer rfl rfl
  dsimp only
  rw [if_neg (not_not.mpr rfl), if_neg]
  · exact ⟨rfl, rfl, rfl⟩
  · rw [Nat.le_zero, List.length_eq_zero_iff]
    exact hne

section Request

variable {P : Type} {fuel : Nat} {ipc : Ipc P}
  {contents : P → List (Ipc.ParcelApi.Item ParcelKind ParcelKind.Carrier)}
  (hparcel : ipc.parcel.Lawful contents) (hdelivers : ipc.delivers = true)
  {onMessengerReadyStub : P → P → ExecutorCallbackProg (ResultCode × P)}
  {mode : UInt32} {templateIdList : List UInt64} (hmode : mode ≠ propermodeDelete)
  (hlength : templateIdList.length < maxTemplateListLen)

include hmode hlength in
theorem onSetProperty_seen {properties : AuthAttributes}
    (hcommands : Commands properties mode templateIdList) :
    (atExecutor face (frameworkOnSetProperty (some properties))).Meets
      (Decides face userId hdiInfos) fun _ es =>
        Seen face [.sendCommand mode (templateBytes templateIdList)] [] es := by
  have hpromise : (fun o r => Decides face userId hdiInfos (.executor face o) r) =
      FrameworkConnected := by
    funext o r
    exact propext ⟨fun h => h rfl, fun h _ => h⟩
  have hrequests := frameworkOnSetProperty_requests hcommands hmode hlength
  rw [← hpromise] at hrequests
  refine Prog.Meets.mono (Prog.Meets.embed hrequests) ?_
  rintro _ es ⟨es', rfl, hes'⟩
  refine ⟨?_, ?_⟩
  · rw [driverRequests, List.filterMap_map, ← hes']
    refine List.filterMap_congr fun e _ => ?_
    show (if face = face then e.1.request else none) = _
    rw [if_pos rfl]
  · rw [verdicts, List.filterMap_map]
    exact List.filterMap_eq_nil_iff.mpr fun _ _ => rfl

include hparcel hdelivers hmode hlength in
/-- A request with these bytes, from the proxy to the driver. -/
theorem sendToExecutor_seen {data : P} {buffer : List UInt8} {properties : AuthAttributes}
    (hdata : contents data =
      [⟨.interfaceToken, executorCallbackDescriptor⟩, ⟨.uint8Vector, buffer⟩])
    (hunpack : (new.unpack fuel buffer).bind (·.object) = some properties)
    (hcommands : Commands properties mode templateIdList) :
    (sendToExecutor fuel ipc onMessengerReadyStub face onSetPropertyCode data).Meets
      (Decides face userId hdiInfos) fun _ es =>
        Seen face [.sendCommand mode (templateBytes templateIdList)] [] es := by
  unfold sendToExecutor
  rw [if_neg (by simp [hdelivers])]
  refine meets_op_bind.mpr ⟨decides_answer (by simp), fun answer _ => ?_⟩
  obtain ⟨locals, authTypeLocal⟩ := answer
  dsimp only
  rw [callbackOnRemoteRequest_setProperty hparcel hdata hunpack, interp_call, bind_assoc]
  refine meets_seen_call (o := .locals) trivial (locals, authTypeLocal) ?_
  refine meets_seen_bind (onSetProperty_seen hmode hlength hcommands) fun ret => ?_
  rw [interp_ret, ret_bind]
  split
  · exact seen_nil
  · exact seen_nil

/-- What the receiver makes of the packed attributes. -/
theorem pack_of_relayed {locals : PackLocals} {conditions properties : AuthAttributes}
    (h : relayed fuel locals conditions = some properties) :
    ∃ buffer a', conditions.pack fuel locals = some (buffer, a') ∧
      (new.unpack fuel buffer).bind (·.object) = some properties := by
  obtain ⟨⟨buffer, a'⟩, hpack, hunpack⟩ := Option.bind_eq_some_iff.mp h
  exact ⟨buffer, a', hpack, hunpack⟩

include hparcel hdelivers hmode hlength in
/-- The pass from process to process. -/
theorem proxyOnSetProperty_seen (haccepts : ipc.parcel.Accepts) {locals : PackLocals}
    {properties received : AuthAttributes} (hsent : relayed fuel locals properties = some received)
    (hcommands : Commands received mode templateIdList) :
    ((proxyOnSetProperty ipc.parcel fuel locals face (some properties)).interp
      (throughProxy fuel ipc onMessengerReadyStub)).Meets (Decides face userId hdiInfos)
        fun _ es => Seen face [.sendCommand mode (templateBytes templateIdList)] [] es := by
  obtain ⟨buffer, a', hpack, hunpack⟩ := pack_of_relayed hsent
  obtain ⟨data, hsend⟩ := sendProperty_accepted hpack haccepts face onSetPropertyCode
  have hdata := sendProperty_carries hparcel hpack face onSetPropertyCode
  rw [hsend] at hdata
  unfold proxyOnSetProperty
  dsimp only
  rw [hsend, interp_bind, interp_op]
  refine meets_seen_bind (sendToExecutor_seen hparcel hdelivers hmode hlength hdata.1.2 hunpack
    hcommands) fun reply => ?_
  cases reply with
  | none => exact seen_nil
  | some reply => exact seen_nil

/-- A pass keeps the mode and the template ids. -/
theorem relayed_commands {calls : List SetCall} (hsize : (new.setAll calls).packedSize < 2 ^ 32)
    (hcount : (new.setAll calls).existAttributes.length + 2 ≤ fuel)
    (htags : (new.setAll calls).existAttributes.length < 2 ^ 32)
    (hcommands : Commands (new.setAll calls) mode templateIdList) (locals : PackLocals) :
    ∃ stored, relayed fuel locals (new.setAll calls) = some (new.setAll stored) ∧
      (new.setAll stored).packedSize ≤ (new.setAll calls).packedSize ∧
      (new.setAll stored).existAttributes.length ≤ (new.setAll calls).existAttributes.length + 1 ∧
      Commands (new.setAll stored) mode templateIdList := by
  obtain ⟨stored, hrelayed, hsize', hcount', hvalues⟩ := relayed_setAll hsize hcount htags locals
  refine ⟨stored, hrelayed, hsize', hcount', ?_, ?_⟩
  · rw [hvalues _ _ (by decide), hcommands.mode]
  · rw [hvalues _ _ (by decide), hcommands.templates]

include hparcel hdelivers hmode hlength in
/-- The conditions reach the driver through the service's own pass and the one to the executor. -/
theorem sendExecutorProp_seen (haccepts : ipc.parcel.Accepts) {calls : List SetCall}
    (hsize : (new.setAll calls).packedSize < 2 ^ 32)
    (hcount : (new.setAll calls).existAttributes.length + 3 ≤ fuel)
    (htags : (new.setAll calls).existAttributes.length + 1 < 2 ^ 32)
    (htype : (new.setAll calls).valueMap .uint32Type CoAuth.authType = some AuthType.face)
    (hcommands : Commands (new.setAll calls) mode templateIdList) :
    (sendExecutorProp fuel ipc onMessengerReadyStub (new.setAll calls)).Meets
      (Decides face userId hdiInfos) fun _ es =>
        Seen face [.sendCommand mode (templateBytes templateIdList)] [] es := by
  have hauthType (authTypeLocal : AuthType) :
      (new.setAll calls).getUint32Value CoAuth.authType authTypeLocal =
        (.success, AuthType.face) := by
    rw [getUint32Value, getValue, htype]
  unfold sendExecutorProp
  refine meets_op_bind.mpr ⟨decides_answer (by simp), fun answer _ => ?_⟩
  obtain ⟨locals, authTypeLocal⟩ := answer
  refine meets_seen_call (o := .locals) trivial (locals, authTypeLocal) ?_
  refine meets_op_bind.mpr ⟨decides_answer (by simp), fun answer _ => ?_⟩
  obtain ⟨locals', authTypeLocal'⟩ := answer
  refine meets_seen_call (o := .locals) trivial (locals', authTypeLocal') ?_
  obtain ⟨stored, hrelayed, hsize', hcount', hstored⟩ :=
    relayed_commands hsize (Nat.le_of_succ_le hcount) (Nat.lt_of_succ_lt htags) hcommands locals'
  have hfuel : (new.setAll stored).existAttributes.length + 2 ≤ fuel := by omega
  obtain ⟨received, hsent, -, -, hreceived⟩ := relayed_commands (Nat.lt_of_le_of_lt hsize' hsize)
    hfuel (Nat.lt_of_le_of_lt hcount' htags) hstored locals
  simp only [relaySet, setExecutorProp, relayCalls, Prog.op_bind, hrelayed, hauthType,
    Prog.interp_call]
  refine meets_op_bind.mpr ⟨decides_answer (by simp), fun callback hcallback => ?_⟩
  refine meets_seen_call (o := .findExecutorCallback _) trivial callback ?_
  obtain ⟨pool, hpool, rfl⟩ := hcallback
  rw [hpool.findExecutorCallback]
  dsimp only
  rw [interp_bind]
  refine meets_seen_bind (proxyOnSetProperty_seen hparcel hdelivers hmode hlength haccepts hsent
    hreceived) fun _ => ?_
  exact seen_nil

end Request

end Runs

/-! ## 4. The templates of the user's face -/

open UserAuth (CallerInfo SetPropertyType)

def propertyMode (key : SetPropertyType) : UInt32 :=
  if key = .freezeTemplate then UserAuth.propermodeFreeze else UserAuth.propermodeUnfreeze

/-- What `SetProPropAuthInfo` sets. -/
def propertyCalls (callerInfo : CallerInfo) (key : SetPropertyType) (templateIds : List UInt64) :
    List SetCall :=
  [⟨.uint32Type, CoAuth.authType, AuthType.face⟩, ⟨.uint32Type, authPropertyMode, propertyMode key⟩,
    ⟨.uint64Type, authCallerUid, callerInfo.callerUID⟩,
    ⟨.uint8ArrayType, authCallerName, callerInfo.pkgName⟩,
    ⟨.uint64ArrayType, authTemplateIdList, templateIds⟩]

section Templates

open Prog AuthAttributes

variable (callerInfo : CallerInfo) (key : SetPropertyType) (templateIds : List UInt64)

theorem setProPropAuthInfo_eq :
    UserAuth.setProPropAuthInfo callerInfo ⟨.face, key⟩ templateIds =
      (.success, new.setAll (propertyCalls callerInfo key templateIds)) := rfl

theorem commands_propertyCalls : Commands (new.setAll (propertyCalls callerInfo key templateIds))
    (propertyMode key) templateIds := ⟨rfl, rfl⟩

theorem setOnce_propertyCalls : SetOnce (propertyCalls callerInfo key templateIds) :=
  of_decide_eq_true rfl

theorem existAttributes_propertyCalls :
    (new.setAll (propertyCalls callerInfo key templateIds)).existAttributes.length = 5 :=
  (setOnce_propertyCalls callerInfo key templateIds).length_existAttributes_eq

/-- Eight bytes for a template id, and one for a byte of the caller's name. -/
theorem packedSize_propertyCalls :
    (new.setAll (propertyCalls callerInfo key templateIds)).packedSize =
      80 + callerInfo.pkgName.length + 8 * templateIds.length := by
  have hids := Bytes.length_flatMap_encode (fun v : UInt64 => Bytes.length_leBytes 8 v.toNat)
    templateIds
  rw [(setOnce_propertyCalls callerInfo key templateIds).packedSize_eq]
  simp only [propertyCalls, List.map_cons, List.map_nil, List.sum_cons, List.sum_nil,
    SetCall.length_record, SetCall.payload, Bytes.length_leBytes, hids]
  omega

theorem propertyMode_ne (key : SetPropertyType) : propertyMode key ≠ propermodeDelete := by
  cases key <;> decide

end Templates

theorem length_byteArray_toList (bytes : ByteArray) : bytes.toList.length = bytes.size := by
  have hloop (i : Nat) (r : List UInt8) :
      (ByteArray.toList.loop bytes i r).length = r.length + (bytes.size - i) := by
    induction i, r using ByteArray.toList.loop.induct bytes with
    | case1 i r hlt ih =>
      rw [ByteArray.toList.loop, if_pos hlt, ih, List.length_cons]
      omega
    | case2 i r hge =>
      rw [ByteArray.toList.loop, if_neg hge, List.length_reverse]
      omega
  have hall := hloop 0 []
  rw [List.length_nil, Nat.zero_add, Nat.sub_zero] at hall
  exact hall

/-- A character takes at most four bytes. -/
theorem length_toUTF8_le (s : String) : s.toUTF8.toList.length ≤ 4 * s.length := by
  rw [length_byteArray_toList, String.toUTF8_eq_toByteArray, ← String.utf8Encode_toList,
    ← String.length_toList]
  induction s.toList with
  | nil => exact Nat.zero_le _
  | cons c cs ih =>
    have hc : [c].utf8Encode.size ≤ 4 := by
      rw [List.utf8Encode_singleton, List.size_toByteArray, String.length_utf8EncodeChar]
      exact c.utf8Size_le_four
    rw [List.utf8Encode_cons, ByteArray.size_append, List.length_cons]
    omega

/-- A caller is named by its number, which has at most twenty digits. -/
theorem length_callerNameOf_le (callerID : UInt64) :
    (UserIDM.callerNameOf callerID).length ≤ 80 := by
  have hdigits : (Nat.repr callerID.toNat).length ≤ 20 :=
    (Nat.length_repr_le_iff (by decide)).mpr (callerID.toNat_lt.trans (by decide))
  have hbytes := length_toUTF8_le (Nat.repr callerID.toNat)
  show (Nat.repr callerID.toNat).toUTF8.toList.length ≤ 80
  omega

section Finish

open Prog AuthAttributes

variable {face : ExecutorCallback} {userId : Int32} {hdiInfos : List HdiCredentialInfo}
  (hne : hdiInfos ≠ []) (hlength : hdiInfos.length < maxTemplateListLen)
  {P : Type} {fuel : Nat} {ipc : Ipc P}
  {contents : P → List (Ipc.ParcelApi.Item ParcelKind ParcelKind.Carrier)}
  (hparcel : ipc.parcel.Lawful contents) (haccepts : ipc.parcel.Accepts)
  (hdelivers : ipc.delivers = true)
  {onMessengerReadyStub : P → P → ExecutorCallbackProg (ResultCode × P)} (hfuel : 8 ≤ fuel)

/-- The request that the driver gets for the faces of the user. -/
def faceRequest (hdiInfos : List HdiCredentialInfo) (key : SetPropertyType) : HdiRequest :=
  .sendCommand (propertyMode key) (templateBytes (hdiInfos.map (·.templateId)))

include hne hlength hparcel haccepts hdelivers hfuel in
theorem coAuthSetPropAuthInfo_seen {callerInfo : CallerInfo} (huser : callerInfo.userID = userId)
    (hname : callerInfo.pkgName.length ≤ 80) (key : SetPropertyType) :
    ((UserAuth.coAuthSetPropAuthInfo callerInfo ⟨.face, key⟩).interp
      (throughServices fuel ipc onMessengerReadyStub)).Meets (Decides face userId hdiInfos)
        fun _ es => Seen face [faceRequest hdiInfos key] [] es := by
  have hids : (hdiInfos.map UserIDM.copyCredentialFromHdi).map (·.templateId) =
      hdiInfos.map (·.templateId) := by
    rw [List.map_map]
    rfl
  have hnonempty : (hdiInfos.map UserIDM.copyCredentialFromHdi).length ≠ 0 := by
    rw [List.length_map]
    exact fun h => hne (List.length_eq_zero_iff.mp h)
  have hsize : (new.setAll (propertyCalls ⟨callerInfo.callerUID, 0, callerInfo.pkgName⟩ key
      (hdiInfos.map (·.templateId)))).packedSize < 2 ^ 32 := by
    rw [packedSize_propertyCalls, List.length_map]
    have hmax : maxTemplateListLen = 1000 := rfl
    dsimp only
    omega
  unfold UserAuth.coAuthSetPropAuthInfo
  rw [huser, interp_bind, interp_op]
  refine (getAuthInfoCtrl_answer hne).bind fun answer es hanswer => ?_
  obtain ⟨rfl, hes⟩ := hanswer
  refine Prog.Meets.mono ?_ fun _ _ hes' => hes.append hes'
  dsimp only
  unfold UserAuth.onGetInfoFreeze UserAuth.setPropAuthInfo
  rw [if_neg hnonempty, hids, setProPropAuthInfo_eq]
  dsimp only
  rw [if_neg (not_not.mpr rfl)]
  show (Prog.interp _ (Prog.op _)).Meets _ _
  rw [interp_op]
  have hcount := existAttributes_propertyCalls ⟨callerInfo.callerUID, 0, callerInfo.pkgName⟩ key
    (hdiInfos.map (·.templateId))
  exact sendExecutorProp_seen hparcel hdelivers (propertyMode_ne key)
    (by rw [List.length_map]; exact hlength) haccepts hsize (by omega) (by omega) rfl
    (commands_propertyCalls _ _ _)

/-! ## 5. The finish -/

/-- An operation that neither sets a property nor asks for a verdict. -/
def Aside : UserAuthOp → Prop
  | .setExecutorProp _ => False
  | .updateAuthenticationResult .. => False
  | _ => True

theorem throughServices_quiet {o : UserAuthOp} (ho : Aside o) :
    (throughServices fuel ipc onMessengerReadyStub o).All FreezeOp.Quiet := by
  cases o with
  | setExecutorProp => cases ho
  | updateAuthenticationResult => cases ho
  | getAuthInfoCtrl userId authType =>
    have hquery : (UserIDM.getAuthInfoCtrl userId authType).All fun _ => True := by
      refine ⟨trivial, fun _ => Prog.all_ite.mpr ⟨fun _ => trivial, fun _ => ?_⟩⟩
      refine ⟨trivial, fun _ => ?_⟩
      refine Prog.all_ite.mpr ⟨fun _ => trivial, fun _ => ?_⟩
      exact Prog.all_ite.mpr ⟨fun _ => trivial, fun _ => trivial⟩
    exact Prog.All.interp _ hquery fun _ _ => ⟨trivial, fun _ => trivial⟩
  | _ => exact ⟨trivial, fun _ => trivial⟩

theorem aside_seen {α : Type} {p : UserAuthProg α} (hp : p.All Aside) :
    (p.interp (throughServices fuel ipc onMessengerReadyStub)).Meets
      (Decides face userId hdiInfos) fun _ es => Seen face [] [] es :=
  meets_quiet (Prog.All.interp _ hp fun _ => throughServices_quiet)

theorem getPropAuthInfoCoAuth_aside (callerInfo : CallerInfo) (resultCode : ResultCode)
    (authToken : List UInt8) (request : UserAuth.GetPropertyRequest)
    (callback : UserAuth.ClientCallback) :
    (UserAuth.getPropAuthInfoCoAuth callerInfo resultCode authToken request callback).All
      Aside := by
  refine ⟨trivial, fun answer => ?_⟩
  show (UserAuth.onGetInfoCoAuth _ _ _ _ _ _ _).All Aside
  rw [UserAuth.onGetInfoCoAuth_eq]
  refine (UserAuth.queryProp_all (fun _ => trivial) _ _ _ _).bind fun _ => ?_
  exact ⟨trivial, fun _ => trivial⟩

theorem dealFinishData_aside (i : Nat) (self : UserAuthCallbackImplCoAuth) :
    (UserAuth.dealFinishData i self).All Aside := by
  refine ⟨trivial, fun scheduleIds => ?_⟩
  have hrest : ∀ _ : Unit, (UserAuth.atomic (.deleteContextId self.callbackContextId) >>= fun _ =>
      UserAuth.atomic (.deleteCoAuthCallback self.callbackContextId) >>= fun _ =>
        UserAuth.atomic (.setResultDone i)).All Aside :=
    fun _ => ⟨trivial, fun _ => ⟨trivial, fun _ => ⟨trivial, fun _ => trivial⟩⟩⟩
  cases scheduleIds with
  | none => exact hrest ()
  | some scheduleIds => exact (UserAuth.cancelAll_all (fun _ => trivial) scheduleIds).bind hrest

/-- The verdict is a success exactly if the one that was asked for is. -/
theorem verdict_seen (self : UserAuthCallbackImplCoAuth) (resultCode : UInt32)
    (scheduleToken : List UInt8) :
    ((UserAuth.verdict self resultCode scheduleToken).interp
      (throughServices fuel ipc onMessengerReadyStub)).Meets (Decides face userId hdiInfos)
        fun v es => v.1 ≠ .eRetUndone ∧
          ∃ codes, Seen face [] codes es ∧ (v.1 = .success ↔ .success ∈ codes) := by
  have hfailed : ResultCode.generalError ≠ .eRetUndone ∧
      (ResultCode.generalError = .success ↔ ResultCode.success ∈ []) := by decide
  unfold UserAuth.verdict
  split
  · unfold UserAuth.requestAuthResult
    rw [interp_bind, interp_op]
    refine meets_op_bind.mpr ⟨decides_answer (by simp), fun found _ => ?_⟩
    cases found with
    | false => exact ⟨hfailed.1, [], ⟨rfl, rfl⟩, hfailed.2⟩
    | true =>
      rw [if_neg (by decide), interp_bind, interp_op]
      refine meets_op_bind.mpr ⟨decides_answer (by simp), fun answer hanswer => ?_⟩
      have hcodes : answer.1 = .success ↔ ResultCode.success ∈ [answer.1] := by
        rw [List.mem_singleton, eq_comm]
      dsimp only
      split
      · exact ⟨hanswer, [answer.1], ⟨rfl, rfl⟩, hcodes⟩
      · exact ⟨hanswer, [answer.1], ⟨rfl, rfl⟩, hcodes⟩
  · exact ⟨hfailed.1, [], seen_nil, hfailed.2⟩

/-- What the driver is asked when a finish has been decided. -/
def finishRequests (hdiInfos : List HdiCredentialInfo) (resultCode : UInt32) (proved : Prop)
    [Decidable proved] : List HdiRequest :=
  (if resultCode = ResultCode.locked.toUInt32 then [faceRequest hdiInfos .freezeTemplate]
    else []) ++ if proved then [faceRequest hdiInfos .thawTemplate] else []

theorem finishRequests_congr {hdiInfos : List HdiCredentialInfo} {resultCode : UInt32}
    {proved proved' : Prop} [Decidable proved] [Decidable proved'] (h : proved ↔ proved') :
    finishRequests hdiInfos resultCode proved = finishRequests hdiInfos resultCode proved' := by
  unfold finishRequests
  exact congrArg _ (if_congr h rfl rfl)

section Callback

variable {self : UserAuthCallbackImplCoAuth} (hpin : self.authType = .pin)
  (huser : self.userId = userId) (hname : self.pkgName.length ≤ 80) {i : Nat} {resultCode : UInt32}

include hne hlength hparcel haccepts hdelivers hfuel hpin huser hname

theorem dealTemplates_seen (ret : ResultCode) :
    ((UserAuth.dealTemplates self resultCode ret).interp
      (throughServices fuel ipc onMessengerReadyStub)).Meets (Decides face userId hdiInfos)
        fun _ es => Seen face (finishRequests hdiInfos resultCode (ret = .success)) [] es := by
  have hset (key : SetPropertyType) :
      ((UserAuth.coAuthSetPropAuthInfo self.callerInfo ⟨.face, key⟩).interp
        (throughServices fuel ipc onMessengerReadyStub)).Meets (Decides face userId hdiInfos)
          fun _ es => Seen face [faceRequest hdiInfos key] [] es :=
    coAuthSetPropAuthInfo_seen hne hlength hparcel haccepts hdelivers hfuel huser hname key
  have hfreeze : (Prog.interp (throughServices fuel ipc onMessengerReadyStub)
      (if resultCode = ResultCode.locked.toUInt32 ∧ self.authType = .pin then
        UserAuth.coAuthSetPropAuthInfo self.callerInfo ⟨.face, .freezeTemplate⟩ else .ret ())).Meets
      (Decides face userId hdiInfos) fun _ es => Seen face
        (if resultCode = ResultCode.locked.toUInt32 then [faceRequest hdiInfos .freezeTemplate]
          else []) [] es := by
    split
    · next hlocked =>
      rw [if_pos hlocked.1]
      exact hset .freezeTemplate
    · next hlocked =>
      rw [if_neg fun hcode => hlocked ⟨hcode, hpin⟩]
      exact seen_nil
  have hthaw : (Prog.interp (throughServices fuel ipc onMessengerReadyStub)
      (if ret = .success then UserAuth.onFinishHandleExtend self else .ret ())).Meets
      (Decides face userId hdiInfos) fun _ es => Seen face
        (if ret = .success then [faceRequest hdiInfos .thawTemplate] else []) [] es := by
    split
    · unfold UserAuth.onFinishHandleExtend
      rw [if_pos hpin]
      exact hset .thawTemplate
    · exact seen_nil
  unfold UserAuth.dealTemplates
  rw [interp_bind]
  exact meets_seen_bind hfreeze fun _ => hthaw

theorem onFinishHandleLocked_seen (scheduleToken : List UInt8) :
    ((UserAuth.onFinishHandleLocked i self resultCode scheduleToken).interp
      (throughServices fuel ipc onMessengerReadyStub)).Meets (Decides face userId hdiInfos)
        fun _ es => ∃ codes,
          Seen face (finishRequests hdiInfos resultCode (.success ∈ codes)) codes es := by
  have hrest (authToken : List UInt8) :
      (UserAuth.getPropAuthInfoCoAuth self.callerInfo resultCode.toInt32 authToken
        ⟨self.authType, [UserAuth.remainTimesKey, UserAuth.freezingTimeKey]⟩ self.callback >>=
          fun _ => UserAuth.dealFinishData i self).All Aside :=
    (getPropAuthInfoCoAuth_aside _ _ _ _ _).bind fun _ => dealFinishData_aside i self
  unfold UserAuth.onFinishHandleLocked
  rw [interp_bind, interp_op]
  refine meets_op_bind.mpr ⟨decides_answer (by simp), fun callbackNowCount _ => ?_⟩
  rw [interp_bind, interp_op]
  refine meets_op_bind.mpr ⟨decides_answer (by simp), fun done hdone => ?_⟩
  obtain rfl : done = false := hdone
  have hfirst : Seen face [] [] [⟨.userAuth (.incCallbackNowCount i), callbackNowCount⟩,
    ⟨.userAuth (.isResultDone i), false⟩] := ⟨rfl, rfl⟩
  rw [if_neg (by decide), interp_bind]
  refine (verdict_seen self resultCode scheduleToken).bind fun v es hv => ?_
  obtain ⟨hundone, codes, hes, hcodes⟩ := hv
  dsimp only
  rw [if_neg hundone, UserAuth.dealVerdict_templates, interp_bind]
  refine Prog.Meets.bind (dealTemplates_seen hne hlength hparcel haccepts hdelivers hfuel hpin huser
    hname v.1) fun _ es₁ hes₁ => ?_
  refine (aside_seen (hrest v.2)).mono fun _ es₂ hes₂ => ⟨codes, ?_⟩
  have hall := hfirst.append (hes.append (hes₁.append hes₂))
  simp only [List.nil_append, List.append_nil] at hall
  rw [← finishRequests_congr hcodes]
  exact hall

theorem finishAuthentication_seen (scheduleToken : List UInt8) :
    (finishAuthentication fuel ipc onMessengerReadyStub i self resultCode scheduleToken).Meets
      (Decides face userId hdiInfos) fun _ es => ∃ codes,
        Seen face (finishRequests hdiInfos resultCode (.success ∈ codes)) codes es := by
  unfold finishAuthentication UserAuth.onFinishHandle UserAuth.underLock
  rw [interp_bind, interp_bind, interp_op, interp_op]
  refine meets_op_bind.mpr ⟨decides_answer (by simp), fun r _ => ?_⟩
  refine Prog.Meets.bind (onFinishHandleLocked_seen hne hlength hparcel haccepts hdelivers hfuel
    hpin huser hname scheduleToken) fun _ es hes => ?_
  refine meets_call.mpr ⟨decides_answer (by simp), fun r' _ => ?_⟩
  obtain ⟨codes, hes⟩ := hes
  have hlock : Seen face [] [] [⟨.userAuth (.lock i), r⟩] := ⟨rfl, rfl⟩
  have hunlock : Seen face [] [] [⟨.userAuth (.unlock i), r'⟩] := ⟨rfl, rfl⟩
  have hall := hlock.append (hes.append hunlock)
  simp only [List.nil_append, List.append_nil] at hall
  exact ⟨codes, hall⟩

end Callback

end Finish

/-- The callback of a pin authentication. -/
def pinCallback (impl : UserAuth.ClientCallback) (caller : Caller) (userId : Int32)
    (contextId : UInt64) : UserAuthCallbackImplCoAuth :=
  .new impl (UserAuth.coAuthInfoOf caller userId .pin contextId)

open UserAuth (propermodeFreeze propermodeUnfreeze) in
/-- **Freezing and thawing.**  A finish of a pin authentication that decides comes to an end.  On
the way, the driver of the face executor is asked to freeze exactly if the code of the executor is
`LOCKED`, and to thaw exactly if the verdict has been asked for and is `SUCCESS`.  Both requests
name all the templates of the user's face, in the order of the HDI. -/
theorem templates_reached {P : Type} {fuel : Nat} {ipc : Ipc P}
    {contents : P → List (Ipc.ParcelApi.Item ParcelKind ParcelKind.Carrier)}
    (hparcel : ipc.parcel.Lawful contents) (haccepts : ipc.parcel.Accepts)
    (hdelivers : ipc.delivers = true) (hfuel : 8 ≤ fuel)
    (onMessengerReadyStub : P → P → ExecutorCallbackProg (ResultCode × P))
    (face : ExecutorCallback) {hdiInfos : List HdiCredentialInfo} (hone : 1 ≤ hdiInfos.length)
    (hmany : hdiInfos.length ≤ 999) (impl : UserAuth.ClientCallback) (caller : Caller)
    (userId : Int32) (contextId : UInt64) (i : Nat) (resultCode : UInt32)
    (scheduleToken : List UInt8) :
    (finishAuthentication fuel ipc onMessengerReadyStub i (pinCallback impl caller userId contextId)
      resultCode scheduleToken).Meets (Decides face userId hdiInfos) (fun _ _ => True) ∧
    ∀ es, (finishAuthentication fuel ipc onMessengerReadyStub i
        (pinCallback impl caller userId contextId) resultCode scheduleToken).Trace () es →
      (∀ e ∈ es, Decides face userId hdiInfos e.1 e.2) →
      driverRequests face es =
        (if resultCode = ResultCode.locked.toUInt32 then
          [.sendCommand propermodeFreeze (templateBytes (hdiInfos.map (·.templateId)))]
        else []) ++
        (if .success ∈ verdicts es then
          [.sendCommand propermodeUnfreeze (templateBytes (hdiInfos.map (·.templateId)))]
        else []) := by
  have hne : hdiInfos ≠ [] := List.ne_nil_of_length_pos hone
  have hlength : hdiInfos.length < maxTemplateListLen := Nat.lt_of_le_of_lt hmany (by decide)
  have hname : (pinCallback impl caller userId contextId).pkgName.length ≤ 80 :=
    length_callerNameOf_le caller.id
  have hseen : (finishAuthentication fuel ipc onMessengerReadyStub i
      (pinCallback impl caller userId contextId) resultCode scheduleToken).Meets
        (Decides face userId hdiInfos) fun _ es => ∃ codes,
          Seen face (finishRequests hdiInfos resultCode (.success ∈ codes)) codes es :=
    finishAuthentication_seen hne hlength hparcel haccepts hdelivers hfuel rfl rfl hname
      scheduleToken
  refine ⟨hseen.mono fun _ _ _ => trivial, fun es htrace hes => ?_⟩
  obtain ⟨codes, hrequests, rfl⟩ := hseen.of_trace htrace hes
  exact hrequests

/-- An IPC whose parcels are lists. -/
def faceIpc : Ipc (List (Ipc.ParcelApi.Item ParcelKind ParcelKind.Carrier)) :=
  ⟨Ipc.ParcelApi.ofList, fun _ _ reply => (.fail, reply), true⟩

/-- Two faces whose templates have one id. -/
def twoFaces : List HdiCredentialInfo := [⟨0, .face, 1, 258⟩, ⟨0, .face, 2, 258⟩]

/-- The pin executor is locked. -/
theorem templates_reached_example :
    (finishAuthentication 8 faceIpc (fun _ reply => .ret (.success, reply)) 0
      (pinCallback 1 ⟨0, 5, 7⟩ 100 3) ResultCode.locked.toUInt32 []).Meets
        (Decides 11 100 twoFaces) (fun _ _ => True) ∧
    ∀ es, (finishAuthentication 8 faceIpc (fun _ reply => .ret (.success, reply)) 0
        (pinCallback 1 ⟨0, 5, 7⟩ 100 3) ResultCode.locked.toUInt32 []).Trace () es →
      (∀ e ∈ es, Decides 11 100 twoFaces e.1 e.2) →
      driverRequests 11 es =
        [.sendCommand 3 [2, 1, 0, 0, 0, 0, 0, 0, 2, 1, 0, 0, 0, 0, 0, 0]] ++
        (if .success ∈ verdicts es then
          [.sendCommand 4 [2, 1, 0, 0, 0, 0, 0, 0, 2, 1, 0, 0, 0, 0, 0, 0]]
        else []) := by
  have hone : 1 ≤ twoFaces.length := by decide
  obtain ⟨hends, hrequests⟩ := templates_reached Ipc.ParcelApi.ofList_lawful
    Ipc.ParcelApi.ofList_accepts (rfl : faceIpc.delivers = true) (Nat.le_refl 8)
    (fun _ reply => .ret (.success, reply)) 11 hone (by decide) 1 ⟨0, 5, 7⟩ 100 3 0
    ResultCode.locked.toUInt32 []
  exact ⟨hends, hrequests⟩

end UserIam.Executors
