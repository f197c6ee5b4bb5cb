import UserIam.Ipc.Remote
import UserIam.UserIDM.UserIDMService

/-!
# UserIDMProxy and UserIDMStub

How a client's request reaches the credential manager.  The stub does not look at whether a read
succeeds; what it looks at is whether there is a callback.
-/

namespace UserIam.UserIDM

open Conc Ipc

/-! ## 1. What a message holds -/

inductive UserIDMKind where
  | interfaceToken
  | int32
  | uint32
  | uint64
  | uint8Vector
  | remoteObject
  deriving DecidableEq

/-- A remote object is that of a client's callback, or a null pointer. -/
@[reducible] def UserIDMKind.Carrier : UserIDMKind → Type
  | .interfaceToken => String
  | .int32 => Int32
  | .uint32 => UInt32
  | .uint64 => UInt64
  | .uint8Vector => List UInt8
  | .remoteObject => Option ClientCallback

instance UserIDMKind.instInhabitedCarrier (kind : UserIDMKind) : Inhabited kind.Carrier :=
  match kind with
  | .interfaceToken => ⟨""⟩
  | .int32 => ⟨0⟩
  | .uint32 => ⟨0⟩
  | .uint64 => ⟨0⟩
  | .uint8Vector => ⟨[]⟩
  | .remoteObject => ⟨none⟩

abbrev UserIDMItem := ParcelApi.Item UserIDMKind UserIDMKind.Carrier

/-- What the two processes rely on: the parcels, whether `iface_cast` makes a callback of a remote
object, what the base class of a stub makes of a code that it does not know, and the code for an
invalid value. -/
structure UserIDMIpc (P : Type) where
  parcel : ParcelApi P UserIDMKind UserIDMKind.Carrier
  ifaceCast : ClientCallback → Bool
  objectStub : UInt32 → P → P → ResultCode × P
  errInvalidValue : ResultCode
  errInvalidValue_ne : errInvalidValue ≠ .success

/-! ## 2. The interface -/

section Interface

variable (Op : Type) (Res : Op → Type)

@[ext] structure IUserIDM where
  openSession : Prog Op Res UInt64
  openSessionById : Int32 → Prog Op Res UInt64
  closeSession : Prog Op Res Unit
  closeSessionById : Int32 → Prog Op Res Unit
  getAuthInfo : AuthType → ClientCallback → Prog Op Res ResultCode
  getAuthInfoById : Int32 → AuthType → ClientCallback → Prog Op Res ResultCode
  getSecInfo : Int32 → ClientCallback → Prog Op Res ResultCode
  addCredential : AddCredInfo → ClientCallback → Prog Op Res Unit
  addCredentialById : Int32 → AddCredInfo → ClientCallback → Prog Op Res Unit
  updateCredential : AddCredInfo → ClientCallback → Prog Op Res Unit
  updateCredentialById : Int32 → AddCredInfo → ClientCallback → Prog Op Res Unit
  cancel : UInt64 → Prog Op Res ResultCode
  cancelById : Int32 → Prog Op Res ResultCode
  enforceDelUser : Int32 → ClientCallback → Prog Op Res ResultCode
  delUser : List UInt8 → ClientCallback → Prog Op Res Unit
  delUserById : Int32 → List UInt8 → ClientCallback → Prog Op Res Unit
  delCred : UInt64 → List UInt8 → ClientCallback → Prog Op Res Unit
  delCredential : Int32 → UInt64 → List UInt8 → ClientCallback → Prog Op Res Unit

/-- What a client's callback objects do, in the client's process. -/
structure IDMCallbacks where
  onResult : ClientCallback → ResultCode → UInt64 → Prog Op Res Unit
  onGetInfo : ClientCallback → List CredentialInfo → Prog Op Res Unit
  onGetSecInfo : ClientCallback → SecInfo → Prog Op Res Unit

end Interface

/-- The service.  The stub passes it no callback that is null. -/
def userIDMService (platform : Platform) (caller : Caller) : IUserIDM UserIDMOp UserIDMRes where
  openSession := serviceOpenSession platform caller
  openSessionById userId := serviceOpenSessionById platform caller userId
  closeSession := serviceCloseSession platform caller
  closeSessionById userId := serviceCloseSessionById platform caller userId
  getAuthInfo authType callback := serviceGetAuthInfo platform caller authType (some callback)
  getAuthInfoById userId authType callback :=
    serviceGetAuthInfoById userId authType (some callback)
  getSecInfo userId callback := serviceGetSecInfo userId (some callback)
  addCredential credInfo callback := serviceAddCredential platform caller credInfo (some callback)
  addCredentialById userId credInfo callback :=
    serviceAddCredentialById platform caller userId credInfo (some callback)
  updateCredential credInfo callback :=
    serviceUpdateCredential platform caller credInfo (some callback)
  updateCredentialById userId credInfo callback :=
    serviceUpdateCredentialById platform caller userId credInfo (some callback)
  cancel challenge := serviceCancel platform caller challenge
  cancelById userId := serviceCancelById platform caller userId
  enforceDelUser userId callback := serviceEnforceDelUser userId (some callback)
  delUser authToken callback := serviceDelUser platform caller authToken (some callback)
  delUserById userId authToken callback :=
    serviceDelUserById platform caller userId authToken (some callback)
  delCred credentialId authToken callback :=
    serviceDelCred platform caller credentialId authToken (some callback)
  delCredential userId credentialId authToken callback :=
    serviceDelCredential platform caller userId credentialId authToken (some callback)

/-- The calls of `IUserIDM` that a message can stand for. -/
inductive UserIDMRequest where
  | openSession
  | openSessionById (userId : Int32)
  | closeSession
  | closeSessionById (userId : Int32)
  | getAuthInfo (authType : AuthType) (callback : ClientCallback)
  | getAuthInfoById (userId : Int32) (authType : AuthType) (callback : ClientCallback)
  | getSecInfo (userId : Int32) (callback : ClientCallback)
  | addCredential (credInfo : AddCredInfo) (callback : ClientCallback)
  | addCredentialById (userId : Int32) (credInfo : AddCredInfo) (callback : ClientCallback)
  | updateCredential (credInfo : AddCredInfo) (callback : ClientCallback)
  | updateCredentialById (userId : Int32) (credInfo : AddCredInfo) (callback : ClientCallback)
  | cancel (challenge : UInt64)
  | cancelById (userId : Int32)
  | enforceDelUser (userId : Int32) (callback : ClientCallback)
  | delUser (authToken : List UInt8) (callback : ClientCallback)
  | delUserById (userId : Int32) (authToken : List UInt8) (callback : ClientCallback)
  | delCred (credentialId : UInt64) (authToken : List UInt8) (callback : ClientCallback)
  | delCredential (userId : Int32) (credentialId : UInt64) (authToken : List UInt8)
      (callback : ClientCallback)

/-- The place of the function in `m_handle_`. -/
def UserIDMCode.number (code : UserIDMCode) : UInt32 := UInt32.ofNat (userIDMCodes.idxOf code)

theorem UserIDMCode.getElem?_number (code : UserIDMCode) :
    userIDMCodes[code.number.toNat]? = some code := by
  cases code <;> rfl

namespace UserIDMRequest

def code : UserIDMRequest → UserIDMCode
  | .openSession => .openSession
  | .openSessionById _ => .openSessionById
  | .closeSession => .closeSession
  | .closeSessionById _ => .closeSessionById
  | .getAuthInfo .. => .getAuthInfo
  | .getAuthInfoById .. => .getAuthInfoById
  | .getSecInfo .. => .getSecInfo
  | .addCredential .. => .addCredential
  | .addCredentialById .. => .addCredentialById
  | .updateCredential .. => .updateCredential
  | .updateCredentialById .. => .updateCredentialById
  | .cancel _ => .cancel
  | .cancelById _ => .cancelById
  | .enforceDelUser .. => .enforceDelUser
  | .delUser .. => .delUser
  | .delUserById .. => .delUserById
  | .delCred .. => .delCred
  | .delCredential .. => .delCredential

end UserIDMRequest

def AddCredInfo.items (credInfo : AddCredInfo) : List UserIDMItem :=
  [⟨.uint32, credInfo.authType⟩, ⟨.uint64, credInfo.authSubType.toUInt64⟩,
    ⟨.uint8Vector, credInfo.token⟩]

namespace UserIDMRequest

/-- What the proxy writes behind the token, in this order. -/
def args : UserIDMRequest → List UserIDMItem
  | .openSession | .closeSession => []
  | .openSessionById userId | .closeSessionById userId | .cancelById userId => [⟨.int32, userId⟩]
  | .getAuthInfo authType callback => [⟨.uint32, authType⟩, ⟨.remoteObject, some callback⟩]
  | .getAuthInfoById userId authType callback =>
    [⟨.int32, userId⟩, ⟨.uint32, authType⟩, ⟨.remoteObject, some callback⟩]
  | .getSecInfo userId callback | .enforceDelUser userId callback =>
    [⟨.int32, userId⟩, ⟨.remoteObject, some callback⟩]
  | .addCredential credInfo callback | .updateCredential credInfo callback =>
    credInfo.items ++ [⟨.remoteObject, some callback⟩]
  | .addCredentialById userId credInfo callback | .updateCredentialById userId credInfo callback =>
    ⟨.int32, userId⟩ :: credInfo.items ++ [⟨.remoteObject, some callback⟩]
  | .cancel challenge => [⟨.uint64, challenge⟩]
  | .delUser authToken callback => [⟨.uint8Vector, authToken⟩, ⟨.remoteObject, some callback⟩]
  | .delUserById userId authToken callback =>
    [⟨.int32, userId⟩, ⟨.uint8Vector, authToken⟩, ⟨.remoteObject, some callback⟩]
  | .delCred credentialId authToken callback =>
    [⟨.uint64, credentialId⟩, ⟨.uint8Vector, authToken⟩, ⟨.remoteObject, some callback⟩]
  | .delCredential userId credentialId authToken callback =>
    [⟨.int32, userId⟩, ⟨.uint64, credentialId⟩, ⟨.uint8Vector, authToken⟩,
      ⟨.remoteObject, some callback⟩]

def message (request : UserIDMRequest) : List UserIDMItem :=
  ⟨.interfaceToken, userIDMDescriptor⟩ :: request.args

end UserIDMRequest

/-! ## 3. UserIDMStub -/

/-- What the function for a code reads, in this order. -/
def UserIDMCode.reads : UserIDMCode → List UserIDMKind
  | .openSession | .closeSession => []
  | .openSessionById | .closeSessionById | .cancelById => [.int32]
  | .getAuthInfo => [.uint32, .remoteObject]
  | .getAuthInfoById => [.int32, .uint32, .remoteObject]
  | .getSecInfo | .enforceDelUser => [.int32, .remoteObject]
  | .addCredential | .updateCredential => [.uint32, .uint64, .uint8Vector, .remoteObject]
  | .addCredentialById | .updateCredentialById =>
    [.int32, .uint32, .uint64, .uint8Vector, .remoteObject]
  | .cancel => [.uint64]
  | .delUser => [.uint8Vector, .remoteObject]
  | .delUserById => [.int32, .uint8Vector, .remoteObject]
  | .delCred => [.uint64, .uint8Vector, .remoteObject]
  | .delCredential => [.int32, .uint64, .uint8Vector, .remoteObject]

section Stub

variable {P Op : Type} {Res : Op → Type} (ipc : UserIDMIpc P) (service : IUserIDM Op Res)

/-- One more value that a function has read. -/
def MessageParcel.add (m : MessageParcel) : UserIDMItem → MessageParcel
  | ⟨.interfaceToken, v⟩ => { m with interfaceToken := v }
  | ⟨.int32, v⟩ => { m with int32 := v }
  | ⟨.uint32, v⟩ => { m with uint32 := v }
  | ⟨.uint64, v⟩ => { m with uint64 := v }
  | ⟨.uint8Vector, v⟩ => { m with uint8Vector := v }
  | ⟨.remoteObject, v⟩ => { m with remoteObject := v.filter ipc.ifaceCast }

/-- The values that a function has read behind the token. -/
def messageParcelOf (items : List UserIDMItem) : MessageParcel :=
  items.foldl (MessageParcel.add ipc) ⟨userIDMDescriptor, 0, 0, 0, [], none⟩

/-- `WriteUint64` or `WriteInt32` into the reply; the request fails if it does. -/
def writeReply (reply : P) (kind : UserIDMKind) (value : kind.Carrier) (ret : ResultCode) :
    ResultCode × P :=
  (ipc.parcel.write reply kind value).elim (.fail, reply) fun reply => (ret, reply)

variable (m : MessageParcel) (reply : P)

/-- A function that goes on only if it has a callback. -/
def withCallback (missing : ResultCode)
    (serve : ClientCallback → Prog Op Res (ResultCode × P)) : Prog Op Res (ResultCode × P) :=
  m.remoteObject.elim (pure (missing, reply)) serve

/-- What the function for a code does with the values that it has read. -/
def userIDMServe : UserIDMCode → Prog Op Res (ResultCode × P)
  | .openSession => do
    let ret ← service.openSession
    return writeReply ipc reply .uint64 ret .success
  | .openSessionById => do
    let ret ← service.openSessionById m.int32
    return writeReply ipc reply .uint64 ret .success
  | .closeSession => do
    service.closeSession
    return (.success, reply)
  | .closeSessionById => do
    service.closeSessionById m.int32
    return (.success, reply)
  | .getAuthInfo => withCallback m reply ipc.errInvalidValue fun callback => do
    let ret ← service.getAuthInfo m.uint32 callback
    return writeReply ipc reply .int32 ret .success
  | .getAuthInfoById => withCallback m reply ipc.errInvalidValue fun callback => do
    let ret ← service.getAuthInfoById m.int32 m.uint32 callback
    return writeReply ipc reply .int32 ret .success
  | .getSecInfo => withCallback m reply ipc.errInvalidValue fun callback => do
    let ret ← service.getSecInfo m.int32 callback
    return writeReply ipc reply .int32 ret .success
  | .addCredential => withCallback m reply .fail fun callback => do
    service.addCredential m.addCredInfo callback
    return (.success, reply)
  | .addCredentialById => withCallback m reply .fail fun callback => do
    service.addCredentialById m.int32 m.addCredInfo callback
    return (.success, reply)
  | .updateCredential => withCallback m reply .fail fun callback => do
    service.updateCredential m.addCredInfo callback
    return (.success, reply)
  | .updateCredentialById => withCallback m reply .fail fun callback => do
    service.updateCredentialById m.int32 m.addCredInfo callback
    return (.success, reply)
  | .cancel => do
    let ret ← service.cancel m.uint64
    return writeReply ipc reply .int32 ret ret
  | .cancelById => do
    let ret ← service.cancelById m.int32
    return writeReply ipc reply .int32 ret ret
  | .enforceDelUser => withCallback m reply .fail fun callback => do
    let ret ← service.enforceDelUser m.int32 callback
    return writeReply ipc reply .int32 ret ret
  | .delUser => withCallback m reply .fail fun callback => do
    service.delUser m.uint8Vector callback
    return (.success, reply)
  | .delUserById => withCallback m reply .fail fun callback => do
    service.delUserById m.int32 m.uint8Vector callback
    return (.success, reply)
  | .delCred => withCallback m reply .fail fun callback => do
    service.delCred m.uint64 m.uint8Vector callback
    return (.success, reply)
  | .delCredential => withCallback m reply .fail fun callback => do
    service.delCredential m.int32 m.uint64 m.uint8Vector callback
    return (.success, reply)

end Stub

section Remote

variable {P Op : Type} {Res : Op → Type} (ipc : UserIDMIpc P) (delivery : Delivery)

/-- `OnRemoteRequest` -/
def userIDMOnRemoteRequest (service : IUserIDM Op Res) (code : UInt32) :
    Handler P ResultCode Op Res := fun data reply =>
  let (remoteDescripter, data) := ipc.parcel.read data .interfaceToken
  if userIDMDescriptor ≠ remoteDescripter then pure (.fail, reply)
  else
    match userIDMCodes[code.toNat]? with
    -- codes that the table does not know go to the base class
    | none => pure (ipc.objectStub code data reply)
    | some pFunction =>
      userIDMServe ipc service (messageParcelOf ipc (ipc.parcel.readAll pFunction.reads data)) reply
        pFunction

/-! ## 4. UserIDMProxy -/

/-- `SendRequest` of the proxy has succeeded. -/
def userIDMSucceeded (result : ResultCode) : Bool := result = .success

/-- The value that the proxy reads from a reply. -/
def readUserIDMReply (kind : UserIDMKind) (reply : P) : kind.Carrier :=
  (ipc.parcel.read reply kind).1

variable (service : IUserIDM Op Res)

/-- A request that waits for its reply. -/
def userIDMCall {β : Type} (request : UserIDMRequest) (unwritten failed : β) (readReply : P → β) :
    Prog Op Res β :=
  remoteCall ipc.parcel delivery userIDMSucceeded
    (userIDMOnRemoteRequest ipc service request.code.number) request.message unwritten failed
    readReply

/-- A request that does not wait. -/
def userIDMPost (request : UserIDMRequest) (failed : Prog Op Res Unit) : Prog Op Res Unit :=
  remotePost ipc.parcel delivery (userIDMOnRemoteRequest ipc service request.code.number)
    request.message failed

/-- A request that has failed is reported to the client's own callback. -/
def reportFailure (report : Prog Op Res Unit) : Answer ResultCode → Prog Op Res ResultCode
  | .unwritten => return .fail
  | .failed => do
    report
    return .fail
  | .replied result => return result

/-- `EnforceDelUser`, which does not wait but reads the reply all the same. -/
def proxyEnforceDelUser (userId : Int32) (callback : ClientCallback) (report : Prog Op Res Unit) :
    Prog Op Res ResultCode :=
  match ipc.parcel.message (UserIDMRequest.enforceDelUser userId callback).message with
  | none => return .fail
  | some data => do
    if !(← post ipc.parcel delivery
        (userIDMOnRemoteRequest ipc service UserIDMCode.enforceDelUser.number) data) then
      report
      return .fail
    return readUserIDMReply ipc .int32 ipc.parcel.empty

/-- Those that take a user also tell the client's callback that a request could not be sent. -/
def userIDMProxy (callbacks : IDMCallbacks Op Res) : IUserIDM Op Res where
  openSession :=
    userIDMCall ipc delivery service .openSession 1 0 (readUserIDMReply ipc .uint64)
  openSessionById userId :=
    userIDMCall ipc delivery service (.openSessionById userId) 1 0 (readUserIDMReply ipc .uint64)
  closeSession := userIDMCall ipc delivery service .closeSession () () fun _ => ()
  closeSessionById userId :=
    userIDMCall ipc delivery service (.closeSessionById userId) () () fun _ => ()
  getAuthInfo authType callback :=
    userIDMCall ipc delivery service (.getAuthInfo authType callback) ResultCode.fail
      ResultCode.fail (readUserIDMReply ipc .int32)
  getAuthInfoById userId authType callback :=
    userIDMCall ipc delivery service (.getAuthInfoById userId authType callback) .unwritten .failed
      (fun reply => .replied (readUserIDMReply ipc .int32 reply)) >>=
        reportFailure (callbacks.onGetInfo callback [])
  getSecInfo userId callback :=
    userIDMCall ipc delivery service (.getSecInfo userId callback) .unwritten .failed
      (fun reply => .replied (readUserIDMReply ipc .int32 reply)) >>=
        reportFailure (callbacks.onGetSecInfo callback ⟨0, 0, []⟩)
  addCredential credInfo callback :=
    userIDMPost ipc delivery service (.addCredential credInfo callback) (pure ())
  addCredentialById userId credInfo callback :=
    userIDMPost ipc delivery service (.addCredentialById userId credInfo callback)
      (callbacks.onResult callback .fail 0)
  updateCredential credInfo callback :=
    userIDMPost ipc delivery service (.updateCredential credInfo callback) (pure ())
  updateCredentialById userId credInfo callback :=
    userIDMPost ipc delivery service (.updateCredentialById userId credInfo callback)
      (callbacks.onResult callback .fail 0)
  cancel challenge :=
    userIDMCall ipc delivery service (.cancel challenge) ResultCode.fail ResultCode.fail
      (readUserIDMReply ipc .int32)
  cancelById userId :=
    userIDMCall ipc delivery service (.cancelById userId) ResultCode.fail ResultCode.fail
      (readUserIDMReply ipc .int32)
  enforceDelUser userId callback :=
    proxyEnforceDelUser ipc delivery service userId callback (callbacks.onResult callback .fail 0)
  delUser authToken callback :=
    userIDMPost ipc delivery service (.delUser authToken callback) (pure ())
  delUserById userId authToken callback :=
    userIDMPost ipc delivery service (.delUserById userId authToken callback)
      (callbacks.onResult callback .fail 0)
  delCred credentialId authToken callback :=
    userIDMPost ipc delivery service (.delCred credentialId authToken callback) (pure ())
  delCredential userId credentialId authToken callback :=
    userIDMPost ipc delivery service (.delCredential userId credentialId authToken callback)
      (callbacks.onResult callback .fail 0)

end Remote

/-! ## 5. What the stub makes of a message -/

section Messages

variable {P Op : Type} {Res : Op → Type} {ipc : UserIDMIpc P} {contents : P → List UserIDMItem}
  {service : IUserIDM Op Res} {data reply : P}

theorem UserIDMRequest.reads_code (request : UserIDMRequest) :
    request.code.reads = request.args.map Sigma.fst := by
  cases request <;> rfl

/-- Behind the token of its own interface, the stub looks at the rest of the message only. -/
theorem userIDMOnRemoteRequest_of_contents (hlawful : ipc.parcel.Lawful contents)
    (code : UserIDMCode) {args : List UserIDMItem}
    (hdata : contents data = ⟨.interfaceToken, userIDMDescriptor⟩ :: args) :
    ∃ data', contents data' = args ∧
      userIDMOnRemoteRequest ipc service code.number data reply =
        userIDMServe ipc service (messageParcelOf ipc (ipc.parcel.readAll code.reads data')) reply
          code := by
  obtain ⟨data', hread, hargs⟩ := hlawful.read_of_contents hdata
  refine ⟨data', hargs, ?_⟩
  simp only [userIDMOnRemoteRequest, hread, ne_eq, not_true_eq_false, if_false,
    UserIDMCode.getElem?_number]

theorem userIDMOnRemoteRequest_message (hlawful : ipc.parcel.Lawful contents)
    (request : UserIDMRequest) (hdata : contents data = request.message) :
    userIDMOnRemoteRequest ipc service request.code.number data reply =
      userIDMServe ipc service (messageParcelOf ipc request.args) reply request.code := by
  obtain ⟨data', hargs, heq⟩ := userIDMOnRemoteRequest_of_contents hlawful request.code hdata
  rw [heq, request.reads_code, hlawful.readAll hargs]

/-- What the stub takes a message for that is cut off: zeros stand for what is missing. -/
def UserIDMRequest.truncated : UserIDMRequest → Option UserIDMRequest
  | .openSessionById _ => some (.openSessionById 0)
  | .closeSessionById _ => some (.closeSessionById 0)
  | .cancel _ => some (.cancel 0)
  | .cancelById _ => some (.cancelById 0)
  | _ => none

/-- The callback that is the last argument. -/
def UserIDMRequest.callback : UserIDMRequest → Option ClientCallback
  | .openSession | .openSessionById _ | .closeSession | .closeSessionById _ => none
  | .cancel _ | .cancelById _ => none
  | .getAuthInfo _ callback | .getAuthInfoById _ _ callback => some callback
  | .getSecInfo _ callback => some callback
  | .addCredential _ callback | .addCredentialById _ _ callback => some callback
  | .updateCredential _ callback | .updateCredentialById _ _ callback => some callback
  | .enforceDelUser _ callback | .delUser _ callback | .delUserById _ _ callback => some callback
  | .delCred _ _ callback | .delCredential _ _ _ callback => some callback

/-- What a function answers that has no callback. -/
def UserIDMIpc.refusal (ipc : UserIDMIpc P) : UserIDMCode → ResultCode
  | .getAuthInfo | .getAuthInfoById | .getSecInfo => ipc.errInvalidValue
  | _ => .fail

theorem UserIDMRequest.args_callback {request : UserIDMRequest} {callback : ClientCallback}
    (h : request.callback = some callback) :
    request.args = request.args.dropLast ++ [⟨.remoteObject, some callback⟩] := by
  cases request <;> cases h <;> rfl

theorem userIDMServe_none {request : UserIDMRequest} {m : MessageParcel}
    (h : request.callback.isSome = true) (hm : m.remoteObject = none) :
    userIDMServe ipc service m reply request.code = .ret (ipc.refusal request.code, reply) := by
  have hnone (missing : ResultCode) (serve : ClientCallback → Prog Op Res (ResultCode × P)) :
      withCallback m reply missing serve = .ret (missing, reply) := by
    rw [withCallback, hm]
    rfl
  cases request <;> first | exact hnone _ _ | cases h

/-- **A message that is cut off**: a request that takes a callback is refused; any other one is
carried out with zero for its argument. -/
theorem userIDMOnRemoteRequest_cut (hlawful : ipc.parcel.Lawful contents)
    (hpast : ipc.parcel.PastEnd contents) (request : UserIDMRequest) {cut : List UserIDMItem}
    (hcut : cut <+: request.args) (hne : cut ≠ request.args)
    (hdata : contents data = ⟨.interfaceToken, userIDMDescriptor⟩ :: cut) :
    userIDMOnRemoteRequest ipc service request.code.number data reply =
      request.truncated.elim (.ret (ipc.refusal request.code, reply)) fun request =>
        userIDMServe ipc service (messageParcelOf ipc request.args) reply request.code := by
  obtain ⟨data', hargs, heq⟩ := userIDMOnRemoteRequest_of_contents hlawful request.code hdata
  have hcut' : ParcelApi.Cut contents data' request.args := by
    rw [ParcelApi.Cut, hargs]
    exact ⟨hcut, hne⟩
  rw [heq, request.reads_code]
  cases hcallback : request.callback with
  | some callback =>
    have htruncated : request.truncated = none := by cases request <;> first | rfl | cases hcallback
    rw [UserIDMRequest.args_callback hcallback] at hcut' ⊢
    obtain ⟨values, hvalues⟩ := hlawful.readAll_cut_last hpast hcut'
    rw [hvalues, htruncated]
    refine userIDMServe_none (by rw [hcallback]; rfl) ?_
    rw [messageParcelOf, List.foldl_append]
    rfl
  | none =>
    have hlast {kind : UserIDMKind} {v : kind.Carrier}
        (h : ParcelApi.Cut contents data' [⟨kind, v⟩]) :
        ipc.parcel.readAll [kind] data' = [⟨kind, default⟩] := by
      rw [ParcelApi.readAll, hpast.read_last h]
      rfl
    cases request with
    | openSession => exact absurd (List.prefix_nil.mp hcut) hne
    | closeSession => exact absurd (List.prefix_nil.mp hcut) hne
    | openSessionById userId => exact congrArg (fun items => userIDMServe ipc service
        (messageParcelOf ipc items) reply .openSessionById) (hlast hcut')
    | closeSessionById userId => exact congrArg (fun items => userIDMServe ipc service
        (messageParcelOf ipc items) reply .closeSessionById) (hlast hcut')
    | cancel challenge => exact congrArg (fun items => userIDMServe ipc service
        (messageParcelOf ipc items) reply .cancel) (hlast hcut')
    | cancelById userId => exact congrArg (fun items => userIDMServe ipc service
        (messageParcelOf ipc items) reply .cancelById) (hlast hcut')
    | _ => cases hcallback

theorem withCallback_filter {m : MessageParcel} {callback : ClientCallback} (missing : ResultCode)
    (serve : ClientCallback → Prog Op Res (ResultCode × P))
    (hm : m.remoteObject = (some callback).filter ipc.ifaceCast) :
    withCallback m reply missing serve =
      if ipc.ifaceCast callback then serve callback else .ret (missing, reply) := by
  rw [withCallback, hm]
  by_cases hcast : ipc.ifaceCast callback = true
  · rw [if_pos hcast, Option.filter_some_pos hcast]
    rfl
  · rw [if_neg hcast, Option.filter_some_neg (Bool.eq_false_iff.mpr hcast)]
    rfl

/-- A subtype keeps its value on the way. -/
theorem addCredInfo_sent (credInfo : AddCredInfo) (callback : ClientCallback)
    (f : AddCredInfo → ClientCallback → Prog Op Res Unit) (reply : P) :
    (f ⟨credInfo.authType, credInfo.authSubType.toUInt64.toUInt32, credInfo.token⟩ callback >>=
      fun _ => .ret (ResultCode.success, reply)) =
    f credInfo callback >>= fun _ => .ret (ResultCode.success, reply) := by
  rw [UInt32.toUInt32_toUInt64]

end Messages

/-- The parcels are lists, and every remote object is a callback. -/
def listUserIDMIpc : UserIDMIpc (List UserIDMItem) where
  parcel := ParcelApi.ofList
  ifaceCast := fun _ => true
  objectStub := fun _ _ reply => (.fail, reply)
  errInvalidValue := 22
  errInvalidValue_ne := by decide

def openPlatform : Platform := ⟨⟨fun _ _ => true, fun _ => true, fun _ => (.success, 100)⟩, 22⟩

/-- Of the cancellation for a user nothing but the token has arrived. -/
theorem userIDMOnRemoteRequest_cut_cancel :
    userIDMOnRemoteRequest listUserIDMIpc (userIDMService openPlatform ⟨0, 1, 2⟩)
        UserIDMCode.cancelById.number [⟨.interfaceToken, userIDMDescriptor⟩] [] =
      userIDMServe listUserIDMIpc (userIDMService openPlatform ⟨0, 1, 2⟩)
        (messageParcelOf listUserIDMIpc (UserIDMRequest.cancelById 0).args) [] .cancelById := by
  have hlawful : listUserIDMIpc.parcel.Lawful fun p => p := ParcelApi.ofList_lawful
  have hpast : listUserIDMIpc.parcel.PastEnd fun p => p := ParcelApi.ofList_pastEnd
  exact userIDMOnRemoteRequest_cut hlawful hpast (.cancelById 100) List.nil_prefix
    (fun h => absurd (congrArg List.length h) (by decide)) rfl

/-! ## 6. What the proxy makes of the service -/

section Transparency

variable {P Op : Type} {Res : Op → Type} {ipc : UserIDMIpc P} {contents : P → List UserIDMItem}
  {delivery : Delivery} {service : IUserIDM Op Res} {request : UserIDMRequest} {α β : Type}
  {p : Prog Op Res α} {answer : α → ResultCode × P}

/-- The request is answered with what `p` returns. -/
def UserIDMRequest.Answers (ipc : UserIDMIpc P) (service : IUserIDM Op Res)
    (request : UserIDMRequest) (p : Prog Op Res α) (answer : α → ResultCode × P) : Prop :=
  userIDMServe ipc service (messageParcelOf ipc request.args) ipc.parcel.empty request.code =
    p >>= fun a => .ret (answer a)

/-- The request is refused. -/
def UserIDMRequest.Refused (ipc : UserIDMIpc P) (service : IUserIDM Op Res)
    (request : UserIDMRequest) (status : ResultCode) : Prop :=
  userIDMServe ipc service (messageParcelOf ipc request.args) ipc.parcel.empty request.code =
    .ret (status, ipc.parcel.empty)

theorem UserIDMRequest.Answers.handles (h : request.Answers ipc service p answer)
    (hlawful : ipc.parcel.Lawful contents) :
    Handles ipc.parcel contents (userIDMOnRemoteRequest ipc service request.code.number)
      request.message p answer :=
  fun _ hdata => (userIDMOnRemoteRequest_message hlawful request hdata).trans h

/-- What the stub has written into the reply is what the proxy reads there. -/
theorem userIDMReply_givesBack (hlawful : ipc.parcel.Lawful contents) (kind : UserIDMKind)
    (status : kind.Carrier → ResultCode) :
    GivesBack userIDMSucceeded
      (fun ret => writeReply ipc ipc.parcel.empty kind ret (status ret))
      (readUserIDMReply ipc kind) := by
  intro ret hok
  dsimp only [writeReply] at hok ⊢
  cases hwrite : ipc.parcel.write ipc.parcel.empty kind ret with
  | none =>
    rw [hwrite] at hok
    exact absurd (show userIDMSucceeded .fail = true from hok) (by decide)
  | some reply =>
    have hreply := hlawful.write hwrite
    rw [hlawful.empty, List.nil_append] at hreply
    exact (hlawful.read hreply).1

theorem writeReply_accepts (haccepts : ipc.parcel.Accepts) (reply : P) (kind : UserIDMKind)
    (ret : kind.Carrier) (status : ResultCode) :
    (writeReply ipc reply kind ret status).1 = status := by
  obtain ⟨reply', hwrite⟩ := haccepts.write reply kind ret
  rw [writeReply, hwrite]
  rfl

theorem userIDMSucceeded_of_eq {ret : ResultCode} (h : ret = .success) :
    userIDMSucceeded ret = true := decide_eq_true h

theorem userIDMSucceeded_of_ne {ret : ResultCode} (h : ret ≠ .success) :
    userIDMSucceeded ret = false := decide_eq_false h

/-- A request that reports its value and succeeds. -/
theorem userIDMCall_eq (kind : UserIDMKind) {p : Prog Op Res kind.Carrier}
    {unwritten failed : kind.Carrier}
    (h : request.Answers ipc service p fun ret =>
      writeReply ipc ipc.parcel.empty kind ret .success)
    (hlawful : ipc.parcel.Lawful contents) (haccepts : ipc.parcel.Accepts) :
    userIDMCall ipc .answered service request unwritten failed (readUserIDMReply ipc kind) = p :=
  remoteCall_eq hlawful haccepts (h.handles hlawful)
    (userIDMReply_givesBack hlawful kind fun _ => .success)
    fun ret => userIDMSucceeded_of_eq (writeReply_accepts haccepts _ kind ret _)

/-- A request that reports its value as its status too: only a success gets through. -/
theorem userIDMCall_cancel {p : Prog Op Res ResultCode}
    (h : request.Answers ipc service p fun ret =>
      writeReply ipc ipc.parcel.empty .int32 ret ret)
    (hlawful : ipc.parcel.Lawful contents) (haccepts : ipc.parcel.Accepts) :
    userIDMCall ipc .answered service request ResultCode.fail ResultCode.fail
        (readUserIDMReply ipc .int32) =
      p >>= fun ret => .ret (if ret = .success then .success else .fail) := by
  refine (remoteCall_answered hlawful haccepts (h.handles hlawful)).trans ?_
  congr 1
  funext ret
  have hstatus := writeReply_accepts haccepts ipc.parcel.empty .int32 ret ret
  by_cases hret : ret = .success
  · have hok := userIDMSucceeded_of_eq (hstatus.trans hret)
    have hback := userIDMReply_givesBack hlawful .int32 (fun ret => ret) ret hok
    rw [if_pos hok, if_pos hret]
    exact congrArg Prog.ret (hback.trans hret)
  · have hfailed := userIDMSucceeded_of_ne (hstatus.trans_ne hret)
    rw [hfailed, if_neg hret]
    rfl

theorem userIDMPost_eq {p failed : Prog Op Res Unit} {status : ResultCode}
    (h : request.Answers ipc service p fun _ => (status, ipc.parcel.empty))
    (hlawful : ipc.parcel.Lawful contents) :
    userIDMPost ipc delivery service request failed =
      if (ipc.parcel.message request.message).isNone then .ret ()
      else if delivery = .lost then failed else p :=
  remotePost_eq hlawful (h.handles hlawful)

theorem userIDMPost_answered {p failed : Prog Op Res Unit}
    (h : request.Answers ipc service p fun _ => (.success, ipc.parcel.empty))
    (hlawful : ipc.parcel.Lawful contents) (haccepts : ipc.parcel.Accepts) :
    userIDMPost ipc .answered service request failed = p := by
  obtain ⟨data, hdata⟩ := haccepts.message request.message
  rw [userIDMPost_eq h hlawful, hdata]
  rfl

/-- What a client sees of a service: a cancellation that fails does so with one code, and
`EnforceDelUser` is a success before anything is deleted. -/
def IUserIDM.seen (service : IUserIDM Op Res) : IUserIDM Op Res where
  openSession := service.openSession
  openSessionById := service.openSessionById
  closeSession := service.closeSession
  closeSessionById := service.closeSessionById
  getAuthInfo := service.getAuthInfo
  getAuthInfoById := service.getAuthInfoById
  getSecInfo := service.getSecInfo
  addCredential := service.addCredential
  addCredentialById := service.addCredentialById
  updateCredential := service.updateCredential
  updateCredentialById := service.updateCredentialById
  cancel challenge := do
    let ret ← service.cancel challenge
    return if ret = .success then .success else .fail
  cancelById userId := do
    let ret ← service.cancelById userId
    return if ret = .success then .success else .fail
  enforceDelUser userId callback := do
    let _ ← service.enforceDelUser userId callback
    return .success
  delUser := service.delUser
  delUserById := service.delUserById
  delCred := service.delCred
  delCredential := service.delCredential

theorem userIDMCall_unit {p : Prog Op Res Unit}
    (h : request.Answers ipc service p fun _ => (.success, ipc.parcel.empty))
    (hlawful : ipc.parcel.Lawful contents) (haccepts : ipc.parcel.Accepts) :
    userIDMCall ipc .answered service request () () (fun _ => ()) = p :=
  remoteCall_eq hlawful haccepts (h.handles hlawful) (fun _ _ => rfl) fun _ => rfl

theorem userIDMCall_report {p : Prog Op Res ResultCode} {report : Prog Op Res Unit}
    (h : request.Answers ipc service p fun ret =>
      writeReply ipc ipc.parcel.empty .int32 ret .success)
    (hlawful : ipc.parcel.Lawful contents) (haccepts : ipc.parcel.Accepts) :
    (userIDMCall ipc .answered service request .unwritten .failed
      (fun reply => .replied (readUserIDMReply ipc .int32 reply)) >>=
        reportFailure report) = p := by
  rw [userIDMCall, remoteCall_answered hlawful haccepts (h.handles hlawful), Prog.bind_assoc]
  have hvalue (ret : ResultCode) :
      (Prog.ret (if userIDMSucceeded (writeReply ipc ipc.parcel.empty .int32 ret .success).1 then
        Answer.replied (readUserIDMReply ipc .int32
          (writeReply ipc ipc.parcel.empty .int32 ret .success).2) else Answer.failed) >>=
        reportFailure report) = .ret ret := by
    have hok := userIDMSucceeded_of_eq
      (writeReply_accepts haccepts ipc.parcel.empty .int32 ret .success)
    rw [if_pos hok, userIDMReply_givesBack hlawful .int32 (fun _ => .success) ret hok]
    rfl
  simp only [hvalue]
  exact Prog.bind_ret p

/-- `EnforceDelUser` answers before the service has, with what an empty reply reads as. -/
theorem proxyEnforceDelUser_eq {userId : Int32} {callback : ClientCallback}
    {report : Prog Op Res Unit}
    (h : (UserIDMRequest.enforceDelUser userId callback).Answers ipc service p answer)
    (hlawful : ipc.parcel.Lawful contents) (hpast : ipc.parcel.PastEnd contents) :
    proxyEnforceDelUser ipc delivery service userId callback report =
      if (ipc.parcel.message (UserIDMRequest.enforceDelUser userId callback).message).isNone then
        .ret .fail
      else if delivery = .lost then report >>= fun _ => .ret .fail
      else p >>= fun _ => .ret .success := by
  have hread : readUserIDMReply ipc .int32 ipc.parcel.empty = ResultCode.success :=
    (hpast _ .int32 hlawful.empty).1
  rw [proxyEnforceDelUser, hread]
  cases hdata : ipc.parcel.message (UserIDMRequest.enforceDelUser userId callback).message with
  | none => rfl
  | some data =>
    have hrun := h.handles hlawful data (hlawful.message hdata)
    cases delivery with
    | lost => rfl
    | unanswered | answered =>
      dsimp only [post]
      rw [show userIDMOnRemoteRequest ipc service UserIDMCode.enforceDelUser.number data
        ipc.parcel.empty = _ from hrun, Prog.bind_assoc, Prog.bind_assoc]
      rfl

theorem proxyEnforceDelUser_answered {userId : Int32} {callback : ClientCallback}
    {report : Prog Op Res Unit}
    (h : (UserIDMRequest.enforceDelUser userId callback).Answers ipc service p answer)
    (hlawful : ipc.parcel.Lawful contents) (haccepts : ipc.parcel.Accepts)
    (hpast : ipc.parcel.PastEnd contents) :
    proxyEnforceDelUser ipc .answered service userId callback report =
      p >>= fun _ => .ret .success := by
  obtain ⟨data, hdata⟩ :=
    haccepts.message (UserIDMRequest.enforceDelUser userId callback).message
  rw [proxyEnforceDelUser_eq h hlawful hpast, hdata]
  rfl

/-- **What a client sees** when nothing is lost. -/
theorem userIDMProxy_eq (hlawful : ipc.parcel.Lawful contents) (haccepts : ipc.parcel.Accepts)
    (hpast : ipc.parcel.PastEnd contents) (hcast : ∀ callback, ipc.ifaceCast callback = true)
    (callbacks : IDMCallbacks Op Res) (service : IUserIDM Op Res) :
    userIDMProxy ipc .answered service callbacks = service.seen := by
  have hfilter {m : MessageParcel} {callback : ClientCallback} {missing : ResultCode}
      {serve : ClientCallback → Prog Op Res (ResultCode × P)}
      (hm : m.remoteObject = (some callback).filter ipc.ifaceCast) :
      withCallback m ipc.parcel.empty missing serve = serve callback :=
    (withCallback_filter missing serve hm).trans (if_pos (hcast callback))
  ext
  · exact userIDMCall_eq .uint64 (by rfl) hlawful haccepts
  · exact userIDMCall_eq .uint64 (by rfl) hlawful haccepts
  · exact userIDMCall_unit (by rfl) hlawful haccepts
  · exact userIDMCall_unit (by rfl) hlawful haccepts
  · exact userIDMCall_eq .int32 (hfilter (by rfl)) hlawful haccepts
  · exact userIDMCall_report (hfilter (by rfl)) hlawful haccepts
  · exact userIDMCall_report (hfilter (by rfl)) hlawful haccepts
  · exact userIDMPost_answered ((hfilter (by rfl)).trans (addCredInfo_sent _ _ _ _)) hlawful
      haccepts
  · exact userIDMPost_answered ((hfilter (by rfl)).trans (addCredInfo_sent _ _ _ _)) hlawful
      haccepts
  · exact userIDMPost_answered ((hfilter (by rfl)).trans (addCredInfo_sent _ _ _ _)) hlawful
      haccepts
  · exact userIDMPost_answered ((hfilter (by rfl)).trans (addCredInfo_sent _ _ _ _)) hlawful
      haccepts
  · exact userIDMCall_cancel (by rfl) hlawful haccepts
  · exact userIDMCall_cancel (by rfl) hlawful haccepts
  · exact proxyEnforceDelUser_answered (hfilter (by rfl)) hlawful haccepts hpast
  · exact userIDMPost_answered (hfilter (by rfl)) hlawful haccepts
  · exact userIDMPost_answered (hfilter (by rfl)) hlawful haccepts
  · exact userIDMPost_answered (hfilter (by rfl)) hlawful haccepts
  · exact userIDMPost_answered (hfilter (by rfl)) hlawful haccepts

end Transparency

def silentCallbacks : IDMCallbacks UserIDMOp UserIDMRes :=
  ⟨fun _ _ _ => .ret (), fun _ _ => .ret (), fun _ _ => .ret ()⟩

theorem userIDMProxy_service :
    userIDMProxy listUserIDMIpc .answered (userIDMService openPlatform ⟨0, 1, 2⟩)
      silentCallbacks = (userIDMService openPlatform ⟨0, 1, 2⟩).seen :=
  userIDMProxy_eq ParcelApi.ofList_lawful ParcelApi.ofList_accepts ParcelApi.ofList_pastEnd
    (fun _ => rfl) _ _

/-! ## 7. Requests that get lost -/

section BestEffort

variable {P Op : Type} {Res : Op → Type} {ipc : UserIDMIpc P} {contents : P → List UserIDMItem}
  {delivery : Delivery} {service : IUserIDM Op Res} {request : UserIDMRequest} {α : Type}
  {p : Prog Op Res α} {answer : α → ResultCode × P}

/-- The request is answered with what `p` returns, or refused because of its callback. -/
def UserIDMRequest.Served (ipc : UserIDMIpc P) (service : IUserIDM Op Res)
    (request : UserIDMRequest) (p : Prog Op Res α) (answer : α → ResultCode × P) : Prop :=
  request.Answers ipc service p answer ∨
    ∃ status, status ≠ .success ∧ request.Refused ipc service status

theorem UserIDMRequest.served_of_callback {m : MessageParcel} {missing : ResultCode}
    {callback : ClientCallback} {serve : ClientCallback → Prog Op Res (ResultCode × P)}
    (hserve : userIDMServe ipc service (messageParcelOf ipc request.args) ipc.parcel.empty
      request.code = withCallback m ipc.parcel.empty missing serve)
    (hm : m.remoteObject = (some callback).filter ipc.ifaceCast) (hmissing : missing ≠ .success)
    (h : serve callback = p >>= fun a => .ret (answer a)) :
    request.Served ipc service p answer := by
  rw [withCallback_filter missing serve hm] at hserve
  by_cases hcast : ipc.ifaceCast callback = true
  · rw [if_pos hcast] at hserve
    exact .inl (hserve.trans h)
  · rw [if_neg hcast] at hserve
    exact .inr ⟨missing, hmissing, hserve⟩

theorem userIDMCall_atMostOnce (kind : UserIDMKind) {p : Prog Op Res kind.Carrier}
    {status : kind.Carrier → ResultCode} {err : kind.Carrier → Prop}
    {unwritten failed : kind.Carrier}
    (h : request.Served ipc service p fun ret =>
      writeReply ipc ipc.parcel.empty kind ret (status ret))
    (hlawful : ipc.parcel.Lawful contents) (hunwritten : err unwritten) (hfailed : err failed) :
    AtMostOnce err p
      (userIDMCall ipc delivery service request unwritten failed (readUserIDMReply ipc kind)) := by
  rcases h with h | ⟨status, hstatus, h⟩
  · exact remoteCall_atMostOnce hlawful (h.handles hlawful)
      (userIDMReply_givesBack hlawful kind status) hunwritten hfailed
  · exact .inl (remoteCall_refused hlawful
      (fun _ hdata => (userIDMOnRemoteRequest_message hlawful request hdata).trans h)
      (userIDMSucceeded_of_ne hstatus) hunwritten hfailed)

/-- A request without a value. -/
theorem userIDMCall_sent {p : Prog Op Res Unit}
    (h : request.Answers ipc service p fun _ => (.success, ipc.parcel.empty))
    (hlawful : ipc.parcel.Lawful contents) :
    userIDMCall ipc delivery service request () () (fun _ => ()) = .ret () ∨
      userIDMCall ipc delivery service request () () (fun _ => ()) = p := by
  rcases remoteCall_cases hlawful (h.handles hlawful) with heq | heq | ⟨ok, -, heq⟩
  · exact .inl heq
  · exact .inl heq
  · exact .inr (heq.trans (Prog.bind_ret p))

/-- What a request comes to whose failure is reported to the client's callback.  If the reply gets
lost, the report comes on top of what the service has told the callback. -/
def Reported (report : Prog Op Res Unit) (p q : Prog Op Res ResultCode) : Prop :=
  q = .ret .fail ∨ q = (report >>= fun _ => .ret .fail) ∨
    ∃ ok : ResultCode → Bool,
      q = p >>= fun ret => if ok ret then .ret ret else report >>= fun _ => .ret .fail

theorem userIDMCall_reported {p : Prog Op Res ResultCode} {report : Prog Op Res Unit}
    (h : request.Served ipc service p fun ret =>
      writeReply ipc ipc.parcel.empty .int32 ret .success)
    (hlawful : ipc.parcel.Lawful contents) :
    Reported report p (userIDMCall ipc delivery service request .unwritten .failed
      (fun reply => .replied (readUserIDMReply ipc .int32 reply)) >>= reportFailure report) := by
  rcases h with h | ⟨status, hstatus, h⟩
  · rcases remoteCall_cases hlawful (h.handles hlawful) with heq | heq | ⟨ok, hok, heq⟩
    · exact .inl (congrArg (· >>= reportFailure report) heq)
    · exact .inr (.inl (congrArg (· >>= reportFailure report) heq))
    · refine .inr (.inr ⟨ok, ?_⟩)
      rw [userIDMCall, heq, Prog.bind_assoc]
      congr 1
      funext ret
      by_cases hret : ok ret = true
      · rw [if_pos hret, if_pos hret,
          userIDMReply_givesBack hlawful .int32 (fun _ => .success) ret (hok ret hret)]
        rfl
      · rw [if_neg hret, if_neg hret]
        rfl
  · have hrefused : ∃ answer : Answer ResultCode, (answer = .unwritten ∨ answer = .failed) ∧
        userIDMCall ipc delivery service request .unwritten .failed
          (fun reply => .replied (readUserIDMReply ipc .int32 reply)) = .ret answer :=
      remoteCall_refused hlawful
        (fun _ hdata => (userIDMOnRemoteRequest_message hlawful request hdata).trans h)
        (userIDMSucceeded_of_ne hstatus) (.inl rfl) (.inr rfl)
    obtain ⟨answer, hanswer, heq⟩ := hrefused
    rw [heq]
    rcases hanswer with rfl | rfl
    · exact .inl rfl
    · exact .inr (.inl rfl)

theorem userIDMPost_posted {p failed : Prog Op Res Unit}
    (h : request.Served ipc service p fun _ => (.success, ipc.parcel.empty))
    (hlawful : ipc.parcel.Lawful contents) :
    Posted failed p (userIDMPost ipc delivery service request failed) := by
  rcases h with h | ⟨status, -, h⟩
  · exact remotePost_posted hlawful (h.handles hlawful)
  · have hrefused : request.Answers ipc service (.ret ()) fun _ => (status, ipc.parcel.empty) := h
    exact (remotePost_posted hlawful (hrefused.handles hlawful)).of_ret

/-- A success of `EnforceDelUser` says no more than that its message has been sent. -/
def Enforced (report : Prog Op Res Unit) (p q : Prog Op Res ResultCode) : Prop :=
  q = .ret .fail ∨ q = (report >>= fun _ => .ret .fail) ∨ q = .ret .success ∨
    q = p >>= fun _ => .ret .success

theorem proxyEnforceDelUser_enforced {p : Prog Op Res ResultCode} {userId : Int32}
    {callback : ClientCallback} {report : Prog Op Res Unit} {answer : ResultCode → ResultCode × P}
    (h : (UserIDMRequest.enforceDelUser userId callback).Served ipc service p answer)
    (hlawful : ipc.parcel.Lawful contents) (hpast : ipc.parcel.PastEnd contents) :
    Enforced report p (proxyEnforceDelUser ipc delivery service userId callback report) := by
  rcases h with h | ⟨status, -, h⟩
  · rw [proxyEnforceDelUser_eq h hlawful hpast]
    split
    · exact .inl rfl
    · split
      · exact .inr (.inl rfl)
      · exact .inr (.inr (.inr rfl))
  · have hrefused : (UserIDMRequest.enforceDelUser userId callback).Answers ipc service (.ret ())
        fun _ => (status, ipc.parcel.empty) := h
    rw [proxyEnforceDelUser_eq hrefused hlawful hpast]
    split
    · exact .inl rfl
    · split
      · exact .inr (.inl rfl)
      · exact .inr (.inr (.inl rfl))

/-- What a client can rely on when writes fail and messages get lost: a request is carried out once
or not at all, and the client takes an error for a success in neither case, `EnforceDelUser` and the
challenge of a session that is not written apart. -/
structure UserIDMBestEffort (callbacks : IDMCallbacks Op Res) (service proxy : IUserIDM Op Res) :
    Prop where
  openSession : AtMostOnce (fun ret => ret = 0 ∨ ret = 1) service.openSession proxy.openSession
  openSessionById : ∀ userId, AtMostOnce (fun ret => ret = 0 ∨ ret = 1)
    (service.openSessionById userId) (proxy.openSessionById userId)
  closeSession : proxy.closeSession = .ret () ∨ proxy.closeSession = service.closeSession
  closeSessionById : ∀ userId, proxy.closeSessionById userId = .ret () ∨
    proxy.closeSessionById userId = service.closeSessionById userId
  getAuthInfo : ∀ authType callback, AtMostOnce (· = .fail)
    (service.getAuthInfo authType callback) (proxy.getAuthInfo authType callback)
  getAuthInfoById : ∀ userId authType callback, Reported (callbacks.onGetInfo callback [])
    (service.getAuthInfoById userId authType callback)
    (proxy.getAuthInfoById userId authType callback)
  getSecInfo : ∀ userId callback, Reported (callbacks.onGetSecInfo callback ⟨0, 0, []⟩)
    (service.getSecInfo userId callback) (proxy.getSecInfo userId callback)
  addCredential : ∀ credInfo callback, Posted (.ret ())
    (service.addCredential credInfo callback) (proxy.addCredential credInfo callback)
  addCredentialById : ∀ userId credInfo callback, Posted (callbacks.onResult callback .fail 0)
    (service.addCredentialById userId credInfo callback)
    (proxy.addCredentialById userId credInfo callback)
  updateCredential : ∀ credInfo callback, Posted (.ret ())
    (service.updateCredential credInfo callback) (proxy.updateCredential credInfo callback)
  updateCredentialById : ∀ userId credInfo callback, Posted (callbacks.onResult callback .fail 0)
    (service.updateCredentialById userId credInfo callback)
    (proxy.updateCredentialById userId credInfo callback)
  cancel : ∀ challenge, AtMostOnce (· = .fail) (service.cancel challenge) (proxy.cancel challenge)
  cancelById : ∀ userId, AtMostOnce (· = .fail) (service.cancelById userId)
    (proxy.cancelById userId)
  enforceDelUser : ∀ userId callback, Enforced (callbacks.onResult callback .fail 0)
    (service.enforceDelUser userId callback) (proxy.enforceDelUser userId callback)
  delUser : ∀ authToken callback, Posted (.ret ())
    (service.delUser authToken callback) (proxy.delUser authToken callback)
  delUserById : ∀ userId authToken callback, Posted (callbacks.onResult callback .fail 0)
    (service.delUserById userId authToken callback) (proxy.delUserById userId authToken callback)
  delCred : ∀ credentialId authToken callback, Posted (.ret ())
    (service.delCred credentialId authToken callback)
    (proxy.delCred credentialId authToken callback)
  delCredential : ∀ userId credentialId authToken callback,
    Posted (callbacks.onResult callback .fail 0)
      (service.delCredential userId credentialId authToken callback)
      (proxy.delCredential userId credentialId authToken callback)

/-- **The proxy over a lossy connection.** -/
theorem userIDMProxy_bestEffort (hlawful : ipc.parcel.Lawful contents)
    (hpast : ipc.parcel.PastEnd contents) (delivery : Delivery) (callbacks : IDMCallbacks Op Res)
    (service : IUserIDM Op Res) :
    UserIDMBestEffort callbacks service (userIDMProxy ipc delivery service callbacks) := by
  have hfail : ResultCode.fail ≠ .success := by decide
  have hinvalid := ipc.errInvalidValue_ne
  exact {
    openSession := userIDMCall_atMostOnce .uint64 (.inl rfl) hlawful (.inr rfl) (.inl rfl)
    openSessionById := fun userId =>
      userIDMCall_atMostOnce .uint64 (.inl rfl) hlawful (.inr rfl) (.inl rfl)
    closeSession := userIDMCall_sent rfl hlawful
    closeSessionById := fun userId => userIDMCall_sent rfl hlawful
    getAuthInfo := fun authType callback => userIDMCall_atMostOnce .int32
      (UserIDMRequest.served_of_callback rfl rfl hinvalid rfl) hlawful rfl rfl
    getAuthInfoById := fun userId authType callback => userIDMCall_reported
      (UserIDMRequest.served_of_callback rfl rfl hinvalid rfl) hlawful
    getSecInfo := fun userId callback => userIDMCall_reported
      (UserIDMRequest.served_of_callback rfl rfl hinvalid rfl) hlawful
    addCredential := fun credInfo callback => userIDMPost_posted
      (UserIDMRequest.served_of_callback rfl rfl hfail (addCredInfo_sent _ _ _ _)) hlawful
    addCredentialById := fun userId credInfo callback => userIDMPost_posted
      (UserIDMRequest.served_of_callback rfl rfl hfail (addCredInfo_sent _ _ _ _)) hlawful
    updateCredential := fun credInfo callback => userIDMPost_posted
      (UserIDMRequest.served_of_callback rfl rfl hfail (addCredInfo_sent _ _ _ _)) hlawful
    updateCredentialById := fun userId credInfo callback => userIDMPost_posted
      (UserIDMRequest.served_of_callback rfl rfl hfail (addCredInfo_sent _ _ _ _)) hlawful
    cancel := fun challenge => userIDMCall_atMostOnce .int32 (.inl rfl) hlawful rfl rfl
    cancelById := fun userId => userIDMCall_atMostOnce .int32 (.inl rfl) hlawful rfl rfl
    enforceDelUser := fun userId callback => proxyEnforceDelUser_enforced
      (UserIDMRequest.served_of_callback rfl rfl hfail rfl) hlawful hpast
    delUser := fun authToken callback => userIDMPost_posted
      (UserIDMRequest.served_of_callback rfl rfl hfail rfl) hlawful
    delUserById := fun userId authToken callback => userIDMPost_posted
      (UserIDMRequest.served_of_callback rfl rfl hfail rfl) hlawful
    delCred := fun credentialId authToken callback => userIDMPost_posted
      (UserIDMRequest.served_of_callback rfl rfl hfail rfl) hlawful
    delCredential := fun userId credentialId authToken callback => userIDMPost_posted
      (UserIDMRequest.served_of_callback rfl rfl hfail rfl) hlawful }

end BestEffort

theorem userIDMProxy_bestEffort_unanswered :
    UserIDMBestEffort silentCallbacks (userIDMService openPlatform ⟨0, 1, 2⟩)
      (userIDMProxy listUserIDMIpc .unanswered (userIDMService openPlatform ⟨0, 1, 2⟩)
        silentCallbacks) :=
  userIDMProxy_bestEffort ParcelApi.ofList_lawful ParcelApi.ofList_pastEnd _ _ _

end UserIam.UserIDM
