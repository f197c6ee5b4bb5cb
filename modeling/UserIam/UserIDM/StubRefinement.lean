import UserIam.UserIDM.UserIDMIpc
import UserIam.UserIDM.UserIDMSystem

/-!
# From parcels to requests

The machine of the credential manager takes a request with the values that the stub finds in it.
What the stub does with a parcel, whatever the parcel contains, is what the machine does with these
values and with the reply's parcel.
-/

namespace UserIam.UserIDM

open Conc Ipc

/-! ## 1. The service writes no reply -/

/-- The operations of the stub itself. -/
def UserIDMOp.replies : UserIDMOp → Bool
  | .writeUint64 _ | .writeInt32 _ | .ipcObjectStub _ => true
  | _ => false

abbrev WritesNoReply {α : Type} (p : UserIDMProg α) : Prop := p.All (·.replies = false)

section Service

attribute [local simp] UserIDMOp.replies

theorem cancelActive_writesNoReply : WritesNoReply cancelActive := by
  refine ⟨rfl, fun active => ?_⟩
  cases active with
  | none => trivial
  | some sessionId =>
    refine ⟨rfl, fun challenge => ?_⟩
    cases challenge with
    | none => trivial
    | some challenge => exact ⟨rfl, fun _ => trivial⟩

theorem openEditSessionCtrl_writesNoReply (userId : Int32) :
    WritesNoReply (openEditSessionCtrl userId) := by
  have hopen : WritesNoReply (openEditSession userId) := by
    simp [WritesNoReply, openEditSession]
  refine cancelActive_writesNoReply.bind fun _ => ⟨rfl, fun _ => ?_⟩
  exact hopen.bind fun _ => ⟨rfl, fun _ => trivial⟩

theorem closeEditSessionCtrl_writesNoReply : WritesNoReply closeEditSessionCtrl := by
  refine cancelActive_writesNoReply.bind fun _ => ?_
  simp [closeEditSession]

theorem closeEditSessionCtrlById_writesNoReply (userId : Int32) :
    WritesNoReply (closeEditSessionCtrlById userId) := by
  unfold closeEditSessionCtrlById
  refine Prog.All.bind ?_ fun result => ?_
  · simp [closeEditSessionById]
  · split
    · trivial
    · exact cancelActive_writesNoReply.bind fun _ => ⟨rfl, fun _ => trivial⟩

theorem delSchedleIdCtrl_writesNoReply (challenge : UInt64) :
    WritesNoReply (delSchedleIdCtrl challenge) := by
  refine ⟨rfl, fun lastChallenge => ?_⟩
  dsimp only [Prog.bind]
  split
  · trivial
  · refine ⟨rfl, fun active => ?_⟩
    cases active with
    | none => trivial
    | some sessionId =>
      refine ⟨rfl, fun result => ?_⟩
      dsimp only [Prog.bind]
      split
      · trivial
      · exact ⟨rfl, fun _ => trivial⟩

theorem delSchedleIdCtrlById_writesNoReply (userId : Int32) :
    WritesNoReply (delSchedleIdCtrlById userId) := by
  unfold delSchedleIdCtrlById
  refine Prog.All.bind ?_ fun result => ?_
  · simp [cancelEnrollment]
  · split
    · trivial
    · refine ⟨rfl, fun challenge => ?_⟩
      cases challenge with
      | none => trivial
      | some challenge =>
        refine ⟨rfl, fun active => ?_⟩
        cases active with
        | none => trivial
        | some sessionId => exact ⟨rfl, fun _ => ⟨rfl, fun _ => trivial⟩⟩

theorem startEnrolment_writesNoReply (type : CoAuthType) (authInfo : CoAuth.AuthInfo)
    (credInfo : AddCredInfo) (userId : Int32) (callback : ClientCallback) :
    WritesNoReply (startEnrolment type authInfo credInfo userId callback) := by
  refine ⟨rfl, fun challenge => ?_⟩
  cases challenge with
  | none => exact ⟨rfl, fun _ => trivial⟩
  | some challenge =>
    refine ⟨rfl, fun active => ?_⟩
    cases active with
    | some sessionId => exact ⟨rfl, fun _ => trivial⟩
    | none =>
      have hinit : WritesNoReply (initSchedule credInfo.token userId credInfo.authType) :=
        initSchedule_all rfl rfl
      refine hinit.bind fun r => ?_
      cases r with
      | ok info => exact ⟨rfl, fun _ => ⟨rfl, fun _ => trivial⟩⟩
      | error ret => exact ⟨rfl, fun _ => trivial⟩

theorem queryCredential_writesNoReply (userId : Int32) (authType : AuthType) :
    WritesNoReply (queryCredential userId authType) := by
  simp [WritesNoReply, queryCredential]

theorem delExecutorPinInfoCtrl_writesNoReply (innerCallback : ClientCallback)
    (infos : List CredentialInfo) : WritesNoReply (delExecutorPinInfoCtrl innerCallback infos) := by
  have hloop (infos : List CredentialInfo) :
      WritesNoReply (delExecutorInfo (some innerCallback) infos) := by
    induction infos with
    | nil => trivial
    | cons info infos ih =>
      rw [delExecutorInfo]
      split
      · exact ⟨rfl, fun _ => ih⟩
      · split
        · exact ⟨rfl, fun _ => ih⟩
        · exact ih
  rw [delExecutorPinInfoCtrl]
  split
  · exact ⟨rfl, fun _ => trivial⟩
  · exact (hloop infos).bind fun _ => trivial

theorem delUserOf_writesNoReply (userId : Int32) (authToken : List UInt8)
    (callback : ClientCallback) : WritesNoReply (delUserOf userId authToken callback) := by
  have hdelete : WritesNoReply (deleteUserCtrl userId authToken) := by
    simp [WritesNoReply, deleteUserCtrl, deleteUser]
  refine hdelete.bind fun r => ?_
  cases r with
  | error ret => exact ⟨rfl, fun _ => trivial⟩
  | ok credInfos => exact (delExecutorPinInfoCtrl_writesNoReply _ _).discard

theorem delCredentialOf_writesNoReply (userId : Int32) (credentialId : UInt64)
    (authToken : List UInt8) (callback : ClientCallback) :
    WritesNoReply (delCredentialOf userId credentialId authToken callback) := by
  have hdelete : WritesNoReply (deleteCredentialCtrl userId credentialId authToken) := by
    simp [WritesNoReply, deleteCredentialCtrl, deleteCredential]
  refine hdelete.bind fun r => ?_
  cases r with
  | error ret => exact ⟨rfl, fun _ => trivial⟩
  | ok info =>
    refine Prog.All.discard ?_
    simp [delFaceCredentialCtrl]

theorem serviceGetAuthInfoById_writesNoReply (userId : Int32) (authType : AuthType)
    (callback : ClientCallback) :
    WritesNoReply (serviceGetAuthInfoById userId authType (some callback)) :=
  (queryCredential_writesNoReply userId authType).bind fun _ => ⟨rfl, fun _ => trivial⟩

theorem serviceGetSecInfo_writesNoReply (userId : Int32) (callback : ClientCallback) :
    WritesNoReply (serviceGetSecInfo userId (some callback)) := by
  have hsecure : WritesNoReply (getSecureInfoCtrl userId) := by
    simp [WritesNoReply, getSecureInfoCtrl, getSecureUid]
  refine hsecure.bind fun r => ?_
  simp

theorem serviceEnforceDelUser_writesNoReply (userId : Int32) (callback : ClientCallback) :
    WritesNoReply (serviceEnforceDelUser userId (some callback)) := by
  have hdelete : WritesNoReply (deleteUserByForceCtrl userId) := by
    simp [WritesNoReply, deleteUserByForceCtrl, deleteUserEnforce]
  refine hdelete.bind fun r => ?_
  cases r with
  | error ret => exact ⟨rfl, fun _ => trivial⟩
  | ok credInfos => exact delExecutorPinInfoCtrl_writesNoReply _ _

end Service

/-- A function that goes on only if the caller has the permission. -/
theorem writesNoReply_ite {α : Type} {c : Prop} [Decidable c] {p q : UserIDMProg α}
    (hp : WritesNoReply p) (hq : WritesNoReply q) : WritesNoReply (if c then p else q) :=
  Prog.all_ite.mpr ⟨fun _ => hp, fun _ => hq⟩

section Users

variable (platform : Platform) (caller : Caller)

/-- A function that reports an error to the callback. -/
theorem onResult_writesNoReply (callback : ClientCallback) (ret : ResultCode) :
    WritesNoReply (atomic (.onResult callback ret 0)) := ⟨rfl, fun _ => trivial⟩

theorem serviceOpenSession_writesNoReply : WritesNoReply (serviceOpenSession platform caller) := by
  refine writesNoReply_ite trivial ?_
  split
  · trivial
  · exact openEditSessionCtrl_writesNoReply _

theorem serviceGetAuthInfo_writesNoReply (authType : AuthType) (callback : ClientCallback) :
    WritesNoReply (serviceGetAuthInfo platform caller authType (some callback)) := by
  refine writesNoReply_ite trivial ?_
  split
  · trivial
  · exact serviceGetAuthInfoById_writesNoReply _ authType callback

theorem serviceAddCredentialById_writesNoReply (userId : Int32) (credInfo : AddCredInfo)
    (callback : ClientCallback) :
    WritesNoReply (serviceAddCredentialById platform caller userId credInfo (some callback)) :=
  writesNoReply_ite (onResult_writesNoReply _ _)
    (startEnrolment_writesNoReply _ _ credInfo userId callback).discard

theorem serviceAddCredential_writesNoReply (credInfo : AddCredInfo) (callback : ClientCallback) :
    WritesNoReply (serviceAddCredential platform caller credInfo (some callback)) := by
  refine writesNoReply_ite (onResult_writesNoReply _ _) ?_
  split
  · exact onResult_writesNoReply _ _
  · exact (startEnrolment_writesNoReply _ _ credInfo _ callback).discard

theorem serviceUpdateCredentialById_writesNoReply (userId : Int32) (credInfo : AddCredInfo)
    (callback : ClientCallback) :
    WritesNoReply (serviceUpdateCredentialById platform caller userId credInfo (some callback)) :=
  writesNoReply_ite (onResult_writesNoReply _ _)
    (startEnrolment_writesNoReply _ _ credInfo userId callback).discard

theorem serviceUpdateCredential_writesNoReply (credInfo : AddCredInfo)
    (callback : ClientCallback) :
    WritesNoReply (serviceUpdateCredential platform caller credInfo (some callback)) := by
  refine writesNoReply_ite (onResult_writesNoReply _ _) ?_
  split
  · exact onResult_writesNoReply _ _
  · exact (startEnrolment_writesNoReply _ _ credInfo _ callback).discard

theorem serviceDelUser_writesNoReply (authToken : List UInt8) (callback : ClientCallback) :
    WritesNoReply (serviceDelUser platform caller authToken (some callback)) := by
  refine writesNoReply_ite (onResult_writesNoReply _ _) ?_
  split
  · exact onResult_writesNoReply _ _
  · exact delUserOf_writesNoReply _ authToken callback

theorem serviceDelCred_writesNoReply (credentialId : UInt64) (authToken : List UInt8)
    (callback : ClientCallback) :
    WritesNoReply (serviceDelCred platform caller credentialId authToken (some callback)) := by
  refine writesNoReply_ite (onResult_writesNoReply _ _) ?_
  split
  · exact (onResult_writesNoReply _ _).bind fun _ => delCredentialOf_writesNoReply _ _ _ _
  · exact delCredentialOf_writesNoReply _ _ _ _

end Users

/-! ## 2. Replies -/

section Replies

variable {P : Type} (ipc : UserIDMIpc P) (data : P)

/-- The operations of the stub, on the parcel of the reply. -/
def replyHandler : (o : UserIDMOp) → P → UserIDMProg (UserIDMRes o × P)
  | .writeUint64 value, reply =>
    .ret ((ipc.parcel.write reply .uint64 value).elim (false, reply) fun reply => (true, reply))
  | .writeInt32 value, reply =>
    .ret ((ipc.parcel.write reply .int32 value).elim (false, reply) fun reply => (true, reply))
  | .ipcObjectStub code, reply => .ret (ipc.objectStub code data reply)
  | o, reply => .call o fun r => .ret (r, reply)

variable {ipc data} {α β : Type} {p : UserIDMProg α} {reply : P}

theorem replyHandler_of_not_replies {o : UserIDMOp} (ho : o.replies = false) (reply : P) :
    replyHandler ipc data o reply = .call o fun r => .ret (r, reply) := by
  cases o <;> first | rfl | cases ho

theorem WritesNoReply.interp (hp : WritesNoReply p) (reply : P) :
    p.interpState (replyHandler ipc data) reply = p >>= fun a => .ret (a, reply) :=
  hp.interpState (fun _ ho reply => replyHandler_of_not_replies ho reply) reply

/-- What a service function runs before its value is answered. -/
theorem WritesNoReply.interp_bind {f : α → UserIDMProg β}
    {answer : α → β × P} (hp : WritesNoReply p)
    (hf : ∀ a, (f a).interpState (replyHandler ipc data) reply = .ret (answer a)) :
    (p >>= f).interpState (replyHandler ipc data) reply = p >>= fun a => .ret (answer a) := by
  rw [Prog.interpState_bind, hp.interp, Prog.bind_assoc]
  exact congrArg (p >>= ·) (funext hf)

theorem replyUint64_interp (value : UInt64) (ret : ResultCode) :
    (replyUint64 value ret).interpState (replyHandler ipc data) reply =
      .ret (writeReply ipc reply .uint64 value ret) := by
  rw [writeReply]
  cases hwrite : ipc.parcel.write reply .uint64 value <;>
    simp [replyUint64, Prog.interpState, replyHandler, hwrite]

theorem replyInt32_interp (value ret : ResultCode) :
    (replyInt32 value ret).interpState (replyHandler ipc data) reply =
      .ret (writeReply ipc reply .int32 value ret) := by
  rw [writeReply]
  cases hwrite : ipc.parcel.write reply .int32 value <;>
    simp [replyInt32, Prog.interpState, replyHandler, hwrite]

/-! ## 3. The refinement -/

section Refinement

variable {platform : Platform} {caller : Caller} {m : MessageParcel}

/-- A function without a value. -/
theorem plain_interp {p : UserIDMProg Unit} (hp : WritesNoReply p) :
    (p >>= fun _ => pure ResultCode.success).interpState (replyHandler ipc data) reply =
      p >>= fun _ => .ret (.success, reply) :=
  hp.interp_bind fun _ => rfl

/-- A function that goes on only if it has a callback. -/
theorem callback_interp {missing missing' : ResultCode} {f : Option ClientCallback → UserIDMProg β}
    {after : β → UserIDMProg ResultCode}
    {serve : ClientCallback → UserIDMProg (ResultCode × P)} (hmissing : missing' = missing)
    (hserve : ∀ callback,
      (f (some callback) >>= after).interpState (replyHandler ipc data) reply = serve callback) :
    (if m.remoteObject.isNone then pure missing' else f m.remoteObject >>= after).interpState
      (replyHandler ipc data) reply = withCallback m reply missing serve := by
  rw [withCallback]
  cases m.remoteObject with
  | none =>
    rw [hmissing]
    rfl
  | some callback => exact hserve callback

theorem stubFunction_interp (hinvalid : platform.errInvalidValue = ipc.errInvalidValue)
    (code : UserIDMCode) :
    (stubFunction platform caller m code).interpState (replyHandler ipc data) reply =
      userIDMServe ipc (userIDMService platform caller) m reply code := by
  cases code with
  | openSession =>
    exact (serviceOpenSession_writesNoReply platform caller).interp_bind
      fun ret => replyUint64_interp ret _
  | openSessionById =>
    exact WritesNoReply.interp_bind
      (writesNoReply_ite trivial (openEditSessionCtrl_writesNoReply m.int32))
      fun ret => replyUint64_interp ret _
  | closeSession =>
    exact plain_interp (writesNoReply_ite trivial closeEditSessionCtrl_writesNoReply)
  | closeSessionById =>
    exact plain_interp (writesNoReply_ite trivial (closeEditSessionCtrlById_writesNoReply m.int32))
  | getAuthInfo =>
    refine callback_interp hinvalid fun callback => ?_
    exact (serviceGetAuthInfo_writesNoReply platform caller m.uint32 callback).interp_bind
      fun ret => replyInt32_interp ret _
  | getAuthInfoById =>
    refine callback_interp hinvalid fun callback => ?_
    exact (serviceGetAuthInfoById_writesNoReply m.int32 m.uint32 callback).interp_bind
      fun ret => replyInt32_interp ret _
  | getSecInfo =>
    refine callback_interp hinvalid fun callback => ?_
    exact (serviceGetSecInfo_writesNoReply m.int32 callback).interp_bind
      fun ret => replyInt32_interp ret _
  | addCredential =>
    exact callback_interp rfl fun callback =>
      plain_interp (serviceAddCredential_writesNoReply platform caller m.addCredInfo callback)
  | addCredentialById =>
    exact callback_interp rfl fun callback => plain_interp
      (serviceAddCredentialById_writesNoReply platform caller m.int32 m.addCredInfo callback)
  | updateCredential =>
    exact callback_interp rfl fun callback =>
      plain_interp (serviceUpdateCredential_writesNoReply platform caller m.addCredInfo callback)
  | updateCredentialById =>
    exact callback_interp rfl fun callback => plain_interp
      (serviceUpdateCredentialById_writesNoReply platform caller m.int32 m.addCredInfo callback)
  | cancel =>
    exact WritesNoReply.interp_bind
      (writesNoReply_ite trivial (delSchedleIdCtrl_writesNoReply m.uint64))
      fun ret => replyInt32_interp ret ret
  | cancelById =>
    exact WritesNoReply.interp_bind
      (writesNoReply_ite trivial (delSchedleIdCtrlById_writesNoReply m.int32))
      fun ret => replyInt32_interp ret ret
  | enforceDelUser =>
    refine callback_interp rfl fun callback => ?_
    exact (serviceEnforceDelUser_writesNoReply m.int32 callback).interp_bind
      fun ret => replyInt32_interp ret ret
  | delUser =>
    exact callback_interp rfl fun callback =>
      plain_interp (serviceDelUser_writesNoReply platform caller m.uint8Vector callback)
  | delUserById =>
    exact callback_interp rfl fun callback => plain_interp
      (writesNoReply_ite (onResult_writesNoReply _ _) (delUserOf_writesNoReply _ _ callback))
  | delCred =>
    exact callback_interp rfl fun callback =>
      plain_interp (serviceDelCred_writesNoReply platform caller m.uint64 m.uint8Vector callback)
  | delCredential =>
    exact callback_interp rfl fun callback => plain_interp (writesNoReply_ite
      (onResult_writesNoReply _ _) (delCredentialOf_writesNoReply _ _ _ callback))

/-- What the stub finds in a parcel behind the token, and the token. -/
def parcelOf (ipc : UserIDMIpc P) (code : UInt32) (data : P) : MessageParcel :=
  let (remoteDescripter, data) := ipc.parcel.read data .interfaceToken
  let kinds := (userIDMCodes[code.toNat]?).elim [] UserIDMCode.reads
  { messageParcelOf ipc (ipc.parcel.readAll kinds data) with interfaceToken := remoteDescripter }

theorem serve_interfaceToken (code : UserIDMCode) (service : IUserIDM UserIDMOp UserIDMRes)
    (token : String) :
    userIDMServe ipc service { m with interfaceToken := token } reply code =
      userIDMServe ipc service m reply code := by
  cases code <;> rfl

/-- **The stub on a parcel is the stub of the machine**: on any parcel, whatever its reads find, the
stub does what a request of the machine with these values does, the reply's parcel included. -/
theorem onRemoteRequest_interp (hinvalid : platform.errInvalidValue = ipc.errInvalidValue)
    (code : UInt32) (data reply : P) :
    userIDMOnRemoteRequest ipc (userIDMService platform caller) code data reply =
      (onRemoteRequest platform caller (parcelOf ipc code data) code).interpState
        (replyHandler ipc (ipc.parcel.read data .interfaceToken).2) reply := by
  rw [userIDMOnRemoteRequest, onRemoteRequest, parcelOf]
  dsimp only
  by_cases htoken : userIDMDescriptor ≠ (ipc.parcel.read data .interfaceToken).1
  · rw [if_pos htoken, if_pos htoken]
    rfl
  · rw [if_neg htoken, if_neg htoken]
    cases hcode : userIDMCodes[code.toNat]? with
    | none => rfl
    | some pFunction =>
      dsimp only [Option.elim_some]
      rw [stubFunction_interp hinvalid]
      exact (serve_interfaceToken pFunction _ _).symm

end Refinement

end Replies

/-- The user whose session is to be closed is missing. -/
theorem onRemoteRequest_interp_cut :
    userIDMOnRemoteRequest listUserIDMIpc (userIDMService openPlatform ⟨0, 1, 2⟩) 3
        [⟨.interfaceToken, userIDMDescriptor⟩] [] =
      (onRemoteRequest openPlatform ⟨0, 1, 2⟩
        (parcelOf listUserIDMIpc 3 [⟨.interfaceToken, userIDMDescriptor⟩]) 3).interpState
          (replyHandler listUserIDMIpc []) [] :=
  onRemoteRequest_interp rfl 3 _ []

end UserIam.UserIDM
