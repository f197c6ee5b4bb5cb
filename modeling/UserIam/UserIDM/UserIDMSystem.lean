import UserIam.Conc.Mutex
import UserIam.UserIDM.UserIDMService

/-!
# The credential manager as a machine

Any number of requests, controller calls and callbacks run interleaved over one session.  A handler
can be called back as soon as CoAuth has been given it, and any number of times.
-/

namespace UserIam.UserIDM

open Conc

/-! ## 1. The machine -/

inductive ControllerCall where
  | openEditSession (userId : Int32)
  | closeEditSession
  | closeEditSessionById (userId : Int32)
  | getAuthInfo (userId : Int32) (authType : AuthType)
  | getSecureInfo (userId : Int32)
  | addCredential (userId : Int32) (callerID : UInt64) (credInfo : AddCredInfo)
      (innerkitsCallback : Option ClientCallback)
  | updateCredential (userId : Int32) (callerID : UInt64) (callerName : List UInt8)
      (credInfo : AddCredInfo) (innerkitsCallback : Option ClientCallback)
  | delSchedleId (challenge : UInt64)
  | delSchedleIdById (userId : Int32)
  | deleteCredential (userId : Int32) (credentialId : UInt64) (authToken : List UInt8)
  | deleteUser (userId : Int32) (authToken : List UInt8)
  | deleteUserByForce (userId : Int32)
  | delFaceCredential (info : CredentialInfo) (innerCallback : Option ClientCallback)
  | delExecutorPinInfo (innerCallback : ClientCallback) (info : List CredentialInfo)

inductive UserIDMCall where
  | request (caller : Caller) (code : UInt32) (data : MessageParcel)
  | controller (call : ControllerCall)
  | onFinish (i : Nat) (handler : UserIDMCoAuthHandler) (resultCode : UInt32)
      (scheduleToken : List UInt8)
  | onAcquireInfo (i : Nat) (handler : UserIDMCoAuthHandler) (acquire : UInt32)
  | onResult (i : Nat) (handler : UserIDMSetPropHandler) (result : UInt32)

def controllerBody : ControllerCall → UserIDMProg Unit
  | .openEditSession userId => Prog.discard (openEditSessionCtrl userId)
  | .closeEditSession => closeEditSessionCtrl
  | .closeEditSessionById userId => closeEditSessionCtrlById userId
  | .getAuthInfo userId authType => Prog.discard (getAuthInfoCtrl userId authType)
  | .getSecureInfo userId => Prog.discard (getSecureInfoCtrl userId)
  | .addCredential userId callerID credInfo innerkitsCallback =>
    Prog.discard (addCredentialCtrl userId callerID credInfo innerkitsCallback)
  | .updateCredential userId callerID callerName credInfo innerkitsCallback =>
    Prog.discard (updateCredentialCtrl userId callerID callerName credInfo innerkitsCallback)
  | .delSchedleId challenge => Prog.discard (delSchedleIdCtrl challenge)
  | .delSchedleIdById userId => Prog.discard (delSchedleIdCtrlById userId)
  | .deleteCredential userId credentialId authToken =>
    Prog.discard (deleteCredentialCtrl userId credentialId authToken)
  | .deleteUser userId authToken => Prog.discard (deleteUserCtrl userId authToken)
  | .deleteUserByForce userId => Prog.discard (deleteUserByForceCtrl userId)
  | .delFaceCredential info innerCallback =>
    Prog.discard (delFaceCredentialCtrl info innerCallback)
  | .delExecutorPinInfo innerCallback info =>
    Prog.discard (delExecutorPinInfoCtrl innerCallback info)

def userIDMBody (platform : Platform) : UserIDMCall → UserIDMProg Unit
  | .request caller code data => Prog.discard (onRemoteRequest platform caller data code)
  | .controller call => controllerBody call
  | .onFinish i handler resultCode scheduleToken => onFinish i handler resultCode scheduleToken
  | .onAcquireInfo i handler acquire => onAcquireInfo i handler acquire
  | .onResult i handler result => onResult i handler result

/-- A handler is called back only after CoAuth has been given it. -/
def userIDMAccept (s : UserIDMState) : UserIDMCall → Option UserIDMState
  | .request .. | .controller _ => some s
  | .onFinish i handler .. | .onAcquireInfo i handler _ =>
    if s.coAuthHandlers[i]? = some handler then some s else none
  | .onResult i handler _ => if s.setPropHandlers[i]? = some handler then some s else none

abbrev UserIDMWorld := World UserIDMOp UserIDMRes UserIDMState UserIDMCall
abbrev UserIDMEvent := Event UserIDMOp UserIDMRes UserIDMCall
abbrev UserIDMMove := Move UserIDMOp UserIDMEnv UserIDMCall
abbrev UserIDMConfig := Config UserIDMOp UserIDMRes UserIDMState UserIDMCall

def userIDM (platform : Platform) :
    Machine UserIDMOp UserIDMRes UserIDMEnv UserIDMState UserIDMCall where
  enabled _ o _ s := userIDMEnabled s o
  handle tid o env s := userIDMHandle tid env s o
  accept call s := userIDMAccept s call
  body := userIDMBody platform

theorem eq_of_userIDMAccept {s s' : UserIDMState} {call : UserIDMCall}
    (h : userIDMAccept s call = some s') : s' = s := by
  unfold userIDMAccept at h
  split at h
  · exact (Option.some.inj h).symm
  · exact (Option.some.inj h).symm
  all_goals
    split at h
    · exact (Option.some.inj h).symm
    · cases h

/-! ## 2. What the requests do to a session -/

/-- The operations that neither read nor write the session, begin or commit an enrolment, give
CoAuth an enrolment, take one back or touch a mutex. -/
def UserIDMOp.neutral : UserIDMOp → Bool
  | .insertChallenge _ | .insertScheduleId _ | .deleteSessionId | .cleanData => false
  | .checkChallenge | .checkScheduleIdIsActive => false
  | .beginEnrollment .. | .updateEnrollmentResult .. => false
  | .beginSchedule .. | .cancel _ => false
  | .lock _ | .unlock _ => false
  | _ => true

abbrev Neutral (o : UserIDMOp) : Prop := o.neutral = true

/-- The controller functions that work on the session. -/
inductive SessionProg : {β : Type} → UserIDMProg β → Prop where
  | openEditSession (userId : Int32) : SessionProg (openEditSessionCtrl userId)
  | closeEditSession : SessionProg closeEditSessionCtrl
  | closeEditSessionById (userId : Int32) : SessionProg (closeEditSessionCtrlById userId)
  | addCredential (userId : Int32) (callerID : UInt64) (credInfo : AddCredInfo)
      (callback : Option ClientCallback) :
      SessionProg (addCredentialCtrl userId callerID credInfo callback)
  | updateCredential (userId : Int32) (callerID : UInt64) (callerName : List UInt8)
      (credInfo : AddCredInfo) (callback : Option ClientCallback) :
      SessionProg (updateCredentialCtrl userId callerID callerName credInfo callback)
  | delSchedleId (challenge : UInt64) : SessionProg (delSchedleIdCtrl challenge)
  | delSchedleIdById (userId : Int32) : SessionProg (delSchedleIdCtrlById userId)

/-- The program runs at most one function that works on the session, and nothing before it. -/
def OneSession {α : Type} (p : UserIDMProg α) : Prop :=
  p.All Neutral ∨
    ∃ (β : Type) (q : UserIDMProg β) (f : β → UserIDMProg α),
      SessionProg q ∧ (∀ b, (f b).All Neutral) ∧ p = q >>= f

variable {α β : Type} {p : UserIDMProg α} {f : α → UserIDMProg β}

theorem SessionProg.oneSession (h : SessionProg p) : OneSession p :=
  .inr ⟨α, p, .ret, h, fun _ => trivial, (Prog.bind_ret p).symm⟩

theorem OneSession.bind (hp : OneSession p) (hf : ∀ a, (f a).All Neutral) :
    OneSession (p >>= f) := by
  rcases hp with hp | ⟨γ, q, g, hq, hg, rfl⟩
  · exact .inl (hp.bind hf)
  · exact .inr ⟨γ, q, fun c => g c >>= f, hq, fun c => (hg c).bind hf, Prog.bind_assoc q g f⟩

theorem OneSession.ite {c : Prop} [Decidable c] {p q : UserIDMProg α} (hp : OneSession p)
    (hq : OneSession q) : OneSession (if c then p else q) := by
  split
  · exact hp
  · exact hq

/-! ### Programs that leave the session alone -/

section Neutral

attribute [local simp] UserIDMOp.neutral

theorem queryCredential_neutral (userId : Int32) (authType : AuthType) :
    (queryCredential userId authType).All Neutral := by
  simp [queryCredential, Neutral]

theorem getSecureUid_neutral (userId : Int32) : (getSecureUid userId).All Neutral := by
  simp [getSecureUid, Neutral]

theorem deleteCredential_neutral (userId : Int32) (credentialId : UInt64) (authToken : List UInt8) :
    (deleteCredential userId credentialId authToken).All Neutral := by
  simp [deleteCredential, Neutral]

theorem deleteUser_neutral (userId : Int32) (authToken : List UInt8) :
    (deleteUser userId authToken).All Neutral := by
  simp [deleteUser, Neutral]

theorem deleteUserEnforce_neutral (userId : Int32) :
    (deleteUserEnforce userId).All Neutral := by
  simp [deleteUserEnforce, Neutral]

theorem delFaceCredentialCtrl_neutral (info : CredentialInfo)
    (innerCallback : Option ClientCallback) :
    (delFaceCredentialCtrl info innerCallback).All Neutral := by
  simp [delFaceCredentialCtrl, Neutral]

theorem delExecutorInfo_neutral (innerCallback : Option ClientCallback)
    (infos : List CredentialInfo) : (delExecutorInfo innerCallback infos).All Neutral := by
  induction infos with
  | nil => trivial
  | cons info infos ih =>
    rw [delExecutorInfo]
    split
    · exact ⟨rfl, fun _ => ih⟩
    · split
      · exact ⟨rfl, fun _ => ih⟩
      · exact ih

theorem delExecutorPinInfoCtrl_neutral (innerCallback : ClientCallback)
    (info : List CredentialInfo) : (delExecutorPinInfoCtrl innerCallback info).All Neutral := by
  rw [delExecutorPinInfoCtrl]
  split
  · exact ⟨rfl, fun _ => trivial⟩
  · exact (delExecutorInfo_neutral _ _).bind fun _ => trivial

theorem serviceGetAuthInfoById_neutral (userId : Int32) (authType : AuthType)
    (callback : Option ClientCallback) :
    (serviceGetAuthInfoById userId authType callback).All Neutral := by
  cases callback with
  | none => trivial
  | some callback =>
    exact (queryCredential_neutral userId authType).bind fun _ => ⟨rfl, fun _ => trivial⟩

theorem serviceGetAuthInfo_neutral (platform : Platform) (caller : Caller) (authType : AuthType)
    (callback : Option ClientCallback) :
    (serviceGetAuthInfo platform caller authType callback).All Neutral := by
  cases callback with
  | none => trivial
  | some callback =>
    rw [serviceGetAuthInfo]
    split
    · trivial
    · split
      · trivial
      · exact serviceGetAuthInfoById_neutral _ authType (some callback)

theorem serviceGetSecInfo_neutral (userId : Int32) (callback : Option ClientCallback) :
    (serviceGetSecInfo userId callback).All Neutral := by
  cases callback with
  | none => trivial
  | some callback =>
    refine (getSecureUid_neutral userId).bind fun r => ?_
    simp [Neutral]

theorem serviceEnforceDelUser_neutral (userId : Int32) (callback : Option ClientCallback) :
    (serviceEnforceDelUser userId callback).All Neutral := by
  cases callback with
  | none => trivial
  | some callback =>
    refine (deleteUserEnforce_neutral userId).bind fun r => ?_
    cases r with
    | error ret => exact ⟨rfl, fun _ => trivial⟩
    | ok credInfos => exact delExecutorPinInfoCtrl_neutral _ _

theorem delUserOf_neutral (userId : Int32) (authToken : List UInt8) (callback : ClientCallback) :
    (delUserOf userId authToken callback).All Neutral := by
  refine (deleteUser_neutral userId authToken).bind fun r => ?_
  cases r with
  | error ret => exact ⟨rfl, fun _ => trivial⟩
  | ok credInfos => exact (delExecutorPinInfoCtrl_neutral _ _).discard

theorem delCredentialOf_neutral (userId : Int32) (credentialId : UInt64) (authToken : List UInt8)
    (callback : ClientCallback) :
    (delCredentialOf userId credentialId authToken callback).All Neutral := by
  refine (deleteCredential_neutral userId credentialId authToken).bind fun r => ?_
  cases r with
  | error ret => exact ⟨rfl, fun _ => trivial⟩
  | ok info => exact (delFaceCredentialCtrl_neutral _ _).discard

theorem replyUint64_neutral (value : UInt64) (ret : ResultCode) :
    (replyUint64 value ret).All Neutral := by
  simp [replyUint64, Neutral]

theorem replyInt32_neutral (value ret : ResultCode) : (replyInt32 value ret).All Neutral := by
  simp [replyInt32, Neutral]

end Neutral

/-! ### Requests -/

section Requests

variable (platform : Platform) (caller : Caller) (data : MessageParcel)

/-- A service function that reports an error to the callback. -/
theorem oneSession_onResult (callback : ClientCallback) (ret : ResultCode) :
    OneSession (atomic (.onResult callback ret 0)) :=
  .inl ⟨rfl, fun _ => trivial⟩

theorem serviceOpenSession_oneSession : OneSession (serviceOpenSession platform caller) := by
  apply OneSession.ite
  · exact .inl trivial
  · split
    · exact .inl trivial
    · exact (SessionProg.openEditSession _).oneSession

theorem serviceAddCredential_oneSession (credInfo : AddCredInfo)
    (callback : Option ClientCallback) :
    OneSession (serviceAddCredential platform caller credInfo callback) := by
  cases callback with
  | none => exact .inl trivial
  | some callback =>
    apply OneSession.ite
    · exact oneSession_onResult callback _
    · split
      · exact oneSession_onResult callback _
      · exact (SessionProg.addCredential _ _ _ _).oneSession.bind fun _ => trivial

theorem serviceAddCredentialById_oneSession (userId : Int32) (credInfo : AddCredInfo)
    (callback : Option ClientCallback) :
    OneSession (serviceAddCredentialById platform caller userId credInfo callback) := by
  cases callback with
  | none => exact .inl trivial
  | some callback =>
    apply OneSession.ite
    · exact oneSession_onResult callback _
    · exact (SessionProg.addCredential _ _ _ _).oneSession.bind fun _ => trivial

theorem serviceUpdateCredential_oneSession (credInfo : AddCredInfo)
    (callback : Option ClientCallback) :
    OneSession (serviceUpdateCredential platform caller credInfo callback) := by
  cases callback with
  | none => exact .inl trivial
  | some callback =>
    apply OneSession.ite
    · exact oneSession_onResult callback _
    · split
      · exact oneSession_onResult callback _
      · exact (SessionProg.updateCredential _ _ _ _ _).oneSession.bind fun _ => trivial

theorem serviceUpdateCredentialById_oneSession (userId : Int32) (credInfo : AddCredInfo)
    (callback : Option ClientCallback) :
    OneSession (serviceUpdateCredentialById platform caller userId credInfo callback) := by
  cases callback with
  | none => exact .inl trivial
  | some callback =>
    apply OneSession.ite
    · exact oneSession_onResult callback _
    · exact (SessionProg.updateCredential _ _ _ _ _).oneSession.bind fun _ => trivial

theorem serviceDelUser_oneSession (authToken : List UInt8) (callback : Option ClientCallback) :
    OneSession (serviceDelUser platform caller authToken callback) := by
  cases callback with
  | none => exact .inl trivial
  | some callback =>
    apply OneSession.ite
    · exact oneSession_onResult callback _
    · split
      · exact oneSession_onResult callback _
      · exact .inl (delUserOf_neutral _ _ _)

theorem serviceDelUserById_oneSession (userId : Int32) (authToken : List UInt8)
    (callback : Option ClientCallback) :
    OneSession (serviceDelUserById platform caller userId authToken callback) := by
  cases callback with
  | none => exact .inl trivial
  | some callback =>
    apply OneSession.ite
    · exact oneSession_onResult callback _
    · exact .inl (delUserOf_neutral _ _ _)

theorem serviceDelCred_oneSession (credentialId : UInt64) (authToken : List UInt8)
    (callback : Option ClientCallback) :
    OneSession (serviceDelCred platform caller credentialId authToken callback) := by
  cases callback with
  | none => exact .inl trivial
  | some callback =>
    apply OneSession.ite
    · exact oneSession_onResult callback _
    · split
      · exact .inl ⟨rfl, fun _ => delCredentialOf_neutral _ _ _ _⟩
      · exact .inl (delCredentialOf_neutral _ _ _ _)

theorem serviceDelCredential_oneSession (userId : Int32) (credentialId : UInt64)
    (authToken : List UInt8) (callback : Option ClientCallback) :
    OneSession (serviceDelCredential platform caller userId credentialId authToken callback) := by
  cases callback with
  | none => exact .inl trivial
  | some callback =>
    apply OneSession.ite
    · exact oneSession_onResult callback _
    · exact .inl (delCredentialOf_neutral _ _ _ _)

theorem stubFunction_oneSession (code : UserIDMCode) :
    OneSession (stubFunction platform caller data code) := by
  cases code with
  | openSession =>
    exact (serviceOpenSession_oneSession platform caller).bind fun _ => replyUint64_neutral _ _
  | openSessionById =>
    refine OneSession.bind (.ite (.inl trivial) ?_) fun _ => replyUint64_neutral _ _
    exact (SessionProg.openEditSession _).oneSession
  | closeSession =>
    exact OneSession.bind (.ite (.inl trivial) SessionProg.closeEditSession.oneSession)
      fun _ => trivial
  | closeSessionById =>
    refine OneSession.bind (.ite (.inl trivial) ?_) fun _ => trivial
    exact (SessionProg.closeEditSessionById _).oneSession
  | getAuthInfo =>
    apply OneSession.ite
    · exact .inl trivial
    · exact .inl ((serviceGetAuthInfo_neutral _ _ _ _).bind fun _ => replyInt32_neutral _ _)
  | getAuthInfoById =>
    apply OneSession.ite
    · exact .inl trivial
    · exact .inl ((serviceGetAuthInfoById_neutral _ _ _).bind fun _ => replyInt32_neutral _ _)
  | getSecInfo =>
    apply OneSession.ite
    · exact .inl trivial
    · exact .inl ((serviceGetSecInfo_neutral _ _).bind fun _ => replyInt32_neutral _ _)
  | addCredential =>
    apply OneSession.ite
    · exact .inl trivial
    · exact (serviceAddCredential_oneSession _ _ _ _).bind fun _ => trivial
  | addCredentialById =>
    apply OneSession.ite
    · exact .inl trivial
    · exact (serviceAddCredentialById_oneSession _ _ _ _ _).bind fun _ => trivial
  | updateCredential =>
    apply OneSession.ite
    · exact .inl trivial
    · exact (serviceUpdateCredential_oneSession _ _ _ _).bind fun _ => trivial
  | updateCredentialById =>
    apply OneSession.ite
    · exact .inl trivial
    · exact (serviceUpdateCredentialById_oneSession _ _ _ _ _).bind fun _ => trivial
  | cancel =>
    refine OneSession.bind (.ite (.inl trivial) ?_) fun _ => replyInt32_neutral _ _
    exact (SessionProg.delSchedleId _).oneSession
  | cancelById =>
    refine OneSession.bind (.ite (.inl trivial) ?_) fun _ => replyInt32_neutral _ _
    exact (SessionProg.delSchedleIdById _).oneSession
  | enforceDelUser =>
    apply OneSession.ite
    · exact .inl trivial
    · exact .inl ((serviceEnforceDelUser_neutral _ _).bind fun _ => replyInt32_neutral _ _)
  | delUser =>
    apply OneSession.ite
    · exact .inl trivial
    · exact (serviceDelUser_oneSession _ _ _ _).bind fun _ => trivial
  | delUserById =>
    apply OneSession.ite
    · exact .inl trivial
    · exact (serviceDelUserById_oneSession _ _ _ _ _).bind fun _ => trivial
  | delCred =>
    apply OneSession.ite
    · exact .inl trivial
    · exact (serviceDelCred_oneSession _ _ _ _ _).bind fun _ => trivial
  | delCredential =>
    apply OneSession.ite
    · exact .inl trivial
    · exact (serviceDelCredential_oneSession _ _ _ _ _ _).bind fun _ => trivial

/-- A request works on the session through at most one function of the controller. -/
theorem onRemoteRequest_oneSession (code : UInt32) :
    OneSession (onRemoteRequest platform caller data code) := by
  apply OneSession.ite
  · exact .inl trivial
  · split
    · exact .inl ⟨rfl, fun _ => trivial⟩
    · exact stubFunction_oneSession _ _ _ _

end Requests

theorem controllerBody_oneSession (call : ControllerCall) : OneSession (controllerBody call) := by
  have hdiscard {α : Type} {p : UserIDMProg α} (hp : OneSession p) : OneSession p.discard :=
    hp.bind fun _ => trivial
  cases call with
  | openEditSession userId => exact hdiscard (SessionProg.openEditSession _).oneSession
  | closeEditSession => exact SessionProg.closeEditSession.oneSession
  | closeEditSessionById userId => exact (SessionProg.closeEditSessionById _).oneSession
  | getAuthInfo userId authType => exact .inl (queryCredential_neutral _ _).discard
  | getSecureInfo userId => exact .inl (getSecureUid_neutral _).discard
  | addCredential => exact hdiscard (SessionProg.addCredential _ _ _ _).oneSession
  | updateCredential => exact hdiscard (SessionProg.updateCredential _ _ _ _ _).oneSession
  | delSchedleId challenge => exact hdiscard (SessionProg.delSchedleId _).oneSession
  | delSchedleIdById userId => exact hdiscard (SessionProg.delSchedleIdById _).oneSession
  | deleteCredential => exact .inl (deleteCredential_neutral _ _ _).discard
  | deleteUser => exact .inl (deleteUser_neutral _ _).discard
  | deleteUserByForce => exact .inl (deleteUserEnforce_neutral _).discard
  | delFaceCredential => exact .inl (delFaceCredentialCtrl_neutral _ _).discard
  | delExecutorPinInfo => exact .inl (delExecutorPinInfoCtrl_neutral _ _).discard

/-! ### Managing the session -/

/-- Everything but enrolments, handlers and mutexes. -/
def UserIDMOp.manages : UserIDMOp → Bool
  | .insertScheduleId _ | .beginSchedule .. => false
  | .beginEnrollment .. | .updateEnrollmentResult .. => false
  | .lock _ | .unlock _ => false
  | _ => true

theorem UserIDMOp.manages_of_neutral {o : UserIDMOp} (ho : Neutral o) : o.manages = true := by
  cases o <;> first | rfl | cases ho

/-- The same without opening a session. -/
def UserIDMOp.opensNone : UserIDMOp → Bool
  | .insertChallenge _ => false
  | o => o.manages

theorem UserIDMOp.manages_of_opensNone {o : UserIDMOp} (ho : o.opensNone = true) :
    o.manages = true := by
  cases o <;> first | rfl | cases ho

theorem cancelActive_opensNone : cancelActive.All (·.opensNone = true) := by
  refine ⟨rfl, fun active => ?_⟩
  cases active with
  | none => trivial
  | some sessionId =>
    refine ⟨rfl, fun challenge => ?_⟩
    cases challenge with
    | none => trivial
    | some challenge => exact ⟨rfl, fun _ => trivial⟩

theorem openEditSessionCtrl_manages (userId : Int32) :
    (openEditSessionCtrl userId).All (·.manages = true) := by
  have hopen : (openEditSession userId).All (·.manages = true) := by
    simp [openEditSession, UserIDMOp.manages]
  refine Prog.All.bind (cancelActive_opensNone.mono fun _ => UserIDMOp.manages_of_opensNone)
    fun _ => ⟨rfl, fun _ => ?_⟩
  exact hopen.bind fun _ => ⟨rfl, fun _ => trivial⟩

theorem closeEditSessionCtrl_opensNone : closeEditSessionCtrl.All (·.opensNone = true) := by
  refine cancelActive_opensNone.bind fun _ => ?_
  simp [closeEditSession, UserIDMOp.opensNone, UserIDMOp.manages]

theorem closeEditSessionCtrlById_opensNone (userId : Int32) :
    (closeEditSessionCtrlById userId).All (·.opensNone = true) := by
  unfold closeEditSessionCtrlById
  refine Prog.All.bind ?_ fun result => ?_
  · simp [closeEditSessionById, UserIDMOp.opensNone, UserIDMOp.manages]
  · split
    · trivial
    · exact cancelActive_opensNone.bind fun _ => ⟨rfl, fun _ => trivial⟩

theorem delSchedleIdCtrl_opensNone (challenge : UInt64) :
    (delSchedleIdCtrl challenge).All (·.opensNone = true) := by
  refine ⟨rfl, fun lastChallenge => ?_⟩
  dsimp only [Prog.bind]
  split
  · trivial
  · refine ⟨rfl, fun active => ?_⟩
    cases active with
    | none => trivial
    | some sessionId =>
      refine ⟨rfl, fun result => ?_⟩
      dsimp only [Prog.bind]
      split
      · trivial
      · exact ⟨rfl, fun _ => trivial⟩

theorem delSchedleIdCtrlById_opensNone (userId : Int32) :
    (delSchedleIdCtrlById userId).All (·.opensNone = true) := by
  unfold delSchedleIdCtrlById
  refine Prog.All.bind ?_ fun result => ?_
  · simp [cancelEnrollment, UserIDMOp.opensNone, UserIDMOp.manages]
  · split
    · trivial
    · refine ⟨rfl, fun challenge => ?_⟩
      cases challenge with
      | none => trivial
      | some challenge =>
        refine ⟨rfl, fun active => ?_⟩
        cases active with
        | none => trivial
        | some sessionId => exact ⟨rfl, fun _ => ⟨rfl, fun _ => trivial⟩⟩

/-! ### Starting an enrolment -/

/-- What `AddCredentialCtrl` and `UpdateCredentialCtrl` have in common: they differ in the type of
the handler and in the caller's name. -/
def startEnrolment (type : CoAuthType) (authInfo : CoAuth.AuthInfo) (credInfo : AddCredInfo)
    (userId : Int32) (innerkitsCallback : ClientCallback) : UserIDMProg ResultCode := do
  match ← atomic .checkChallenge with
  | none =>
    atomic (.onResult innerkitsCallback .fail 0)
    return .fail
  | some challenge =>
    match ← atomic .checkScheduleIdIsActive with
    | some _ =>
      atomic (.onResult innerkitsCallback .busy 0)
      return .busy
    | none =>
      match ← initSchedule credInfo.token userId credInfo.authType with
      | .ok info =>
        let _ ← atomic (.insertScheduleId info.scheduleId)
        atomic (.beginSchedule info authInfo
          ⟨type, challenge, info.scheduleId, some innerkitsCallback⟩)
        return .success
      | .error ret =>
        atomic (.onResult innerkitsCallback .fail 0)
        return ret

/-- The operations of `InitSchedule`: neutral ones, and the one that begins an enrolment. -/
def UserIDMOp.prepares : UserIDMOp → Bool
  | .beginEnrollment .. => true
  | o => o.neutral

theorem initSchedule_all {P : UserIDMOp → Prop} {authToken : List UInt8} {userId : Int32}
    {authType : AuthType} (hhdi : P .getHdiInterface)
    (henroll : P (.beginEnrollment userId authToken authType)) :
    (initSchedule authToken userId authType).All P := by
  refine ⟨hhdi, fun found => ?_⟩
  dsimp only [Prog.bind]
  split
  · trivial
  · refine ⟨henroll, fun r => ?_⟩
    dsimp only [Prog.bind]
    split
    · trivial
    · split <;> trivial

theorem initSchedule_prepares (authToken : List UInt8) (userId : Int32) (authType : AuthType) :
    (initSchedule authToken userId authType).All (·.prepares = true) :=
  initSchedule_all rfl rfl

theorem addCredentialCtrl_eq (userId : Int32) (callerID : UInt64) (credInfo : AddCredInfo)
    (callback : ClientCallback) :
    addCredentialCtrl userId callerID credInfo (some callback) =
      startEnrolment (if credInfo.authType = .face then .addFaceCred else .addPinCred)
        ⟨callerNameOf callerID, callerID⟩ credInfo userId callback := rfl

theorem updateCredentialCtrl_eq (userId : Int32) (callerID : UInt64) (callerName : List UInt8)
    (credInfo : AddCredInfo) (callback : ClientCallback) :
    updateCredentialCtrl userId callerID callerName credInfo (some callback) =
      startEnrolment .modifyCred ⟨callerName, callerID⟩ credInfo userId callback := rfl

/-! ### Callbacks -/

/-- What the handlers do between locking and unlocking their mutex. -/
def UserIDMOp.handles : UserIDMOp → Bool
  | .deleteSessionId | .checkChallenge | .checkScheduleIdIsActive => true
  | .updateEnrollmentResult .. => true
  | o => o.neutral

theorem addCredential_handles (enrollToken : List UInt8) (credentialId : UInt64) :
    (addCredential enrollToken credentialId).All (·.handles = true) := by
  simp [addCredential, UserIDMOp.handles, UserIDMOp.neutral]

theorem updateCredential_handles (enrollToken : List UInt8) (credentialId : UInt64)
    (deletedCredential : CredentialInfo) :
    (updateCredential enrollToken credentialId deletedCredential).All (·.handles = true) := by
  simp [updateCredential, UserIDMOp.handles, UserIDMOp.neutral]

theorem onFinishModify_handles (handler : UserIDMCoAuthHandler) (scheduleToken : List UInt8)
    (credentialId : UInt64) :
    (onFinishModify handler scheduleToken credentialId).All (·.handles = true) := by
  unfold onFinishModify
  split
  · trivial
  · refine ⟨rfl, fun challenge => ?_⟩
    cases challenge with
    | none => trivial
    | some challenge =>
      refine ⟨rfl, fun active => ?_⟩
      dsimp only [Prog.bind]
      split
      · refine ⟨rfl, fun credentialInfo => ?_⟩
        exact (updateCredential_handles _ _ _).bind fun _ => ⟨rfl, fun _ => trivial⟩
      · trivial

theorem onFinishAdd_handles (handler : UserIDMCoAuthHandler) (innerCallback : ClientCallback)
    (scheduleToken : List UInt8) :
    (onFinishAdd handler innerCallback scheduleToken).All (·.handles = true) := by
  refine Prog.All.bind ⟨rfl, fun active => ?_⟩ fun _ => ⟨rfl, fun _ => ⟨rfl, fun _ => trivial⟩⟩
  dsimp only [Prog.bind]
  split
  · exact addCredential_handles _ _
  · trivial

theorem onFinishLocked_handles (handler : UserIDMCoAuthHandler) (resultCode : UInt32)
    (scheduleToken : List UInt8) :
    (onFinishLocked handler resultCode scheduleToken).All (·.handles = true) := by
  unfold onFinishLocked
  split
  · trivial
  · split
    · exact ⟨rfl, fun _ => ⟨rfl, fun _ => trivial⟩⟩
    · split
      · exact onFinishAdd_handles _ _ _
      · exact onFinishAdd_handles _ _ _
      · refine (onFinishModify_handles _ _ _).bind fun _ => ?_
        exact ⟨rfl, fun _ => ⟨rfl, fun _ => trivial⟩⟩

theorem onAcquireInfoLocked_handles (handler : UserIDMCoAuthHandler) (acquire : UInt32) :
    (onAcquireInfoLocked handler acquire).All (·.handles = true) := by
  unfold onAcquireInfoLocked
  split
  · trivial
  · split
    · exact ⟨rfl, fun _ => trivial⟩
    · trivial

theorem onResultLocked_handles (handler : UserIDMSetPropHandler) (result : UInt32) :
    (onResultLocked handler result).All (·.handles = true) := by
  unfold onResultLocked
  split
  · split
    · exact ⟨rfl, fun _ => ⟨rfl, fun _ => trivial⟩⟩
    · exact ⟨rfl, fun _ => trivial⟩
  · trivial

/-! ### Who starts an enrolment -/

def UserIDMOp.starts : UserIDMOp → Bool
  | .insertScheduleId _ | .beginSchedule .. => true
  | _ => false

theorem UserIDMOp.not_starts_of_manages {o : UserIDMOp} (ho : o.manages = true) :
    o.starts = false := by
  cases o <;> first | rfl | cases ho

theorem UserIDMOp.not_starts_of_prepares {o : UserIDMOp} (ho : o.prepares = true) :
    o.starts = false := by
  cases o <;> first | rfl | cases ho

theorem UserIDMOp.not_starts_of_handles {o : UserIDMOp} (ho : o.handles = true) :
    o.starts = false := by
  cases o <;> first | rfl | cases ho

theorem underLock_not_starts {q : UserIDMProg Unit} (id : HandlerId)
    (hq : q.All (·.handles = true)) : (underLock id q).All (·.starts = false) :=
  Prog.All.bind ⟨rfl, fun _ => trivial⟩ fun _ =>
    (hq.mono fun _ => UserIDMOp.not_starts_of_handles).bind fun _ => ⟨rfl, fun _ => trivial⟩

theorem onFinish_not_starts (i : Nat) (handler : UserIDMCoAuthHandler) (resultCode : UInt32)
    (scheduleToken : List UInt8) :
    (onFinish i handler resultCode scheduleToken).All (·.starts = false) :=
  underLock_not_starts _ (onFinishLocked_handles _ _ _)

theorem onAcquireInfo_not_starts (i : Nat) (handler : UserIDMCoAuthHandler) (acquire : UInt32) :
    (onAcquireInfo i handler acquire).All (·.starts = false) :=
  underLock_not_starts _ (onAcquireInfoLocked_handles _ _)

theorem onResult_not_starts (i : Nat) (handler : UserIDMSetPropHandler) (result : UInt32) :
    (onResult i handler result).All (·.starts = false) :=
  underLock_not_starts _ (onResultLocked_handles _ _)

/-! ### Mutexes -/

def UserIDMOp.lockKind : UserIDMOp → Option (HandlerId × Bool)
  | .lock id => some (id, true)
  | .unlock id => some (id, false)
  | _ => none

theorem userIDM_mutex (platform : Platform) :
    (userIDM platform).Mutex UserIDMOp.lockKind UserIDMState.owner where
  free {tid o env s id} ho hen := by
    cases o <;> cases ho
    exact Option.isNone_iff_eq_none.mp hen
  locks {tid o env s id} ho := by
    cases o <;> cases ho
    rfl
  unlocks {tid o env s id} ho := by
    cases o <;> cases ho
    rfl
  other {tid o env s} ho := by
    cases o <;> first | rfl | cases ho
  accept hs := by rw [eq_of_userIDMAccept hs]

theorem UserIDMOp.lockKind_of_manages {o : UserIDMOp} (ho : o.manages = true) :
    o.lockKind = none := by
  cases o <;> first | rfl | cases ho

theorem UserIDMOp.lockKind_of_handles {o : UserIDMOp} (ho : o.handles = true) :
    o.lockKind = none := by
  cases o <;> first | rfl | cases ho

section Requests

variable {P : UserIDMOp → Prop} (hmanages : ∀ o, o.manages = true → P o)
  (henroll : ∀ userId authToken authType, P (.beginEnrollment userId authToken authType))
  (hinsert : ∀ id, P (.insertScheduleId id))
  (hbegin : ∀ info authInfo type challenge callback,
    P (.beginSchedule info authInfo ⟨type, challenge, info.scheduleId, some callback⟩))

include hmanages henroll hinsert hbegin

theorem startEnrolment_all (type : CoAuthType) (authInfo : CoAuth.AuthInfo)
    (credInfo : AddCredInfo) (userId : Int32) (callback : ClientCallback) :
    (startEnrolment type authInfo credInfo userId callback).All P := by
  have hprepares (o : UserIDMOp) (ho : o.prepares = true) : P o := by
    cases o with
    | beginEnrollment => exact henroll _ _ _
    | _ => exact hmanages _ (UserIDMOp.manages_of_neutral ho)
  refine ⟨hmanages _ rfl, fun challenge => ?_⟩
  cases challenge with
  | none => exact ⟨hmanages _ rfl, fun _ => trivial⟩
  | some challenge =>
    refine ⟨hmanages _ rfl, fun active => ?_⟩
    cases active with
    | some id => exact ⟨hmanages _ rfl, fun _ => trivial⟩
    | none =>
      refine Prog.All.bind (p := initSchedule credInfo.token userId credInfo.authType) ?_
        fun r => ?_
      · exact (initSchedule_prepares _ _ _).mono hprepares
      · cases r with
        | error ret => exact ⟨hmanages _ rfl, fun _ => trivial⟩
        | ok info => exact ⟨hinsert _, fun _ => ⟨hbegin _ _ _ _ _, fun _ => trivial⟩⟩

theorem SessionProg.all (hp : SessionProg p) : p.All P := by
  have hopensNone {β : Type} {q : UserIDMProg β} (hq : q.All (·.opensNone = true)) : q.All P :=
    hq.mono fun o ho => hmanages o (UserIDMOp.manages_of_opensNone ho)
  cases hp with
  | openEditSession userId => exact (openEditSessionCtrl_manages userId).mono hmanages
  | closeEditSession => exact hopensNone closeEditSessionCtrl_opensNone
  | closeEditSessionById userId => exact hopensNone (closeEditSessionCtrlById_opensNone userId)
  | addCredential userId callerID credInfo callback =>
    cases callback with
    | none => trivial
    | some callback => exact startEnrolment_all hmanages henroll hinsert hbegin _ _ _ _ _
  | updateCredential userId callerID callerName credInfo callback =>
    cases callback with
    | none => trivial
    | some callback => exact startEnrolment_all hmanages henroll hinsert hbegin _ _ _ _ _
  | delSchedleId challenge => exact hopensNone (delSchedleIdCtrl_opensNone challenge)
  | delSchedleIdById userId => exact hopensNone (delSchedleIdCtrlById_opensNone userId)

/-- What requests and controller calls perform: they manage the session and start enrolments whose
handlers have a callback. -/
theorem OneSession.all (hp : OneSession p) : p.All P := by
  have hneutral (o : UserIDMOp) (ho : Neutral o) : P o :=
    hmanages o (UserIDMOp.manages_of_neutral ho)
  rcases hp with hp | ⟨β, q, f, hq, hf, rfl⟩
  · exact hp.mono hneutral
  · exact (hq.all hmanages henroll hinsert hbegin).bind fun b => (hf b).mono hneutral

end Requests

theorem OneSession.unlocked (hp : OneSession p) : p.All (·.lockKind = none) :=
  hp.all (fun _ => UserIDMOp.lockKind_of_manages) (fun _ _ _ => rfl) (fun _ => rfl)
    (fun _ _ _ _ _ => rfl)

/-- Every call works under the mutex of one handler, or without a mutex. -/
theorem userIDMBody_brackets (platform : Platform) (call : UserIDMCall) :
    Machine.Brackets UserIDMOp.lockKind (userIDMBody platform call) := by
  have hlocked {q : UserIDMProg Unit} (id : HandlerId) (hq : q.All (·.handles = true)) :
      Machine.Brackets UserIDMOp.lockKind (underLock id q) :=
    .inr ⟨id, .lock id, .unlock id, q, .ret (), rfl, rfl,
      hq.mono fun _ => UserIDMOp.lockKind_of_handles, trivial, rfl⟩
  cases call with
  | request caller code data =>
    exact .inl (onRemoteRequest_oneSession platform caller data code).unlocked.discard
  | controller call => exact .inl (controllerBody_oneSession call).unlocked
  | onFinish i handler resultCode scheduleToken => exact hlocked _ (onFinishLocked_handles _ _ _)
  | onAcquireInfo i handler acquire => exact hlocked _ (onAcquireInfoLocked_handles _ _)
  | onResult i handler result => exact hlocked _ (onResultLocked_handles _ _)

/-! ## 3. Proof rules -/

section Rules

variable {platform : Platform} {ok : UserIDMWorld → UserIDMMove → Prop}
  {inv : UserIDMWorld → Prop} {t : Nat} {h : List UserIDMEvent}

/-- The functions on the session keep what starting an enrolment and managing the session keep. -/
theorem keeps_sessionProg
    (hmanage : ∀ {β : Type} {q : UserIDMProg β}, q.All (·.manages = true) →
      (userIDM platform).Keeps ok inv t q (fun _ _ => True) h)
    (hstart : ∀ type authInfo credInfo userId callback,
      (userIDM platform).Keeps ok inv t
        (startEnrolment type authInfo credInfo userId callback) (fun _ _ => True) h)
    {p : UserIDMProg α} (hp : SessionProg p) :
    (userIDM platform).Keeps ok inv t p (fun _ _ => True) h := by
  have hopensNone {β : Type} {q : UserIDMProg β} (hq : q.All (·.opensNone = true)) :
      (userIDM platform).Keeps ok inv t q (fun _ _ => True) h :=
    hmanage (hq.mono fun _ => UserIDMOp.manages_of_opensNone)
  cases hp with
  | openEditSession userId => exact hmanage (openEditSessionCtrl_manages userId)
  | closeEditSession => exact hopensNone closeEditSessionCtrl_opensNone
  | closeEditSessionById userId => exact hopensNone (closeEditSessionCtrlById_opensNone userId)
  | addCredential userId callerID credInfo callback =>
    cases callback with
    | none => trivial
    | some callback =>
      rw [addCredentialCtrl_eq]
      exact hstart _ _ _ _ _
  | updateCredential userId callerID callerName credInfo callback =>
    cases callback with
    | none => trivial
    | some callback =>
      rw [updateCredentialCtrl_eq]
      exact hstart _ _ _ _ _
  | delSchedleId challenge => exact hopensNone (delSchedleIdCtrl_opensNone challenge)
  | delSchedleIdById userId => exact hopensNone (delSchedleIdCtrlById_opensNone userId)

/-- Requests and controller calls keep what starting an enrolment, managing the session and every
neutral operation keep. -/
theorem keeps_oneSession
    (hneutral : ∀ w env o, Neutral o → inv w → inv ((userIDM platform).perform w t o env))
    (hmanage : ∀ {β : Type} {q : UserIDMProg β}, q.All (·.manages = true) →
      (userIDM platform).Keeps ok inv t q (fun _ _ => True) h)
    (hstart : ∀ type authInfo credInfo userId callback,
      (userIDM platform).Keeps ok inv t
        (startEnrolment type authInfo credInfo userId callback) (fun _ _ => True) h)
    {p : UserIDMProg α} (hp : OneSession p) :
    (userIDM platform).Keeps ok inv t p (fun _ _ => True) h := by
  have hall {γ : Type} {q : UserIDMProg γ} (hq : q.All Neutral) (h' : List UserIDMEvent) :
      (userIDM platform).Keeps ok inv t q (fun _ _ => True) h' :=
    Machine.Keeps.of_all (fun w env o ho hw _ _ _ => ⟨hneutral w env o ho hw, trivial⟩) hq trivial
  rcases hp with hp | ⟨β, q, f, hq, hf, rfl⟩
  · exact hall hp h
  · rw [Machine.keeps_bind]
    exact (keeps_sessionProg hmanage hstart hq).mono fun b h' _ => hall (hf b) h'

/-- The handlers that CoAuth has are never taken away. -/
theorem coAuthHandlers_prefix (tid : Nat) (env : UserIDMEnv) (s : UserIDMState) (o : UserIDMOp) :
    s.coAuthHandlers <+: (userIDMHandle tid env s o).2.coAuthHandlers := by
  cases o with
  | beginSchedule info authInfo handler => exact List.prefix_append _ _
  | _ => exact List.prefix_rfl

/-- The handler of an `OnFinish` is one that CoAuth has. -/
theorem registered_of_onFinish {c : UserIDMConfig}
    (hc : (userIDM platform).Reachable ok .initial c) {i : Nat} {handler : UserIDMCoAuthHandler}
    {resultCode : UInt32} {scheduleToken : List UInt8}
    (h : .spawn t (.onFinish i handler resultCode scheduleToken) ∈ c.world.trace) :
    c.world.state.coAuthHandlers[i]? = some handler := by
  induction hc with
  | init => cases h
  | @spawn c call s _ _ hs ih =>
    obtain rfl := eq_of_userIDMAccept hs
    rw [World.push_trace, List.mem_append, List.mem_singleton] at h
    rcases h with h | h
    · exact ih h
    · cases h
      simp only [userIDM, userIDMAccept, Option.ite_none_right_eq_some] at hs
      exact hs.1
  | @run c tid o k env _ _ _ _ ih =>
    have hmem : .spawn t (.onFinish i handler resultCode scheduleToken) ∈ c.world.trace := by
      simpa [Machine.perform] using h
    obtain ⟨rest, hrest⟩ := coAuthHandlers_prefix tid env c.world.state o
    have hi := ih hmem
    have hlt := (List.getElem?_eq_some_iff.mp hi).1
    show (userIDMHandle tid env c.world.state o).2.coAuthHandlers[i]? = some handler
    rw [← hrest, List.getElem?_append_left hlt, hi]

end Rules

end UserIam.UserIDM
