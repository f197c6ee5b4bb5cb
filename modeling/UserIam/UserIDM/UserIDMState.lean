import UserIam.UserIDM.UserIDMModule

/-!
# The shared state of the credential manager

The session data, the handlers that CoAuth holds, and the atomic operations on them.  Every accessor
of `UserIDMModule`, every call of the HDI, of CoAuth and of a client's callback is one step.
-/

namespace UserIam.UserIDM

open Conc

/-! ## 1. Handlers -/

/-- The controller hands every handler its own `data_`, so `dataCallback_` is the one session. -/
structure UserIDMCoAuthHandler where
  type : CoAuthType
  lastChallenge : UInt64
  lastScheduleId : UInt64
  innerCallback : Option ClientCallback
  deriving DecidableEq, Repr

structure UserIDMSetPropHandler where
  type : AuthType
  lastCredentialId : UInt64
  propInnerCallback : Option ClientCallback
  deriving DecidableEq, Repr

/-- The handlers, each with its own `mutex_`. -/
inductive HandlerId where
  | coAuth (i : Nat)
  | setProp (i : Nat)
  deriving DecidableEq, Repr

/-- The handlers are listed in the order in which CoAuth was given them; `owner` is the thread that
holds a handler's mutex. -/
structure UserIDMState where
  data : UserIDMModule
  coAuthHandlers : List UserIDMCoAuthHandler
  setPropHandlers : List UserIDMSetPropHandler
  owner : HandlerId → Option Nat

def UserIDMState.initial : UserIDMState := ⟨⟨0, 0⟩, [], [], fun _ => none⟩

/-! ## 2. What the HDI answers with -/

structure HdiCredentialInfo where
  executorMatcher : UInt32
  authType : AuthType
  credentialId : UInt64
  templateId : UInt64
  deriving Inhabited

structure HdiEnrolledInfo where
  authType : AuthType
  enrolledId : UInt64

structure HdiExecutorInfo where
  executorIndex : UInt64
  authType : AuthType
  publicKey : List UInt8

structure HdiScheduleInfo where
  scheduleId : UInt64
  templateIds : List UInt64
  executorMatcher : UInt32
  scheduleMode : UInt32
  executors : List HdiExecutorInfo
  deriving Inhabited

/-! ## 3. Operations -/

/-- `getHdiInterface` is `IUserAuthInterface::Get()`, `true` for a pointer that is not null; the
operations up to `updateEnrollmentResult` are calls of that interface.  `uninitialised` is what a
`CredentialInfo` contains before it is written. -/
inductive UserIDMOp where
  | insertChallenge (challenge : UInt64)
  | insertScheduleId (scheduleId : UInt64)
  | deleteSessionId
  | cleanData
  | checkChallenge
  | checkScheduleIdIsActive
  | getHdiInterface
  | openSession (userId : Int32)
  | closeSession (userId : Int32)
  | getCredential (userId : Int32) (authType : AuthType)
  | getUserInfo (userId : Int32)
  | beginEnrollment (userId : Int32) (authToken : List UInt8) (authType : AuthType)
  | cancelEnrollment (userId : Int32)
  | deleteCredential (userId : Int32) (credentialId : UInt64) (authToken : List UInt8)
  | deleteUser (userId : Int32) (authToken : List UInt8)
  | enforceDeleteUser (userId : Int32)
  | updateEnrollmentResult (userId : Int32) (enrollToken : List UInt8)
  | beginSchedule (info : CoAuth.ScheduleInfo) (authInfo : CoAuth.AuthInfo)
      (handler : UserIDMCoAuthHandler)
  | cancel (scheduleId : UInt64)
  | setExecutorProp (condition : CoAuth.AuthAttributes) (handler : UserIDMSetPropHandler)
  | onResult (callback : ClientCallback) (result : ResultCode) (credentialId : UInt64)
  | onAcquireInfo (callback : ClientCallback) (acquireModule : Int32) (acquire : UInt32)
  | onGetInfo (callback : ClientCallback) (info : List CredentialInfo)
  | onGetSecInfo (callback : ClientCallback) (info : SecInfo)
  | writeUint64 (value : UInt64)
  | writeInt32 (value : Int32)
  | ipcObjectStub (code : UInt32)
  | uninitialised
  | lock (id : HandlerId)
  | unlock (id : HandlerId)

@[reducible] def UserIDMRes : UserIDMOp → Type
  | .insertChallenge _ => Bool
  | .insertScheduleId _ => Bool
  | .deleteSessionId => Unit
  | .cleanData => Unit
  | .checkChallenge => Option UInt64
  | .checkScheduleIdIsActive => Option UInt64
  | .getHdiInterface => Bool
  | .openSession _ => ResultCode × List UInt8
  | .closeSession _ => ResultCode
  | .getCredential .. => ResultCode × List HdiCredentialInfo
  | .getUserInfo _ => ResultCode × UInt64 × List HdiEnrolledInfo
  | .beginEnrollment .. => ResultCode × HdiScheduleInfo
  | .cancelEnrollment _ => ResultCode
  | .deleteCredential .. => ResultCode × HdiCredentialInfo
  | .deleteUser .. => ResultCode × List HdiCredentialInfo
  | .enforceDeleteUser _ => ResultCode × List HdiCredentialInfo
  | .updateEnrollmentResult .. => ResultCode × UInt64 × HdiCredentialInfo
  | .beginSchedule .. => Unit
  | .cancel _ => ResultCode
  | .setExecutorProp .. => Unit
  | .onResult .. => Unit
  | .onAcquireInfo .. => Unit
  | .onGetInfo .. => Unit
  | .onGetSecInfo .. => Unit
  | .writeUint64 _ => Bool
  | .writeInt32 _ => Bool
  | .ipcObjectStub _ => ResultCode
  | .uninitialised => CredentialInfo
  | .lock _ => Unit
  | .unlock _ => Unit

/-- What the environment decides.  `ret` is the code that a call returns, `flag` the answer of a
call that is true or false. -/
structure UserIDMEnv where
  flag : Bool := true
  ret : ResultCode := .success
  hdiChallenge : List UInt8 := []
  credentialId : UInt64 := 0
  credential : HdiCredentialInfo := default
  credentials : List HdiCredentialInfo := []
  secureUid : UInt64 := 0
  enrolled : List HdiEnrolledInfo := []
  schedule : HdiScheduleInfo := default
  uninitialised : CredentialInfo := default

def userIDMHandle (tid : Nat) (env : UserIDMEnv) (s : UserIDMState) :
    (o : UserIDMOp) → UserIDMRes o × UserIDMState
  | .insertChallenge challenge =>
    let (ret, data) := s.data.insertChallenge challenge
    (ret, { s with data })
  | .insertScheduleId scheduleId =>
    let (ret, data) := s.data.insertScheduleId scheduleId
    (ret, { s with data })
  | .deleteSessionId => ((), { s with data := s.data.deleteSessionId })
  | .cleanData => ((), { s with data := s.data.cleanData })
  | .checkChallenge => (s.data.checkChallenge, s)
  | .checkScheduleIdIsActive => (s.data.checkScheduleIdIsActive, s)
  | .getHdiInterface => (env.flag, s)
  | .openSession _ => ((env.ret, env.hdiChallenge), s)
  | .closeSession _ => (env.ret, s)
  | .getCredential .. => ((env.ret, env.credentials), s)
  | .getUserInfo _ => ((env.ret, env.secureUid, env.enrolled), s)
  | .beginEnrollment .. => ((env.ret, env.schedule), s)
  | .cancelEnrollment _ => (env.ret, s)
  | .deleteCredential .. => ((env.ret, env.credential), s)
  | .deleteUser .. => ((env.ret, env.credentials), s)
  | .enforceDeleteUser _ => ((env.ret, env.credentials), s)
  | .updateEnrollmentResult .. => ((env.ret, env.credentialId, env.credential), s)
  | .beginSchedule _ _ handler => ((), { s with coAuthHandlers := s.coAuthHandlers ++ [handler] })
  | .cancel _ => (env.ret, s)
  | .setExecutorProp _ handler =>
    ((), { s with setPropHandlers := s.setPropHandlers ++ [handler] })
  | .onResult .. => ((), s)
  | .onAcquireInfo .. => ((), s)
  | .onGetInfo .. => ((), s)
  | .onGetSecInfo .. => ((), s)
  | .writeUint64 _ => (env.flag, s)
  | .writeInt32 _ => (env.flag, s)
  | .ipcObjectStub _ => (env.ret, s)
  | .uninitialised => (env.uninitialised, s)
  | .lock id => ((), { s with owner := Function.update s.owner id (some tid) })
  | .unlock id => ((), { s with owner := Function.update s.owner id none })

/-- A thread waits for a mutex that is held. -/
def userIDMEnabled (s : UserIDMState) : UserIDMOp → Bool
  | .lock id => (s.owner id).isNone
  | _ => true

abbrev UserIDMProg := Prog UserIDMOp UserIDMRes

/-- One atomic step. -/
abbrev atomic (o : UserIDMOp) : UserIDMProg (UserIDMRes o) := .op o

end UserIam.UserIDM
