import UserIam.Common.ThreadGroups
import UserIam.UserIDM.UserIDMController

/-!
# The shared state of the authentication service

The contexts, the callbacks that CoAuth holds, the threads of `GROUP_AUTH`, and the atomic
operations on them.  Every locked section, every call of another component and every access to a
flag that no lock protects is one step.
-/

namespace UserIam.UserAuth

open Conc Common

/-! ## 1. Records -/

/-- The identity of a client's callback object. -/
abbrev ClientCallback := Nat

abbrev AuthTrustLevel := UInt32

def atl1 : AuthTrustLevel := 10000
def atl4 : AuthTrustLevel := 40000

/-- `GetPropertyType` -/
def authSubTypeKey : UInt32 := 1
def remainTimesKey : UInt32 := 2
def freezingTimeKey : UInt32 := 3

/-- `SetPropertyType` -/
inductive SetPropertyType where
  | initAlgorithm
  | freezeTemplate
  | thawTemplate
  deriving DecidableEq, Repr

/-- `AuthPropertyMode` -/
def propermodeGet : UInt32 := 1
def propermodeFreeze : UInt32 := 3
def propermodeUnfreeze : UInt32 := 4

/-- The first sub type, which a query reports when it is not asked for one. -/
def pinSix : UInt64 := 10000

structure GetPropertyRequest where
  authType : AuthType
  keys : List UInt32
  deriving DecidableEq, Repr

structure SetPropertyRequest where
  authType : AuthType
  key : SetPropertyType
  deriving DecidableEq, Repr

structure ExecutorProperty where
  result : ResultCode := 0
  authSubType : UInt64 := 0
  remainTimes : UInt32 := 0
  freezingTime : UInt32 := 0
  deriving DecidableEq, Repr

structure AuthResult where
  token : List UInt8 := []
  remainTimes : UInt32 := 0
  freezingTime : UInt32 := 0
  deriving DecidableEq, Repr

structure CallerInfo where
  callerUID : UInt64
  userID : Int32
  pkgName : List UInt8
  deriving DecidableEq, Repr

structure AuthSolution where
  contextId : UInt64
  userId : Int32
  challenge : UInt64
  authType : AuthType
  authTrustLevel : AuthTrustLevel
  deriving DecidableEq, Repr

structure CoAuthInfo where
  authType : AuthType
  callerID : UInt64
  contextID : UInt64
  userID : Int32
  pkgName : List UInt8
  sessionIds : List UInt64 := []
  deriving DecidableEq, Repr

/-! ## 2. UserAuthCallbackImplCoAuth -/

/-- The members that the constructor sets and nobody changes. -/
structure UserAuthCallbackImplCoAuth where
  callback : ClientCallback
  authType : AuthType
  callbackCount : UInt32
  callbackContextId : UInt64
  pkgName : List UInt8
  callerUid : UInt64
  userId : Int32
  deriving DecidableEq, Repr

namespace UserAuthCallbackImplCoAuth

/-- The constructor, for a client callback that is not null. -/
def new (impl : ClientCallback) (coAuthInfo : CoAuthInfo) : UserAuthCallbackImplCoAuth where
  callback := impl
  authType := coAuthInfo.authType
  callbackCount := UInt32.ofNat coAuthInfo.sessionIds.length
  callbackContextId := coAuthInfo.contextID
  pkgName := coAuthInfo.pkgName
  callerUid := coAuthInfo.callerID
  userId := coAuthInfo.userID

def callerInfo (self : UserAuthCallbackImplCoAuth) : CallerInfo :=
  ⟨self.callerUid, self.userId, self.pkgName⟩

end UserAuthCallbackImplCoAuth

/-- What `OnFinish` and `OnAcquireInfo` post to the retained thread: the call of a handle on the
`i`-th callback. -/
inductive UserAuthTask where
  | onFinishHandle (i : Nat) (self : UserAuthCallbackImplCoAuth) (resultCode : UInt32)
      (scheduleToken : List UInt8)
  | onAcquireInfoHandle (i : Nat) (self : UserAuthCallbackImplCoAuth) (acquire : UInt32)
  deriving DecidableEq, Repr

/-! ## 3. The state -/

def groupAuth : String := "GROUP_AUTH"

/-- The callbacks are listed in the order in which they were made; of the `i`-th one,
`callbackNowCount`, `isResultDone` and `owner` are the members that change (`owner` is the thread
that holds `mutex_`).  `begun` lists the schedules that CoAuth was given, with their callbacks. -/
structure UserAuthState where
  contexts : UInt64 → Option (List UInt64)
  saveCoAuthCallback : UInt64 → Option Nat
  groups : ThreadGroups UserAuthTask
  callbacks : List UserAuthCallbackImplCoAuth
  callbackNowCount : Nat → UInt32
  isResultDone : Nat → Bool
  owner : Nat → Option Nat
  begun : List (UInt64 × Nat)

/-- After `OnStart` has made the thread group. -/
def UserAuthState.initial : UserAuthState where
  contexts := fun _ => none
  saveCoAuthCallback := fun _ => none
  groups := (ThreadGroups.empty.createThreadGroup groupAuth groupMaxThreadNum).2
  callbacks := []
  callbackNowCount := fun _ => 0
  isResultDone := fun _ => false
  owner := fun _ => none
  begun := []

/-! ## 4. Operations -/

/-- The operations from `getHdiInterface` to `cancelAuthentication` are the HDI's; `getAuthInfoCtrl`
is answered by the credential manager, and the four after it by CoAuth. -/
inductive UserAuthOp where
  | generateContextId
  | addContextId (contextId : UInt64)
  | deleteContextId (contextId : UInt64)
  | setScheduleIds (contextId : UInt64) (sheduleIds : List UInt64)
  | getScheduleIds (contextId : UInt64)
  | isContextIdExist (contextId : UInt64)
  | getHdiInterface
  | beginAuthentication (contextId : UInt64) (solution : AuthSolution)
  | updateAuthenticationResult (contextId : UInt64) (scheduleToken : List UInt8)
  | cancelAuthentication (contextId : UInt64)
  | getAuthInfoCtrl (userId : Int32) (authType : AuthType)
  | getExecutorProp (conditions : CoAuth.AuthAttributes)
  | setExecutorProp (conditions : CoAuth.AuthAttributes)
  | beginSchedule (info : CoAuth.ScheduleInfo) (authInfo : CoAuth.AuthInfo) (i : Nat)
  | cancel (scheduleId : UInt64)
  | makeCoAuthCallback (self : UserAuthCallbackImplCoAuth)
  | saveCoAuthCallback (contextId : UInt64) (i : Nat)
  | deleteCoAuthCallback (contextId : UInt64)
  | postTask (contextId : UInt64) (task : UserAuthTask)
  | endTask (p : Nat)
  | lock (i : Nat)
  | unlock (i : Nat)
  | incCallbackNowCount (i : Nat)
  | isResultDone (i : Nat)
  | setResultDone (i : Nat)
  | onResult (callback : ClientCallback) (result : ResultCode) (extraInfo : AuthResult)
  | onAcquireInfo (callback : ClientCallback) (acquireModule : Int32) (acquireInfo : UInt32)
      (extraInfo : Int32)

@[reducible] def UserAuthRes : UserAuthOp → Type
  | .generateContextId => UInt64
  | .addContextId _ => ResultCode
  | .deleteContextId _ => ResultCode
  | .setScheduleIds .. => ResultCode
  | .getScheduleIds _ => Option (List UInt64)
  | .isContextIdExist _ => Bool
  | .getHdiInterface => Bool
  | .beginAuthentication .. => ResultCode × List UserIDM.HdiScheduleInfo
  | .updateAuthenticationResult .. => ResultCode × List UInt8
  | .cancelAuthentication _ => ResultCode
  | .getAuthInfoCtrl .. => ResultCode × List UserIDM.CredentialInfo
  | .getExecutorProp _ => ResultCode × CoAuth.AuthAttributes
  | .setExecutorProp _ => Unit
  | .beginSchedule .. => Unit
  | .cancel _ => ResultCode
  | .makeCoAuthCallback _ => Nat
  | .saveCoAuthCallback .. => ResultCode
  | .deleteCoAuthCallback _ => ResultCode
  | .postTask .. => Bool
  | .endTask _ => Unit
  | .lock _ => Unit
  | .unlock _ => Unit
  | .incCallbackNowCount _ => UInt32
  | .isResultDone _ => Bool
  | .setResultDone _ => Unit
  | .onResult .. => Unit
  | .onAcquireInfo .. => Unit

/-- What the environment decides.  `ret` is the code that a call returns, `flag` the answer of a
call that is true or false, `contextId` the random number. -/
structure UserAuthEnv where
  flag : Bool := true
  ret : ResultCode := .success
  contextId : UInt64 := 1
  schedules : List UserIDM.HdiScheduleInfo := []
  token : List UInt8 := []
  credInfos : List UserIDM.CredentialInfo := []
  values : CoAuth.AuthAttributes := .new

/-- `SaveCoAuthCallback`: a thread that was retained stays so when the context has a callback. -/
def saveCoAuthCallback (contextId : UInt64) (i : Nat) (s : UserAuthState) :
    ResultCode × UserAuthState :=
  let (retain, groups) := s.groups.retainTaskThread groupAuth contextId
  if !retain then (.fail, { s with groups })
  else if (s.saveCoAuthCallback contextId).isSome then (.fail, { s with groups })
  else (.success, { s with
    groups, saveCoAuthCallback := Function.update s.saveCoAuthCallback contextId (some i) })

def deleteCoAuthCallback (contextId : UInt64) (s : UserAuthState) : ResultCode × UserAuthState :=
  let s' := { s with
    groups := (s.groups.releaseTaskThread groupAuth contextId).2
    saveCoAuthCallback := Function.update s.saveCoAuthCallback contextId none }
  (if (s.saveCoAuthCallback contextId).isSome then .success else .fail, s')

def userAuthHandle (tid : Nat) (env : UserAuthEnv) (s : UserAuthState) :
    (o : UserAuthOp) → UserAuthRes o × UserAuthState
  | .generateContextId => (env.contextId, s)
  | .addContextId contextId =>
    if (s.contexts contextId).isSome then (.generalError, s)
    else (.success, { s with contexts := Function.update s.contexts contextId (some []) })
  | .deleteContextId contextId =>
    if (s.contexts contextId).isSome then
      (.success, { s with contexts := Function.update s.contexts contextId none })
    else (.generalError, s)
  | .setScheduleIds contextId sheduleIds =>
    if (s.contexts contextId).isSome then
      (.success, { s with contexts := Function.update s.contexts contextId (some sheduleIds) })
    else (.generalError, s)
  | .getScheduleIds contextId => (s.contexts contextId, s)
  | .isContextIdExist contextId => ((s.contexts contextId).isSome, s)
  | .getHdiInterface => (env.flag, s)
  | .beginAuthentication .. => ((env.ret, env.schedules), s)
  | .updateAuthenticationResult .. => ((env.ret, env.token), s)
  | .cancelAuthentication _ => (env.ret, s)
  | .getAuthInfoCtrl .. => ((env.ret, env.credInfos), s)
  | .getExecutorProp _ => ((env.ret, env.values), s)
  | .setExecutorProp _ => ((), s)
  | .beginSchedule info _ i => ((), { s with begun := s.begun ++ [(info.scheduleId, i)] })
  | .cancel _ => (env.ret, s)
  | .makeCoAuthCallback self => (s.callbacks.length, { s with callbacks := s.callbacks ++ [self] })
  | .saveCoAuthCallback contextId i => saveCoAuthCallback contextId i s
  | .deleteCoAuthCallback contextId => deleteCoAuthCallback contextId s
  | .postTask contextId task =>
    let (ret, groups) := s.groups.postTask groupAuth contextId task
    (ret, { s with groups })
  | .endTask p => ((), { s with groups := s.groups.endTask p })
  | .lock i => ((), { s with owner := Function.update s.owner i (some tid) })
  | .unlock i => ((), { s with owner := Function.update s.owner i none })
  | .incCallbackNowCount i =>
    (s.callbackNowCount i + 1,
      { s with callbackNowCount :=
          Function.update s.callbackNowCount i (s.callbackNowCount i + 1) })
  | .isResultDone i => (s.isResultDone i, s)
  | .setResultDone i => ((), { s with isResultDone := Function.update s.isResultDone i true })
  | .onResult .. => ((), s)
  | .onAcquireInfo .. => ((), s)

/-- A thread waits for a mutex that is held.  `GenerateContextId` draws random numbers until one is
neither zero nor the id of a context. -/
def userAuthEnabled (env : UserAuthEnv) (s : UserAuthState) : UserAuthOp → Bool
  | .lock i => (s.owner i).isNone
  | .generateContextId => env.contextId ≠ 0 && (s.contexts env.contextId).isNone
  | _ => true

abbrev UserAuthProg := Prog UserAuthOp UserAuthRes

/-- One atomic step. -/
abbrev atomic (o : UserAuthOp) : UserAuthProg (UserAuthRes o) := .op o

end UserIam.UserAuth
