import UserIam.AccessToken
import UserIam.UserAuth.UserAuthCallback

/-!
# UserAuthService

The requests that start and cancel an authentication, and the service as a machine: any number of
requests, of finishes that CoAuth reports and of tasks on the threads of the contexts run
interleaved.
-/

namespace UserIam.UserAuth

open Conc Common

/-! ## 1. Requests -/

def accessUserAuthInternalPermission : String := "ohos.permission.ACCESS_USER_AUTH_INTERNAL"
def accessBiometricPermission : String := "ohos.permission.ACCESS_BIOMETRIC"

section Service

variable (kit : AccessTokenKit) (caller : Caller)

def checkPermission (permission : String) : Bool := kit.grants caller permission

def getCallingUserId : Except ResultCode Int32 := kit.userOf caller

/-- `GetControllerData` answers the id of a new context, or nothing when it has told the client. -/
def getControllerData (callback : ClientCallback) (authTrustLevel : AuthTrustLevel) :
    UserAuthProg (Option UInt64) := do
  if atl4 < authTrustLevel ∨ authTrustLevel < atl1 then
    atomic (.onResult callback .trustLevelNotSupport {})
    return none
  let contextId ← atomic .generateContextId
  -- From here on the context occupies its entry.
  if (← atomic (.addContextId contextId)) ≠ .success then
    atomic (.onResult callback .generalError {})
    return none
  return some contextId

def coAuthInfoOf (userId : Int32) (authType : AuthType) (contextId : UInt64) : CoAuthInfo where
  authType := authType
  callerID := caller.id
  contextID := contextId
  userID := userId
  pkgName := UserIDM.callerNameOf caller.id

/-- `Auth`; zero stands for no context. -/
def auth (challenge : UInt64) (authType : AuthType) (authTrustLevel : AuthTrustLevel) :
    Option ClientCallback → UserAuthProg UInt64
  | none => return 0
  | some callback => do
    match ← getControllerData callback authTrustLevel with
    | none => return 0
    | some contextId =>
      if !checkPermission kit caller accessUserAuthInternalPermission &&
          (authType == .pin || !checkPermission kit caller accessBiometricPermission) then
        -- The permissions are checked after the context has been added, and it stays.
        atomic (.onResult callback .eCheckPermissionFailed {})
        return 0
      match getCallingUserId kit caller with
      | .error _ =>
        atomic (.onResult callback .fail {})
        return 0
      | .ok userId =>
        match ← generateSolution ⟨contextId, userId, challenge, authType, authTrustLevel⟩ with
        | .error result =>
          atomic (.onResult callback result {})
          return 0
        | .ok scheduleInfos =>
          let result ← coAuth scheduleInfos (coAuthInfoOf caller userId authType contextId) callback
          if result ≠ .success then
            atomic (.onResult callback result {})
            return 0
          return contextId

/-- `AuthUser`; unlike `Auth` it gives the context back when it fails. -/
def authUser (userId : Int32) (challenge : UInt64) (authType : AuthType)
    (authTrustLevel : AuthTrustLevel) : Option ClientCallback → UserAuthProg UInt64
  | none => return 0
  | some callback => do
    if !checkPermission kit caller accessUserAuthInternalPermission then
      atomic (.onResult callback .eCheckPermissionFailed {})
      return 0
    match ← getControllerData callback authTrustLevel with
    | none => return 0
    | some contextId =>
      match ← generateSolution ⟨contextId, userId, challenge, authType, authTrustLevel⟩ with
      | .error result =>
        let _ ← atomic (.deleteContextId contextId)
        atomic (.onResult callback result {})
        return 0
      | .ok scheduleInfos =>
        let result ← coAuth scheduleInfos (coAuthInfoOf caller userId authType contextId) callback
        if result ≠ .success then
          let _ ← atomic (.deleteContextId contextId)
          atomic (.onResult callback result {})
          return 0
        return contextId

def cancelAuth (contextId : UInt64) : UserAuthProg ResultCode := do
  if !checkPermission kit caller accessUserAuthInternalPermission &&
      !checkPermission kit caller accessBiometricPermission then
    return .eCheckPermissionFailed
  if !(← atomic (.isContextIdExist contextId)) then return .invalidParameters
  let ret ← cancelContext contextId
  if ret ≠ .success then return ret
  match ← atomic (.getScheduleIds contextId) with
  -- cancelled in the meantime
  | none =>
    let _ ← atomic (.deleteContextId contextId)
    return .generalError
  | some scheduleIds =>
    cancelAll scheduleIds
    let _ ← atomic (.deleteContextId contextId)
    return .success

end Service

/-! ## 2. The machine -/

/-- `onFinish` names the schedule that reports; `task` is what the `p`-th thread runs next. -/
inductive UserAuthCall where
  | auth (caller : Caller) (challenge : UInt64) (authType : AuthType)
      (authTrustLevel : AuthTrustLevel) (callback : Option ClientCallback)
  | authUser (caller : Caller) (userId : Int32) (challenge : UInt64) (authType : AuthType)
      (authTrustLevel : AuthTrustLevel) (callback : Option ClientCallback)
  | cancelAuth (caller : Caller) (contextId : UInt64)
  | onFinish (i : Nat) (self : UserAuthCallbackImplCoAuth) (scheduleId : UInt64)
      (resultCode : UInt32) (scheduleToken : List UInt8)
  | onAcquireInfo (i : Nat) (self : UserAuthCallbackImplCoAuth) (scheduleId : UInt64)
      (acquire : UInt32)
  | task (p : Nat) (task : ThreadTask UserAuthTask)

def runTask : ThreadTask UserAuthTask → UserAuthProg Unit
  | .ensureTransaction .. => return
  | .run (.onFinishHandle i self resultCode scheduleToken) =>
    onFinishHandle i self resultCode scheduleToken
  | .run (.onAcquireInfoHandle i self acquire) => onAcquireInfoHandle i self acquire

def userAuthBody (kit : AccessTokenKit) : UserAuthCall → UserAuthProg Unit
  | .auth caller challenge authType authTrustLevel callback =>
    Prog.discard (auth kit caller challenge authType authTrustLevel callback)
  | .authUser caller userId challenge authType authTrustLevel callback =>
    Prog.discard (authUser kit caller userId challenge authType authTrustLevel callback)
  | .cancelAuth caller contextId => Prog.discard (cancelAuth kit caller contextId)
  | .onFinish i self _ resultCode scheduleToken => onFinish i self resultCode scheduleToken
  | .onAcquireInfo i self _ acquire => onAcquireInfo i self acquire
  | .task p task => do
    runTask task
    atomic (.endTask p)

/-- CoAuth reports about a schedule only after it has been given it; a thread takes its first task
when it is idle. -/
def userAuthAccept (s : UserAuthState) : UserAuthCall → Option UserAuthState
  | .auth .. | .authUser .. | .cancelAuth .. => some s
  | .onFinish i self scheduleId _ _ | .onAcquireInfo i self scheduleId _ =>
    -- CoAuth knows the schedule and the callback that it has been given with it.
    if s.callbacks[i]? = some self ∧ (scheduleId, i) ∈ s.begun then some s else none
  | .task p task =>
    match s.groups.startTask p with
    | none => none
    | some (task', groups) => if task' = task then some { s with groups } else none

abbrev UserAuthWorld := World UserAuthOp UserAuthRes UserAuthState UserAuthCall
abbrev UserAuthEvent := Event UserAuthOp UserAuthRes UserAuthCall
abbrev UserAuthMove := Move UserAuthOp UserAuthEnv UserAuthCall
abbrev UserAuthConfig := Config UserAuthOp UserAuthRes UserAuthState UserAuthCall

def userAuth (kit : AccessTokenKit) :
    Machine UserAuthOp UserAuthRes UserAuthEnv UserAuthState UserAuthCall where
  enabled _ o env s := userAuthEnabled env s o
  handle tid o env s := userAuthHandle tid env s o
  accept call s := userAuthAccept s call
  body := userAuthBody kit

end UserIam.UserAuth
