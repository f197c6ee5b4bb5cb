import UserIam.UserAuth.PropertyCodes
import UserIam.UserAuth.UserAuthAsyncIpc
import UserIam.UserAuth.UserAuthService

/-!
# The property requests of UserAuthService

What the service does about the properties of executors and the status of an authentication type,
and the whole service as an implementation of `IUserAuth`.
-/

namespace UserIam.UserAuth

open Conc
open CoAuth (AuthAttributes)

/-! ## 1. What the service calls -/

/-- `base` is an operation of the requests that authenticate; `setExecutorProp` is CoAuth's, with a
callback that passes the result on to the client. -/
inductive PropertyServiceOp where
  | base (o : UserAuthOp)
  | getAuthTrustLevel (userId : Int32) (authType : AuthType)
  | queryActiveOsAccountIds
  | setExecutorProp (callback : ClientCallback) (conditions : AuthAttributes)
  | onExecutorPropertyInfo (callback : ClientCallback) (result : ExecutorProperty)
  | onSetExecutorProperty (callback : ClientCallback) (result : ResultCode)

@[reducible] def PropertyServiceRes : PropertyServiceOp → Type
  | .base o => UserAuthRes o
  | .getAuthTrustLevel .. => ResultCode × UInt32
  | .queryActiveOsAccountIds => ResultCode × List Int32
  | .setExecutorProp .. | .onExecutorPropertyInfo .. | .onSetExecutorProperty .. => Unit

abbrev PropertyServiceProg := Prog PropertyServiceOp PropertyServiceRes

/-- A program of the requests that authenticate. -/
def onBase {α : Type} (p : UserAuthProg α) : PropertyServiceProg α :=
  p.interp fun o => Prog.op (PropertyServiceOp.base o)

/-! ## 2. UserAuthAdapter -/

def authTrustLevelSys : UInt32 := 1
def userAuthVersion : Int32 := 0

def initAlgorithmKey : UInt32 := 1

def propermodeInitAlgorithm : UInt32 := 5
def propermodeReleaseAlgorithm : UInt32 := 6

def getAuthTrustLevel (userId : Int32) (authType : AuthType) :
    PropertyServiceProg (ResultCode × UInt32) := do
  if !(← onBase (atomic .getHdiInterface)) then return (.generalError, authTrustLevelSys)
  Prog.op (PropertyServiceOp.getAuthTrustLevel userId authType)

def getPropAuthInfo (userId : Int32) (callerUid : UInt64) (pkgName : List UInt8)
    (request : GetPropertyRequest) (callback : ClientCallback) : PropertyServiceProg Unit := do
  let (_, credInfos) ← onBase (atomic (.getAuthInfoCtrl userId request.authType))
  let executorProperty ← onBase (onGetInfoGetProp callerUid pkgName request credInfos)
  Prog.op (PropertyServiceOp.onExecutorPropertyInfo callback executorProperty)

def propertyModeOf (key : UInt32) : UInt32 :=
  if key = initAlgorithmKey then propermodeInitAlgorithm else propermodeReleaseAlgorithm

/-- The attributes that `SetExecutorProp` hands to CoAuth; a setter that fails ends it. -/
def setExecutorPropAttributes (callerUid : UInt64) (pkgName : List UInt8)
    (request : WireSetPropertyRequest) : ResultCode × AuthAttributes :=
  let (ret, authAttributes) :=
    AuthAttributes.new.setUint32Value CoAuth.authPropertyMode (propertyModeOf request.key)
  if ret ≠ .success then (ret, authAttributes)
  else
    let (ret, authAttributes) := authAttributes.setUint64Value CoAuth.authCallerUid callerUid
    if ret ≠ .success then (ret, authAttributes)
    else
      let (ret, authAttributes) := authAttributes.setUint8ArrayValue CoAuth.authCallerName pkgName
      if ret ≠ .success then (ret, authAttributes)
      else
        let (ret, authAttributes) :=
          authAttributes.setUint32Value CoAuth.authType request.authType
        if ret ≠ .success then (ret, authAttributes)
        else authAttributes.setUint8ArrayValue CoAuth.algorithmInfo request.setInfo

/-- `SetExecutorProp` of the adapter. -/
def setExecutorProp (callerUid : UInt64) (pkgName : List UInt8) (request : WireSetPropertyRequest)
    (callback : ClientCallback) : PropertyServiceProg ResultCode := do
  let (ret, authAttributes) := setExecutorPropAttributes callerUid pkgName request
  if ret ≠ .success then return ret
  Prog.op (PropertyServiceOp.setExecutorProp callback authAttributes)
  return ret

/-! ## 3. UserAuthService -/

section Service

variable (kit : AccessTokenKit) (caller : Caller)

def getAvailableStatus (authType : AuthType) (authTrustLevel : AuthTrustLevel) :
    PropertyServiceProg ResultCode := do
  if !checkPermission kit caller accessUserAuthInternalPermission &&
      (authType == .pin || !checkPermission kit caller accessBiometricPermission) then
    return .eCheckPermissionFailed
  if atl4 < authTrustLevel ∨ authTrustLevel < atl1 then return .trustLevelNotSupport
  match getCallingUserId kit caller with
  | .error ret => return ret
  | .ok userId =>
    let (ret, authTrustLevelFromSys) ← getAuthTrustLevel userId authType
    if ret = .success ∧ authTrustLevelFromSys < authTrustLevel then return .trustLevelNotSupport
    return ret

/-- The part of `GetProperty` and `SetProperty` that is theirs in common: a client without the
permission gets a result of an authentication. -/
def withPropertyPermission (callback : ClientCallback) (serve : PropertyServiceProg Unit) :
    PropertyServiceProg Unit := do
  if !checkPermission kit caller accessUserAuthInternalPermission then
    onBase (atomic (.onResult callback .eCheckPermissionFailed {}))
  else serve

def getProperty (request : GetPropertyRequest) (callback : ClientCallback) :
    PropertyServiceProg Unit :=
  withPropertyPermission kit caller callback do
    let (queryRet, ids) ← Prog.op PropertyServiceOp.queryActiveOsAccountIds
    match ids with
    | [] => onBase (atomic (.onResult callback .fail {}))
    | userId :: _ =>
      if queryRet ≠ .success then onBase (atomic (.onResult callback .fail {}))
      else getPropAuthInfo userId caller.id (UserIDM.callerNameOf caller.id) request callback

def getPropertyById (userId : Int32) (request : GetPropertyRequest) (callback : ClientCallback) :
    PropertyServiceProg Unit :=
  withPropertyPermission kit caller callback
    (getPropAuthInfo userId caller.id (UserIDM.callerNameOf caller.id) request callback)

def setProperty (request : WireSetPropertyRequest) (callback : ClientCallback) :
    PropertyServiceProg Unit :=
  withPropertyPermission kit caller callback do
    let ret ← setExecutorProp caller.id (UserIDM.callerNameOf caller.id) request callback
    if ret ≠ .success then Prog.op (PropertyServiceOp.onSetExecutorProperty callback ret)

def getVersion : PropertyServiceProg ResultCode :=
  if !checkPermission kit caller accessUserAuthInternalPermission &&
      !checkPermission kit caller accessBiometricPermission then return 0
  else return userAuthVersion

/-! ### What the requests come to -/

variable {kit caller} {callback : ClientCallback} {request : WireSetPropertyRequest}

theorem withPropertyPermission_denied
    (h : kit.grants caller accessUserAuthInternalPermission = false)
    (serve : PropertyServiceProg Unit) :
    withPropertyPermission kit caller callback serve =
      onBase (atomic (.onResult callback .eCheckPermissionFailed {})) := by
  rw [withPropertyPermission, checkPermission, h]
  rfl

theorem withPropertyPermission_granted
    (h : kit.grants caller accessUserAuthInternalPermission = true)
    (serve : PropertyServiceProg Unit) :
    withPropertyPermission kit caller callback serve = serve := by
  rw [withPropertyPermission, checkPermission, h]
  rfl

/-- The five setters succeed. -/
theorem setExecutorPropAttributes_success (callerUid : UInt64) (pkgName : List UInt8)
    (request : WireSetPropertyRequest) :
    (setExecutorPropAttributes callerUid pkgName request).1 = .success := by
  have h32 (a : AuthAttributes) {tag : CoAuth.AuthAttributeType} (v : UInt32)
      (htag : CoAuth.typeOf tag = some .uint32Type) : ¬(a.setUint32Value tag v).1 ≠ .success :=
    not_not.mpr (setValue_known a htag v)
  have h64 (a : AuthAttributes) {tag : CoAuth.AuthAttributeType} (v : UInt64)
      (htag : CoAuth.typeOf tag = some .uint64Type) : ¬(a.setUint64Value tag v).1 ≠ .success :=
    not_not.mpr (setValue_known a htag v)
  have harray (a : AuthAttributes) {tag : CoAuth.AuthAttributeType} (v : List UInt8)
      (htag : CoAuth.typeOf tag = some .uint8ArrayType) :
      ¬(a.setUint8ArrayValue tag v).1 ≠ .success :=
    not_not.mpr (setValue_known a htag v)
  unfold setExecutorPropAttributes
  dsimp only
  rw [if_neg (h32 _ _ rfl), if_neg (h64 _ _ rfl), if_neg (harray _ _ rfl), if_neg (h32 _ _ rfl)]
  exact setValue_known _ rfl _

theorem setProperty_granted (h : kit.grants caller accessUserAuthInternalPermission = true) :
    setProperty kit caller request callback =
      Prog.op (PropertyServiceOp.setExecutorProp callback
        (setExecutorPropAttributes caller.id (UserIDM.callerNameOf caller.id) request).2) := by
  have hsuccess := setExecutorPropAttributes_success caller.id (UserIDM.callerNameOf caller.id)
    request
  rw [setProperty, withPropertyPermission_granted h, setExecutorProp]
  generalize setExecutorPropAttributes caller.id (UserIDM.callerNameOf caller.id) request = r
    at hsuccess ⊢
  obtain ⟨ret, authAttributes⟩ := r
  obtain rfl : ret = .success := hsuccess
  rfl

variable (kit caller)

/-- The service for one caller; the stub hands it callbacks that are not null. -/
def userAuthService : IUserAuth PropertyServiceOp PropertyServiceRes where
  getAvailableStatus := getAvailableStatus kit caller
  getProperty := getProperty kit caller
  getPropertyById := getPropertyById kit caller
  setProperty := setProperty kit caller
  auth challenge authType authTrustLevel callback :=
    onBase (auth kit caller challenge authType authTrustLevel (some callback))
  authUser userId challenge authType authTrustLevel callback :=
    onBase (authUser kit caller userId challenge authType authTrustLevel (some callback))
  cancelAuth contextId := onBase (cancelAuth kit caller contextId)
  getVersion := getVersion kit caller

end Service

end UserIam.UserAuth
