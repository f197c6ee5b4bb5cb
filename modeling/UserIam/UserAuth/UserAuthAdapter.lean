import UserIam.UserAuth.UserAuthState

/-!
# UserAuthAdapter and the callbacks it makes

What the authentication service asks the HDI, the credential manager and the executors.  An output
parameter of the source is a component of the result.
-/

namespace UserIam.UserAuth

open CoAuth (AuthAttributes)

/-! ## 1. The HDI -/

def copyScheduleInfo : UserIDM.HdiScheduleInfo → Option CoAuth.ScheduleInfo :=
  UserIDM.copyScheduleInfo

/-- `GenerateSolution`; the schedules are there exactly if the code is `SUCCESS`. -/
def generateSolution (param : AuthSolution) :
    UserAuthProg (Except ResultCode (List CoAuth.ScheduleInfo)) := do
  if !(← atomic .getHdiInterface) then return .error .generalError
  let (ret, hdiScheduleInfos) ← atomic (.beginAuthentication param.contextId param)
  if ret ≠ .success then return .error ret
  match hdiScheduleInfos.mapM copyScheduleInfo with
  | none => return .error .generalError
  | some scheduleInfos =>
    let ret ← atomic (.setScheduleIds param.contextId (scheduleInfos.map (·.scheduleId)))
    if ret ≠ .success then return .error ret
    return .ok scheduleInfos

/-- The token stays empty when there is no result. -/
def requestAuthResult (contextId : UInt64) (scheduleToken : List UInt8) :
    UserAuthProg (ResultCode × List UInt8) := do
  if !(← atomic .getHdiInterface) then return (.generalError, [])
  let (ret, token) ← atomic (.updateAuthenticationResult contextId scheduleToken)
  if ret ≠ .success then return (ret, [])
  return (ret, token)

def cancelContext (contextId : UInt64) : UserAuthProg ResultCode := do
  if !(← atomic .getHdiInterface) then return .generalError
  atomic (.cancelAuthentication contextId)

/-! ## 2. Properties of executors -/

/-- `GetEachExecutorProp` from the keys that are left; a value that is missing ends it. -/
def eachExecutorProp (pAuthAttributes : AuthAttributes) (result : ExecutorProperty) :
    List UInt32 → ResultCode × ExecutorProperty
  | [] => (.success, result)
  | item :: keys =>
    if item = authSubTypeKey then
      let (ret, tmpValue) := pAuthAttributes.getUint64Value CoAuth.authSubtype 0
      if ret ≠ .success then (ret, { result with result := ret })
      else eachExecutorProp pAuthAttributes { result with authSubType := tmpValue } keys
    else if item = remainTimesKey then
      let (ret, remainTimes) :=
        pAuthAttributes.getUint32Value CoAuth.authRemainCount result.remainTimes
      if ret ≠ .success then (ret, { result with result := ret })
      else eachExecutorProp pAuthAttributes { result with remainTimes } keys
    else if item = freezingTimeKey then
      let (ret, freezingTime) :=
        pAuthAttributes.getUint32Value CoAuth.authRemainTime result.freezingTime
      if ret ≠ .success then (ret, { result with result := ret })
      else eachExecutorProp pAuthAttributes { result with freezingTime } keys
    else (.invalidParameters, { result with result := .invalidParameters })

def getEachExecutorProp (request : GetPropertyRequest) (result : ExecutorProperty)
    (pAuthAttributes : AuthAttributes) : ResultCode × ExecutorProperty :=
  eachExecutorProp pAuthAttributes
    { result with freezingTime := 0, remainTimes := 0, authSubType := pinSix } request.keys

/-- `GetExecutorProp`; the code of `GetEachExecutorProp` is only looked at. -/
def getExecutorProp (callerUid : UInt64) (pkgName : List UInt8) (templateId : UInt64)
    (request : GetPropertyRequest) (result : ExecutorProperty) :
    UserAuthProg (ResultCode × ExecutorProperty) := do
  let (ret, cAuthAttributes) := AuthAttributes.new.setUint32Value CoAuth.authType request.authType
  if ret ≠ .success then return (ret, result)
  let (ret, cAuthAttributes) :=
    cAuthAttributes.setUint32Value CoAuth.authPropertyMode propermodeGet
  if ret ≠ .success then return (ret, { result with result := ret })
  let (ret, cAuthAttributes) := cAuthAttributes.setUint64Value CoAuth.authTemplateId templateId
  if ret ≠ .success then return (ret, { result with result := ret })
  let (ret, cAuthAttributes) := cAuthAttributes.setUint64Value CoAuth.authCallerUid callerUid
  if ret ≠ .success then return (ret, result)
  let (ret, cAuthAttributes) := cAuthAttributes.setUint8ArrayValue CoAuth.authCallerName pkgName
  if ret ≠ .success then return (ret, { result with result := ret })
  let (ret, pAuthAttributes) ← atomic (.getExecutorProp cAuthAttributes)
  if ret ≠ .success then return (ret, { result with result := ret })
  let (each, result) := getEachExecutorProp request result pAuthAttributes
  if each ≠ .success then return (ret, result)
  return (ret, { result with result := .success })

/-- `SetProPropAuthInfo`; the callback that it reports an error to only writes a log. -/
def setProPropAuthInfo (callerInfo : CallerInfo) (request : SetPropertyRequest)
    (templateIds : List UInt64) : ResultCode × AuthAttributes :=
  let (ret, authAttributes) := AuthAttributes.new.setUint32Value CoAuth.authType request.authType
  if ret ≠ .success then (ret, authAttributes)
  else
    let value := if request.key = .freezeTemplate then propermodeFreeze else propermodeUnfreeze
    let (ret, authAttributes) := authAttributes.setUint32Value CoAuth.authPropertyMode value
    if ret ≠ .success then (ret, authAttributes)
    else
      let (ret, authAttributes) :=
        authAttributes.setUint64Value CoAuth.authCallerUid callerInfo.callerUID
      if ret ≠ .success then (ret, authAttributes)
      else
        let (ret, authAttributes) :=
          authAttributes.setUint8ArrayValue CoAuth.authCallerName callerInfo.pkgName
        if ret ≠ .success then (ret, authAttributes)
        else authAttributes.setUint64ArrayValue CoAuth.authTemplateIdList templateIds

def setPropAuthInfo (callerInfo : CallerInfo) (request : SetPropertyRequest)
    (templateIds : List UInt64) : UserAuthProg Unit := do
  let (ret, authAttributes) := setProPropAuthInfo callerInfo request templateIds
  if ret ≠ .success then return
  atomic (.setExecutorProp authAttributes)

/-- `UserAuthCallbackImplIdmCoAuthGetPropFreeze::OnGetInfo`; the user is not passed on. -/
def onGetInfoFreeze (callerUid : UInt64) (pkgName : List UInt8) (request : SetPropertyRequest)
    (info : List UserIDM.CredentialInfo) : UserAuthProg Unit := do
  if info.length = 0 then return
  setPropAuthInfo ⟨callerUid, 0, pkgName⟩ request (info.map (·.templateId))

/-- The result code and the token of the source go into a log only. -/
def coAuthSetPropAuthInfo (callerInfo : CallerInfo) (request : SetPropertyRequest) :
    UserAuthProg Unit := do
  let (_, credInfos) ← atomic (.getAuthInfoCtrl callerInfo.userID request.authType)
  onGetInfoFreeze callerInfo.callerUID callerInfo.pkgName request credInfos

/-! ## 3. The final result -/

/-- `UserAuthCallbackImplIdmGetPropCoAuth::OnGetInfo` -/
def onGetInfoCoAuth (callback : ClientCallback) (callerUid : UInt64) (pkgName : List UInt8)
    (resultCode : ResultCode) (authToken : List UInt8) (request : GetPropertyRequest) :
    List UserIDM.CredentialInfo → UserAuthProg Unit
  | [] => atomic (.onResult callback resultCode ⟨authToken, 0, 0⟩)
  | info :: _ => do
    -- the fields of the result are read only where they have been written
    let (ret, executorProperty) ← getExecutorProp callerUid pkgName info.templateId request {}
    if ret ≠ .success then atomic (.onResult callback resultCode ⟨authToken, 0, 0⟩)
    else
      atomic (.onResult callback resultCode
        ⟨authToken, executorProperty.remainTimes, executorProperty.freezingTime⟩)

def getPropAuthInfoCoAuth (callerInfo : CallerInfo) (resultCode : ResultCode)
    (authToken : List UInt8) (request : GetPropertyRequest) (callback : ClientCallback) :
    UserAuthProg Unit := do
  let (_, credInfos) ← atomic (.getAuthInfoCtrl callerInfo.userID request.authType)
  onGetInfoCoAuth callback callerInfo.callerUID callerInfo.pkgName resultCode authToken request
    credInfos

/-! ## 4. Starting the schedules -/

def beginSchedules (authInfo : CoAuth.AuthInfo) (i : Nat) :
    List CoAuth.ScheduleInfo → UserAuthProg Unit
  | [] => return
  | scheduleInfo :: scheduleInfos => do
    atomic (.beginSchedule scheduleInfo authInfo i)
    beginSchedules authInfo i scheduleInfos

/-- `UserAuthAdapter::CoAuth` -/
def coAuth (scheduleInfos : List CoAuth.ScheduleInfo) (coAuthInfo : CoAuthInfo)
    (callback : ClientCallback) : UserAuthProg ResultCode := do
  let i ← atomic (.makeCoAuthCallback (.new callback coAuthInfo))
  let ret ← atomic (.saveCoAuthCallback coAuthInfo.contextID i)
  if ret ≠ .success then return ret
  beginSchedules ⟨coAuthInfo.pkgName, coAuthInfo.callerID⟩ i scheduleInfos
  return .success

end UserIam.UserAuth
