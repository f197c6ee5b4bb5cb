import UserIam.UserIDM.UserIDMAdapter

/-!
# UserIDMController and the handlers

The operations of an edit session and what the handlers do when CoAuth calls them back.  Where the
source has two functions of one name, the one that takes a user id is named `…ById` here.
-/

namespace UserIam.UserIDM

open CoAuth

/-! ## 1. The session -/

/-- The part that the three functions below share: an enrolment that is active is cancelled. -/
def cancelActive : UserIDMProg Unit := do
  let sessionId ← atomic .checkScheduleIdIsActive
  match sessionId with
  | none => return
  | some sessionId =>
    match ← atomic .checkChallenge with
    | none => return
    | some _ =>
      let _ ← atomic (.cancel sessionId)
      return

def openEditSessionCtrl (userId : Int32) : UserIDMProg UInt64 := do
  cancelActive
  atomic .cleanData
  let challenge ← openEditSession userId
  let _ ← atomic (.insertChallenge challenge)
  return challenge

def closeEditSessionCtrl : UserIDMProg Unit := do
  cancelActive
  atomic .cleanData
  closeEditSession

def closeEditSessionCtrlById (userId : Int32) : UserIDMProg Unit := do
  let result ← closeEditSessionById userId
  if result ≠ .success then return
  cancelActive
  atomic .cleanData

def getAuthInfoCtrl (userId : Int32) (authType : AuthType) :
    UserIDMProg (ResultCode × List CredentialInfo) :=
  queryCredential userId authType

def getSecureInfoCtrl (userId : Int32) : UserIDMProg (ResultCode × UInt64 × List EnrolledInfo) :=
  getSecureUid userId

/-! ## 2. Enrolment -/

def callerNameOf (callerID : UInt64) : List UInt8 := (toString callerID).toUTF8.toList

/-- `AddCredentialCallCoauth` -/
def addCredentialCallCoauth (callerID : UInt64) (credInfo : AddCredInfo)
    (innerkitsCallback : Option ClientCallback) (challenge : UInt64) (info : ScheduleInfo) :
    UserIDMProg ResultCode := do
  if innerkitsCallback.isNone then return .invalidParameters
  let _ ← atomic (.insertScheduleId info.scheduleId)
  let paramInfo : AuthInfo := ⟨callerNameOf callerID, callerID⟩
  -- a type that is neither is an error of the caller, and enrols as a pin
  let type := if credInfo.authType = .face then CoAuthType.addFaceCred else .addPinCred
  let coAuthCallback : UserIDMCoAuthHandler := ⟨type, challenge, info.scheduleId, innerkitsCallback⟩
  atomic (.beginSchedule info paramInfo coAuthCallback)
  return .success

def addCredentialCtrl (userId : Int32) (callerID : UInt64) (credInfo : AddCredInfo) :
    Option ClientCallback → UserIDMProg ResultCode
  | none => return .invalidParameters
  | some innerkitsCallback => do
    match ← atomic .checkChallenge with
    | none =>
      atomic (.onResult innerkitsCallback .fail 0)
      return .fail
    | some challenge =>
      match ← atomic .checkScheduleIdIsActive with
      | some _ =>
        atomic (.onResult innerkitsCallback .busy 0)
        return .busy
      | none =>
        match ← initSchedule credInfo.token userId credInfo.authType with
        | .ok info =>
          addCredentialCallCoauth callerID credInfo (some innerkitsCallback) challenge info
        | .error ret =>
          atomic (.onResult innerkitsCallback .fail 0)
          return ret

def updateCredentialCtrl (userId : Int32) (callerID : UInt64) (callerName : List UInt8)
    (credInfo : AddCredInfo) : Option ClientCallback → UserIDMProg ResultCode
  | none => return .invalidParameters
  | some innerkitsCallback => do
    match ← atomic .checkChallenge with
    | none =>
      atomic (.onResult innerkitsCallback .fail 0)
      return .fail
    | some challenge =>
      match ← atomic .checkScheduleIdIsActive with
      | some _ =>
        atomic (.onResult innerkitsCallback .busy 0)
        return .busy
      | none =>
        match ← initSchedule credInfo.token userId credInfo.authType with
        | .ok info =>
          let _ ← atomic (.insertScheduleId info.scheduleId)
          -- The handler keeps the challenge that has been read before the schedule was asked for.
          let coAuthCallback : UserIDMCoAuthHandler :=
            ⟨.modifyCred, challenge, info.scheduleId, some innerkitsCallback⟩
          atomic (.beginSchedule info ⟨callerName, callerID⟩ coAuthCallback)
          return .success
        | .error ret =>
          atomic (.onResult innerkitsCallback .fail 0)
          return ret

/-- `DelSchedleIdCtrl(challenge)` -/
def delSchedleIdCtrl (challenge : UInt64) : UserIDMProg ResultCode := do
  let lastChallenge ← atomic .checkChallenge
  -- no session counts as the challenge 0
  if lastChallenge.getD 0 ≠ challenge then return .fail
  match ← atomic .checkScheduleIdIsActive with
  | none => return .fail
  | some sessionId =>
    let result ← atomic (.cancel sessionId)
    if result ≠ .success then return result
    atomic .deleteSessionId
    return result

/-- `DelSchedleIdCtrl(userId)`; what CoAuth says about the cancellation is not looked at. -/
def delSchedleIdCtrlById (userId : Int32) : UserIDMProg ResultCode := do
  let result ← cancelEnrollment userId
  if result ≠ .success then return result
  match ← atomic .checkChallenge with
  | none => return result
  | some _ =>
    match ← atomic .checkScheduleIdIsActive with
    | none => return result
    | some sessionId =>
      let _ ← atomic (.cancel sessionId)
      atomic .deleteSessionId
      return result

/-! ## 3. Deletion -/

def deleteCredentialCtrl (userId : Int32) (credentialId : UInt64) (authToken : List UInt8) :
    UserIDMProg (Except ResultCode CredentialInfo) :=
  deleteCredential userId credentialId authToken

def deleteUserCtrl (userId : Int32) (authToken : List UInt8) :
    UserIDMProg (Except ResultCode (List CredentialInfo)) :=
  deleteUser userId authToken

def deleteUserByForceCtrl (userId : Int32) :
    UserIDMProg (Except ResultCode (List CredentialInfo)) :=
  deleteUserEnforce userId

/-- The request that makes an executor delete a template. -/
def deletionCondition (info : CredentialInfo) : AuthAttributes :=
  let condition := (AuthAttributes.new.setUint32Value authPropertyMode 0).2
  let condition := (condition.setUint64Value authCallerUid 0).2
  let condition := (condition.setUint32Value CoAuth.authType info.authType).2
  let condition := (condition.setUint64Value authSubtype info.authSubType.toUInt64).2
  let condition := (condition.setUint64Value authCredentialId info.credentialId).2
  (condition.setUint64Value authTemplateId info.templateId).2

def delFaceCredentialCtrl (info : CredentialInfo) (innerCallback : Option ClientCallback) :
    UserIDMProg ResultCode := do
  -- the callback is not called
  if info.authType ≠ .face then return .fail
  atomic (.setExecutorProp (deletionCondition info) ⟨.face, info.credentialId, innerCallback⟩)
  return .success

/-- The loop of `DelExecutorPinInfoCtrl` over the credentials that are left. -/
def delExecutorInfo (innerCallback : Option ClientCallback) :
    List CredentialInfo → UserIDMProg Unit
  | [] => return
  | info :: infos => do
    -- credentials of other types have no executor here
    if info.authType = .pin then
      atomic (.setExecutorProp (deletionCondition info) ⟨.pin, info.credentialId, innerCallback⟩)
    else if info.authType = .face then
      atomic (.setExecutorProp (deletionCondition info) ⟨.face, info.credentialId, innerCallback⟩)
    delExecutorInfo innerCallback infos

/-- The services only pass a callback that is not null. -/
def delExecutorPinInfoCtrl (innerCallback : ClientCallback) (info : List CredentialInfo) :
    UserIDMProg ResultCode := do
  if info.length < 1 then
    atomic (.onResult innerCallback .fail 0)
    return .fail
  delExecutorInfo (some innerCallback) info
  return .success

/-! ## 4. UserIDMCoAuthHandler -/

/-- The body of a function that holds a handler's mutex from its first to its last line. -/
def underLock (id : HandlerId) (p : UserIDMProg Unit) : UserIDMProg Unit := do
  atomic (.lock id)
  p
  atomic (.unlock id)

/-- The request that makes the executor replace a template. -/
def modificationCondition (credentialInfo : CredentialInfo) : AuthAttributes :=
  let condition := (AuthAttributes.new.setUint32Value authPropertyMode 0).2
  let condition := (condition.setUint64Value authCallerUid 0).2
  let condition := (condition.setUint64Value authCredentialId credentialInfo.credentialId).2
  let condition := (condition.setUint32Value CoAuth.authType credentialInfo.authType).2
  (condition.setUint64Value authTemplateId credentialInfo.templateId).2

/-- `OnFinishModify`; the result of `UpdateCredential` is not looked at. -/
def onFinishModify (handler : UserIDMCoAuthHandler) (scheduleToken : List UInt8)
    (credentialId : UInt64) : UserIDMProg (ResultCode × UInt64) := do
  if handler.innerCallback.isNone then return (.invalidParameters, credentialId)
  match ← atomic .checkChallenge with
  | none => return (.fail, credentialId)
  | some _ =>
    if (← atomic .checkScheduleIdIsActive) = some handler.lastScheduleId then
      -- a local that a failing `UpdateCredential` does not write
      let credentialInfo ← atomic .uninitialised
      let (_, credentialId, credentialInfo) ←
        updateCredential scheduleToken credentialId credentialInfo
      let setPropCallback : UserIDMSetPropHandler := ⟨.pin, credentialId, handler.innerCallback⟩
      atomic (.setExecutorProp (modificationCondition credentialInfo) setPropCallback)
      return (.success, credentialId)
    else return (.fail, credentialId)

/-- The commit of a handler that adds a credential. -/
def commitAdd (handler : UserIDMCoAuthHandler) (scheduleToken : List UInt8) :
    UserIDMProg (ResultCode × UInt64) := do
  if (← atomic .checkScheduleIdIsActive) = some handler.lastScheduleId then
    addCredential scheduleToken 0
  else return (.fail, 0)

/-- `OnFinish` for a handler that adds a credential. -/
def onFinishAdd (handler : UserIDMCoAuthHandler) (innerCallback : ClientCallback)
    (scheduleToken : List UInt8) : UserIDMProg Unit := do
  let (result, credentialId) ← commitAdd handler scheduleToken
  atomic .deleteSessionId
  atomic (.onResult innerCallback result credentialId)

/-- What `OnFinish` does while it holds the mutex. -/
def onFinishLocked (handler : UserIDMCoAuthHandler) (resultCode : UInt32)
    (scheduleToken : List UInt8) : UserIDMProg Unit :=
  match handler.innerCallback with
  | none => return
  | some innerCallback => do
    if resultCode ≠ ResultCode.success.toUInt32 then
      atomic .deleteSessionId
      atomic (.onResult innerCallback .fail 0)
    else
      match handler.type with
      | .addPinCred | .addFaceCred => onFinishAdd handler innerCallback scheduleToken
      | .modifyCred =>
        -- The executor's answer has gone to the same callback by then.
        let (result, credentialId) ← onFinishModify handler scheduleToken 0
        atomic (.onResult innerCallback result credentialId)
        atomic .deleteSessionId

/-- `OnFinish` of the `i`-th handler. -/
def onFinish (i : Nat) (handler : UserIDMCoAuthHandler) (resultCode : UInt32)
    (scheduleToken : List UInt8) : UserIDMProg Unit :=
  underLock (.coAuth i) (onFinishLocked handler resultCode scheduleToken)

def onAcquireInfoLocked (handler : UserIDMCoAuthHandler) (acquire : UInt32) : UserIDMProg Unit :=
  match handler.innerCallback with
  | none => return
  | some innerCallback =>
    if handler.type = .addFaceCred then atomic (.onAcquireInfo innerCallback 1 acquire)
    else return

/-- `OnAcquireInfo` of the `i`-th handler. -/
def onAcquireInfo (i : Nat) (handler : UserIDMCoAuthHandler) (acquire : UInt32) :
    UserIDMProg Unit :=
  underLock (.coAuth i) (onAcquireInfoLocked handler acquire)

/-! ## 5. UserIDMSetPropHandler -/

/-- The session is not checked before its schedule id is deleted. -/
def onResultLocked (handler : UserIDMSetPropHandler) (result : UInt32) : UserIDMProg Unit := do
  if handler.type = .pin ∨ handler.type = .face then
    match handler.propInnerCallback with
    | some callback => atomic (.onResult callback result.toInt32 handler.lastCredentialId)
    | none => pure ()
    -- whichever schedule it is
    atomic .deleteSessionId

/-- `OnResult` of the `i`-th handler. -/
def onResult (i : Nat) (handler : UserIDMSetPropHandler) (result : UInt32) : UserIDMProg Unit :=
  underLock (.setProp i) (onResultLocked handler result)

end UserIam.UserIDM
