import UserIam.UserIDM.UserIDMState

/-!
# UserIDMAdapter

The calls of the HDI, each behind a check that the interface is there.  An output parameter of the
source is a component of the result; it holds the value the caller passed in where the source
returns before it is written.
-/

namespace UserIam.UserIDM

/-- The length of an executor's public key. -/
def publicKeyLen : Nat := 32

/-- A challenge is eight bytes. -/
def openEditSession (userId : Int32) : UserIDMProg UInt64 := do
  if !(← atomic .getHdiInterface) then return 0
  let (ret, hdiChallenge) ← atomic (.openSession userId)
  if ret ≠ .success ∨ hdiChallenge.length ≠ 8 then return 0
  return UInt64.ofNat (Bytes.leNat hdiChallenge)

def closeEditSession : UserIDMProg Unit := do
  if !(← atomic .getHdiInterface) then return
  let _ ← atomic (.closeSession 0)
  return

/-- `CloseEditSession(userId)` -/
def closeEditSessionById (userId : Int32) : UserIDMProg ResultCode := do
  if !(← atomic .getHdiInterface) then return .fail
  atomic (.closeSession userId)

def copyCredentialFromHdi (hdiInfo : HdiCredentialInfo) : CredentialInfo where
  credentialId := hdiInfo.credentialId
  authType := hdiInfo.authType
  authSubType := hdiInfo.executorMatcher
  templateId := hdiInfo.templateId

def queryCredential (userId : Int32) (authType : AuthType) :
    UserIDMProg (ResultCode × List CredentialInfo) := do
  if !(← atomic .getHdiInterface) then return (.generalError, [])
  let (ret, hdiInfos) ← atomic (.getCredential userId authType)
  if ret ≠ .success then return (ret, [])
  if hdiInfos.length ≤ 0 then return (.generalError, [])
  return (ret, hdiInfos.map copyCredentialFromHdi)

def getSecureUid (userId : Int32) : UserIDMProg (ResultCode × UInt64 × List EnrolledInfo) := do
  if !(← atomic .getHdiInterface) then return (.generalError, 0, [])
  let (ret, secureUid, hdiInfos) ← atomic (.getUserInfo userId)
  if ret ≠ .success then return (ret, secureUid, [])
  if hdiInfos.length ≤ 0 then return (.generalError, secureUid, [])
  return (ret, secureUid, hdiInfos.map fun hdiInfo => ⟨hdiInfo.authType, hdiInfo.enrolledId⟩)

/-- A schedule needs an executor and a template, and every executor a key of the right length. -/
def copyScheduleInfo (hdiInfo : HdiScheduleInfo) : Option CoAuth.ScheduleInfo :=
  match hdiInfo.templateIds with
  | [] => none
  | templateId :: _ =>
    if hdiInfo.executors.length = 0 then none
    else if hdiInfo.executors.all (·.publicKey.length = publicKeyLen) then
      some {
        scheduleId := hdiInfo.scheduleId
        executors := hdiInfo.executors.map fun executor =>
          ⟨executor.executorIndex, executor.authType, executor.publicKey⟩
        templateId := templateId
        authSubType := hdiInfo.executorMatcher.toUInt64
        scheduleMode := hdiInfo.scheduleMode }
    else none

/-- `InitSchedule`; the schedule is there exactly if the code is `SUCCESS`. -/
def initSchedule (authToken : List UInt8) (userId : Int32) (authType : AuthType) :
    UserIDMProg (Except ResultCode CoAuth.ScheduleInfo) := do
  if !(← atomic .getHdiInterface) then return .error .generalError
  let (ret, hdiInfo) ← atomic (.beginEnrollment userId authToken authType)
  if ret ≠ .success then return .error ret
  match copyScheduleInfo hdiInfo with
  | none => return .error .generalError
  | some info => return .ok info

def cancelEnrollment (userId : Int32) : UserIDMProg ResultCode := do
  if !(← atomic .getHdiInterface) then return .generalError
  atomic (.cancelEnrollment userId)

def deleteCredential (userId : Int32) (credentialId : UInt64) (authToken : List UInt8) :
    UserIDMProg (Except ResultCode CredentialInfo) := do
  if !(← atomic .getHdiInterface) then return .error .generalError
  let (ret, hdiInfo) ← atomic (.deleteCredential userId credentialId authToken)
  if ret ≠ .success then return .error ret
  return .ok (copyCredentialFromHdi hdiInfo)

def deleteUser (userId : Int32) (authToken : List UInt8) :
    UserIDMProg (Except ResultCode (List CredentialInfo)) := do
  if !(← atomic .getHdiInterface) then return .error .generalError
  let (ret, hdiInfos) ← atomic (.deleteUser userId authToken)
  if ret ≠ .success then return .error ret
  return .ok (hdiInfos.map copyCredentialFromHdi)

def deleteUserEnforce (userId : Int32) :
    UserIDMProg (Except ResultCode (List CredentialInfo)) := do
  if !(← atomic .getHdiInterface) then return .error .generalError
  let (ret, hdiInfos) ← atomic (.enforceDeleteUser userId)
  if ret ≠ .success then return .error ret
  return .ok (hdiInfos.map copyCredentialFromHdi)

def addCredential (enrollToken : List UInt8) (credentialId : UInt64) :
    UserIDMProg (ResultCode × UInt64) := do
  if !(← atomic .getHdiInterface) then return (.generalError, credentialId)
  let (ret, credentialId, _) ← atomic (.updateEnrollmentResult 0 enrollToken)
  return (ret, credentialId)

/-- The deleted credential stays what it was when the call fails. -/
def updateCredential (enrollToken : List UInt8) (credentialId : UInt64)
    (deletedCredential : CredentialInfo) : UserIDMProg (ResultCode × UInt64 × CredentialInfo) := do
  if !(← atomic .getHdiInterface) then return (.generalError, credentialId, deletedCredential)
  let (ret, credentialId, hdiInfo) ← atomic (.updateEnrollmentResult 0 enrollToken)
  if ret = .success then return (ret, credentialId, copyCredentialFromHdi hdiInfo)
  return (ret, credentialId, deletedCredential)

end UserIam.UserIDM
