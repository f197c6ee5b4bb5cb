import UserIam.AccessToken
import UserIam.UserIDM.UserIDMController

/-!
# UserIDMService and UserIDMStub

What happens when a request arrives: the stub reads its arguments, the service checks the caller's
permission and calls the controller.
-/

namespace UserIam.UserIDM

open Conc

/-! ## 1. The caller -/

/-- What the platform provides: access tokens, and the code for an invalid value. -/
structure Platform where
  accessTokenKit : AccessTokenKit
  errInvalidValue : ResultCode

def manageUserIdmPermission : String := "ohos.permission.MANAGE_USER_IDM"
def useUserIdmPermission : String := "ohos.permission.USE_USER_IDM"

def checkPermission (platform : Platform) (caller : Caller) (permission : String) : Bool :=
  platform.accessTokenKit.grants caller permission

def getCallingUserId (platform : Platform) (caller : Caller) : Except ResultCode Int32 :=
  platform.accessTokenKit.userOf caller

/-! ## 2. UserIDMService -/

section Service

variable (platform : Platform) (caller : Caller)

def serviceOpenSession : UserIDMProg UInt64 :=
  if !checkPermission platform caller manageUserIdmPermission then return 0
  else
    match getCallingUserId platform caller with
    | .error _ => return 0
    | .ok userId => openEditSessionCtrl userId

def serviceOpenSessionById (userId : Int32) : UserIDMProg UInt64 :=
  if !checkPermission platform caller manageUserIdmPermission then return 0
  else openEditSessionCtrl userId

def serviceCloseSession : UserIDMProg Unit :=
  if !checkPermission platform caller manageUserIdmPermission then return
  else closeEditSessionCtrl

def serviceCloseSessionById (userId : Int32) : UserIDMProg Unit :=
  if !checkPermission platform caller manageUserIdmPermission then return
  else closeEditSessionCtrlById userId

def serviceGetAuthInfo (authType : AuthType) : Option ClientCallback → UserIDMProg ResultCode
  | none => return .invalidParameters
  | some callback =>
    if !checkPermission platform caller useUserIdmPermission then return checkPermissionFailed
    else
      match getCallingUserId platform caller with
      | .error ret => return ret
      | .ok userId => do
        let (ret, credInfos) ← getAuthInfoCtrl userId authType
        atomic (.onGetInfo callback credInfos)
        return ret

/-- `GetAuthInfo(userId, …)`, which checks no permission. -/
def serviceGetAuthInfoById (userId : Int32) (authType : AuthType) :
    Option ClientCallback → UserIDMProg ResultCode
  | none => return .invalidParameters
  | some callback => do
    let (ret, credInfos) ← getAuthInfoCtrl userId authType
    atomic (.onGetInfo callback credInfos)
    return ret

/-- `GetSecInfo`, which checks no permission. -/
def serviceGetSecInfo (userId : Int32) : Option ClientCallback → UserIDMProg ResultCode
  | none => return .invalidParameters
  | some callback => do
    let (ret, secureUid, enrolledInfo) ← getSecureInfoCtrl userId
    -- the length is written with 32 bits
    if ret ≠ .success ∨ enrolledInfo.length ≥ 2 ^ 32 then
      atomic (.onGetSecInfo callback ⟨secureUid, 0, enrolledInfo⟩)
      return .fail
    let enrolledInfoLen := UInt32.ofNat enrolledInfo.length
    atomic (.onGetSecInfo callback ⟨secureUid, enrolledInfoLen, enrolledInfo⟩)
    return .success

def serviceAddCredential (credInfo : AddCredInfo) : Option ClientCallback → UserIDMProg Unit
  | none => return
  | some callback =>
    if !checkPermission platform caller manageUserIdmPermission then
      atomic (.onResult callback checkPermissionFailed 0)
    else
      let callerId := caller.id
      match getCallingUserId platform caller with
      | .error ret => atomic (.onResult callback ret 0)
      | .ok userId => do
        let _ ← addCredentialCtrl userId callerId credInfo (some callback)
        return

def serviceAddCredentialById (userId : Int32) (credInfo : AddCredInfo) :
    Option ClientCallback → UserIDMProg Unit
  | none => return
  | some callback =>
    if !checkPermission platform caller manageUserIdmPermission then
      atomic (.onResult callback checkPermissionFailed 0)
    else do
      let callerId := caller.id
      let _ ← addCredentialCtrl userId callerId credInfo (some callback)
      return

def serviceUpdateCredential (credInfo : AddCredInfo) : Option ClientCallback → UserIDMProg Unit
  | none => return
  | some callback =>
    if !checkPermission platform caller manageUserIdmPermission then
      atomic (.onResult callback checkPermissionFailed 0)
    else
      let callerId := caller.id
      match getCallingUserId platform caller with
      | .error ret => atomic (.onResult callback ret 0)
      | .ok userId => do
        let _ ← updateCredentialCtrl userId callerId (callerNameOf callerId) credInfo
          (some callback)
        return

def serviceUpdateCredentialById (userId : Int32) (credInfo : AddCredInfo) :
    Option ClientCallback → UserIDMProg Unit
  | none => return
  | some callback =>
    if !checkPermission platform caller manageUserIdmPermission then
      atomic (.onResult callback checkPermissionFailed 0)
    else do
      let callerId := caller.id
      let _ ← updateCredentialCtrl userId callerId (callerNameOf callerId) credInfo (some callback)
      return

def serviceCancel (challenge : UInt64) : UserIDMProg ResultCode :=
  if !checkPermission platform caller manageUserIdmPermission then return checkPermissionFailed
  else delSchedleIdCtrl challenge

def serviceCancelById (userId : Int32) : UserIDMProg ResultCode :=
  if !checkPermission platform caller manageUserIdmPermission then return checkPermissionFailed
  else delSchedleIdCtrlById userId

/-- `EnforceDelUser`, which checks no permission. -/
def serviceEnforceDelUser (userId : Int32) : Option ClientCallback → UserIDMProg ResultCode
  | none => return .invalidParameters
  | some callback => do
    match ← deleteUserByForceCtrl userId with
    | .error ret =>
      atomic (.onResult callback ret 0)
      return ret
    | .ok credInfos => delExecutorPinInfoCtrl callback credInfos

/-- What the two `DelUser` functions do once they know the user. -/
def delUserOf (userId : Int32) (authToken : List UInt8) (callback : ClientCallback) :
    UserIDMProg Unit := do
  match ← deleteUserCtrl userId authToken with
  | .ok credInfos =>
    let _ ← delExecutorPinInfoCtrl callback credInfos
    return
  | .error ret => atomic (.onResult callback ret 0)

def serviceDelUser (authToken : List UInt8) : Option ClientCallback → UserIDMProg Unit
  | none => return
  | some callback =>
    if !checkPermission platform caller manageUserIdmPermission then
      atomic (.onResult callback checkPermissionFailed 0)
    else
      match getCallingUserId platform caller with
      | .error ret => atomic (.onResult callback ret 0)
      | .ok userId => delUserOf userId authToken callback

def serviceDelUserById (userId : Int32) (authToken : List UInt8) :
    Option ClientCallback → UserIDMProg Unit
  | none => return
  | some callback =>
    if !checkPermission platform caller manageUserIdmPermission then
      atomic (.onResult callback checkPermissionFailed 0)
    else delUserOf userId authToken callback

/-- What the two functions that delete a credential do once they know the user. -/
def delCredentialOf (userId : Int32) (credentialId : UInt64) (authToken : List UInt8)
    (callback : ClientCallback) : UserIDMProg Unit := do
  match ← deleteCredentialCtrl userId credentialId authToken with
  | .ok credentialInfo =>
    let _ ← delFaceCredentialCtrl credentialInfo (some callback)
    return
  | .error ret => atomic (.onResult callback ret 0)

def serviceDelCred (credentialId : UInt64) (authToken : List UInt8) :
    Option ClientCallback → UserIDMProg Unit
  | none => return
  | some callback =>
    if !checkPermission platform caller manageUserIdmPermission then
      atomic (.onResult callback checkPermissionFailed 0)
    else
      match getCallingUserId platform caller with
      -- the source reports the error and goes on for user 0
      | .error ret => do
        atomic (.onResult callback ret 0)
        delCredentialOf 0 credentialId authToken callback
      | .ok userId => delCredentialOf userId credentialId authToken callback

def serviceDelCredential (userId : Int32) (credentialId : UInt64) (authToken : List UInt8) :
    Option ClientCallback → UserIDMProg Unit
  | none => return
  | some callback =>
    if !checkPermission platform caller manageUserIdmPermission then
      atomic (.onResult callback checkPermissionFailed 0)
    else delCredentialOf userId credentialId authToken callback

end Service

/-! ## 3. UserIDMStub -/

/-- What the reads of a stub function find; no function reads two values of one kind.  A remote
object that is null is `none`. -/
structure MessageParcel where
  interfaceToken : String
  int32 : Int32
  uint32 : UInt32
  uint64 : UInt64
  uint8Vector : List UInt8
  remoteObject : Option ClientCallback

def userIDMDescriptor : String := "ohos.useridm.IUserIDM"

inductive UserIDMCode where
  | openSession
  | openSessionById
  | closeSession
  | closeSessionById
  | getAuthInfo
  | getAuthInfoById
  | getSecInfo
  | addCredential
  | addCredentialById
  | updateCredential
  | updateCredentialById
  | cancel
  | cancelById
  | enforceDelUser
  | delUser
  | delUserById
  | delCred
  | delCredential
  deriving DecidableEq, Repr

/-- The keys of `m_handle_` in their order. -/
def userIDMCodes : List UserIDMCode :=
  [.openSession, .openSessionById, .closeSession, .closeSessionById, .getAuthInfo,
   .getAuthInfoById, .getSecInfo, .addCredential, .addCredentialById, .updateCredential,
   .updateCredentialById, .cancel, .cancelById, .enforceDelUser, .delUser, .delUserById,
   .delCred, .delCredential]

section Stub

variable (platform : Platform) (caller : Caller) (data : MessageParcel)

/-- `WriteUint64` into the reply; the request fails if it does. -/
def replyUint64 (value : UInt64) (ret : ResultCode) : UserIDMProg ResultCode := do
  if !(← atomic (.writeUint64 value)) then return .fail
  return ret

/-- `WriteInt32` into the reply; the request fails if it does. -/
def replyInt32 (value ret : ResultCode) : UserIDMProg ResultCode := do
  if !(← atomic (.writeInt32 value)) then return .fail
  return ret

def MessageParcel.addCredInfo : AddCredInfo :=
  ⟨data.uint32, data.uint64.toUInt32, data.uint8Vector⟩

/-- The stub functions.  A callback that is not there ends the request. -/
def stubFunction : UserIDMCode → UserIDMProg ResultCode
  | .openSession => do
    let ret ← serviceOpenSession platform caller
    replyUint64 ret .success
  | .openSessionById => do
    let ret ← serviceOpenSessionById platform caller data.int32
    replyUint64 ret .success
  | .closeSession => do
    serviceCloseSession platform caller
    return .success
  | .closeSessionById => do
    serviceCloseSessionById platform caller data.int32
    return .success
  | .getAuthInfo => do
    if data.remoteObject.isNone then return platform.errInvalidValue
    let ret ← serviceGetAuthInfo platform caller data.uint32 data.remoteObject
    replyInt32 ret .success
  | .getAuthInfoById => do
    if data.remoteObject.isNone then return platform.errInvalidValue
    let ret ← serviceGetAuthInfoById data.int32 data.uint32 data.remoteObject
    replyInt32 ret .success
  | .getSecInfo => do
    if data.remoteObject.isNone then return platform.errInvalidValue
    let ret ← serviceGetSecInfo data.int32 data.remoteObject
    replyInt32 ret .success
  | .addCredential => do
    if data.remoteObject.isNone then return .fail
    serviceAddCredential platform caller data.addCredInfo data.remoteObject
    return .success
  | .addCredentialById => do
    if data.remoteObject.isNone then return .fail
    serviceAddCredentialById platform caller data.int32 data.addCredInfo data.remoteObject
    return .success
  | .updateCredential => do
    if data.remoteObject.isNone then return .fail
    serviceUpdateCredential platform caller data.addCredInfo data.remoteObject
    return .success
  | .updateCredentialById => do
    if data.remoteObject.isNone then return .fail
    serviceUpdateCredentialById platform caller data.int32 data.addCredInfo data.remoteObject
    return .success
  | .cancel => do
    let ret ← serviceCancel platform caller data.uint64
    replyInt32 ret ret
  | .cancelById => do
    let ret ← serviceCancelById platform caller data.int32
    replyInt32 ret ret
  | .enforceDelUser => do
    if data.remoteObject.isNone then return .fail
    let ret ← serviceEnforceDelUser data.int32 data.remoteObject
    replyInt32 ret ret
  | .delUser => do
    if data.remoteObject.isNone then return .fail
    serviceDelUser platform caller data.uint8Vector data.remoteObject
    return .success
  | .delUserById => do
    if data.remoteObject.isNone then return .fail
    serviceDelUserById platform caller data.int32 data.uint8Vector data.remoteObject
    return .success
  | .delCred => do
    if data.remoteObject.isNone then return .fail
    serviceDelCred platform caller data.uint64 data.uint8Vector data.remoteObject
    return .success
  | .delCredential => do
    if data.remoteObject.isNone then return .fail
    serviceDelCredential platform caller data.int32 data.uint64 data.uint8Vector data.remoteObject
    return .success

def onRemoteRequest (code : UInt32) : UserIDMProg ResultCode :=
  if userIDMDescriptor ≠ data.interfaceToken then return .fail
  else
    match userIDMCodes[code.toNat]? with
    -- codes that the table does not know go to the base class
    | none => atomic (.ipcObjectStub code)
    | some pFunction => stubFunction platform caller data pFunction

end Stub

end UserIam.UserIDM
