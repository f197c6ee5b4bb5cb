import UserIam.Defines

/-!
# Callers and their access tokens

What the services ask the access token service about a caller.
-/

namespace UserIam

/-- `verifyAccessToken` is whether the answer is `RET_SUCCESS`, `isHap` whether the type of a token
is `TOKEN_HAP`; the information about an application comes with a result code. -/
structure AccessTokenKit where
  verifyAccessToken : UInt32 → String → Bool
  isHap : UInt32 → Bool
  getHapTokenInfo : UInt32 → ResultCode × Int32

structure Caller where
  firstTokenID : UInt32
  callingTokenID : UInt32
  callingUid : Int32

namespace Caller

def tokenId (caller : Caller) : UInt32 :=
  if caller.firstTokenID = 0 then caller.callingTokenID else caller.firstTokenID

/-- The caller's uid as the services pass it on. -/
def id (caller : Caller) : UInt64 := caller.callingUid.toInt64.toUInt64

end Caller

namespace AccessTokenKit

variable (kit : AccessTokenKit) (caller : Caller)

/-- The body of every service's `CheckPermission`. -/
def grants (permission : String) : Bool := kit.verifyAccessToken caller.tokenId permission

/-- The body of every service's `GetCallingUserId`. -/
def userOf : Except ResultCode Int32 :=
  if !kit.isHap caller.tokenId then .error .typeNotSupport
  else
    let (result, userID) := kit.getHapTokenInfo caller.tokenId
    if result ≠ .success then .error .typeNotSupport else .ok userID

end AccessTokenKit

end UserIam
