import UserIam.CoAuth.CoAuthManager

/-!
# UserIDMModule

The records of the credential manager and the data of its one edit session: the challenge of the
session and the id of the enrolment schedule that is active in it.  Zero stands for none.
-/

namespace UserIam.UserIDM

/-! ## 1. Records -/

/-- The one code of `IDMResultCode` that is not shared with the other services. -/
def checkPermissionFailed : ResultCode := 11

/-- The enumeration has 32 bits; casts from wider numbers truncate. -/
abbrev AuthSubType := UInt32

/-- The identity of a client's callback object. -/
abbrev ClientCallback := Nat

inductive CoAuthType where
  | addPinCred
  | modifyCred
  | addFaceCred
  deriving DecidableEq, Repr

structure CredentialInfo where
  credentialId : UInt64
  authType : AuthType
  authSubType : AuthSubType
  templateId : UInt64
  deriving DecidableEq, Repr, Inhabited

structure EnrolledInfo where
  authType : AuthType
  enrolledId : UInt64
  deriving DecidableEq, Repr

structure SecInfo where
  secureUid : UInt64
  enrolledInfoLen : UInt32
  enrolledInfo : List EnrolledInfo

structure AddCredInfo where
  authType : AuthType
  authSubType : AuthSubType
  token : List UInt8

/-! ## 2. The session -/

/-- `challengeAndScheduleId_` -/
structure UserIDMModule where
  challenge : UInt64
  scheduleId : UInt64
  deriving DecidableEq, Repr

namespace UserIDMModule

def insertChallenge (data : UserIDMModule) (challenge : UInt64) : Bool × UserIDMModule :=
  (true, { data with challenge })

def insertScheduleId (data : UserIDMModule) (scheduleId : UInt64) : Bool × UserIDMModule :=
  (true, { data with scheduleId })

def deleteSessionId (data : UserIDMModule) : UserIDMModule := { data with scheduleId := 0 }

def cleanData (_ : UserIDMModule) : UserIDMModule := ⟨0, 0⟩

/-- `none` is `false`: the variable of the caller keeps its value. -/
def checkChallenge (data : UserIDMModule) : Option UInt64 :=
  if data.challenge = 0 then none else some data.challenge

/-- `none` is `false`: the variable of the caller keeps its value. -/
def checkScheduleIdIsActive (data : UserIDMModule) : Option UInt64 :=
  if data.scheduleId = 0 then none else some data.scheduleId

variable {data : UserIDMModule} {x : UInt64}

theorem checkChallenge_eq_some : data.checkChallenge = some x ↔ data.challenge = x ∧ x ≠ 0 := by
  unfold checkChallenge
  split <;> simp <;> grind

theorem checkScheduleIdIsActive_eq_some :
    data.checkScheduleIdIsActive = some x ↔ data.scheduleId = x ∧ x ≠ 0 := by
  unfold checkScheduleIdIsActive
  split <;> simp <;> grind

end UserIDMModule

end UserIam.UserIDM
