import UserIam.UserAuth.UserAuthAdapter

/-!
# UserAuthCallbackImplCoAuth

CoAuth reports a finish or an acquired piece of information to the callback, which posts it to the
thread of its context; what the thread runs holds the callback's mutex.
-/

namespace UserIam.UserAuth

/-! ## 1. The end of a context -/

/-- The loop of `DealFinishData`. -/
def cancelAll : List UInt64 → UserAuthProg Unit
  | [] => return
  | item :: scheduleIds => do
    let _ ← atomic (.cancel item)
    cancelAll scheduleIds

def dealFinishData (i : Nat) (self : UserAuthCallbackImplCoAuth) : UserAuthProg Unit := do
  match ← atomic (.getScheduleIds self.callbackContextId) with
  | some scheduleIds => cancelAll scheduleIds
  | none => pure ()
  let _ ← atomic (.deleteContextId self.callbackContextId)
  let _ ← atomic (.deleteCoAuthCallback self.callbackContextId)
  atomic (.setResultDone i)

/-- What an undone result leads to when all schedules have reported. -/
def dealUndone (i : Nat) (self : UserAuthCallbackImplCoAuth) : UserAuthProg Unit := do
  let _ ← atomic (.deleteContextId self.callbackContextId)
  let _ ← atomic (.deleteCoAuthCallback self.callbackContextId)
  atomic (.onResult self.callback .generalError {})
  atomic (.setResultDone i)

/-! ## 2. The handles -/

/-- The body of a handle, which holds the mutex of the callback from its first to its last line. -/
def underLock (i : Nat) (p : UserAuthProg Unit) : UserAuthProg Unit := do
  atomic (.lock i)
  p
  atomic (.unlock i)

def onFinishHandleExtend (self : UserAuthCallbackImplCoAuth) : UserAuthProg Unit := do
  if self.authType = .pin then coAuthSetPropAuthInfo self.callerInfo ⟨.face, .thawTemplate⟩

/-- What follows a verdict that is not undone. -/
def dealVerdict (i : Nat) (self : UserAuthCallbackImplCoAuth) (resultCode : UInt32)
    (ret : ResultCode) (authToken : List UInt8) : UserAuthProg Unit := do
  if resultCode = ResultCode.locked.toUInt32 ∧ self.authType = .pin then
    coAuthSetPropAuthInfo self.callerInfo ⟨.face, .freezeTemplate⟩
  if ret = .success then onFinishHandleExtend self
  -- the client is told the code of the executor, not the verdict
  getPropAuthInfoCoAuth self.callerInfo resultCode.toInt32 authToken
    ⟨self.authType, [remainTimesKey, freezingTimeKey]⟩ self.callback
  dealFinishData i self

/-- The verdict on a finish: a schedule that was canceled is not asked about. -/
def verdict (self : UserAuthCallbackImplCoAuth) (resultCode : UInt32) (scheduleToken : List UInt8) :
    UserAuthProg (ResultCode × List UInt8) :=
  if resultCode ≠ ResultCode.canceled.toUInt32 then
    requestAuthResult self.callbackContextId scheduleToken
  else return (.generalError, [])

/-- What `OnFinishHandle` does while it holds the mutex.  The counter changes only there, so the
value that is compared is the one it was set to. -/
def onFinishHandleLocked (i : Nat) (self : UserAuthCallbackImplCoAuth) (resultCode : UInt32)
    (scheduleToken : List UInt8) : UserAuthProg Unit := do
  let callbackNowCount ← atomic (.incCallbackNowCount i)
  if ← atomic (.isResultDone i) then return
  let (ret, authToken) ← verdict self resultCode scheduleToken
  if ret = .eRetUndone then
    if callbackNowCount = self.callbackCount then dealUndone i self
  else dealVerdict i self resultCode ret authToken

def onFinishHandle (i : Nat) (self : UserAuthCallbackImplCoAuth) (resultCode : UInt32)
    (scheduleToken : List UInt8) : UserAuthProg Unit :=
  underLock i (onFinishHandleLocked i self resultCode scheduleToken)

def onAcquireInfoHandleLocked (i : Nat) (self : UserAuthCallbackImplCoAuth) (acquire : UInt32) :
    UserAuthProg Unit := do
  if ← atomic (.isResultDone i) then return
  atomic (.onAcquireInfo self.callback self.authType.toInt32 acquire 0)

def onAcquireInfoHandle (i : Nat) (self : UserAuthCallbackImplCoAuth) (acquire : UInt32) :
    UserAuthProg Unit :=
  underLock i (onAcquireInfoHandleLocked i self acquire)

/-! ## 3. What CoAuth calls -/

/-- `OnFinish` of the `i`-th callback. -/
def onFinish (i : Nat) (self : UserAuthCallbackImplCoAuth) (resultCode : UInt32)
    (scheduleToken : List UInt8) : UserAuthProg Unit := do
  let ret ← atomic (.postTask self.callbackContextId
    (.onFinishHandle i self resultCode scheduleToken))
  if !ret then
    -- the flag is not looked at, and no lock is held
    atomic (.onResult self.callback .busy {})
    atomic (.setResultDone i)

/-- `OnAcquireInfo` of the `i`-th callback. -/
def onAcquireInfo (i : Nat) (self : UserAuthCallbackImplCoAuth) (acquire : UInt32) :
    UserAuthProg Unit := do
  let ret ← atomic (.postTask self.callbackContextId (.onAcquireInfoHandle i self acquire))
  if !ret then atomic (.setResultDone i)

end UserIam.UserAuth
