import UserIam.Conc.Mutex
import UserIam.UserAuth.UserAuthService

/-!
# What the programs of the authentication service do

The operations of the requests, the shape of a handle, and the mutexes of the callbacks.
-/

namespace UserIam.UserAuth

open Conc Common

/-! ## 1. Classes of operations -/

/-- Questions to other components that leave the state alone, and cancellations of schedules. -/
def UserAuthOp.neutral : UserAuthOp → Bool
  | .getScheduleIds _ | .isContextIdExist _ | .cancel _ => true
  | .getAuthInfoCtrl .. | .getExecutorProp _ | .setExecutorProp _ => true
  | _ => false

/-- The operations of a request that neither make a context or a callback nor tell the client. -/
def UserAuthOp.quiet : UserAuthOp → Bool
  | .getHdiInterface | .setScheduleIds .. | .deleteContextId _ => true
  | .beginAuthentication .. | .cancelAuthentication _ => true
  | o => o.neutral

/-- The operations of a request other than its result. -/
def UserAuthOp.prepares : UserAuthOp → Bool
  | .generateContextId | .addContextId _ => true
  | .makeCoAuthCallback _ | .saveCoAuthCallback .. | .beginSchedule .. => true
  | o => o.quiet

variable {α : Type} {P : UserAuthOp → Prop}

theorem UserAuthOp.quiet_of_neutral {o : UserAuthOp} (ho : o.neutral = true) :
    o.quiet = true := by
  cases o <;> first | rfl | cases ho

theorem UserAuthOp.prepares_of_quiet {o : UserAuthOp} (ho : o.quiet = true) :
    o.prepares = true := by
  cases o <;> first | rfl | cases ho

/-! ### Questions -/

theorem cancelAll_all (hcancel : ∀ item, P (.cancel item)) (scheduleIds : List UInt64) :
    (cancelAll scheduleIds).All P := by
  induction scheduleIds with
  | nil => trivial
  | cons item scheduleIds ih => exact ⟨hcancel item, fun _ => ih⟩

theorem cancelAll_neutral (scheduleIds : List UInt64) :
    (cancelAll scheduleIds).All (·.neutral = true) :=
  cancelAll_all (fun _ => rfl) scheduleIds

theorem getExecutorProp_all (hask : ∀ conditions, P (.getExecutorProp conditions))
    (callerUid : UInt64) (pkgName : List UInt8) (templateId : UInt64) (request : GetPropertyRequest)
    (result : ExecutorProperty) :
    (getExecutorProp callerUid pkgName templateId request result).All P := by
  unfold getExecutorProp
  -- the five attributes one after the other, then the question itself
  refine Prog.all_ite.mpr ⟨fun _ => trivial, fun _ => ?_⟩
  refine Prog.all_ite.mpr ⟨fun _ => trivial, fun _ => ?_⟩
  refine Prog.all_ite.mpr ⟨fun _ => trivial, fun _ => ?_⟩
  refine Prog.all_ite.mpr ⟨fun _ => trivial, fun _ => ?_⟩
  refine Prog.all_ite.mpr ⟨fun _ => trivial, fun _ => ?_⟩
  refine ⟨hask _, fun r => ?_⟩
  refine Prog.all_ite.mpr ⟨fun _ => trivial, fun _ => ?_⟩
  exact Prog.all_ite.mpr ⟨fun _ => trivial, fun _ => trivial⟩

theorem coAuthSetPropAuthInfo_neutral (callerInfo : CallerInfo) (request : SetPropertyRequest) :
    (coAuthSetPropAuthInfo callerInfo request).All (·.neutral = true) := by
  refine ⟨rfl, fun r => ?_⟩
  show (onGetInfoFreeze _ _ _ _).All _
  unfold onGetInfoFreeze setPropAuthInfo
  split
  · trivial
  · exact Prog.all_ite.mpr ⟨fun _ => trivial, fun _ => ⟨rfl, fun _ => trivial⟩⟩

theorem onFinishHandleExtend_neutral (self : UserAuthCallbackImplCoAuth) :
    (onFinishHandleExtend self).All (·.neutral = true) :=
  Prog.all_ite.mpr ⟨fun _ => coAuthSetPropAuthInfo_neutral _ _, fun _ => trivial⟩

/-! ### Requests -/

/-- What `GenerateSolution` performs. -/
theorem generateSolution_all (param : AuthSolution) (hhdi : P .getHdiInterface)
    (hbegin : P (.beginAuthentication param.contextId param))
    (hset : ∀ scheduleIds, P (.setScheduleIds param.contextId scheduleIds)) :
    (generateSolution param).All P := by
  refine ⟨hhdi, fun found => ?_⟩
  refine Prog.all_ite.mpr ⟨fun _ => trivial, fun _ => ⟨hbegin, fun r => ?_⟩⟩
  refine Prog.all_ite.mpr ⟨fun _ => trivial, fun _ => ?_⟩
  split
  · trivial
  · exact ⟨hset _, fun ret => Prog.all_ite.mpr ⟨fun _ => trivial, fun _ => trivial⟩⟩

theorem generateSolution_quiet (param : AuthSolution) :
    (generateSolution param).All (·.quiet = true) :=
  generateSolution_all param rfl rfl fun _ => rfl

/-- No solution, no success. -/
theorem generateSolution_returns (param : AuthSolution) :
    (generateSolution param).Returns fun
      | .error result => result ≠ .success
      | .ok _ => True := by
  intro found
  refine Prog.returns_ite.mpr ⟨fun _ => ?_, fun _ r => ?_⟩
  · show ResultCode.generalError ≠ .success
    decide
  · refine Prog.returns_ite.mpr ⟨fun hret => hret, fun _ => ?_⟩
    split
    · show ResultCode.generalError ≠ .success
      decide
    · intro ret
      exact Prog.returns_ite.mpr ⟨fun hret => hret, fun _ => trivial⟩

theorem beginSchedules_prepares (authInfo : CoAuth.AuthInfo) (i : Nat)
    (scheduleInfos : List CoAuth.ScheduleInfo) :
    (beginSchedules authInfo i scheduleInfos).All (·.prepares = true) := by
  induction scheduleInfos with
  | nil => trivial
  | cons scheduleInfo scheduleInfos ih => exact ⟨rfl, fun _ => ih⟩

theorem coAuth_prepares (scheduleInfos : List CoAuth.ScheduleInfo) (coAuthInfo : CoAuthInfo)
    (callback : ClientCallback) :
    (coAuth scheduleInfos coAuthInfo callback).All (·.prepares = true) := by
  refine ⟨rfl, fun i => ⟨rfl, fun ret => ?_⟩⟩
  refine Prog.all_ite.mpr ⟨fun _ => trivial, fun _ => ?_⟩
  exact (beginSchedules_prepares _ _ _).bind fun _ => trivial

theorem cancelContext_quiet (contextId : UInt64) :
    (cancelContext contextId).All (·.quiet = true) := by
  refine ⟨rfl, fun found => ?_⟩
  exact Prog.all_ite.mpr ⟨fun _ => trivial, fun _ => ⟨rfl, fun _ => trivial⟩⟩

theorem cancelAuth_quiet (kit : AccessTokenKit) (caller : Caller) (contextId : UInt64) :
    (cancelAuth kit caller contextId).All (·.quiet = true) := by
  refine Prog.all_ite.mpr ⟨fun _ => trivial, fun _ => ⟨rfl, fun found => ?_⟩⟩
  refine Prog.all_ite.mpr ⟨fun _ => trivial, fun _ => ?_⟩
  refine (cancelContext_quiet contextId).bind fun ret => ?_
  refine Prog.all_ite.mpr ⟨fun _ => trivial, fun _ => ⟨rfl, fun scheduleIds => ?_⟩⟩
  cases scheduleIds with
  | none => exact ⟨rfl, fun _ => trivial⟩
  | some scheduleIds =>
    show (cancelAll scheduleIds >>= fun _ => _).All _
    refine Prog.All.bind ?_ fun _ => ⟨rfl, fun _ => trivial⟩
    exact (cancelAll_neutral scheduleIds).mono fun _ => UserAuthOp.quiet_of_neutral

section Requests

variable (kit : AccessTokenKit) (caller : Caller) (hP : ∀ o, o.prepares = true → P o)
  (hresult : ∀ callback result, result ≠ .success → P (.onResult callback result {}))

include hP hresult

theorem getControllerData_all (callback : ClientCallback) (authTrustLevel : AuthTrustLevel) :
    (getControllerData callback authTrustLevel).All P := by
  refine Prog.all_ite.mpr ⟨fun _ => ⟨hresult _ _ (by decide), fun _ => trivial⟩, fun _ => ?_⟩
  refine ⟨hP _ rfl, fun contextId => ⟨hP _ rfl, fun ret => ?_⟩⟩
  exact Prog.all_ite.mpr ⟨fun _ => ⟨hresult _ _ (by decide), fun _ => trivial⟩, fun _ => trivial⟩

/-- A request prepares, and tells its client nothing but a failure. -/
theorem auth_all (challenge : UInt64) (authType : AuthType) (authTrustLevel : AuthTrustLevel)
    (callback : Option ClientCallback) :
    (auth kit caller challenge authType authTrustLevel callback).All P := by
  have hquiet (o : UserAuthOp) (ho : o.quiet = true) : P o := hP o (UserAuthOp.prepares_of_quiet ho)
  cases callback with
  | none => trivial
  | some callback =>
    refine (getControllerData_all hP hresult callback authTrustLevel).bind fun contextId => ?_
    cases contextId with
    | none => trivial
    | some contextId =>
      refine Prog.all_ite.mpr ⟨fun _ => ⟨hresult _ _ (by decide), fun _ => trivial⟩, fun _ => ?_⟩
      cases getCallingUserId kit caller with
      | error ret => exact ⟨hresult _ _ (by decide), fun _ => trivial⟩
      | ok userId =>
        -- A solution that is missing comes with a code that is not `SUCCESS`.
        refine ((generateSolution_quiet _).mono hquiet).bind_returns (generateSolution_returns _)
          fun solution hsolution => ?_
        cases solution with
        | error result => exact ⟨hresult _ _ hsolution, fun _ => trivial⟩
        | ok scheduleInfos =>
          refine ((coAuth_prepares _ _ _).mono hP).bind fun result => ?_
          refine Prog.all_ite.mpr ⟨fun hret => ?_, fun _ => trivial⟩
          exact ⟨hresult _ _ hret, fun _ => trivial⟩

theorem authUser_all (userId : Int32) (challenge : UInt64) (authType : AuthType)
    (authTrustLevel : AuthTrustLevel) (callback : Option ClientCallback) :
    (authUser kit caller userId challenge authType authTrustLevel callback).All P := by
  have hquiet (o : UserAuthOp) (ho : o.quiet = true) : P o := hP o (UserAuthOp.prepares_of_quiet ho)
  cases callback with
  | none => trivial
  | some callback =>
    refine Prog.all_ite.mpr ⟨fun _ => ⟨hresult _ _ (by decide), fun _ => trivial⟩, fun _ => ?_⟩
    refine (getControllerData_all hP hresult callback authTrustLevel).bind fun contextId => ?_
    cases contextId with
    | none => trivial
    | some contextId =>
      refine ((generateSolution_quiet _).mono hquiet).bind_returns (generateSolution_returns _)
        fun solution hsolution => ?_
      cases solution with
      | error result => exact ⟨hP _ rfl, fun _ => ⟨hresult _ _ hsolution, fun _ => trivial⟩⟩
      | ok scheduleInfos =>
        refine ((coAuth_prepares _ _ _).mono hP).bind fun result => ?_
        refine Prog.all_ite.mpr ⟨fun hret => ⟨hP _ rfl, fun _ => ?_⟩, fun _ => trivial⟩
        exact ⟨hresult _ _ hret, fun _ => trivial⟩

end Requests

/-! ## 2. The shape of a handle -/

/-- What a result says about the tries that are left. -/
def queryProp (callerUid : UInt64) (pkgName : List UInt8) (request : GetPropertyRequest) :
    List UserIDM.CredentialInfo → UserAuthProg (UInt32 × UInt32)
  | [] => .ret (0, 0)
  | info :: _ =>
    getExecutorProp callerUid pkgName info.templateId request {} >>= fun r =>
      .ret (if r.1 ≠ .success then (0, 0) else (r.2.remainTimes, r.2.freezingTime))

theorem queryProp_all (hask : ∀ conditions, P (.getExecutorProp conditions)) (callerUid : UInt64)
    (pkgName : List UInt8) (request : GetPropertyRequest)
    (credInfos : List UserIDM.CredentialInfo) :
    (queryProp callerUid pkgName request credInfos).All P := by
  cases credInfos with
  | nil => trivial
  | cons info rest => exact (getExecutorProp_all hask _ _ _ _ _).bind fun _ => trivial

theorem onGetInfoCoAuth_eq (callback : ClientCallback) (callerUid : UInt64) (pkgName : List UInt8)
    (resultCode : ResultCode) (authToken : List UInt8) (request : GetPropertyRequest)
    (credInfos : List UserIDM.CredentialInfo) :
    onGetInfoCoAuth callback callerUid pkgName resultCode authToken request credInfos =
      queryProp callerUid pkgName request credInfos >>= fun r =>
        atomic (.onResult callback resultCode ⟨authToken, r.1, r.2⟩) := by
  cases credInfos with
  | nil => rfl
  | cons info rest =>
    unfold queryProp
    rw [Prog.bind_assoc]
    show getExecutorProp callerUid pkgName info.templateId request {} >>= _ = _
    congr 1
    funext r
    rw [Prog.ret_bind]
    dsimp only
    split
    · next h => rw [if_pos h]
    · next h => rw [if_neg h]

/-- What is done about the templates of the user's face before the client gets the result. -/
def dealTemplates (self : UserAuthCallbackImplCoAuth) (resultCode : UInt32) (ret : ResultCode) :
    UserAuthProg Unit :=
  (if resultCode = ResultCode.locked.toUInt32 ∧ self.authType = .pin then
    coAuthSetPropAuthInfo self.callerInfo ⟨.face, .freezeTemplate⟩ else .ret ()) >>= fun _ =>
  if ret = .success then onFinishHandleExtend self else .ret ()

theorem dealTemplates_neutral (self : UserAuthCallbackImplCoAuth) (resultCode : UInt32)
    (ret : ResultCode) : (dealTemplates self resultCode ret).All (·.neutral = true) := by
  refine Prog.All.bind (Prog.all_ite.mpr ⟨fun _ => ?_, fun _ => trivial⟩) fun _ => ?_
  · exact coAuthSetPropAuthInfo_neutral _ _
  · exact Prog.all_ite.mpr ⟨fun _ => onFinishHandleExtend_neutral self, fun _ => trivial⟩

theorem dealVerdict_templates (i : Nat) (self : UserAuthCallbackImplCoAuth) (resultCode : UInt32)
    (ret : ResultCode) (authToken : List UInt8) :
    dealVerdict i self resultCode ret authToken =
      dealTemplates self resultCode ret >>= fun _ =>
        getPropAuthInfoCoAuth self.callerInfo resultCode.toInt32 authToken
          ⟨self.authType, [remainTimesKey, freezingTimeKey]⟩ self.callback >>= fun _ =>
            dealFinishData i self := by
  unfold dealVerdict dealTemplates
  rw [Prog.bind_assoc]
  split <;> split <;> rfl

/-- After a verdict: questions, the one result, the end of the context. -/
theorem dealVerdict_eq (i : Nat) (self : UserAuthCallbackImplCoAuth) (resultCode : UInt32)
    (ret : ResultCode) (authToken : List UInt8) :
    ∃ q : UserAuthProg (UInt32 × UInt32), q.All (·.neutral = true) ∧
      dealVerdict i self resultCode ret authToken =
        q >>= fun r => .call (.onResult self.callback resultCode.toInt32 ⟨authToken, r.1, r.2⟩)
          fun _ => dealFinishData i self := by
  refine ⟨dealTemplates self resultCode ret >>= fun _ =>
    .call (.getAuthInfoCtrl self.userId self.authType) fun r =>
      queryProp self.callerUid self.pkgName ⟨self.authType, [remainTimesKey, freezingTimeKey]⟩ r.2,
    ?_, ?_⟩
  · exact (dealTemplates_neutral self resultCode ret).bind fun _ =>
      ⟨rfl, fun r => queryProp_all (fun _ => rfl) _ _ _ _⟩
  · have htell : getPropAuthInfoCoAuth self.callerInfo resultCode.toInt32 authToken
        ⟨self.authType, [remainTimesKey, freezingTimeKey]⟩ self.callback =
        .call (.getAuthInfoCtrl self.userId self.authType) fun r =>
          queryProp self.callerUid self.pkgName
            ⟨self.authType, [remainTimesKey, freezingTimeKey]⟩ r.2 >>= fun r =>
            atomic (.onResult self.callback resultCode.toInt32 ⟨authToken, r.1, r.2⟩) := by
      show Prog.call _ _ = Prog.call _ _
      congr 1
      funext r
      exact onGetInfoCoAuth_eq _ _ _ _ _ _ _
    rw [dealVerdict_templates, htell]
    simp only [Prog.bind_assoc, Prog.call_bind]
    rfl

theorem dealFinishData_eq (i : Nat) (self : UserAuthCallbackImplCoAuth) :
    ∃ q : UserAuthProg Unit, q.All (·.neutral = true) ∧
      dealFinishData i self =
        q >>= fun _ => .call (.deleteContextId self.callbackContextId) fun _ =>
          .call (.deleteCoAuthCallback self.callbackContextId) fun _ =>
            .call (.setResultDone i) .ret := by
  refine ⟨.call (.getScheduleIds self.callbackContextId) fun r => r.elim (.ret ()) cancelAll,
    ⟨rfl, fun r => ?_⟩, ?_⟩
  · cases r with
    | none => trivial
    | some scheduleIds => exact cancelAll_neutral scheduleIds
  · show Prog.call _ _ = Prog.call _ _
    congr 1
    funext r
    cases r <;> rfl

section Handles

variable {i : Nat} {self : UserAuthCallbackImplCoAuth} {scheduleToken : List UInt8}
  (hneutral : ∀ o, o.neutral = true → P o) (hhdi : P .getHdiInterface)
  (hupdate : P (.updateAuthenticationResult self.callbackContextId scheduleToken))
  (hcount : P (.incCallbackNowCount i)) (hask : P (.isResultDone i))
  (hcontext : P (.deleteContextId self.callbackContextId))
  (hcallback : P (.deleteCoAuthCallback self.callbackContextId))
  (hdone : P (.setResultDone i))
  (hresult : ∀ result extraInfo, P (.onResult self.callback result extraInfo))

include hhdi hupdate in
theorem verdict_all (resultCode : UInt32) : (verdict self resultCode scheduleToken).All P := by
  refine Prog.all_ite.mpr ⟨fun _ => ⟨hhdi, fun found => ?_⟩, fun _ => trivial⟩
  refine Prog.all_ite.mpr ⟨fun _ => trivial, fun _ => ⟨hupdate, fun r => ?_⟩⟩
  exact Prog.all_ite.mpr ⟨fun _ => trivial, fun _ => trivial⟩

include hneutral hcontext hcallback hdone in
theorem dealFinishData_all : (dealFinishData i self).All P := by
  obtain ⟨q, hq, heq⟩ := dealFinishData_eq i self
  rw [heq]
  refine (hq.mono hneutral).bind fun _ => ?_
  exact ⟨hcontext, fun _ => ⟨hcallback, fun _ => ⟨hdone, fun _ => trivial⟩⟩⟩

include hneutral hhdi hupdate hcount hask hcontext hcallback hdone hresult in
/-- What a handle performs under its mutex. -/
theorem onFinishHandleLocked_all (resultCode : UInt32) :
    (onFinishHandleLocked i self resultCode scheduleToken).All P := by
  refine ⟨hcount, fun callbackNowCount => ⟨hask, fun done => ?_⟩⟩
  refine Prog.all_ite.mpr ⟨fun _ => trivial, fun _ => ?_⟩
  refine (verdict_all hhdi hupdate resultCode).bind fun v => ?_
  refine Prog.all_ite.mpr ⟨fun _ => Prog.all_ite.mpr ⟨fun _ => ?_, fun _ => trivial⟩, fun _ => ?_⟩
  · exact ⟨hcontext, fun _ => ⟨hcallback, fun _ => ⟨hresult _ _, fun _ => ⟨hdone, fun _ =>
      trivial⟩⟩⟩⟩
  · obtain ⟨q, hq, heq⟩ := dealVerdict_eq i self resultCode v.1 v.2
    show (dealVerdict i self resultCode v.1 v.2).All _
    rw [heq]
    refine (hq.mono hneutral).bind fun r => ⟨hresult _ _, fun _ => ?_⟩
    exact dealFinishData_all hneutral hcontext hcallback hdone

end Handles

theorem underLock_bind (i : Nat) (p q : UserAuthProg Unit) :
    (underLock i p >>= fun _ => q) =
      .call (.lock i) fun _ => p >>= fun _ => .call (.unlock i) fun _ => q := by
  show Prog.call _ _ = Prog.call _ _
  congr 1
  funext _
  exact Prog.bind_assoc p _ _

/-! ## 3. Starting a call -/

/-- Starting a call leaves the state alone, unless it takes a task from a thread. -/
theorem userAuthAccept_cases {s s' : UserAuthState} {call : UserAuthCall}
    (hs : userAuthAccept s call = some s') :
    (s' = s ∧ ∀ p task, call ≠ .task p task) ∨
      ∃ p task groups, call = .task p task ∧ s.groups.startTask p = some (task, groups) ∧
        s' = { s with groups } := by
  cases call with
  | auth | authUser | cancelAuth => exact .inl ⟨(Option.some.inj hs).symm, fun _ _ h => by cases h⟩
  | onFinish | onAcquireInfo =>
    simp only [userAuthAccept, Option.ite_none_right_eq_some] at hs
    exact .inl ⟨(Option.some.inj hs.2).symm, fun _ _ h => by cases h⟩
  | task p task =>
    simp only [userAuthAccept] at hs
    split at hs
    · cases hs
    · next task' groups hstart =>
      rw [Option.ite_none_right_eq_some] at hs
      obtain ⟨rfl, hs⟩ := hs
      exact .inr ⟨p, task', groups, rfl, hstart, (Option.some.inj hs).symm⟩

/-! ## 4. The mutexes of the callbacks -/

def UserAuthOp.lockKind : UserAuthOp → Option (Nat × Bool)
  | .lock i => some (i, true)
  | .unlock i => some (i, false)
  | _ => none

theorem userAuth_mutex (kit : AccessTokenKit) :
    (userAuth kit).Mutex UserAuthOp.lockKind UserAuthState.owner where
  free {tid o env s i} ho hen := by
    cases o <;> cases ho
    exact Option.isNone_iff_eq_none.mp hen
  locks {tid o env s i} ho := by
    cases o <;> cases ho
    rfl
  unlocks {tid o env s i} ho := by
    cases o <;> cases ho
    rfl
  other {tid o env s} ho := by
    show (userAuthHandle tid env s o).2.owner = s.owner
    cases o with
    | lock => cases ho
    | unlock => cases ho
    | addContextId | deleteContextId | setScheduleIds =>
      simp only [userAuthHandle]
      split <;> rfl
    | saveCoAuthCallback contextId i =>
      simp only [userAuthHandle, UserAuth.saveCoAuthCallback]
      split
      · rfl
      · split <;> rfl
    | _ => rfl
  accept {call s s'} hs := by
    rcases userAuthAccept_cases hs with ⟨rfl, -⟩ | ⟨p, task, groups, -, -, rfl⟩ <;> rfl

theorem UserAuthOp.lockKind_of_prepares {o : UserAuthOp} (ho : o.prepares = true) :
    o.lockKind = none := by
  cases o <;> first | rfl | cases ho

theorem UserAuthOp.lockKind_of_neutral {o : UserAuthOp} (ho : o.neutral = true) :
    o.lockKind = none :=
  lockKind_of_prepares (prepares_of_quiet (quiet_of_neutral ho))

theorem onFinishHandleLocked_unlocked (i : Nat) (self : UserAuthCallbackImplCoAuth)
    (resultCode : UInt32) (scheduleToken : List UInt8) :
    (onFinishHandleLocked i self resultCode scheduleToken).All (·.lockKind = none) :=
  onFinishHandleLocked_all (fun _ => UserAuthOp.lockKind_of_neutral) rfl rfl rfl rfl rfl rfl rfl
    (fun _ _ => rfl) resultCode

/-- Every call works under the mutex of one callback, or without a mutex. -/
theorem userAuthBody_brackets (kit : AccessTokenKit) (call : UserAuthCall) :
    Machine.Brackets UserAuthOp.lockKind (userAuthBody kit call) := by
  have hprepares (o : UserAuthOp) (ho : o.prepares = true) : o.lockKind = none :=
    UserAuthOp.lockKind_of_prepares ho
  have hresult (callback : ClientCallback) (result : ResultCode) (_ : result ≠ .success) :
      (UserAuthOp.onResult callback result {}).lockKind = none := rfl
  cases call with
  | auth => exact .inl (auth_all _ _ hprepares hresult _ _ _ _).discard
  | authUser => exact .inl (authUser_all _ _ hprepares hresult _ _ _ _ _).discard
  | cancelAuth =>
    refine .inl ((cancelAuth_quiet _ _ _).mono fun o ho => ?_).discard
    exact UserAuthOp.lockKind_of_prepares (UserAuthOp.prepares_of_quiet ho)
  | onFinish i self scheduleId resultCode scheduleToken =>
    refine .inl ⟨rfl, fun ret => Prog.all_ite.mpr ⟨fun _ => ?_, fun _ => trivial⟩⟩
    exact ⟨rfl, fun _ => ⟨rfl, fun _ => trivial⟩⟩
  | onAcquireInfo i self scheduleId acquire =>
    refine .inl ⟨rfl, fun ret => Prog.all_ite.mpr ⟨fun _ => ?_, fun _ => trivial⟩⟩
    exact ⟨rfl, fun _ => trivial⟩
  | task p task =>
    cases task with
    | ensureTransaction => exact .inl ⟨rfl, fun _ => trivial⟩
    | run task =>
      cases task with
      | onFinishHandle i self resultCode scheduleToken =>
        refine .inr ⟨i, .lock i, .unlock i, onFinishHandleLocked i self resultCode scheduleToken,
          atomic (.endTask p), rfl, rfl, onFinishHandleLocked_unlocked _ _ _ _,
          ⟨rfl, fun _ => trivial⟩, ?_⟩
        exact underLock_bind i _ _
      | onAcquireInfoHandle i self acquire =>
        refine .inr ⟨i, .lock i, .unlock i, onAcquireInfoHandleLocked i self acquire,
          atomic (.endTask p), rfl, rfl, ⟨rfl, fun done => ?_⟩, ⟨rfl, fun _ => trivial⟩, ?_⟩
        · exact Prog.all_ite.mpr ⟨fun _ => trivial, fun _ => ⟨rfl, fun _ => trivial⟩⟩
        · exact underLock_bind i _ _

theorem userAuth_owned (kit : AccessTokenKit) {ok : UserAuthWorld → UserAuthMove → Prop}
    {c : UserAuthConfig} (hc : (userAuth kit).Reachable ok .initial c) :
    Machine.Owned UserAuthOp.lockKind UserAuthState.owner c.world :=
  Machine.reachable_owned (userAuth_mutex kit) (userAuthBody_brackets kit) hc

/-! ## 5. The threads of the group -/

theorem nonNull_handle {s : UserAuthState} (hs : s.groups.NonNull) (t : Nat) (env : UserAuthEnv)
    (o : UserAuthOp) : (userAuthHandle t env s o).2.groups.NonNull := by
  cases o with
  | addContextId | deleteContextId | setScheduleIds =>
    simp only [userAuthHandle]
    split <;> exact hs
  | saveCoAuthCallback contextId i =>
    have hgroups := hs.retainTaskThread groupAuth contextId
    simp only [userAuthHandle, UserAuth.saveCoAuthCallback]
    split
    · exact hgroups
    · split <;> exact hgroups
  | deleteCoAuthCallback contextId => exact hs.releaseTaskThread groupAuth contextId
  | postTask contextId task =>
    obtain ⟨ptr, hpost⟩ := ThreadGroups.postTask_eq hs groupAuth contextId task
    simp only [userAuthHandle, hpost]
    exact hs.addTask ptr (.run task)
  | endTask p => exact ⟨hs.frees, hs.retains⟩
  | _ => exact hs

/-- No pointer to a thread is null. -/
theorem userAuth_nonNull (kit : AccessTokenKit) {ok : UserAuthWorld → UserAuthMove → Prop}
    {c : UserAuthConfig} (hc : (userAuth kit).Reachable ok .initial c) :
    c.world.state.groups.NonNull := by
  induction hc with
  | init => exact ThreadGroups.NonNull.empty.createThreadGroup groupAuth groupMaxThreadNum
  | spawn _ _ hs ih =>
    rcases userAuthAccept_cases hs with ⟨rfl, -⟩ | ⟨p, task, groups, -, hstart, rfl⟩
    · exact ih
    · exact ih.startTask hstart
  | @run c t o k env _ _ _ _ ih => exact nonNull_handle ih t env o

/-! ## 6. An authentication -/

section Scenario

def scenarioKit : AccessTokenKit := ⟨fun _ _ => true, fun _ => true, fun _ => (.success, 100)⟩
def scenarioCaller : Caller := ⟨1, 1, 1000⟩

/-- The callback that the request makes. -/
def scenarioCallback : UserAuthCallbackImplCoAuth :=
  .new 5 (coAuthInfoOf scenarioCaller 100 .face 1)

def scenarioSchedule (scheduleId : UInt64) : UserIDM.HdiScheduleInfo :=
  ⟨scheduleId, [1], 0, 0, [⟨1, 4, List.replicate 32 0⟩]⟩

/-- Thread 0 is a request of client 5, which makes context 1 and begins the schedules; thread 1 is
the first task of the thread that it retains. -/
def scenarioAuth (scheduleIds : List UInt64) : List (Machine.Label UserAuthEnv UserAuthCall) :=
  [.spawn (.auth scenarioCaller 0 .face 10000 (some 5)), .run 0 {}, .run 0 {}, .run 0 {},
   .run 0 { schedules := scheduleIds.map scenarioSchedule }, .run 0 {}, .run 0 {}, .run 0 {}] ++
  scheduleIds.map (fun _ => .run 0 {}) ++
  [.spawn (.task 0 (.ensureTransaction 1 groupAuth)), .run 1 {}]

/-- Thread `t` is a finish of a schedule. -/
def scenarioFinish (t : Nat) (scheduleId : UInt64) (resultCode : UInt32) :
    List (Machine.Label UserAuthEnv UserAuthCall) :=
  [.spawn (.onFinish 0 scenarioCallback scheduleId resultCode [1]), .run t {}]

/-- Thread `t` handles the finish up to the answer of the HDI. -/
def scenarioVerdict (t : Nat) (resultCode : UInt32) (env : UserAuthEnv) :
    List (Machine.Label UserAuthEnv UserAuthCall) :=
  [.spawn (.task 0 (.run (.onFinishHandle 0 scenarioCallback resultCode [1]))),
   .run t {}, .run t {}, .run t {}, .run t {}, .run t env]

/-- Thread `t` performs its next `n` operations. -/
def scenarioRun (t n : Nat) : List (Machine.Label UserAuthEnv UserAuthCall) :=
  List.replicate n (.run t {})

end Scenario

end UserIam.UserAuth
