import UserIam.Conc.Typestate
import UserIam.UserAuth.FailedRequest
import UserIam.UserAuth.NoSilence

/-!
# Contexts of the HDI

`BeginAuthentication` opens a context in the HDI.  It stays open until the HDI has accepted a result
for it or has been told to cancel it, and the service forgets it earlier on most of its error paths.
-/

namespace UserIam.UserAuth

open Conc Common Machine

variable {kit : AccessTokenKit} {X : UInt64} {t tid : Nat} {self : UserAuthCallbackImplCoAuth}
  {c : UserAuthConfig} {w : UserAuthWorld} {s : UserAuthState} {e : UserAuthEvent} {α : Type}

/-! ## 1. Open and closed -/

/-- `BeginAuthentication` has answered `SUCCESS`. -/
def opens (X : UInt64) : UserAuthEvent → Bool
  | .op _ (.beginAuthentication contextId _) r => contextId = X && r.1 = .success
  | _ => false

/-- `UpdateAuthenticationResult` has answered `SUCCESS`, or `CancelAuthentication` was called. -/
def closes (X : UInt64) : UserAuthEvent → Bool
  | .op _ (.updateAuthenticationResult contextId _) r => contextId = X && r.1 = .success
  | .op _ (.cancelAuthentication contextId) _ => contextId = X
  | _ => false

def Opened (X : UInt64) (w : UserAuthWorld) : Prop := w.trace.any (opens X) = true

def Closed (X : UInt64) (w : UserAuthWorld) : Prop := w.trace.any (closes X) = true

instance (X : UInt64) (w : UserAuthWorld) : Decidable (Closed X w) :=
  inferInstanceAs (Decidable (_ = true))

def adds (X : UInt64) : UserAuthEvent → Bool
  | .op _ (.addContextId contextId) ret => contextId = X && ret = .success
  | _ => false

/-- The callback whose finish a thread handles. -/
def handledBy (t : Nat) (w : UserAuthWorld) : Option UserAuthCallbackImplCoAuth :=
  w.trace.findSome? fun
    | .spawn t' (.task _ (.run (.onFinishHandle _ self _ _))) => if t' = t then some self else none
    | _ => none

/-- A step that does not make the service forget the context while it is open: the schedules of a
context that is begun can be copied and find a free thread, and a finish is not canceled, finds the
HDI, is answered `SUCCESS` or `E_RET_UNDONE`, and does not bring the counter to the number of the
callback's schedules. -/
def keepsOpen (X : UInt64) (w : UserAuthWorld) : UserAuthMove → Bool
  | .op _ (.beginAuthentication contextId _) env =>
    contextId ≠ X || env.ret ≠ .success || (env.schedules.mapM copyScheduleInfo).isSome
  | .op _ (.saveCoAuthCallback contextId _) _ =>
    contextId ≠ X || w.state.groups.hasFree groupAuth
  | .spawn _ (.task _ (.run (.onFinishHandle _ self resultCode _))) =>
    self.callbackContextId ≠ X || resultCode ≠ ResultCode.canceled.toUInt32
  | .op t .getHdiInterface env =>
    env.flag || (handledBy t w).all (·.callbackContextId ≠ X)
  | .op _ (.updateAuthenticationResult contextId _) env =>
    contextId ≠ X || env.ret = .success || env.ret = .eRetUndone
  | .op t (.incCallbackNowCount i) _ =>
    (handledBy t w).all fun self =>
      self.callbackContextId ≠ X || w.state.callbackNowCount i + 1 ≠ self.callbackCount
  | _ => true

/-- Nothing goes wrong with the context before it is closed. -/
def OpenUntilClosed (X : UInt64) (w : UserAuthWorld) (mv : UserAuthMove) : Prop :=
  Closed X w ∨ keepsOpen X w mv = true

instance (X : UInt64) (w : UserAuthWorld) (mv : UserAuthMove) :
    Decidable (OpenUntilClosed X w mv) :=
  inferInstanceAs (Decidable (_ ∨ _))

/-- The call is for the context, or it has added it or asked the HDI to begin it. -/
def concerns (X : UInt64) : UserAuthEvent → Bool
  | .op _ (.beginAuthentication contextId _) _ => contextId = X
  | .spawn _ (.cancelAuth _ contextId) => contextId = X
  | .spawn _ (.onFinish _ self ..) | .spawn _ (.onAcquireInfo _ self ..) =>
    self.callbackContextId = X
  | .spawn _ (.task _ (.run (.onFinishHandle _ self ..))) => self.callbackContextId = X
  | .spawn _ (.task _ (.run (.onAcquireInfoHandle _ self _))) => self.callbackContextId = X
  | e => adds X e

def UserAuthTask.isFor (X : UInt64) : UserAuthTask → Bool
  | .onFinishHandle _ self .. | .onAcquireInfoHandle _ self _ => self.callbackContextId = X

/-- No call and no task for the context is in progress, and it has no callback. -/
structure LeftAlone (X : UInt64) (c : UserAuthConfig) : Prop where
  returned : ∀ e ∈ c.world.trace, concerns X e = true → c.threads[e.tid]? = some (.ret ())
  unsaved : c.world.state.saveCoAuthCallback X = none

/-- Nor is there a task that waits, or a schedule that has not finished. -/
structure Unattended (X : UInt64) (c : UserAuthConfig) : Prop extends LeftAlone X c where
  posted : c.world.state.groups.AllTasks fun task => task.isFor X = false
  reported : ∀ b ∈ c.world.state.begun,
    (∃ self, c.world.state.callbacks[b.2]? = some self ∧ self.callbackContextId = X) →
      c.world.spawned (UserAuthCall.reports b) ≠ []

/-! ## 2. What a thread knows of a context -/

/-- A request adds the context and opens it.  The callback that it saves for the context `weighs`
the finishes.  A thread for which the context is `settled` knows that it is closed. -/
inductive ContextView where
  | unknown
  | added
  | opened
  | weighing (self : UserAuthCallbackImplCoAuth)
  | settled
  deriving DecidableEq

namespace ContextView

def may (X : UInt64) : ContextView → UserAuthOp → Prop
  | .settled, _ => True
  | v, .addContextId contextId => contextId ≠ 0 ∧ (contextId = X → v = .unknown)
  | v, .beginAuthentication contextId _ => contextId = X → v = .added
  | v, .saveCoAuthCallback contextId _ => contextId = X → v = .opened
  | v, .deleteContextId contextId => contextId = X → v = .added
  | _, .deleteCoAuthCallback contextId => contextId ≠ X
  | _, _ => True

def after (X : UInt64) : ContextView → (o : UserAuthOp) → UserAuthRes o → ContextView
  | .settled, _, _ => .settled
  | v, .addContextId contextId, ret => if contextId = X ∧ ret = .success then .added else v
  | v, .beginAuthentication contextId _, r =>
    if contextId = X ∧ r.1 = .success then
      if (r.2.mapM copyScheduleInfo).isSome then .opened else .settled
    else v
  | v, .setScheduleIds contextId _, ret =>
    if contextId = X ∧ v = .opened ∧ ret ≠ .success then .settled else v
  | v, .saveCoAuthCallback contextId _, ret =>
    if contextId = X then if ret = .success then .unknown else .settled else v
  | v, .deleteContextId contextId, _ => if contextId = X then .unknown else v
  | v, .cancelAuthentication contextId, _ => if contextId = X then .settled else v
  | .weighing self, .incCallbackNowCount _, callbackNowCount =>
    if callbackNowCount = self.callbackCount then .settled else .weighing self
  | .weighing self, .getHdiInterface, found => if found then .weighing self else .settled
  | .weighing self, .updateAuthenticationResult contextId _, r =>
    if contextId = X ∧ r.1 ≠ .eRetUndone then .settled else .weighing self
  | v, _, _ => v

section After

variable {X contextId : UInt64} {v : ContextView} {ret : ResultCode}

@[simp]
theorem after_addContextId (hv : v ≠ .settled) :
    v.after X (.addContextId contextId) ret =
      if contextId = X ∧ ret = .success then .added else v := by
  cases v <;> first | rfl | exact absurd rfl hv

@[simp]
theorem after_beginAuthentication (hv : v ≠ .settled) {param : AuthSolution}
    {r : ResultCode × List UserIDM.HdiScheduleInfo} :
    v.after X (.beginAuthentication contextId param) r =
      if contextId = X ∧ r.1 = .success then
        if (r.2.mapM copyScheduleInfo).isSome then .opened else .settled
      else v := by
  cases v <;> first | rfl | exact absurd rfl hv

@[simp]
theorem after_setScheduleIds (hv : v ≠ .settled) {scheduleIds : List UInt64} :
    v.after X (.setScheduleIds contextId scheduleIds) ret =
      if contextId = X ∧ v = .opened ∧ ret ≠ .success then .settled else v := by
  cases v <;> first | rfl | exact absurd rfl hv

@[simp]
theorem after_saveCoAuthCallback (hv : v ≠ .settled) {i : Nat} :
    v.after X (.saveCoAuthCallback contextId i) ret =
      if contextId = X then if ret = .success then .unknown else .settled else v := by
  cases v <;> first | rfl | exact absurd rfl hv

@[simp]
theorem after_deleteContextId (hv : v ≠ .settled) :
    v.after X (.deleteContextId contextId) ret = if contextId = X then .unknown else v := by
  cases v <;> first | rfl | exact absurd rfl hv

@[simp]
theorem after_cancelAuthentication (hv : v ≠ .settled) :
    v.after X (.cancelAuthentication contextId) ret = if contextId = X then .settled else v := by
  cases v <;> first | rfl | exact absurd rfl hv

@[simp]
theorem weighing_after_updateAuthenticationResult {self : UserAuthCallbackImplCoAuth}
    {scheduleToken : List UInt8} {r : ResultCode × List UInt8} :
    after X (.weighing self) (.updateAuthenticationResult contextId scheduleToken) r =
      if contextId = X ∧ r.1 ≠ .eRetUndone then .settled else .weighing self := rfl

end After

/-- Zero is never drawn. -/
def next (X : UInt64) (v : ContextView) (o : UserAuthOp) (r : UserAuthRes o) :
    Option ContextView :=
  match o, r with
  | .generateContextId, contextId => if contextId = 0 then none else some v
  | o, r => some (v.after X o r)

end ContextView

abbrev contextTypestate (X : UInt64) : Typestate UserAuthOp UserAuthRes ContextView :=
  ⟨ContextView.may X, ContextView.next X, fun _ => True, fun v => v ≠ .opened⟩

/-! ## 3. The programs follow the views -/

section Programs

variable {Q : α → ContextView → Prop} {v : ContextView}

theorem after_of_next {v' : ContextView} {o : UserAuthOp}
    {r : UserAuthRes o} (h : v.next X o r = some v') :
    v' = v.after X o r := by
  cases o with
  | generateContextId =>
    simp only [ContextView.next, Option.ite_none_left_eq_some, Option.some.injEq] at h
    rw [← h.2]
    cases v <;> rfl
  | _ => exact (Option.some.inj h).symm

theorem follows_next {o : UserAuthOp} {k : UserAuthRes o → UserAuthProg α} (hmay : v.may X o)
    (hk : ∀ r, (contextTypestate X).Follows Q (v.after X o r) (k r)) :
    (contextTypestate X).Follows Q v (.call o k) :=
  ⟨hmay, fun r _ hv' => ⟨trivial, after_of_next hv' ▸ hk r⟩⟩

theorem follows_generateContextId {k : UInt64 → UserAuthProg α}
    (hk : ∀ contextId, contextId ≠ 0 → (contextTypestate X).Follows Q v (k contextId)) :
    (contextTypestate X).Follows Q v (.call .generateContextId k) := by
  refine ⟨?_, fun contextId v' hv' => ⟨trivial, ?_⟩⟩
  · cases v <;> trivial
  · have hv : ContextView.next X v .generateContextId contextId = some v' := hv'
    simp only [ContextView.next, Option.ite_none_left_eq_some, Option.some.injEq] at hv
    obtain ⟨hne, rfl⟩ := hv
    exact hk contextId hne

theorem follows_ite {cond : Prop} [Decidable cond] {p q : UserAuthProg α}
    (hp : cond → (contextTypestate X).Follows Q v p)
    (hq : ¬cond → (contextTypestate X).Follows Q v q) :
    (contextTypestate X).Follows Q v (if cond then p else q) := by
  split
  · exact hp ‹_›
  · exact hq ‹_›

/-- Of a context that is closed there is nothing more to know. -/
theorem follows_settled (p : UserAuthProg α) :
    (contextTypestate X).Follows (fun _ v => v = .settled) .settled p := by
  induction p with
  | ret a => rfl
  | call o k ih => exact follows_next trivial ih

/-- An operation that does not concern the context. -/
def Idle (X : UInt64) (v : ContextView) (o : UserAuthOp) : Prop :=
  v.may X o ∧ ∀ r, v.after X o r = v

theorem follows_idle {p : UserAuthProg α} (hp : p.All (Idle X v)) :
    (contextTypestate X).Follows (fun _ v' => v' = v) v p := by
  apply Typestate.follows_of_all trivial
  exact hp.mono fun o ho => ⟨ho.1, fun r _ hv' => (after_of_next hv').trans (ho.2 r)⟩

/-! ### Requests -/

/-- The view of a request that has added a context. -/
def addedView (X contextId : UInt64) : ContextView := if contextId = X then .added else .unknown

theorem getControllerData_follows (callback : ClientCallback) (authTrustLevel : AuthTrustLevel) :
    (contextTypestate X).Follows
      (fun r v => r = none ∧ v = .unknown ∨ ∃ contextId, r = some contextId ∧
        v = addedView X contextId) .unknown (getControllerData callback authTrustLevel) := by
  unfold getControllerData
  split
  · exact follows_next trivial fun _ => .inl ⟨rfl, rfl⟩
  · refine follows_generateContextId fun contextId hne => ?_
    refine follows_next ⟨hne, fun _ => rfl⟩ fun ret => ?_
    refine follows_ite (fun hret => ?_) fun hret => .inr ⟨contextId, rfl, ?_⟩
    · have hview : ContextView.after X .unknown (.addContextId contextId) ret = .unknown := by
        simp [hret]
      rw [hview]
      exact follows_next trivial fun _ => .inl ⟨rfl, rfl⟩
    · simp [addedView, not_not.mp hret]

/-- A request that has opened its context has schedules for it. -/
theorem generateSolution_follows {param : AuthSolution} (hX : param.contextId = X) :
    (contextTypestate X).Follows
      (fun r v => match r with
        | .ok _ => v = .opened
        | .error _ => v = .added ∨ v = .settled)
      .added (generateSolution param) := by
  subst hX
  refine follows_next trivial fun found => ?_
  refine follows_ite (fun _ => .inl rfl) fun _ => follows_next (fun _ => rfl) fun r => ?_
  obtain ⟨ret, hdiScheduleInfos⟩ := r
  refine follows_ite (fun hret => .inl ?_) fun hret => ?_
  · have hret : ret ≠ .success := hret
    show ContextView.after _ .added _ _ = .added
    simp [hret]
  · obtain rfl : ret = .success := not_not.mp hret
    cases hcopy : hdiScheduleInfos.mapM copyScheduleInfo with
    | none =>
      refine .inr ?_
      show ContextView.after _ .added _ _ = .settled
      simp [hcopy]
    | some scheduleInfos =>
      have hview : ContextView.after param.contextId .added
          (.beginAuthentication param.contextId param) (.success, hdiScheduleInfos) = .opened := by
        simp [hcopy]
      show (contextTypestate _).Follows _ (ContextView.after _ .added _ _) _
      rw [hview]
      refine follows_next trivial fun ret => ?_
      refine follows_ite (fun hret => .inr ?_) fun hret => ?_
      · simp [hret]
      · show ContextView.after _ .opened _ ret = .opened
        simp [not_not.mp hret]

/-- The callback has been saved for the context, or there was no free thread. -/
theorem coAuth_follows {scheduleInfos : List CoAuth.ScheduleInfo} {coAuthInfo : CoAuthInfo}
    {callback : ClientCallback} (hX : coAuthInfo.contextID = X) :
    (contextTypestate X).Follows
      (fun ret v => if ret = .success then v = .unknown else v = .settled)
      .opened (coAuth scheduleInfos coAuthInfo callback) := by
  subst hX
  refine follows_next trivial fun i => follows_next (fun _ => rfl) fun ret => ?_
  refine follows_ite (fun hret => ?_) fun hret => ?_
  · show if ret = ResultCode.success then _ else _
    rw [if_neg hret]
    show ContextView.after _ .opened _ ret = .settled
    simp [hret]
  · have hview : ContextView.after coAuthInfo.contextID .opened
        (.saveCoAuthCallback coAuthInfo.contextID i) ret = .unknown := by
      simp [not_not.mp hret]
    show (contextTypestate _).Follows _ (ContextView.after _ .opened _ ret) _
    rw [hview]
    refine Typestate.Follows.bind (p := beginSchedules _ _ _) trivial
      (follows_idle (v := .unknown) ?_) fun _ v _ hv => ?_
    · generalize (⟨coAuthInfo.pkgName, coAuthInfo.callerID⟩ : CoAuth.AuthInfo) = authInfo
      induction scheduleInfos with
      | nil => trivial
      | cons scheduleInfo scheduleInfos ih => exact ⟨⟨trivial, fun _ => rfl⟩, fun _ => ih⟩
    · show if ResultCode.success = .success then v = .unknown else v = .settled
      rwa [if_pos rfl]

/-! ### Other contexts -/

/-- The operation adds no context and is about no other context than this. -/
def UserAuthOp.within (contextId : UInt64) : UserAuthOp → Bool
  | .addContextId _ => false
  | .deleteContextId Y | .setScheduleIds Y _ | .saveCoAuthCallback Y _ => Y = contextId
  | .beginAuthentication Y _ | .updateAuthenticationResult Y _ => Y = contextId
  | .cancelAuthentication Y | .deleteCoAuthCallback Y => Y = contextId
  | _ => true

theorem idle_of_within {contextId : UInt64} (hne : contextId ≠ X) {o : UserAuthOp}
    (ho : o.within contextId = true) : Idle X .unknown o := by
  cases o with
  | addContextId => cases ho
  | deleteContextId | setScheduleIds | saveCoAuthCallback | beginAuthentication |
      updateAuthenticationResult | cancelAuthentication | deleteCoAuthCallback =>
    obtain rfl : _ = contextId := of_decide_eq_true ho
    constructor
    · simp [ContextView.may, hne]
    · intro r
      first | rfl | simp [hne]
  | _ => exact ⟨trivial, fun _ => rfl⟩

theorem UserAuthOp.within_of_neutral {contextId : UInt64} {o : UserAuthOp}
    (ho : o.neutral = true) : o.within contextId = true := by
  cases o <;> first | rfl | cases ho

theorem generateSolution_within {contextId : UInt64} {param : AuthSolution}
    (hid : param.contextId = contextId) :
    (generateSolution param).All (·.within contextId = true) := by
  subst hid
  exact generateSolution_all param rfl (decide_eq_true rfl) fun _ => decide_eq_true rfl

theorem beginSchedules_within (contextId : UInt64) (authInfo : CoAuth.AuthInfo) (i : Nat)
    (scheduleInfos : List CoAuth.ScheduleInfo) :
    (beginSchedules authInfo i scheduleInfos).All (·.within contextId = true) := by
  induction scheduleInfos with
  | nil => trivial
  | cons scheduleInfo scheduleInfos ih => exact ⟨rfl, fun _ => ih⟩

theorem coAuth_within {contextId : UInt64} {scheduleInfos : List CoAuth.ScheduleInfo}
    {coAuthInfo : CoAuthInfo} {callback : ClientCallback} (hid : coAuthInfo.contextID = contextId) :
    (coAuth scheduleInfos coAuthInfo callback).All (·.within contextId = true) := by
  subst hid
  refine ⟨rfl, fun i => ⟨decide_eq_true rfl, fun ret => ?_⟩⟩
  refine Prog.all_ite.mpr ⟨fun _ => trivial, fun _ => ?_⟩
  exact (beginSchedules_within _ _ _ _).bind fun _ => trivial

theorem cancelAuth_within (kit : AccessTokenKit) (caller : Caller) (contextId : UInt64) :
    (cancelAuth kit caller contextId).All (·.within contextId = true) := by
  refine Prog.all_ite.mpr ⟨fun _ => trivial, fun _ => ⟨rfl, fun found => ?_⟩⟩
  refine Prog.all_ite.mpr ⟨fun _ => trivial, fun _ => ?_⟩
  refine Prog.All.bind (p := cancelContext contextId) ⟨rfl, fun found => ?_⟩ fun ret => ?_
  · refine Prog.all_ite.mpr ⟨fun _ => trivial, fun _ => ?_⟩
    exact ⟨decide_eq_true rfl, fun _ => trivial⟩
  · refine Prog.all_ite.mpr ⟨fun _ => trivial, fun _ => ⟨rfl, fun scheduleIds => ?_⟩⟩
    cases scheduleIds with
    | none => exact ⟨decide_eq_true rfl, fun _ => trivial⟩
    | some scheduleIds =>
      refine Prog.All.bind (p := cancelAll scheduleIds) ?_ fun _ =>
        ⟨decide_eq_true rfl, fun _ => trivial⟩
      exact (cancelAll_neutral scheduleIds).mono fun _ => UserAuthOp.within_of_neutral

theorem onFinishHandleLocked_within (i : Nat) (self : UserAuthCallbackImplCoAuth)
    (resultCode : UInt32) (scheduleToken : List UInt8) :
    (onFinishHandleLocked i self resultCode scheduleToken).All
      (·.within self.callbackContextId = true) :=
  onFinishHandleLocked_all (fun _ => UserAuthOp.within_of_neutral) rfl (decide_eq_true rfl) rfl rfl
    (decide_eq_true rfl) (decide_eq_true rfl) rfl (fun _ _ => rfl) resultCode

/-- A program about another context learns nothing. -/
theorem follows_within {contextId : UInt64} (hne : contextId ≠ X) {p : UserAuthProg α}
    (hp : p.All (·.within contextId = true)) :
    (contextTypestate X).Follows (fun _ v => v = .unknown) .unknown p :=
  follows_idle (hp.mono fun _ => idle_of_within hne)

/-! ### Calls -/

/-- A request does nothing for another context than the one it has added. -/
theorem request_follows {callback : ClientCallback} {authTrustLevel : AuthTrustLevel}
    {f : Option UInt64 → UserAuthProg UInt64} (hnone : f none = .ret 0)
    (hadded : (contextTypestate X).Follows (fun _ v => v ≠ .opened) .added (f (some X)))
    (hother : ∀ contextId, (f (some contextId)).All (·.within contextId = true)) :
    (contextTypestate X).Follows (fun _ v => v ≠ .opened) .unknown
      (getControllerData callback authTrustLevel >>= f) := by
  apply Typestate.Follows.bind trivial (getControllerData_follows callback authTrustLevel)
  intro r v _ hr
  rcases hr with ⟨rfl, rfl⟩ | ⟨contextId, rfl, rfl⟩
  · rw [hnone]
    exact nofun
  · by_cases hX : contextId = X
    · subst hX
      rw [addedView, if_pos rfl]
      exact hadded
    · rw [addedView, if_neg hX]
      refine (follows_within hX (hother contextId)).mono fun _ v hv => ?_
      rw [hv]
      exact nofun

/-- What is told at the end changes nothing. -/
theorem tell_follows {callback : ClientCallback} {result : ResultCode} {extraInfo : AuthResult}
    {r : UInt64} (hv : v ≠ .opened) :
    (contextTypestate X).Follows (fun _ v => v ≠ .opened) v
      (.call (.onResult callback result extraInfo) fun _ => .ret r) := by
  refine follows_next ?_ fun _ => ?_
  · cases v <;> trivial
  · show ContextView.after X v (.onResult callback result extraInfo) _ ≠ .opened
    cases v <;> exact hv

theorem auth_follows (caller : Caller) (challenge : UInt64) (authType : AuthType)
    (authTrustLevel : AuthTrustLevel) (callback : Option ClientCallback) :
    (contextTypestate X).Follows (fun _ v => v ≠ .opened) .unknown
      (auth kit caller challenge authType authTrustLevel callback) := by
  cases callback with
  | none => exact nofun
  | some callback =>
    refine request_follows rfl ?_ fun contextId => ?_
    · refine follows_ite (fun _ => tell_follows nofun) fun _ => ?_
      cases getCallingUserId kit caller with
      | error ret => exact tell_follows nofun
      | ok userId =>
        refine Typestate.Follows.bind (p := generateSolution _) trivial
          (generateSolution_follows rfl) fun solution v _ hsolution => ?_
        cases solution with
        | error result => rcases hsolution with rfl | rfl <;> exact tell_follows nofun
        | ok scheduleInfos =>
          obtain rfl : v = .opened := hsolution
          apply Typestate.Follows.bind trivial (coAuth_follows rfl)
          intro ret v _ hret
          refine follows_ite (fun hfail => tell_follows ?_) fun hsuccess => ?_
          · rw [if_neg hfail] at hret
            rw [hret]
            exact nofun
          · rw [if_pos (not_not.mp hsuccess)] at hret
            rw [hret]
            exact nofun
    · refine Prog.all_ite.mpr ⟨fun _ => ⟨rfl, fun _ => trivial⟩, fun _ => ?_⟩
      cases getCallingUserId kit caller with
      | error ret => exact ⟨rfl, fun _ => trivial⟩
      | ok userId =>
        refine Prog.All.bind (p := generateSolution _) (generateSolution_within rfl)
          fun solution => ?_
        cases solution with
        | error result => exact ⟨rfl, fun _ => trivial⟩
        | ok scheduleInfos =>
          refine Prog.All.bind (p := coAuth _ _ _) (coAuth_within rfl) fun ret => ?_
          exact Prog.all_ite.mpr ⟨fun _ => ⟨rfl, fun _ => trivial⟩, fun _ => trivial⟩

/-- A context that is given back is not open. -/
theorem giveBack_follows {callback : ClientCallback} {result : ResultCode} {r : UInt64}
    (hv : v = .added ∨ v = .settled) :
    (contextTypestate X).Follows (fun _ v => v ≠ .opened) v
      (.call (.deleteContextId X) fun _ =>
        .call (.onResult callback result {}) fun _ => .ret r) := by
  rcases hv with rfl | rfl
  · refine follows_next (fun _ => rfl) fun ret => tell_follows ?_
    simp
  · exact follows_next trivial fun _ => tell_follows nofun

theorem authUser_follows (caller : Caller) (userId : Int32) (challenge : UInt64)
    (authType : AuthType) (authTrustLevel : AuthTrustLevel) (callback : Option ClientCallback) :
    (contextTypestate X).Follows (fun _ v => v ≠ .opened) .unknown
      (authUser kit caller userId challenge authType authTrustLevel callback) := by
  cases callback with
  | none => exact nofun
  | some callback =>
    refine follows_ite (fun _ => tell_follows nofun) fun _ => ?_
    refine request_follows rfl ?_ fun contextId => ?_
    · refine Typestate.Follows.bind (p := generateSolution _) trivial
        (generateSolution_follows rfl) fun solution v _ hsolution => ?_
      cases solution with
      | error result => exact giveBack_follows hsolution
      | ok scheduleInfos =>
        obtain rfl : v = .opened := hsolution
        apply Typestate.Follows.bind trivial (coAuth_follows rfl)
        intro ret v _ hret
        refine follows_ite (fun hfail => giveBack_follows (.inr ?_)) fun hsuccess => ?_
        · rwa [if_neg hfail] at hret
        · rw [if_pos (not_not.mp hsuccess)] at hret
          rw [hret]
          exact nofun
    · refine Prog.All.bind (p := generateSolution _) (generateSolution_within rfl)
        fun solution => ?_
      cases solution with
      | error result => exact ⟨decide_eq_true rfl, fun _ => ⟨rfl, fun _ => trivial⟩⟩
      | ok scheduleInfos =>
        refine Prog.All.bind (p := coAuth _ _ _) (coAuth_within rfl) fun ret => ?_
        refine Prog.all_ite.mpr ⟨fun _ => ⟨decide_eq_true rfl, fun _ => ?_⟩, fun _ => trivial⟩
        exact ⟨rfl, fun _ => trivial⟩

/-- Once the context is closed, whatever is left to do may be done. -/
theorem closed_follows (p : UserAuthProg α) :
    (contextTypestate X).Follows (fun _ v => v ≠ .opened) .settled p := by
  refine (follows_settled p).mono fun _ v hv => ?_
  rw [hv]
  exact nofun

/-- The HDI has been told, or it is not there. -/
theorem cancelContext_follows :
    (contextTypestate X).Follows (fun ret v => v = .settled ∨ v = .unknown ∧ ret ≠ .success)
      .unknown (cancelContext X) := by
  refine follows_next trivial fun found => follows_ite (fun _ => .inr ⟨rfl, ?_⟩) fun _ => ?_
  · show ResultCode.generalError ≠ .success
    decide
  · refine follows_next trivial fun ret => .inl ?_
    exact if_pos rfl

theorem cancelAuth_follows (caller : Caller) (contextId : UInt64) :
    (contextTypestate X).Follows (fun _ v => v ≠ .opened) .unknown
      (cancelAuth kit caller contextId) := by
  by_cases hX : contextId = X
  · subst hX
    refine follows_ite (fun _ => nofun) fun _ => follows_next trivial fun found => ?_
    refine follows_ite (fun _ => nofun) fun _ => ?_
    refine Typestate.Follows.bind (p := cancelContext _) trivial cancelContext_follows
      fun ret v _ hret => ?_
    rcases hret with rfl | ⟨rfl, hret⟩
    · exact closed_follows _
    · exact follows_ite (fun _ => nofun) fun hsuccess => absurd hret hsuccess
  · refine (follows_within hX (cancelAuth_within kit caller contextId)).mono fun _ v hv => ?_
    rw [hv]
    exact nofun

/-- The thread waits for more finishes, or the context is closed. -/
def Weighs (self : UserAuthCallbackImplCoAuth) (v : ContextView) : Prop :=
  v = .weighing self ∨ v = .settled

/-- The verdict of a finish that is not canceled is `E_RET_UNDONE`, or the context is closed. -/
theorem verdict_follows {resultCode : UInt32} {scheduleToken : List UInt8}
    (hX : self.callbackContextId = X) (hcode : resultCode ≠ ResultCode.canceled.toUInt32) :
    (contextTypestate X).Follows (fun r v => v = .settled ∨ v = .weighing self ∧ r.1 = .eRetUndone)
      (.weighing self) (verdict self resultCode scheduleToken) := by
  refine follows_ite (fun _ => follows_next trivial fun found => ?_) fun h => absurd hcode h
  cases found with
  | false => exact .inl rfl
  | true =>
    refine follows_next trivial fun r => ?_
    have hview : r.1 ≠ .eRetUndone ∧
          ContextView.after X (.weighing self)
            (.updateAuthenticationResult self.callbackContextId scheduleToken) r = .settled ∨
        r.1 = .eRetUndone ∧
          ContextView.after X (.weighing self)
            (.updateAuthenticationResult self.callbackContextId scheduleToken) r =
              .weighing self := by
      by_cases hret : r.1 = .eRetUndone
      · exact .inr ⟨hret, by simp [hret]⟩
      · exact .inl ⟨hret, by simp [hret, hX]⟩
    show (contextTypestate X).Follows _ (ContextView.after X (.weighing self) _ r) _
    rcases hview with ⟨-, hview⟩ | ⟨hret, hview⟩
    · rw [hview]
      exact follows_ite (fun _ => .inl rfl) fun _ => .inl rfl
    · rw [hview]
      exact follows_ite (fun _ => .inr ⟨rfl, hret⟩) fun _ => .inr ⟨rfl, hret⟩

theorem onFinishHandleLocked_follows {i : Nat} {resultCode : UInt32} {scheduleToken : List UInt8}
    (hX : self.callbackContextId = X) (hcode : resultCode ≠ ResultCode.canceled.toUInt32) :
    (contextTypestate X).Follows (fun _ => Weighs self) (.weighing self)
      (onFinishHandleLocked i self resultCode scheduleToken) := by
  have hsettled {p : UserAuthProg Unit} :
      (contextTypestate X).Follows (fun _ => Weighs self) .settled p :=
    (follows_settled p).mono fun _ v => .inr
  refine follows_next trivial fun callbackNowCount => ?_
  show (contextTypestate X).Follows _ (if callbackNowCount = self.callbackCount then _ else _) _
  by_cases hcount : callbackNowCount = self.callbackCount
  · rw [if_pos hcount]
    exact hsettled
  · rw [if_neg hcount]
    refine follows_next trivial fun done => follows_ite (fun _ => .inl rfl) fun _ => ?_
    refine Typestate.Follows.bind (p := verdict _ _ _) trivial (verdict_follows hX hcode)
      fun v view _ hv => ?_
    rcases hv with rfl | ⟨rfl, hundone⟩
    · exact hsettled
    · refine follows_ite (fun _ => ?_) fun hne => absurd hundone hne
      exact follows_ite (fun h => absurd h hcount) fun _ => .inl rfl

/-- What a thread knows when it starts. -/
def startView (X : UInt64) : UserAuthCall → ContextView
  | .task _ (.run (.onFinishHandle _ self resultCode _)) =>
    if self.callbackContextId = X then
      if resultCode = ResultCode.canceled.toUInt32 then .settled else .weighing self
    else .unknown
  | _ => .unknown

theorem discard_follows {p : UserAuthProg α}
    (hp : (contextTypestate X).Follows (fun _ v => v ≠ .opened) .unknown p) :
    (contextTypestate X).Follows (fun _ v => v ≠ .opened) .unknown p.discard :=
  hp.bind trivial fun _ _ _ hv => hv

theorem idle_follows {p : UserAuthProg α} (hp : p.All (Idle X .unknown)) :
    (contextTypestate X).Follows (fun _ v => v ≠ .opened) .unknown p := by
  refine (follows_idle hp).mono fun _ v hv => ?_
  rw [hv]
  exact nofun

theorem onFinishHandle_follows {i p : Nat} {resultCode : UInt32} {scheduleToken : List UInt8} :
    (contextTypestate X).Follows (fun _ v => v ≠ .opened)
      (startView X (.task p (.run (.onFinishHandle i self resultCode scheduleToken))))
      (onFinishHandle i self resultCode scheduleToken >>= fun _ => atomic (.endTask p)) := by
  unfold onFinishHandle startView
  dsimp only
  rw [underLock_bind]
  by_cases hX : self.callbackContextId = X
  · rw [if_pos hX]
    by_cases hcode : resultCode = ResultCode.canceled.toUInt32
    · rw [if_pos hcode]
      exact closed_follows _
    · rw [if_neg hcode]
      refine follows_next trivial fun _ => ?_
      refine Typestate.Follows.bind (p := onFinishHandleLocked _ _ _ _) trivial
        (onFinishHandleLocked_follows hX hcode) fun _ v _ hv => ?_
      rcases hv with rfl | rfl
      · exact follows_next trivial fun _ => follows_next trivial fun _ => nofun
      · exact closed_follows _
  · rw [if_neg hX]
    refine follows_next trivial fun _ => ?_
    refine Typestate.Follows.bind (p := onFinishHandleLocked _ _ _ _) trivial
      (follows_within hX (onFinishHandleLocked_within _ _ _ _)) fun _ v _ hv => ?_
    subst hv
    exact follows_next trivial fun _ => follows_next trivial fun _ => nofun

/-- Every call follows the views. -/
theorem userAuthBody_follows (call : UserAuthCall) :
    (contextTypestate X).Follows (fun _ v => v ≠ .opened) (startView X call)
      (userAuthBody kit call) := by
  -- what is about no context is about no other one either
  have hidle {o : UserAuthOp} (ho : o.within (X + 1) = true) : Idle X .unknown o :=
    idle_of_within (by simp) ho
  cases call with
  | auth => exact discard_follows (auth_follows _ _ _ _ _)
  | authUser => exact discard_follows (authUser_follows _ _ _ _ _ _)
  | cancelAuth => exact discard_follows (cancelAuth_follows _ _)
  | onFinish i self scheduleId resultCode scheduleToken =>
    refine idle_follows ⟨hidle rfl, fun ret => Prog.all_ite.mpr ⟨fun _ => ?_, fun _ => trivial⟩⟩
    exact ⟨hidle rfl, fun _ => ⟨hidle rfl, fun _ => trivial⟩⟩
  | onAcquireInfo i self scheduleId acquire =>
    refine idle_follows ⟨hidle rfl, fun ret => Prog.all_ite.mpr ⟨fun _ => ?_, fun _ => trivial⟩⟩
    exact ⟨hidle rfl, fun _ => trivial⟩
  | task p task =>
    cases task with
    | ensureTransaction => exact idle_follows ⟨hidle rfl, fun _ => trivial⟩
    | run task =>
      cases task with
      | onFinishHandle i self resultCode scheduleToken => exact onFinishHandle_follows
      | onAcquireInfoHandle i self acquire =>
        show (contextTypestate X).Follows _ .unknown
          (underLock i (onAcquireInfoHandleLocked i self acquire) >>= fun _ => atomic (.endTask p))
        rw [underLock_bind]
        refine idle_follows ⟨hidle rfl, fun _ => ?_⟩
        refine Prog.All.bind (p := onAcquireInfoHandleLocked _ _ _) ⟨hidle rfl, fun done => ?_⟩
          fun _ => ⟨hidle rfl, fun _ => ⟨hidle rfl, fun _ => trivial⟩⟩
        exact Prog.all_ite.mpr ⟨fun _ => trivial, fun _ => ⟨hidle rfl, fun _ => trivial⟩⟩

end Programs

/-! ## 4. What a thread knows is true -/

/-- The thread that has added the context last. -/
def lastAdder (X : UInt64) (w : UserAuthWorld) : Option Nat :=
  (w.trace.filter (adds X)).getLast?.map Event.tid

/-- What the views say while the context is open. -/
structure Tracked (X : UInt64) (w : UserAuthWorld) (t : Nat) (v : ContextView) : Prop where
  opened : (∃ e ∈ w.trace, e.tid = t ∧ opens X e = true) →
    (w.state.saveCoAuthCallback X).isSome ∨ v = .opened
  added : v = .added ∨ v = .opened → lastAdder X w = some t ∧ (w.state.contexts X).isSome ∧
    w.state.saveCoAuthCallback X = none
  weighing : ∀ self, v = .weighing self →
    handledBy t w = some self ∧ self.callbackContextId = X
  unsettled : v ≠ .settled

/-- A context with a callback is there, and its id is not zero. -/
structure Kept (X : UInt64) (w : UserAuthWorld) : Prop where
  saved : (w.state.saveCoAuthCallback X).isSome → (w.state.contexts X).isSome
  nonzero : (w.state.contexts X).isSome → X ≠ 0

theorem Closed.push (h : Closed X w) : Closed X (w.push s e) := by
  rw [Closed, World.push_trace, List.any_append, Bool.or_eq_true]
  exact .inl h

theorem closed_of_closes (h : closes X e = true) : Closed X (w.push s e) := by
  rw [Closed, World.push_trace, List.any_append, Bool.or_eq_true]
  exact .inr (by simpa using h)

theorem lastAdder_push : lastAdder X (w.push s e) =
    if adds X e = true then some e.tid else lastAdder X w := by
  rw [lastAdder, World.push_trace, List.filter_append]
  split
  · next h => simp [h]
  · next h => simp [h, lastAdder]

theorem handledBy_push {self : UserAuthCallbackImplCoAuth} (h : handledBy t w = some self) :
    handledBy t (w.push s e) = some self := by
  rw [handledBy, World.push_trace, List.findSome?_append]
  rw [handledBy] at h
  rw [h]
  rfl

theorem handledBy_fresh (h : w.Fresh t) : handledBy t w = none := by
  rw [handledBy, List.findSome?_eq_none_iff]
  intro e he
  have hne : e.tid ≠ t := Nat.ne_of_lt (h e he)
  split
  · exact if_neg hne
  · rfl

/-! ### Steps that leave the context as it is -/

theorem isSome_frame {env : UserAuthEnv} {o : UserAuthOp}
    (hadds : adds X (.op t o (userAuthHandle t env s o).1) = false)
    (hdelete : o ≠ .deleteContextId X) :
    ((userAuthHandle t env s o).2.contexts X).isSome = (s.contexts X).isSome := by
  cases o with
  | addContextId Y =>
    simp only [userAuthHandle] at hadds ⊢
    split
    · rfl
    · next hnone =>
      rw [if_neg hnone] at hadds
      have hne : X ≠ Y := by
        rintro rfl
        simp [adds] at hadds
      exact congrArg Option.isSome (Function.update_of_ne hne _ _)
  | deleteContextId Y =>
    have hne : X ≠ Y := by
      rintro rfl
      exact hdelete rfl
    simp only [userAuthHandle]
    split
    · exact congrArg Option.isSome (Function.update_of_ne hne _ _)
    · rfl
  | setScheduleIds Y sheduleIds =>
    simp only [userAuthHandle]
    split
    · next hsome =>
      by_cases hY : X = Y
      · subst hY
        simp [hsome]
      · exact congrArg Option.isSome (Function.update_of_ne hY _ _)
    · rfl
  | saveCoAuthCallback Y i =>
    simp only [userAuthHandle, UserAuth.saveCoAuthCallback]
    split
    · rfl
    · split <;> rfl
  | _ => rfl

variable {v u : ContextView} {env : UserAuthEnv} {o : UserAuthOp}

/-- What the step leaves alone: the context, its callback and who has added it. -/
structure Untouched (X : UInt64) (w : UserAuthWorld) (s : UserAuthState) (e : UserAuthEvent) :
    Prop where
  callback : s.saveCoAuthCallback X = w.state.saveCoAuthCallback X
  contexts : (s.contexts X).isSome = (w.state.contexts X).isSome
  adds : adds X e = false

theorem Untouched.kept (h : Untouched X w s e) (hw : Kept X w) : Kept X (w.push s e) := by
  constructor
  · intro hsome
    rw [World.push_state, h.callback] at hsome
    rw [World.push_state, h.contexts]
    exact hw.saved hsome
  · intro hsome
    rw [World.push_state, h.contexts] at hsome
    exact hw.nonzero hsome

theorem Untouched.tracked (h : Untouched X w s e) (hw : Tracked X w t v)
    (hopens : e.tid = t → opens X e = false) : Tracked X (w.push s e) t v := by
  refine ⟨fun ⟨d, hd, htid, hopen⟩ => ?_, fun hv => ?_, fun self hv => ?_, hw.unsettled⟩
  · rw [World.push_state, h.callback]
    rcases List.mem_append.mp hd with hd | hd
    · exact hw.opened ⟨d, hd, htid, hopen⟩
    · rw [List.mem_singleton.mp hd] at htid hopen
      rw [hopens htid] at hopen
      cases hopen
  · rw [World.push_state, h.callback, h.contexts, lastAdder_push, h.adds]
    exact hw.added hv
  · exact ⟨handledBy_push (hw.weighing self hv).1, (hw.weighing self hv).2⟩

/-- The operation drops the context, or saves or drops its callback. -/
def UserAuthOp.moves (X : UInt64) : UserAuthOp → Bool
  | .deleteContextId contextId => contextId = X
  | .saveCoAuthCallback contextId _ | .deleteCoAuthCallback contextId => contextId = X
  | _ => false

/-- All operations but four leave the context alone. -/
theorem untouched_perform (hadds : adds X (.op t o ((userAuth kit).answer w t o env)) = false)
    (hmoves : o.moves X = false) :
    Untouched X w ((userAuth kit).handle t o env w.state).2
      (.op t o ((userAuth kit).answer w t o env)) := by
  refine ⟨callback_frame ?_ ?_, isSome_frame hadds ?_, hadds⟩
  · rintro i rfl
    simp [UserAuthOp.moves] at hmoves
  · rintro rfl
    simp [UserAuthOp.moves] at hmoves
  · rintro rfl
    simp [UserAuthOp.moves] at hmoves

theorem addContextId_success (h : (userAuthHandle t env s (.addContextId X)).1 = .success) :
    ¬(s.contexts X).isSome ∧ (userAuthHandle t env s (.addContextId X)).2 =
      { s with contexts := Function.update s.contexts X (some []) } := by
  have hgeneral : ResultCode.generalError ≠ .success := by decide
  simp only [userAuthHandle] at h ⊢
  split at h
  · exact absurd h hgeneral
  · next hnone => exact ⟨hnone, by rw [if_neg hnone]⟩

theorem saveCoAuthCallback_of_hasFree {i : Nat} (hs : Held s) (h0 : X ≠ 0)
    (hfree : s.groups.hasFree groupAuth = true) (hunsaved : s.saveCoAuthCallback X = none) :
    (saveCoAuthCallback X i s).1 = .success := by
  have hnot : retainedFor X s = false := by
    rw [Bool.eq_false_iff]
    intro hretained
    have hsome := (hs X hretained).2
    rw [hunsaved] at hsome
    cases hsome
  have hretain := ThreadGroups.retainTaskThread_of_hasFree hfree h0 hnot
  simp [UserAuth.saveCoAuthCallback, hretain, hunsaved]

/-! ### Steps of the thread itself -/

section Own

variable (hkept : Kept X w) (h : Tracked X w t v)

include hkept h

/-- A step that leaves the context alone and teaches the thread nothing. -/
theorem own_untouched
    (huntouched : Untouched X w ((userAuth kit).handle t o env w.state).2
      (.op t o ((userAuth kit).answer w t o env)))
    (hopens : opens X (.op t o ((userAuth kit).answer w t o env)) = false)
    (hview : v.after X o ((userAuth kit).answer w t o env) = v) :
    Kept X ((userAuth kit).perform w t o env) ∧
      Tracked X ((userAuth kit).perform w t o env) t
        (v.after X o ((userAuth kit).answer w t o env)) := by
  rw [hview]
  exact ⟨huntouched.kept hkept, huntouched.tracked h fun _ => hopens⟩

theorem own_addContextId (hmay : v.may X (.addContextId X))
    (hsuccess : (userAuth kit).answer w t (.addContextId X) env = .success) :
    Kept X ((userAuth kit).perform w t (.addContextId X) env) ∧
      Tracked X ((userAuth kit).perform w t (.addContextId X) env) t .added := by
  have hmay : X ≠ 0 ∧ (X = X → v = .unknown) := by
    cases v <;> first | exact absurd rfl h.unsettled | exact hmay
  obtain rfl : v = .unknown := hmay.2 rfl
  obtain ⟨hnone, hstate⟩ := addContextId_success hsuccess
  have hunsaved : ¬(w.state.saveCoAuthCallback X).isSome := fun hsome => hnone (hkept.saved hsome)
  have hcontexts :
      (((userAuth kit).perform w t (.addContextId X) env).state.contexts X).isSome := by
    show ((userAuthHandle t env w.state (.addContextId X)).2.contexts X).isSome
    rw [hstate]
    simp
  have hcallback : ((userAuth kit).perform w t (.addContextId X) env).state.saveCoAuthCallback X =
      none := by
    show (userAuthHandle t env w.state (.addContextId X)).2.saveCoAuthCallback X = none
    rw [hstate]
    exact Option.not_isSome_iff_eq_none.mp hunsaved
  refine ⟨⟨fun _ => hcontexts, fun _ => hmay.1⟩, fun ⟨d, hd, htid, hopen⟩ => ?_, fun _ => ?_, nofun,
    nofun⟩
  · -- the thread has not opened the context: it would have a callback
    rcases List.mem_append.mp hd with hd | hd
    · rcases h.opened ⟨d, hd, htid, hopen⟩ with hsome | hv
      · exact absurd hsome hunsaved
      · cases hv
    · rw [List.mem_singleton.mp hd] at hopen
      cases hopen
  · refine ⟨?_, hcontexts, hcallback⟩
    rw [Machine.perform, lastAdder_push, if_pos (by simp [adds, hsuccess])]
    rfl

theorem own_beginAuthentication {solution : AuthSolution}
    (hmay : v.may X (.beginAuthentication X solution))
    (hok : keepsOpen X w (.op t (.beginAuthentication X solution) env) = true)
    (hsuccess : env.ret = .success) :
    Kept X ((userAuth kit).perform w t (.beginAuthentication X solution) env) ∧
      Tracked X ((userAuth kit).perform w t (.beginAuthentication X solution) env) t
        (v.after X (.beginAuthentication X solution) (env.ret, env.schedules)) := by
  have hmay : X = X → v = .added := by
    cases v <;> first | exact absurd rfl h.unsettled | exact hmay
  obtain rfl : v = .added := hmay rfl
  have hcopied : (env.schedules.mapM copyScheduleInfo).isSome = true := by
    simpa [keepsOpen, hsuccess] using hok
  have hview : ContextView.after X .added (.beginAuthentication X solution)
      (env.ret, env.schedules) = .opened := by
    simp [hsuccess, hcopied]
  have huntouched : Untouched X w
      ((userAuth kit).handle t (.beginAuthentication X solution) env w.state).2
      (.op t (.beginAuthentication X solution) (env.ret, env.schedules)) := ⟨rfl, rfl, rfl⟩
  rw [hview]
  refine ⟨huntouched.kept hkept, fun _ => .inr rfl, fun _ => ?_, nofun, nofun⟩
  rw [Machine.perform, World.push_state, lastAdder_push]
  exact h.added (.inl rfl)

theorem own_saveCoAuthCallback {i : Nat} (hmay : v.may X (.saveCoAuthCallback X i))
    (hok : keepsOpen X w (.op t (.saveCoAuthCallback X i) env) = true) (hheld : Held w.state) :
    Kept X ((userAuth kit).perform w t (.saveCoAuthCallback X i) env) ∧
      Tracked X ((userAuth kit).perform w t (.saveCoAuthCallback X i) env) t
        (v.after X (.saveCoAuthCallback X i)
          ((userAuth kit).answer w t (.saveCoAuthCallback X i) env)) := by
  have hmay : X = X → v = .opened := by
    cases v <;> first | exact absurd rfl h.unsettled | exact hmay
  obtain rfl : v = .opened := hmay rfl
  obtain ⟨-, hsome, hunsaved⟩ := h.added (.inr rfl)
  have hsuccess : (saveCoAuthCallback X i w.state).1 = .success :=
    saveCoAuthCallback_of_hasFree hheld (hkept.nonzero hsome) (by simpa [keepsOpen] using hok)
      hunsaved
  have hcallback := (saveCoAuthCallback_success hsuccess).2.1
  have hcontexts : ((saveCoAuthCallback X i w.state).2.contexts X).isSome = true := by
    rw [← hsome]
    have hadds : adds X (.op t (.saveCoAuthCallback X i)
        (userAuthHandle t env w.state (.saveCoAuthCallback X i)).1) = false := rfl
    exact isSome_frame hadds nofun
  have hview : ContextView.after X .opened (.saveCoAuthCallback X i)
      ((userAuth kit).answer w t (.saveCoAuthCallback X i) env) = .unknown := by
    show (if X = X then if (saveCoAuthCallback X i w.state).1 = .success then _ else _ else _) = _
    rw [if_pos rfl, if_pos hsuccess]
  rw [hview]
  refine ⟨⟨fun _ => hcontexts, fun _ => hkept.nonzero hsome⟩, fun _ => .inl ?_, nofun, nofun, nofun⟩
  exact Option.isSome_of_eq_some hcallback

omit hkept in
theorem own_deleteContextId (hmay : v.may X (.deleteContextId X)) :
    Kept X ((userAuth kit).perform w t (.deleteContextId X) env) ∧
      Tracked X ((userAuth kit).perform w t (.deleteContextId X) env) t .unknown := by
  have hmay : X = X → v = .added := by
    cases v <;> first | exact absurd rfl h.unsettled | exact hmay
  obtain rfl : v = .added := hmay rfl
  obtain ⟨-, -, hunsaved⟩ := h.added (.inl rfl)
  have hcallback :
      ((userAuth kit).perform w t (.deleteContextId X) env).state.saveCoAuthCallback X = none :=
    (callback_frame (o := .deleteContextId X) nofun nofun).trans hunsaved
  refine ⟨⟨fun hsome => ?_, fun hsome => ?_⟩, fun ⟨d, hd, htid, hopen⟩ => ?_, nofun, nofun, nofun⟩
  · rw [hcallback] at hsome
    cases hsome
  · have hnone : ((userAuthHandle t env w.state (.deleteContextId X)).2.contexts X) = none :=
      contexts_deleteContextId
    have hsome : ((userAuthHandle t env w.state (.deleteContextId X)).2.contexts X).isSome := hsome
    rw [hnone] at hsome
    cases hsome
  · rcases List.mem_append.mp hd with hd | hd
    · rcases h.opened ⟨d, hd, htid, hopen⟩ with hsome | hv
      · rw [hunsaved] at hsome
        cases hsome
      · cases hv
    · rw [List.mem_singleton.mp hd] at hopen
      cases hopen

/-- **What a thread knows stays true while it goes on**, as long as the context is open. -/
theorem tracked_own (hmay : v.may X o) (hok : keepsOpen X w (.op t o env) = true)
    (hheld : Held w.state)
    (hcloses : closes X (.op t o ((userAuth kit).answer w t o env)) = false) :
    Kept X ((userAuth kit).perform w t o env) ∧
      Tracked X ((userAuth kit).perform w t o env) t
        (v.after X o ((userAuth kit).answer w t o env)) := by
  cases o with
  | addContextId Y =>
    by_cases hadds : Y = X ∧ (userAuth kit).answer w t (.addContextId Y) env = .success
    · obtain ⟨rfl, hsuccess⟩ := hadds
      have hview : v.after Y (.addContextId Y)
          ((userAuth kit).answer w t (.addContextId Y) env) = .added := by
        cases v <;> first | exact absurd rfl h.unsettled | exact if_pos ⟨rfl, hsuccess⟩
      rw [hview]
      exact own_addContextId hkept h hmay hsuccess
    · refine own_untouched hkept h (untouched_perform (by simpa [adds] using hadds) rfl) rfl ?_
      cases v <;> first | rfl | exact if_neg hadds
  | beginAuthentication Y solution =>
    by_cases hopens : Y = X ∧ env.ret = .success
    · obtain ⟨rfl, hsuccess⟩ := hopens
      exact own_beginAuthentication hkept h hmay hok hsuccess
    · refine own_untouched hkept h (untouched_perform rfl rfl) ?_ ?_
      · show (decide (Y = X) && decide (env.ret = .success)) = false
        simpa using hopens
      · cases v <;> first | rfl | exact if_neg hopens
  | saveCoAuthCallback Y i =>
    by_cases hY : Y = X
    · subst hY
      exact own_saveCoAuthCallback hkept h hmay hok hheld
    · refine own_untouched hkept h (untouched_perform rfl (decide_eq_false hY)) rfl ?_
      cases v <;> first | rfl | exact if_neg hY
  | deleteContextId Y =>
    by_cases hY : Y = X
    · subst hY
      have hview : v.after Y (.deleteContextId Y)
          ((userAuth kit).answer w t (.deleteContextId Y) env) = .unknown := by
        cases v <;> first | exact absurd rfl h.unsettled | exact if_pos rfl
      rw [hview]
      exact own_deleteContextId h hmay
    · refine own_untouched hkept h (untouched_perform rfl (decide_eq_false hY)) rfl ?_
      cases v <;> first | rfl | exact if_neg hY
  | deleteCoAuthCallback Y =>
    have hmay : Y ≠ X := by
      cases v <;> first | exact absurd rfl h.unsettled | exact hmay
    refine own_untouched hkept h (untouched_perform rfl (decide_eq_false hmay)) rfl ?_
    cases v <;> rfl
  | setScheduleIds Y sheduleIds =>
    refine own_untouched hkept h (untouched_perform rfl rfl) rfl ?_
    have hset : ¬(Y = X ∧ v = .opened ∧
        (userAuth kit).answer w t (.setScheduleIds Y sheduleIds) env ≠ .success) := by
      rintro ⟨rfl, hv, hret⟩
      apply hret
      show (userAuthHandle t env w.state (.setScheduleIds Y sheduleIds)).1 = .success
      simp [userAuthHandle, (h.added (.inr hv)).2.1]
    cases v <;> first | rfl | exact if_neg hset
  | cancelAuthentication Y =>
    have hne : Y ≠ X := by simpa [closes] using hcloses
    refine own_untouched hkept h (untouched_perform rfl rfl) rfl ?_
    cases v <;> first | rfl | exact if_neg hne
  | incCallbackNowCount i =>
    refine own_untouched hkept h (untouched_perform rfl rfl) rfl ?_
    cases v with
    | weighing self =>
      obtain ⟨hhandled, hX⟩ := h.weighing self rfl
      have hne : w.state.callbackNowCount i + 1 ≠ self.callbackCount := by
        simpa [keepsOpen, hhandled, hX] using hok
      exact if_neg hne
    | _ => rfl
  | getHdiInterface =>
    refine own_untouched hkept h (untouched_perform rfl rfl) rfl ?_
    cases v with
    | weighing self =>
      obtain ⟨hhandled, hX⟩ := h.weighing self rfl
      have hfound : env.flag = true := by simpa [keepsOpen, hhandled, hX] using hok
      exact if_pos hfound
    | _ => rfl
  | updateAuthenticationResult Y scheduleToken =>
    refine own_untouched hkept h (untouched_perform rfl rfl) rfl ?_
    cases v with
    | weighing self =>
      refine if_neg ?_
      rintro ⟨hY, hret⟩
      have hret : env.ret ≠ .eRetUndone := hret
      have hsuccess : env.ret = .success := by simpa [keepsOpen, hY, hret] using hok
      simp [closes, hY, Machine.answer, userAuth, userAuthHandle, hsuccess] at hcloses
    | _ => rfl
  | _ =>
    refine own_untouched hkept h (untouched_perform rfl rfl) rfl ?_
    cases v <;> rfl

end Own

/-! ### Steps of other threads -/

/-- Only one thread has added the context. -/
theorem Tracked.rival (ht : t ≠ tid) (hu : Tracked X w t u) (hv : Tracked X w tid v)
    (hadded : v = .added ∨ v = .opened) : ¬(u = .added ∨ u = .opened) := by
  intro hu'
  have htid := (hv.added hadded).1
  rw [(hu.added hu').1] at htid
  exact ht (Option.some.inj htid)

/-- What a thread that has not added the context knows of it does not depend on the context. -/
theorem Tracked.push_of_not_added (hu : Tracked X w t u) (hnot : ¬(u = .added ∨ u = .opened))
    (htid : e.tid ≠ t) (hcallback : (w.state.saveCoAuthCallback X).isSome →
      (s.saveCoAuthCallback X).isSome) : Tracked X (w.push s e) t u := by
  refine ⟨fun ⟨d, hd, hdtid, hopen⟩ => ?_, fun h => absurd h hnot, fun self h => ?_,
    hu.unsettled⟩
  · rcases List.mem_append.mp hd with hd | hd
    · exact (hu.opened ⟨d, hd, hdtid, hopen⟩).imp_left hcallback
    · rw [List.mem_singleton.mp hd] at hdtid
      exact absurd hdtid htid
  · exact ⟨handledBy_push (hu.weighing self h).1, (hu.weighing self h).2⟩

theorem isSome_saveCoAuthCallback {i : Nat} (h : (s.saveCoAuthCallback X).isSome) :
    ((saveCoAuthCallback X i s).2.saveCoAuthCallback X).isSome := by
  by_cases hsuccess : (saveCoAuthCallback X i s).1 = .success
  · exact Option.isSome_of_eq_some (saveCoAuthCallback_success hsuccess).2.1
  · rw [saveCoAuthCallback_fail hsuccess]
    exact h

/-- **What a thread knows stays true while another one goes on.** -/
theorem tracked_other (ht : t ≠ tid) (hu : Tracked X w t u) (hv : Tracked X w tid v)
    (hmay : v.may X o) : Tracked X ((userAuth kit).perform w tid o env) t u := by
  by_cases hadds : adds X (.op tid o ((userAuth kit).answer w tid o env)) = true
  · cases o with
    | addContextId Y =>
      have hadded : Y = X ∧ (userAuth kit).answer w tid (.addContextId Y) env = .success := by
        simpa [adds] using hadds
      obtain ⟨rfl, hsuccess⟩ := hadded
      have hret : (userAuthHandle tid env w.state (.addContextId Y)).1 = .success := hsuccess
      have hnone := (addContextId_success hret).1
      refine hu.push_of_not_added (fun hadded => hnone (hu.added hadded).2.1) ht.symm fun h => ?_
      show ((userAuthHandle tid env w.state (.addContextId Y)).2.saveCoAuthCallback Y).isSome
      rwa [callback_frame (o := .addContextId Y) nofun nofun]
    | _ => cases hadds
  · rw [Bool.not_eq_true] at hadds
    by_cases hmoves : o.moves X = true
    · cases o with
      | deleteContextId Y =>
        obtain rfl : Y = X := of_decide_eq_true hmoves
        have hmay : Y = Y → v = .added := by
          cases v <;> first | exact absurd rfl hv.unsettled | exact hmay
        refine hu.push_of_not_added (hu.rival ht hv (.inl (hmay rfl))) ht.symm fun h => ?_
        show ((userAuthHandle tid env w.state (.deleteContextId Y)).2.saveCoAuthCallback Y).isSome
        rwa [callback_frame (by simp) (by simp)]
      | saveCoAuthCallback Y i =>
        obtain rfl : Y = X := of_decide_eq_true hmoves
        have hmay : Y = Y → v = .opened := by
          cases v <;> first | exact absurd rfl hv.unsettled | exact hmay
        exact hu.push_of_not_added (hu.rival ht hv (.inr (hmay rfl))) ht.symm
          isSome_saveCoAuthCallback
      | deleteCoAuthCallback Y =>
        obtain rfl : Y = X := of_decide_eq_true hmoves
        have hmay : Y ≠ Y := by
          cases v <;> first | exact absurd rfl hv.unsettled | exact hmay
        exact absurd rfl hmay
      | _ => cases hmoves
    · rw [Bool.not_eq_true] at hmoves
      exact (untouched_perform hadds hmoves).tracked hu fun htid => absurd htid.symm ht

/-! ### The whole machine -/

theorem untouched_spawn {call : UserAuthCall} (hs : userAuthAccept w.state call = some s) :
    Untouched X w s (.spawn tid call) := by
  rcases userAuthAccept_cases hs with ⟨rfl, -⟩ | ⟨p, task, groups, -, -, rfl⟩
  · exact ⟨rfl, rfl, rfl⟩
  · exact ⟨rfl, rfl, rfl⟩

/-- What a thread knows when it starts is true. -/
theorem tracked_start {call : UserAuthCall} (hfresh : w.Fresh t)
    (hok : keepsOpen X w (.spawn t call) = true) :
    Tracked X (w.push s (.spawn t call)) t (startView X call) := by
  have hopened : (∃ e ∈ (w.push s (.spawn t call)).trace, e.tid = t ∧ opens X e = true) →
      ∀ P : Prop, P := by
    rintro ⟨e, he, htid, hopens⟩ P
    rcases List.mem_append.mp he with he | he
    · exact absurd htid (Nat.ne_of_lt (hfresh e he))
    · rw [List.mem_singleton.mp he] at hopens
      cases hopens
  have hunknown (hv : startView X call = .unknown) :
      Tracked X (w.push s (.spawn t call)) t (startView X call) := by
    rw [hv]
    exact ⟨fun h => hopened h _, nofun, nofun, nofun⟩
  cases call with
  | task p task =>
    cases task with
    | ensureTransaction => exact hunknown rfl
    | run task =>
      cases task with
      | onAcquireInfoHandle => exact hunknown rfl
      | onFinishHandle i self resultCode scheduleToken =>
        by_cases hX : self.callbackContextId = X
        · have hcode : resultCode ≠ ResultCode.canceled.toUInt32 := by
            simpa [keepsOpen, hX] using hok
          have hview : startView X (.task p (.run (.onFinishHandle i self resultCode
              scheduleToken))) = .weighing self := by
            simp only [startView, if_pos hX, if_neg hcode]
          rw [hview]
          refine ⟨fun h => hopened h _, nofun, fun self' hself => ?_, nofun⟩
          obtain rfl : self = self' := ContextView.weighing.inj hself
          refine ⟨?_, hX⟩
          rw [handledBy, World.push_trace, List.findSome?_append]
          have hnone := handledBy_fresh hfresh
          rw [handledBy] at hnone
          rw [hnone]
          simp
        · exact hunknown (if_neg hX)
  | _ => exact hunknown rfl

theorem next_answer (hen : userAuthEnabled env w.state o = true) :
    v.next X o ((userAuth kit).answer w t o env) =
      some (v.after X o ((userAuth kit).answer w t o env)) := by
  cases o with
  | generateContextId =>
    have hne : env.contextId ≠ 0 := by
      simp only [userAuthEnabled, Bool.and_eq_true, decide_eq_true_eq] at hen
      exact hen.1
    have hafter : v.after X .generateContextId
        ((userAuth kit).answer w t .generateContextId env) = v := by
      cases v <;> rfl
    rw [hafter]
    exact if_neg hne
  | _ => rfl

/-- A step of a run in which nothing goes wrong with the context. -/
def TrackedMove (X : UInt64) (w : UserAuthWorld) (mv : UserAuthMove) : Prop :=
  OpenUntilClosed X w mv ∧ Held w.state

theorem contextTypestate_sound :
    (contextTypestate X).Sound (userAuth kit) (TrackedMove X) (fun w => Closed X w ∨ Kept X w)
      (fun w t v => Closed X w ∨ Tracked X w t v) where
  start {w t call s} hinv hfresh hok hs := by
    refine ⟨?_, startView X call, ?_, trivial, userAuthBody_follows call⟩
    · exact hinv.imp Closed.push (untouched_spawn hs).kept
    · rcases hok.1 with hclosed | hok
      · exact .inl hclosed.push
      · exact .inr (tracked_start hfresh hok)
  spawn hlink ht hs :=
    hlink.imp Closed.push fun h => (untouched_spawn hs).tracked h fun htid => absurd htid.symm ht
  own {w t v o env} hinv hlink _ hmay hen hok := by
    by_cases hclosed : Closed X ((userAuth kit).perform w t o env)
    · exact ⟨.inl hclosed, _, next_answer hen, .inl hclosed⟩
    · have hopen : ¬Closed X w := fun h => hclosed h.push
      have hcloses : closes X (.op t o ((userAuth kit).answer w t o env)) = false := by
        rw [Bool.eq_false_iff]
        exact fun h => hclosed (closed_of_closes h)
      obtain ⟨hkept, htracked⟩ := tracked_own (hinv.resolve_left hopen)
        (hlink.resolve_left hopen) hmay (hok.1.resolve_left hopen) hok.2 hcloses
      exact ⟨.inr hkept, _, next_answer hen, .inr htracked⟩
  other {w t u tid v o env} ht hu hv _ _ hmay _ := by
    rcases hu with hclosed | hu
    · exact .inl hclosed.push
    · rcases hv with hclosed | hv
      · exact .inl hclosed.push
      · exact .inr (tracked_other ht hu hv hmay)

/-! ## 5. Contexts that nobody attends to -/

/-- **Open contexts.**  In every run in which nothing goes wrong with a context while it is open, a
context that has been opened is closed when no call works on it any more and it has no callback,
even while tasks wait or schedules run. -/
theorem closed_of_unattended (kit : AccessTokenKit) {X : UInt64} {c : UserAuthConfig}
    (hc : (userAuth kit).Reachable (OpenUntilClosed X) .initial c) (hopened : Opened X c.world)
    (h : LeftAlone X c) : Closed X c.world := by
  have hkept : Kept X ⟨.initial, []⟩ := ⟨nofun, nofun⟩
  have hreach := hc.strengthen (P := fun w => Held w.state) fun c hc => held_reachable hc
  obtain ⟨e, he, hopens⟩ := List.any_eq_true.mp hopened
  have hconcerns : concerns X e = true := by
    cases e with
    | spawn => cases hopens
    | op t o r =>
      cases o with
      | beginAuthentication Y solution =>
        simp only [opens, Bool.and_eq_true] at hopens
        exact hopens.1
      | _ => cases hopens
  obtain ⟨v, hlink, -, hends⟩ := (contextTypestate_sound.reachable (.inr hkept) hreach).2 e.tid _
    (h.returned e he hconcerns)
  rcases hlink with hclosed | htracked
  · exact hclosed
  · -- the thread has stopped, so it has left the context to a callback, and that is gone
    rcases htracked.opened ⟨e, he, rfl, hopens⟩ with hsome | hopen
    · rw [h.unsaved] at hsome
      cases hsome
    · exact absurd hopen hends

/-! ### A finish that is canceled -/

theorem unattended_of_checks {ok : UserAuthWorld → UserAuthMove → Prop}
    (hc : (userAuth kit).Reachable ok .initial c)
    (hreturned : c.threads.all Prog.returned = true) (hposted : noTask c.world.state = true)
    (hreported : c.world.state.begun.all
      (fun b => !(c.world.spawned (UserAuthCall.reports b)).isEmpty) = true)
    (hunsaved : (c.world.state.saveCoAuthCallback X).isNone = true) : Unattended X c := by
  refine ⟨⟨fun e he _ => ?_, Option.isNone_iff_eq_none.mp hunsaved⟩,
    fun thread hthread a ha => ?_, fun b hb _ => ?_⟩
  · have hlt := hc.fresh e he
    rw [List.getElem?_eq_getElem hlt]
    rw [Prog.eq_ret_of_returned (List.all_eq_true.mp hreturned _ (List.getElem_mem hlt))]
  · cases List.all_eq_true.mp (List.all_eq_true.mp hposted thread hthread) _ ha
  · simpa using List.all_eq_true.mp hreported b hb

/-- The one schedule of a context is canceled: the service forgets the context, which is open. -/
theorem canceled_stays_open :
    ¬∀ (kit : AccessTokenKit) (X : UInt64) (c : UserAuthConfig),
      (userAuth kit).Reachable anyMove .initial c → Opened X c.world → Unattended X c →
        Closed X c.world := by
  intro h
  have hrun : ((userAuth scenarioKit).exec anyMove ⟨⟨.initial, []⟩, []⟩
      (scenarioAuth [7] ++ scenarioFinish 2 7 3 ++
        [.spawn (.task 0 (.run (.onFinishHandle 0 scenarioCallback 3 [1])))] ++
        scenarioRun 3 12)).map (fun c =>
          (c.world.trace.any (opens 1), c.threads.all Prog.returned, noTask c.world.state,
            c.world.state.begun.all (fun b => !(c.world.spawned (UserAuthCall.reports b)).isEmpty),
            (c.world.state.saveCoAuthCallback 1).isNone, c.world.trace.any (closes 1))) =
      some (true, true, true, true, true, false) := by decide +kernel
  obtain ⟨c, hc, hchecks⟩ := Option.map_eq_some_iff.mp hrun
  simp only [Prod.mk.injEq] at hchecks
  obtain ⟨hopened, hreturned, hposted, hreported, hunsaved, hopen⟩ := hchecks
  have hreach : (userAuth scenarioKit).Reachable anyMove .initial c := .exec .init hc
  have hclosed : c.world.trace.any (closes 1) = true := h scenarioKit 1 c hreach hopened
    (unattended_of_checks hreach hreturned hposted hreported hunsaved)
  rw [hopen] at hclosed
  cases hclosed

/-- The same schedule is granted, and the HDI has closed the context. -/
theorem closed_of_unattended_example :
    ∃ c, (userAuth scenarioKit).Reachable (OpenUntilClosed 1) .initial c ∧ Opened 1 c.world ∧
      Unattended 1 c ∧ Closed 1 c.world := by
  have hrun : ((userAuth scenarioKit).exec (OpenUntilClosed 1) ⟨⟨.initial, []⟩, []⟩
      (silenceRun { token := [2] } 9)).map (fun c =>
        (c.world.trace.any (opens 1), c.threads.all Prog.returned, noTask c.world.state,
          c.world.state.begun.all (fun b => !(c.world.spawned (UserAuthCall.reports b)).isEmpty),
          (c.world.state.saveCoAuthCallback 1).isNone)) =
      some (true, true, true, true, true) := by decide +kernel
  obtain ⟨c, hc, hchecks⟩ := Option.map_eq_some_iff.mp hrun
  simp only [Prod.mk.injEq] at hchecks
  obtain ⟨hopened, hreturned, hposted, hreported, hunsaved⟩ := hchecks
  have hreach : (userAuth scenarioKit).Reachable (OpenUntilClosed 1) .initial c := .exec .init hc
  have hunattended := unattended_of_checks hreach hreturned hposted hreported hunsaved
  exact ⟨c, hreach, hopened, hunattended,
    closed_of_unattended scenarioKit hreach hopened hunattended.toLeftAlone⟩

end UserIam.UserAuth
