import UserIam.Conc.Alone
import UserIam.UserAuth.ContextLife

/-!
# Requests that fail

`AuthUser` gives its context back whenever it fails.  `Auth` does not: from the moment it has added
the context, it leaves it behind.
-/

namespace UserIam.UserAuth

open Conc Common Machine

variable {kit : AccessTokenKit} {caller : Caller} {ok : UserAuthWorld → UserAuthMove → Prop}
  {c : UserAuthConfig} {t : Nat} {s s' : UserAuthState} {es : List UserAuthEvent} {X : UInt64}

/-- What a request that fails should leave as it was. -/
structure NoTrace (s s' : UserAuthState) : Prop where
  contexts : s'.contexts = s.contexts
  saveCoAuthCallback : s'.saveCoAuthCallback = s.saveCoAuthCallback
  retained : s'.groups.pools.lookup groupAuth = s.groups.pools.lookup groupAuth

theorem NoTrace.refl (s : UserAuthState) : NoTrace s s := ⟨rfl, rfl, rfl⟩

/-! ## 1. Callbacks and threads -/

/-- A context that has a callback has its thread. -/
def Coherent (s : UserAuthState) : Prop :=
  ∀ X, (s.saveCoAuthCallback X).isSome → retainedFor X s = true

/-- All that `SaveCoAuthCallback` may leave behind when it fails is a thread. -/
theorem saveCoAuthCallback_fail {i : Nat} (h : (saveCoAuthCallback X i s).1 ≠ .success) :
    (saveCoAuthCallback X i s).2 =
      { s with groups := (s.groups.retainTaskThread groupAuth X).2 } := by
  unfold UserAuth.saveCoAuthCallback at h ⊢
  dsimp only at h ⊢
  split
  · rfl
  · next hretain =>
    rw [if_neg hretain] at h
    split
    · rfl
    · next hnone =>
      rw [if_neg hnone] at h
      exact absurd rfl h

/-- Of a context that has a callback only with its thread, it leaves nothing. -/
theorem saveCoAuthCallback_fail_eq {i : Nat} (hs : Coherent s)
    (h : (saveCoAuthCallback X i s).1 ≠ .success) : (saveCoAuthCallback X i s).2 = s := by
  rw [saveCoAuthCallback_fail h]
  cases hretain : (s.groups.retainTaskThread groupAuth X).1 with
  | false => rw [ThreadGroups.retainTaskThread_of_fail hretain]
  | true =>
    -- the thread is free, so the context has no callback, and it would have been saved
    exfalso
    have hfree : retainedFor X s = false := ThreadGroups.not_retained_of_retainTaskThread hretain
    have hnone : ¬(s.saveCoAuthCallback X).isSome := by
      intro hsome
      rw [hs X hsome] at hfree
      cases hfree
    apply h
    simp [UserAuth.saveCoAuthCallback, hretain, hnone]

theorem Coherent.handle (hs : Coherent s) (hnull : s.groups.NonNull) (env : UserAuthEnv)
    (o : UserAuthOp) : Coherent (userAuthHandle t env s o).2 := by
  intro X hX
  by_cases hsave : ∃ i, o = .saveCoAuthCallback X i
  · obtain ⟨i, rfl⟩ := hsave
    by_cases hsuccess : (saveCoAuthCallback X i s).1 = .success
    · exact (saveCoAuthCallback_success hsuccess).2.2
    · have hsame : (userAuthHandle t env s (.saveCoAuthCallback X i)).2 = s :=
        saveCoAuthCallback_fail_eq hs hsuccess
      rw [hsame] at hX ⊢
      exact hs X hX
  · by_cases hdelete : o = .deleteCoAuthCallback X
    · subst hdelete
      simp [userAuthHandle, deleteCoAuthCallback] at hX
    · obtain ⟨hcallback, hretained⟩ := held_frame t env hnull (fun i h => hsave ⟨i, h⟩) hdelete
      rw [hcallback] at hX
      rw [hretained]
      exact hs X hX

theorem coherent_reachable (hc : (userAuth kit).Reachable ok .initial c) :
    Coherent c.world.state := by
  induction hc with
  | init =>
    intro X hX
    cases hX
  | spawn _ _ hs ih =>
    rcases userAuthAccept_cases hs with ⟨rfl, -⟩ | ⟨p, task, groups, -, hstart, rfl⟩
    · exact ih
    · intro X hX
      exact (ThreadGroups.retained_startTask hstart).trans (ih X hX)
  | @run c t o k env hc _ _ _ ih => exact ih.handle (userAuth_nonNull kit hc) env o

/-- A context that has a thread has its callback. -/
def Held (s : UserAuthState) : Prop :=
  ∀ X, retainedFor X s = true → X ≠ 0 ∧ (s.saveCoAuthCallback X).isSome

theorem Held.handle (hs : Held s) (hcoherent : Coherent s) (hnull : s.groups.NonNull)
    (env : UserAuthEnv) (o : UserAuthOp) : Held (userAuthHandle t env s o).2 := by
  intro X hX
  by_cases hsave : ∃ i, o = .saveCoAuthCallback X i
  · obtain ⟨i, rfl⟩ := hsave
    by_cases hsuccess : (saveCoAuthCallback X i s).1 = .success
    · obtain ⟨hne, hcallback, -⟩ := saveCoAuthCallback_success hsuccess
      exact ⟨hne, Option.isSome_of_eq_some hcallback⟩
    · have hsame : (userAuthHandle t env s (.saveCoAuthCallback X i)).2 = s :=
        saveCoAuthCallback_fail_eq hcoherent hsuccess
      rw [hsame] at hX ⊢
      exact hs X hX
  · by_cases hdelete : o = .deleteCoAuthCallback X
    · subst hdelete
      exfalso
      have hX : (s.groups.releaseTaskThread groupAuth X).2.retained groupAuth X = true := hX
      by_cases h0 : X = 0
      · subst h0
        rw [ThreadGroups.releaseTaskThread_zero] at hX
        exact (hs 0 hX).1 rfl
      · rw [ThreadGroups.retained_releaseTaskThread h0] at hX
        simp at hX
    · obtain ⟨hcallback, hretained⟩ := held_frame t env hnull (fun i h => hsave ⟨i, h⟩) hdelete
      rw [hretained] at hX
      rw [hcallback]
      exact hs X hX

theorem held_reachable (hc : (userAuth kit).Reachable ok .initial c) : Held c.world.state := by
  induction hc with
  | init =>
    intro X hX
    cases hX
  | spawn _ _ hs ih =>
    rcases userAuthAccept_cases hs with ⟨rfl, -⟩ | ⟨p, task, groups, -, hstart, rfl⟩
    · exact ih
    · intro X hX
      exact ih X ((ThreadGroups.retained_startTask hstart).symm.trans hX)
  | @run c t o k env hc _ _ _ ih =>
    exact ih.handle (coherent_reachable hc) (userAuth_nonNull kit hc) env o

/-! ## 2. The parts of a request -/

def badTrustLevel (authTrustLevel : AuthTrustLevel) : Prop :=
  atl4 < authTrustLevel ∨ authTrustLevel < atl1

/-- The request ends here, or a context that is new is added. -/
theorem alone_getControllerData {callback : ClientCallback} {authTrustLevel : AuthTrustLevel}
    {r : Option UInt64}
    (h : (userAuth kit).Alone t (getControllerData callback authTrustLevel) s r es s') :
    r = none ∧ s' = s ∧ badTrustLevel authTrustLevel ∨
      ∃ X, r = some X ∧ X ≠ 0 ∧ s.contexts X = none ∧ ¬badTrustLevel authTrustLevel ∧
        s' = { s with contexts := Function.update s.contexts X (some []) } := by
  unfold getControllerData at h
  split at h
  · next hbad =>
    obtain ⟨env, es₁, -, hrest, rfl⟩ := alone_op_bind.mp h
    obtain ⟨rfl, rfl, rfl⟩ := alone_ret.mp hrest
    exact .inl ⟨rfl, rfl, hbad⟩
  · next hgood =>
    obtain ⟨env, es₁, hdraw, hrest, rfl⟩ := alone_op_bind.mp h
    obtain ⟨env₁, es₂, -, hadd, rfl⟩ := alone_op_bind.mp hrest
    have hdrawn : env.contextId ≠ 0 ∧ s.contexts env.contextId = none := by
      have hdraw : userAuthEnabled env s .generateContextId = true := hdraw
      simpa [userAuthEnabled] using hdraw
    have hadded : (userAuth kit).handle t (.addContextId env.contextId) env₁ s =
        (.success, { s with contexts := Function.update s.contexts env.contextId (some []) }) := by
      show userAuthHandle t env₁ s (.addContextId env.contextId) = _
      simp [userAuthHandle, hdrawn.2]
    have hstate : ((userAuth kit).handle t .generateContextId env s).2 = s := rfl
    have hcontextId : ((userAuth kit).handle t .generateContextId env s).1 = env.contextId := rfl
    rw [hstate, hcontextId, hadded, if_neg (by simp)] at hadd
    obtain ⟨rfl, -, rfl⟩ := alone_ret.mp hadd
    exact .inr ⟨env.contextId, rfl, hdrawn.1, hdrawn.2, hgood, rfl⟩

/-- Nothing is different but the entry of one context. -/
structure SameBut (X : UInt64) (s s' : UserAuthState) : Prop where
  contexts : ∀ Y, Y ≠ X → s'.contexts Y = s.contexts Y
  saveCoAuthCallback : s'.saveCoAuthCallback = s.saveCoAuthCallback
  groups : s'.groups = s.groups

/-- The operations of a solution for a context. -/
def UserAuthOp.solves (X : UInt64) : UserAuthOp → Bool
  | .getHdiInterface | .beginAuthentication .. => true
  | .setScheduleIds Y _ => Y = X
  | _ => false

theorem generateSolution_solves (param : AuthSolution) :
    (generateSolution param).All (·.solves param.contextId = true) :=
  generateSolution_all param rfl rfl fun _ => decide_eq_true rfl

theorem alone_generateSolution {s₀ : UserAuthState} {param : AuthSolution}
    {r : Except ResultCode (List CoAuth.ScheduleInfo)} (hs : SameBut param.contextId s₀ s)
    (h : (userAuth kit).Alone t (generateSolution param) s r es s') :
    SameBut param.contextId s₀ s' := by
  refine h.of_all (R := SameBut param.contextId s₀) ?_ (generateSolution_solves param) hs
  intro o env s ho hs
  cases o with
  | getHdiInterface | beginAuthentication => exact hs
  | setScheduleIds Y sheduleIds =>
    obtain rfl : Y = param.contextId := by simpa [UserAuthOp.solves] using ho
    show SameBut _ _ (userAuthHandle t env s (.setScheduleIds param.contextId sheduleIds)).2
    simp only [userAuthHandle]
    split
    · refine ⟨fun Y hY => ?_, hs.saveCoAuthCallback, hs.groups⟩
      show Function.update s.contexts param.contextId _ Y = _
      rw [Function.update_of_ne hY, hs.contexts Y hY]
    · exact hs
  | _ => cases ho

/-- Schedules that are not begun leave contexts, callbacks and threads alone. -/
theorem alone_coAuth {scheduleInfos : List CoAuth.ScheduleInfo} {coAuthInfo : CoAuthInfo}
    {callback : ClientCallback} {ret : ResultCode} (hs : Coherent s) (hret : ret ≠ .success)
    (h : (userAuth kit).Alone t (coAuth scheduleInfos coAuthInfo callback) s ret es s') :
    s'.contexts = s.contexts ∧ s'.saveCoAuthCallback = s.saveCoAuthCallback ∧
      s'.groups = s.groups := by
  obtain ⟨env, es₁, -, hsave, rfl⟩ := alone_op_bind.mp h
  obtain ⟨env₁, es₂, -, hrest, rfl⟩ := alone_op_bind.mp hsave
  split at hrest
  · next hfail =>
    obtain ⟨-, -, rfl⟩ := alone_ret.mp hrest
    have hmade : Coherent ((userAuth kit).handle t
        (.makeCoAuthCallback (.new callback coAuthInfo)) env s).2 := hs
    have hsame := saveCoAuthCallback_fail_eq hmade hfail
    have hstate := congrArg (fun s : UserAuthState =>
      (s.contexts, s.saveCoAuthCallback, s.groups)) hsame
    simp only [Prod.mk.injEq] at hstate
    exact hstate
  · obtain ⟨_, s₂, es₃, es₄, -, hend, rfl⟩ := alone_bind.mp hrest
    obtain ⟨rfl, -, -⟩ := alone_ret.mp hend
    exact absurd rfl hret

/-! ## 3. Requests -/

/-- A result that is told is all that is left to do. -/
theorem alone_tell {callback : ClientCallback} {result : ResultCode} {r r' : UInt64}
    (h : (userAuth kit).Alone t (do
      atomic (.onResult callback result {})
      pure r) s r' es s') : s' = s := by
  obtain ⟨env, es₁, -, hrest, rfl⟩ := alone_op_bind.mp h
  exact (alone_ret.mp hrest).2.2

/-- A context that is given back leaves nothing. -/
theorem alone_giveBack {s₀ : UserAuthState} {callback : ClientCallback} {result : ResultCode}
    {r r' : UInt64} (hs : SameBut X s₀ s) (hnew : s₀.contexts X = none)
    (h : (userAuth kit).Alone t (do
      let _ ← atomic (.deleteContextId X)
      atomic (.onResult callback result {})
      pure r) s r' es s') : NoTrace s₀ s' := by
  obtain ⟨env, es₁, -, hrest, rfl⟩ := alone_op_bind.mp h
  have hstate := alone_tell hrest
  have hgone : (userAuthHandle t env s (.deleteContextId X)).2.contexts X = none ∧
      SameBut X s₀ (userAuthHandle t env s (.deleteContextId X)).2 := by
    simp only [userAuthHandle]
    split
    · refine ⟨Function.update_self .., fun Y hY => ?_, hs.saveCoAuthCallback, hs.groups⟩
      show Function.update s.contexts X none Y = _
      rw [Function.update_of_ne hY, hs.contexts Y hY]
    · next hnone => exact ⟨Option.not_isSome_iff_eq_none.mp hnone, hs⟩
  rw [hstate]
  refine ⟨funext fun Y => ?_, hgone.2.saveCoAuthCallback, congrArg _ (congrArg _ hgone.2.groups)⟩
  by_cases hY : Y = X
  · subst hY
    exact hgone.1.trans hnew.symm
  · exact hgone.2.contexts Y hY

theorem SameBut.added (X : UInt64) (s : UserAuthState) (sheduleIds : List UInt64) :
    SameBut X s { s with contexts := Function.update s.contexts X (some sheduleIds) } :=
  ⟨fun _ hY => Function.update_of_ne hY _ _, rfl, rfl⟩

/-- **AuthUser leaves no trace.** -/
theorem alone_authUser {userId : Int32} {challenge : UInt64} {authType : AuthType}
    {authTrustLevel : AuthTrustLevel} {callback : Option ClientCallback} (hs : Coherent s)
    (h : (userAuth kit).Alone t
      (authUser kit caller userId challenge authType authTrustLevel callback) s 0 es s') :
    NoTrace s s' := by
  cases callback with
  | none =>
    obtain ⟨-, -, rfl⟩ := alone_ret.mp h
    exact .refl _
  | some callback =>
    unfold authUser at h
    dsimp only at h
    split at h
    · rw [alone_tell h]
      exact .refl _
    · obtain ⟨r, s₁, es₁, es₂, hcontroller, hrest, rfl⟩ := alone_bind.mp h
      rcases alone_getControllerData hcontroller with ⟨rfl, rfl, -⟩ | ⟨X, rfl, hX, hnew, -, hs₁⟩
      · obtain ⟨-, -, rfl⟩ := alone_ret.mp hrest
        exact .refl _
      · have hadded : SameBut X s s₁ := hs₁ ▸ .added X s []
        obtain ⟨r, s₂, es₃, es₄, hsolution, hsolved, rfl⟩ := alone_bind.mp hrest
        have hbut : SameBut X s s₂ := alone_generateSolution hadded hsolution
        cases r with
        -- the context is the only thing to give back
        | error result => exact alone_giveBack hbut hnew hsolved
        | ok scheduleInfos =>
          obtain ⟨ret, s₃, es₅, es₆, hcoAuth, hbegun, rfl⟩ := alone_bind.mp hsolved
          split at hbegun
          -- A callback that could not be saved leaves its context and no thread behind.
          · next hret =>
            have hcoherent : Coherent s₂ := by
              intro Y hY
              rw [hbut.saveCoAuthCallback] at hY
              rw [retainedFor, hbut.groups]
              exact hs Y hY
            obtain ⟨hcontexts, hsaved, hgroups⟩ := alone_coAuth hcoherent hret hcoAuth
            refine alone_giveBack ⟨fun Y hY => ?_, ?_, ?_⟩ hnew hbegun
            · rw [hcontexts, hbut.contexts Y hY]
            · rw [hsaved, hbut.saveCoAuthCallback]
            · rw [hgroups, hbut.groups]
          · obtain ⟨h0, -, -⟩ := alone_ret.mp hbegun
            exact absurd h0.symm hX

/-- The operations that leave every context where it is. -/
def UserAuthOp.keepsContexts : UserAuthOp → Bool
  | .deleteContextId _ => false
  | _ => true

theorem isSome_handle {o : UserAuthOp} (ho : o.keepsContexts = true) (env : UserAuthEnv)
    (h : (s.contexts X).isSome) : ((userAuthHandle t env s o).2.contexts X).isSome := by
  cases o with
  | addContextId Y =>
    simp only [userAuthHandle]
    split
    · exact h
    · by_cases hY : X = Y <;> simp [hY, Function.update_of_ne, h]
  | setScheduleIds Y =>
    simp only [userAuthHandle]
    split
    · by_cases hY : X = Y <;> simp [hY, Function.update_of_ne, h]
    · exact h
  | deleteContextId => cases ho
  | saveCoAuthCallback Y i =>
    simp only [userAuthHandle, UserAuth.saveCoAuthCallback]
    split
    · exact h
    · split <;> exact h
  | _ => exact h

theorem beginSchedules_keepsContexts (authInfo : CoAuth.AuthInfo) (i : Nat)
    (scheduleInfos : List CoAuth.ScheduleInfo) :
    (beginSchedules authInfo i scheduleInfos).All (·.keepsContexts = true) := by
  induction scheduleInfos with
  | nil => trivial
  | cons scheduleInfo scheduleInfos ih => exact ⟨rfl, fun _ => ih⟩

theorem coAuth_keepsContexts (scheduleInfos : List CoAuth.ScheduleInfo) (coAuthInfo : CoAuthInfo)
    (callback : ClientCallback) :
    (coAuth scheduleInfos coAuthInfo callback).All (·.keepsContexts = true) := by
  refine ⟨rfl, fun i => ⟨rfl, fun ret => ?_⟩⟩
  refine Prog.all_ite.mpr ⟨fun _ => trivial, fun _ => ?_⟩
  exact (beginSchedules_keepsContexts _ _ _).bind fun _ => trivial

theorem generateSolution_keepsContexts (param : AuthSolution) :
    (generateSolution param).All (·.keepsContexts = true) := by
  refine (generateSolution_solves param).mono fun o ho => ?_
  cases o <;> first | rfl | cases ho

/-- **Auth leaves its context.**  Whatever becomes of the request, a context that has been added
stays. -/
theorem alone_auth {challenge : UInt64} {authType : AuthType} {authTrustLevel : AuthTrustLevel}
    {callback : ClientCallback} {r : UInt64} (hgood : ¬badTrustLevel authTrustLevel)
    (h : (userAuth kit).Alone t
      (auth kit caller challenge authType authTrustLevel (some callback)) s r es s') :
    ∃ X, s.contexts X = none ∧ (s'.contexts X).isSome := by
  obtain ⟨r', s₁, es₁, es₂, hcontroller, hrest, rfl⟩ := alone_bind.mp h
  rcases alone_getControllerData hcontroller with ⟨-, -, hbad⟩ | ⟨X, rfl, -, hnew, -, rfl⟩
  · exact absurd hbad hgood
  · refine ⟨X, hnew, ?_⟩
    refine hrest.of_all (R := fun s => (s.contexts X).isSome)
      (fun o env s ho hs => isSome_handle ho env hs) ?_ (by simp)
    refine Prog.all_ite.mpr ⟨fun _ => ⟨rfl, fun _ => trivial⟩, fun _ => ?_⟩
    cases getCallingUserId kit caller with
    | error ret => exact ⟨rfl, fun _ => trivial⟩
    | ok userId =>
      refine (generateSolution_keepsContexts _).bind fun solution => ?_
      cases solution with
      | error result => exact ⟨rfl, fun _ => trivial⟩
      | ok scheduleInfos =>
        refine (coAuth_keepsContexts _ _ _).bind fun result => ?_
        exact Prog.all_ite.mpr ⟨fun _ => ⟨rfl, fun _ => trivial⟩, fun _ => trivial⟩

/-- Before a context is added there is nothing to leave. -/
theorem alone_auth_early {challenge : UInt64} {authType : AuthType}
    {authTrustLevel : AuthTrustLevel} {callback : Option ClientCallback} {r : UInt64}
    (hearly : callback = none ∨ badTrustLevel authTrustLevel)
    (h : (userAuth kit).Alone t
      (auth kit caller challenge authType authTrustLevel callback) s r es s') : s' = s := by
  cases callback with
  | none => exact (alone_ret.mp h).2.2
  | some callback =>
    have hbad : badTrustLevel authTrustLevel := hearly.resolve_left nofun
    obtain ⟨r', s₁, es₁, es₂, hcontroller, hrest, rfl⟩ := alone_bind.mp h
    rcases alone_getControllerData hcontroller with ⟨rfl, rfl, -⟩ | ⟨X, -, -, -, hgood, -⟩
    · exact (alone_ret.mp hrest).2.2
    · exact absurd hbad hgood

/-! ## 4. What a failure leaves -/

/-- **Failed requests.**  An `Auth` that fails leaves no trace exactly if it fails before it adds
its context: without a callback, or with a bad trust level.  An `AuthUser` that fails leaves
none. -/
theorem noTrace_iff (kit : AccessTokenKit) (caller : Caller)
    (hc : (userAuth kit).Reachable ok .initial c) :
    (∀ t challenge authType authTrustLevel callback es s', (userAuth kit).Alone t
      (auth kit caller challenge authType authTrustLevel callback) c.world.state 0 es s' →
        (NoTrace c.world.state s' ↔ callback = none ∨ badTrustLevel authTrustLevel)) ∧
    ∀ t userId challenge authType authTrustLevel callback es s', (userAuth kit).Alone t
      (authUser kit caller userId challenge authType authTrustLevel callback) c.world.state 0 es
        s' → NoTrace c.world.state s' := by
  refine ⟨fun t challenge authType authTrustLevel callback es s' h => ⟨fun htrace => ?_,
    fun hearly => ?_⟩, fun t userId challenge authType authTrustLevel callback es s' h => ?_⟩
  · by_contra hlate
    cases callback with
    | none => exact hlate (.inl rfl)
    | some callback =>
      obtain ⟨X, hnew, hleft⟩ := alone_auth (fun hbad => hlate (.inr hbad)) h
      rw [htrace.contexts, hnew] at hleft
      cases hleft
  · rw [alone_auth_early hearly h]
    exact .refl _
  · exact alone_authUser (coherent_reachable hc) h

/-- A caller without permissions. -/
def strangerKit : AccessTokenKit := ⟨fun _ _ => false, fun _ => true, fun _ => (.success, 100)⟩

/-- The caller has no permission; the context that `Auth` has added for it stays. -/
theorem auth_leaves_context :
    ¬∀ (kit : AccessTokenKit) (caller : Caller) (c : UserAuthConfig) (t : Nat) (challenge : UInt64)
      (authType : AuthType) (authTrustLevel : AuthTrustLevel) (callback : Option ClientCallback)
      (es : List UserAuthEvent) (s' : UserAuthState),
      (userAuth kit).Reachable anyMove .initial c → (userAuth kit).Alone t
        (auth kit caller challenge authType authTrustLevel callback) c.world.state 0 es s' →
          NoTrace c.world.state s' := by
  intro h
  have hrun : ((userAuth strangerKit).alone 0
      (auth strangerKit scenarioCaller 0 .face 10000 (some 5)) .initial [{}, {}, {}]).map
        (fun r => (r.1, (r.2.2.contexts 1).isSome)) = some (0, true) := by decide
  obtain ⟨⟨r, es, s'⟩, halone, hleft⟩ := Option.map_eq_some_iff.mp hrun
  obtain ⟨rfl, hleft⟩ := Prod.mk.inj hleft
  have htrace := h strangerKit scenarioCaller ⟨⟨.initial, []⟩, []⟩ 0 0 .face 10000 (some 5) es s'
    .init (.of_alone halone)
  rw [htrace.contexts] at hleft
  cases hleft

/-- The HDI refuses, and `AuthUser` gives its context back. -/
theorem noTrace_iff_example : ∃ es s', (userAuth scenarioKit).Alone 0
    (authUser scenarioKit scenarioCaller 100 0 .face 10000 (some 5)) .initial 0 es s' ∧
      es.length = 6 ∧ NoTrace .initial s' := by
  have hrun : ((userAuth scenarioKit).alone 0
      (authUser scenarioKit scenarioCaller 100 0 .face 10000 (some 5)) .initial
        [{}, {}, {}, { ret := .fail }, {}, {}]).map (fun r => (r.1, r.2.1.length)) =
      some (0, 6) := by decide
  obtain ⟨⟨r, es, s'⟩, halone, hlength⟩ := Option.map_eq_some_iff.mp hrun
  obtain ⟨rfl, hlength⟩ := Prod.mk.inj hlength
  have hinit : (userAuth scenarioKit).Reachable anyMove .initial ⟨⟨.initial, []⟩, []⟩ := .init
  exact ⟨es, s', .of_alone halone, hlength,
    (noTrace_iff scenarioKit scenarioCaller hinit).2 0 100 0 .face 10000 (some 5) es s'
      (.of_alone halone)⟩

end UserIam.UserAuth
