import UserIam.UserIDM.EnrolmentStart

/-!
# The result of a modification

`OnFinish` of a handler that modifies a credential asks the HDI to replace the credential and an
executor to delete the replaced template.  What the HDI says about the replacement is not looked at,
and the client hears of it twice.
-/

namespace UserIam.UserIDM

open Conc Machine

/-! ## 1. The commit -/

/-- The session is open, and the schedule that finishes is the active one. -/
def Commits (data : UserIDMModule) (scheduleId : UInt64) : Prop :=
  data.challenge ≠ 0 ∧ data.scheduleId ≠ 0 ∧ data.scheduleId = scheduleId

instance (data : UserIDMModule) (scheduleId : UInt64) : Decidable (Commits data scheduleId) :=
  inferInstanceAs (Decidable (_ ∧ _))

variable {platform : Platform} {t i : Nat} {s s' : UserIDMState} {es : List SyncEvent}
  {handler : UserIDMCoAuthHandler} {callback : ClientCallback} {resultCode : UInt32}
  {scheduleToken : List UInt8}

theorem updateCredential_unnoticed (enrollToken : List UInt8) (credentialId : UInt64)
    (deletedCredential : CredentialInfo) :
    (updateCredential enrollToken credentialId deletedCredential).All (·.unnoticed = true) := by
  simp [updateCredential, UserIDMOp.unnoticed]

/-- The credential that is replaced is the one that the HDI returns, if it succeeds. -/
theorem alone_updateCredential {credentialId : UInt64} {deletedCredential : CredentialInfo}
    {r : ResultCode × UInt64 × CredentialInfo}
    (h : (sync platform).Alone t
      (synchronous (updateCredential scheduleToken credentialId deletedCredential)) s r es s') :
    s' = s ∧ Silent es ∧ (updated es = [] ∨ updated es = [r.2.2]) := by
  obtain ⟨rfl, hbefore⟩ := alone_unnoticed (updateCredential_unnoticed _ _ _) h
  refine ⟨rfl, hbefore.silent, ?_⟩
  obtain ⟨found, es₁, hrest, rfl⟩ := h.call_state s' fun _ => rfl
  cases found with
  -- no HDI interface
  | false =>
    obtain ⟨-, rfl, -⟩ := alone_ret.mp hrest
    exact .inl rfl
  | true =>
    obtain ⟨⟨ret, newId, hdiInfo⟩, es₂, hret, rfl⟩ := hrest.call_state s' fun _ => rfl
    dsimp only [Prog.bind] at hret
    by_cases hsuccess : ret = .success
    · rw [if_pos hsuccess] at hret
      obtain ⟨rfl, rfl, -⟩ := alone_ret.mp hret
      have hupdated : updatedBy (.op t (.idm (.updateEnrollmentResult 0 scheduleToken))
          (ret, newId, hdiInfo)) = some (copyCredentialFromHdi hdiInfo) := if_pos hsuccess
      exact .inr (List.filterMap_cons_some hupdated)
    · rw [if_neg hsuccess] at hret
      obtain ⟨-, rfl, -⟩ := alone_ret.mp hret
      have hupdated : updatedBy (.op t (.idm (.updateEnrollmentResult 0 scheduleToken))
          (ret, newId, hdiInfo)) = none := if_neg hsuccess
      exact .inl (List.filterMap_cons_none hupdated)

/-- What the commit leaves behind: the HDI has replaced a credential or has not, and the executor is
asked to delete that credential's template all the same. -/
structure Commit (callback : ClientCallback) (rs : List ResultCode) (info : CredentialInfo)
    (es : List SyncEvent) : Prop where
  hears : Hears callback rs es
  replaces : updated es = [] ∨ updated es = [info]
  names : ∀ q ∈ asked es, Names q.1 info
  begins : begun es = []
  finishes : finished es = []

theorem Commit.append {rs rs' : List ResultCode} {info : CredentialInfo} {es' : List SyncEvent}
    (h : Commit callback rs info es) (hhears : Hears callback rs' es')
    (hupdated : updated es' = []) (hasked : asked es' = []) (hbegun : begun es' = [])
    (hfinished : finished es' = []) :
    Commit callback (rs ++ rs') info (es ++ es') where
  hears := h.hears.append hhears
  replaces := by
    rw [updated_append, hupdated, List.append_nil]
    exact h.replaces
  names := by
    rw [asked_append, hasked, List.append_nil]
    exact h.names
  begins := by
    rw [begun_append, h.begins, hbegun]
    rfl
  finishes := by
    rw [finished_append, h.finishes, hfinished]
    rfl

theorem alone_modify_commits {r : ResultCode × UInt64}
    (hinner : handler.innerCallback = some callback)
    (hcommits : Commits s.data handler.lastScheduleId)
    (h : (sync platform).Alone t (synchronous (onFinishModify handler scheduleToken 0)) s r es s') :
    r.1 = .success ∧ ∃ result info, Commit callback [result] info es := by
  obtain ⟨hchallenge, hactive, hsame⟩ := hcommits
  have hsome : ¬(handler.innerCallback.isNone = true) := by simp [hinner]
  unfold onFinishModify at h
  rw [if_neg hsome] at h
  obtain ⟨es₁, hopen, rfl⟩ := h.call_eq (some s.data.challenge) s fun _ =>
    congrArg (·, s) (if_neg hchallenge)
  obtain ⟨es₂, hslot, rfl⟩ := hopen.call_eq (some s.data.scheduleId) s fun _ =>
    congrArg (·, s) (if_neg hactive)
  dsimp only [Prog.bind] at hslot
  rw [if_pos (congrArg some hsame)] at hslot
  obtain ⟨uninitialised, es₃, hupdate, rfl⟩ := hslot.call_state s fun _ => rfl
  dsimp only [Prog.bind] at hupdate
  rw [Prog.interp_bind] at hupdate
  obtain ⟨r₁, s₁, es₄, es₅, hhdi, hdelete, rfl⟩ := alone_bind.mp hupdate
  -- The result of the update is dropped; its credential goes on into the request.
  obtain ⟨rfl, hsilent, hupdated⟩ := alone_updateCredential hhdi
  rw [Prog.interp_bind, Prog.interp_op] at hdelete
  obtain ⟨_, s₂, es₆, es₇, hrequest, hret, rfl⟩ := alone_bind.mp hdelete
  obtain ⟨rfl, rfl, rfl⟩ := alone_ret.mp hret
  obtain ⟨-, result, hrequested⟩ := alone_setExecutorProp
    (modificationCondition_relayable r₁.2.2) (modificationCondition_names r₁.2.2) hinner (.inl rfl)
    hrequest
  have hbefore : Silent (.op t (.idm .checkChallenge) (some s₁.data.challenge) ::
      .op t (.idm .checkScheduleIdIsActive) (some s₁.data.scheduleId) ::
      .op t (.idm .uninitialised) uninitialised :: es₄) :=
    ((hsilent.unnoticed rfl _).unnoticed rfl _).unnoticed rfl _
  refine ⟨rfl, result, r₁.2.2, ?_⟩
  rw [List.append_nil]
  show Commit callback [result] r₁.2.2 ((_ :: _ :: _ :: es₄) ++ es₆)
  constructor
  · exact hbefore.hears.append hrequested.hears
  · rw [updated_append, hrequested.updated_eq, List.append_nil]
    exact hupdated
  · intro q hq
    rw [asked_append, hbefore.asked] at hq
    exact hrequested.names hq
  · rw [begun_append, hbefore.begun, hrequested.begun_eq]
    rfl
  · rw [finished_append, hbefore.finished, hrequested.finished_eq]
    rfl

theorem alone_modify_idle {r : ResultCode × UInt64}
    (hinner : handler.innerCallback = some callback)
    (hcommits : ¬Commits s.data handler.lastScheduleId)
    (h : (sync platform).Alone t (synchronous (onFinishModify handler scheduleToken 0)) s r es s') :
    r = (.fail, 0) ∧ Silent es := by
  have hsome : ¬(handler.innerCallback.isNone = true) := by simp [hinner]
  unfold onFinishModify at h
  rw [if_neg hsome] at h
  obtain ⟨es₁, hopen, rfl⟩ := h.call_eq s.data.checkChallenge s fun _ => rfl
  cases hchallenge : s.data.checkChallenge with
  | none =>
    rw [hchallenge] at hopen
    obtain ⟨rfl, rfl, rfl⟩ := alone_ret.mp hopen
    exact ⟨rfl, silent_of_unnoticed rfl _⟩
  | some challenge =>
    rw [hchallenge] at hopen
    obtain ⟨es₂, hslot, rfl⟩ := hopen.call_eq s.data.checkScheduleIdIsActive s fun _ => rfl
    -- An open session whose active schedule is this one would commit.
    have hother : s.data.checkScheduleIdIsActive ≠ some handler.lastScheduleId := by
      intro hsame
      obtain ⟨hsame, hne⟩ := UserIDMModule.checkScheduleIdIsActive_eq_some.mp hsame
      obtain ⟨rfl, hne'⟩ := UserIDMModule.checkChallenge_eq_some.mp hchallenge
      exact hcommits ⟨hne', hsame ▸ hne, hsame⟩
    dsimp only [Prog.bind] at hslot
    rw [if_neg hother] at hslot
    obtain ⟨rfl, rfl, rfl⟩ := alone_ret.mp hslot
    exact ⟨rfl, (silent_of_unnoticed rfl _).unnoticed rfl _⟩

/-- A success that is committed is reported on top of what the executor's answer reports. -/
theorem alone_finish_commits (htype : handler.type = .modifyCred)
    (hinner : handler.innerCallback = some callback)
    (hcommits : Commits s.data handler.lastScheduleId)
    (h : (sync platform).Alone t
      (synchronous (onFinishLocked handler ResultCode.success.toUInt32 scheduleToken)) s () es s') :
    ∃ result info, Commit callback [result, .success] info es := by
  unfold onFinishLocked at h
  rw [hinner, htype] at h
  dsimp only at h
  rw [if_neg (not_not.mpr rfl), synchronous, Prog.interp_bind] at h
  obtain ⟨r, s₁, es₁, es₂, hmodify, hreport, rfl⟩ := alone_bind.mp h
  obtain ⟨hsuccess, result, info, hcommit⟩ := alone_modify_commits hinner hcommits hmodify
  obtain ⟨_, es₃, hdelete, rfl⟩ := hreport.call_state s₁ fun _ => rfl
  obtain ⟨_, es₄, hret, rfl⟩ := hdelete.call_state _ fun _ => rfl
  obtain ⟨-, rfl, -⟩ := alone_ret.mp hret
  refine ⟨result, info, ?_⟩
  rw [hsuccess]
  exact hcommit.append (hears_onResult.append silent_deleteSessionId.hears) rfl rfl rfl rfl

/-- Everything else is reported once, as `FAIL`. -/
theorem alone_finish_idle (htype : handler.type = .modifyCred)
    (hinner : handler.innerCallback = some callback)
    (hidle : resultCode = ResultCode.success.toUInt32 → ¬Commits s.data handler.lastScheduleId)
    (h : (sync platform).Alone t (synchronous (onFinishLocked handler resultCode scheduleToken))
      s () es s') :
    Hears callback [.fail] es ∧ asked es = [] ∧ begun es = [] ∧ finished es = [] := by
  unfold onFinishLocked at h
  rw [hinner, htype] at h
  dsimp only at h
  -- With another code the session is not even read.
  by_cases hcode : resultCode = ResultCode.success.toUInt32
  · rw [if_neg (not_not.mpr hcode), synchronous, Prog.interp_bind] at h
    obtain ⟨r, s₁, es₁, es₂, hmodify, hreport, rfl⟩ := alone_bind.mp h
    obtain ⟨rfl, hsilent⟩ := alone_modify_idle hinner (hidle hcode) hmodify
    obtain ⟨_, es₃, hdelete, rfl⟩ := hreport.call_state s₁ fun _ => rfl
    obtain ⟨_, es₄, hret, rfl⟩ := hdelete.call_state _ fun _ => rfl
    obtain ⟨-, rfl, -⟩ := alone_ret.mp hret
    refine ⟨?_, ?_, ?_, ?_⟩
    · exact hsilent.hears.append (hears_onResult.append silent_deleteSessionId.hears)
    · rw [asked_append, hsilent.asked]
      rfl
    · rw [begun_append, hsilent.begun]
      rfl
    · rw [finished_append, hsilent.finished]
      rfl
  · rw [if_pos hcode] at h
    obtain ⟨_, es₁, hreport, rfl⟩ := h.call_state _ fun _ => rfl
    obtain ⟨_, es₂, hret, rfl⟩ := hreport.call_state _ fun _ => rfl
    obtain ⟨-, rfl, -⟩ := alone_ret.mp hret
    exact ⟨silent_deleteSessionId.hears.append hears_onResult, rfl, rfl, rfl⟩

/-- `OnFinish` locks, works and unlocks. -/
theorem alone_onFinish_sync
    (h : (sync platform).Alone t (synchronous (onFinish i handler resultCode scheduleToken))
      s () es s') :
    ∃ s₁ s₂ es₁,
      (sync platform).Alone t (synchronous (onFinishLocked handler resultCode scheduleToken))
        s₁ () es₁ s₂ ∧
      s₁.data = s.data ∧ s'.data = s₂.data ∧ es = .op t (.idm (.lock (.coAuth i))) () ::
        (es₁ ++ [(.op t (.idm (.unlock (.coAuth i))) () : SyncEvent)]) := by
  unfold onFinish underLock synchronous at h
  obtain ⟨_, es₁, hlocked, rfl⟩ := h.call_state _ fun _ => rfl
  dsimp only [Prog.bind] at hlocked
  rw [Prog.interp_bind] at hlocked
  obtain ⟨_, s₂, es₂, es₃, hrun, hunlock, rfl⟩ := alone_bind.mp hlocked
  obtain ⟨_, es₄, hret, rfl⟩ := hunlock.call_state _ fun _ => rfl
  obtain ⟨-, rfl, rfl⟩ := alone_ret.mp hret
  exact ⟨_, s₂, es₂, hrun, rfl, rfl, rfl⟩

/-- A handler without a client does nothing. -/
theorem alone_finish_none (hinner : handler.innerCallback = none)
    (h : (sync platform).Alone t (synchronous (onFinishLocked handler resultCode scheduleToken))
      s () es s') : es = [] := by
  unfold onFinishLocked at h
  rw [hinner] at h
  obtain ⟨-, rfl, -⟩ := alone_ret.mp h
  rfl

/-! ## 2. What the client hears of a commit -/

/-- Only a replacement by the HDI is reported as a success, and only the template that it has
replaced is deleted. -/
def Agrees (es : List SyncEvent) : Prop :=
  (∀ callback, .success ∈ results callback es → updated es ≠ []) ∧
    ∀ q ∈ asked es, ∃ info ∈ updated es, Names q.1 info

theorem agrees_locked {id : HandlerId} :
    Agrees (.op t (.idm (.lock id)) () :: (es ++ [(.op t (.idm (.unlock id)) () : SyncEvent)])) ↔
      Agrees es := by
  have hupdated : updated (.op t (.idm (.lock id)) () ::
      (es ++ [(.op t (.idm (.unlock id)) () : SyncEvent)])) = updated es :=
    updated_append.trans (List.append_nil _)
  have hasked : asked (.op t (.idm (.lock id)) () ::
      (es ++ [(.op t (.idm (.unlock id)) () : SyncEvent)])) = asked es :=
    asked_append.trans (List.append_nil _)
  have hresults (callback : ClientCallback) :
      results callback (.op t (.idm (.lock id)) () ::
        (es ++ [(.op t (.idm (.unlock id)) () : SyncEvent)])) = results callback es :=
    results_append.trans (List.append_nil _)
  unfold Agrees
  rw [hupdated, hasked]
  simp only [hresults]

theorem Commit.agrees_iff {result : ResultCode} {info : CredentialInfo}
    (h : Commit callback [result, .success] info es) : Agrees es ↔ updated es ≠ [] := by
  constructor
  · intro hagrees
    apply hagrees.1 callback
    rw [h.hears.results_eq]
    exact List.mem_cons_of_mem _ (List.mem_singleton_self _)
  · intro hupdated
    refine ⟨fun _ _ => hupdated, ?_⟩
    intro q hq
    -- The template that is deleted is that of the credential just replaced.
    rw [h.replaces.resolve_left hupdated]
    exact ⟨info, List.mem_singleton_self _, h.names q hq⟩

theorem agrees_of_fail (hhears : Hears callback [.fail] es) (hasked : asked es = []) :
    Agrees es := by
  constructor
  · intro callback' hsuccess
    rw [hhears] at hsuccess
    split at hsuccess
    · exact absurd (List.mem_singleton.mp hsuccess) (by decide)
    · cases hsuccess
  · intro q hq
    rw [hasked] at hq
    cases hq

/-- **The commit of a modification.**  What the client and the executor hear of it is right exactly
if nothing is committed, or the HDI is there and `UpdateEnrollmentResult` succeeds. -/
theorem modify_agrees_iff (htype : handler.type = .modifyCred)
    (h : (sync platform).Alone t
      (synchronous (onFinish i handler ResultCode.success.toUInt32 scheduleToken)) s () es s') :
    Agrees es ↔ (handler.innerCallback.isSome = true → Commits s.data handler.lastScheduleId →
      updated es ≠ []) := by
  obtain ⟨s₁, s₂, es₁, hlocked, hdata, -, rfl⟩ := alone_onFinish_sync h
  have hupdated : updated (.op t (.idm (.lock (.coAuth i))) () ::
      (es₁ ++ [(.op t (.idm (.unlock (.coAuth i))) () : SyncEvent)])) = updated es₁ :=
    updated_append.trans (List.append_nil _)
  rw [agrees_locked, hupdated, ← hdata]
  cases hinner : handler.innerCallback with
  | none =>
    obtain rfl := alone_finish_none hinner hlocked
    simp [Agrees, results, asked]
  | some callback =>
    -- the session as the lock has found it
    by_cases hcommits : Commits s₁.data handler.lastScheduleId
    · obtain ⟨result, info, hcommit⟩ := alone_finish_commits htype hinner hcommits hlocked
      rw [hcommit.agrees_iff]
      simp [hcommits]
    · obtain ⟨hhears, hasked, -, -⟩ := alone_finish_idle htype hinner (fun _ => hcommits) hlocked
      simp [hcommits, agrees_of_fail hhears hasked]

section Unreplaced

def modifyHandler : UserIDMCoAuthHandler := ⟨.modifyCred, 1, 7, some 5⟩

/-- Schedule 7 is active in the session of challenge 1. -/
def modifyState : UserIDMState :=
  { UserIDMState.initial with data := ⟨1, 7⟩, coAuthHandlers := [modifyHandler] }

/-- The HDI answers with `ret`, the executor with `SUCCESS`; the variable for the replaced
credential holds what happened to be there. -/
def modifyEnvs (ret : ResultCode) : List SyncEnv :=
  [{}, {}, {}, { idm := { uninitialised := ⟨9, .face, 0, 77⟩ } }, {},
   { idm := { ret := ret, credential := ⟨0, .pin, 8, 70⟩ } }, {}, {}, { executor := some 3 }, {},
   {}, {}, {}, {}, {}]

/-- The HDI has failed, the client hears `SUCCESS`, and some template is deleted. -/
theorem modify_disagrees :
    ¬∀ (platform : Platform) (t i : Nat) (handler : UserIDMCoAuthHandler)
      (scheduleToken : List UInt8) (s s' : UserIDMState) (es : List SyncEvent),
      handler.type = .modifyCred →
      (sync platform).Alone t
        (synchronous (onFinish i handler ResultCode.success.toUInt32 scheduleToken)) s () es s' →
      Agrees es := by
  intro h
  -- what the clients, the executor and the HDI see, run for these choices
  have hrun : ((sync grantingPlatform).alone 0 (synchronous (onFinish 0 modifyHandler
      ResultCode.success.toUInt32 [1])) modifyState (modifyEnvs .fail)).map (fun r =>
        (updated r.2.1, results 5 r.2.1, (asked r.2.1).map (·.2))) =
      some ([], [.success, .success], [.success]) := by decide +kernel
  obtain ⟨⟨⟨⟩, es, s'⟩, halone, hview⟩ := Option.map_eq_some_iff.mp hrun
  simp only [Prod.mk.injEq] at hview
  obtain ⟨hupdated, hresults, -⟩ := hview
  have hagrees := h _ 0 0 modifyHandler [1] modifyState s' es rfl (.of_alone halone)
  exact hagrees.1 5 (by rw [hresults]; decide) hupdated

theorem modify_agrees_example : ∃ (es : List SyncEvent) (s' : UserIDMState),
    (sync grantingPlatform).Alone 0 (synchronous (onFinish 0 modifyHandler
      ResultCode.success.toUInt32 [1])) modifyState () es s' ∧ Agrees es ∧
    results 5 es = [.success, .success] := by
  have hrun : ((sync grantingPlatform).alone 0 (synchronous (onFinish 0 modifyHandler
      ResultCode.success.toUInt32 [1])) modifyState (modifyEnvs .success)).map (fun r =>
        (updated r.2.1, results 5 r.2.1)) =
      some ([⟨8, .pin, 0, 70⟩], [.success, .success]) := by decide +kernel
  obtain ⟨⟨⟨⟩, es, s'⟩, halone, hview⟩ := Option.map_eq_some_iff.mp hrun
  simp only [Prod.mk.injEq] at hview
  obtain ⟨hupdated, hresults⟩ := hview
  have hagrees := (modify_agrees_iff rfl (.of_alone halone)).mpr fun _ _ => by
    rw [hupdated]
    decide
  exact ⟨es, s', .of_alone halone, hagrees, hresults⟩

end Unreplaced

/-! ## 3. How often the client hears a result -/

/-- How the schedule of an update finishes, and what the session holds then. -/
structure Delivery where
  resultCode : UInt32
  data : UserIDMModule
  scheduleId : UInt64

def Delivery.Commits (d : Delivery) : Prop :=
  d.resultCode = ResultCode.success.toUInt32 ∧ UserIDM.Commits d.data d.scheduleId

/-- One call of `UpdateCredentialCtrl`, whose schedule finishes once if it begins: inside
`BeginSchedule`, which finds the session of `s` and the new id in it, or later, from any state. -/
inductive UpdateRun (platform : Platform) (t : Nat) (callback : ClientCallback)
    (s : UserIDMState) : List SyncEvent → Option Delivery → Prop where
  | unbegun {userId : Int32} {callerID : UInt64} {callerName : List UInt8} {credInfo : AddCredInfo}
      {r : ResultCode} {s' : UserIDMState} {es : List SyncEvent}
      (h : (sync platform).Alone t
        (synchronous (updateCredentialCtrl userId callerID callerName credInfo (some callback)))
        s r es s') (hbegun : begun es = []) : UpdateRun platform t callback s es none
  | inside {userId : Int32} {callerID : UInt64} {callerName : List UInt8} {credInfo : AddCredInfo}
      {r : ResultCode} {s' : UserIDMState} {es : List SyncEvent} {handler : UserIDMCoAuthHandler}
      {resultCode : UInt32} {scheduleToken : List UInt8}
      (h : (sync platform).Alone t
        (synchronous (updateCredentialCtrl userId callerID callerName credInfo (some callback)))
        s r es s') (hbegun : begun es = [handler])
      (hfinished : finished es = [some (resultCode, scheduleToken)]) :
      UpdateRun platform t callback s es
        (some ⟨resultCode, ⟨s.data.challenge, handler.lastScheduleId⟩, handler.lastScheduleId⟩)
  | later {userId : Int32} {callerID : UInt64} {callerName : List UInt8} {credInfo : AddCredInfo}
      {r : ResultCode} {s' s₁ s₂ : UserIDMState} {es es' : List SyncEvent} {t' i : Nat}
      {handler : UserIDMCoAuthHandler} {resultCode : UInt32} {scheduleToken : List UInt8}
      (h : (sync platform).Alone t
        (synchronous (updateCredentialCtrl userId callerID callerName credInfo (some callback)))
        s r es s') (hbegun : begun es = [handler]) (hfinished : finished es = [none])
      (h' : (sync platform).Alone t'
        (synchronous (onFinish i handler resultCode scheduleToken)) s₁ () es' s₂) :
      UpdateRun platform t callback s (es ++ es')
        (some ⟨resultCode, s₁.data, handler.lastScheduleId⟩)

theorem finish_once_iff (htype : handler.type = .modifyCred)
    (hinner : handler.innerCallback = some callback)
    (h : (sync platform).Alone t (synchronous (onFinishLocked handler resultCode scheduleToken))
      s () es s') :
    ((results callback es).length = 1 ↔
      ¬(resultCode = ResultCode.success.toUInt32 ∧ Commits s.data handler.lastScheduleId)) ∧
    begun es = [] ∧ finished es = [] := by
  by_cases hcommits : resultCode = ResultCode.success.toUInt32 ∧
    Commits s.data handler.lastScheduleId
  · obtain ⟨rfl, hcommits⟩ := hcommits
    obtain ⟨result, info, hcommit⟩ := alone_finish_commits htype hinner hcommits h
    rw [hcommit.hears.results_eq]
    exact ⟨by simp [hcommits], hcommit.begins, hcommit.finishes⟩
  · obtain ⟨hhears, -, hbegun, hfinished⟩ := alone_finish_idle htype hinner
      (fun hcode hdata => hcommits ⟨hcode, hdata⟩) h
    rw [hhears.results_eq]
    exact ⟨by simp [hcommits], hbegun, hfinished⟩

/-- A program that begins no schedule does not depend on what happens inside `BeginSchedule`. -/
theorem interp_withExecutors {p : UserIDMProg Unit} (hp : p.All (·.handles = true)) :
    p.interp withExecutors = synchronous p := by
  apply hp.interp_congr
  intro o ho
  cases o <;> first | rfl | cases ho

/-- Nothing begins, and the client is told so. -/
def Refuses (callback : ClientCallback) (es : List SyncEvent) : Prop :=
  (results callback es).length = 1 ∧ begun es = [] ∧ finished es = []

theorem refuses_onResult {before : List SyncEvent} (hsilent : Silent before) (result : ResultCode) :
    Refuses callback (before ++ [(.op t (.idm (.onResult callback result 0)) () : SyncEvent)]) := by
  refine ⟨?_, ?_, ?_⟩
  · rw [(hsilent.hears.append hears_onResult).results_eq]
    rfl
  · rw [begun_append, hsilent.begun]
    rfl
  · rw [finished_append, hsilent.finished]
    rfl

/-- What `UpdateCredentialCtrl` shows of a schedule that it has begun. -/
inductive Begins (callback : ClientCallback) (challenge : UInt64) (es : List SyncEvent)
    (handler : UserIDMCoAuthHandler) : Prop where
  | pending (hresults : results callback es = []) (hfinished : finished es = [none])
  | inside (resultCode : UInt32) (scheduleToken : List UInt8)
      (hfinished : finished es = [some (resultCode, scheduleToken)])
      (hresults : (results callback es).length = 1 ↔
        ¬(resultCode = ResultCode.success.toUInt32 ∧
          Commits ⟨challenge, handler.lastScheduleId⟩ handler.lastScheduleId))

/-- The schedule begins, after steps that nobody hears. -/
theorem alone_begin {info : CoAuth.ScheduleInfo} {authInfo : CoAuth.AuthInfo}
    {before : List SyncEvent} (hsilent : Silent before) (htype : handler.type = .modifyCred)
    (hinner : handler.innerCallback = some callback)
    (hslot : s.data.scheduleId = handler.lastScheduleId)
    (h : (sync platform).Alone t (syncBeginSchedule info authInfo handler) s () es s') :
    begun (before ++ es) = [handler] ∧ Begins callback s.data.challenge (before ++ es) handler := by
  unfold syncBeginSchedule at h
  obtain ⟨_, es₁, hfinish, rfl⟩ := h.call_state _ fun _ => rfl
  obtain ⟨finish, es₂, hrun, rfl⟩ := hfinish.call_state _ fun _ => rfl
  cases finish with
  | none =>
    obtain ⟨-, rfl, -⟩ := alone_ret.mp hrun
    refine ⟨?_, .pending ?_ ?_⟩
    · rw [begun_append, hsilent.begun]
      rfl
    · rw [results_append, hsilent.results]
      rfl
    · rw [finished_append, hsilent.finished]
      rfl
  | some finish =>
    obtain ⟨resultCode, scheduleToken⟩ := finish
    dsimp only [Prog.bind] at hrun
    rw [interp_withExecutors (onFinishLocked_handles _ _ _)] at hrun
    obtain ⟨honce, hbegun, hfinished⟩ := finish_once_iff htype hinner hrun
    -- the session with the id that has just been written
    have hdata : s.data = ⟨s.data.challenge, handler.lastScheduleId⟩ := by rw [← hslot]
    refine ⟨?_, .inside resultCode scheduleToken ?_ ?_⟩
    · rw [begun_append, hsilent.begun]
      show handler :: begun es₂ = [handler]
      rw [hbegun]
    · rw [finished_append, hsilent.finished]
      show some (resultCode, scheduleToken) :: finished es₂ = _
      rw [hfinished]
    · rw [results_append, hsilent.results, ← hdata]
      exact honce

/-- Either nothing begins, or one schedule does. -/
theorem alone_update {userId : Int32} {callerID : UInt64} {callerName : List UInt8}
    {credInfo : AddCredInfo} {r : ResultCode}
    (h : (sync platform).Alone t
      (synchronous (updateCredentialCtrl userId callerID callerName credInfo (some callback)))
      s r es s') :
    Refuses callback es ∨ ∃ handler,
      handler.type = .modifyCred ∧ handler.innerCallback = some callback ∧
      begun es = [handler] ∧ Begins callback s.data.challenge es handler := by
  rw [updateCredentialCtrl_eq] at h
  cases alone_startEnrolment h with
  | refused hbefore result => exact .inl (refuses_onResult hbefore.silent result)
  | @started before es₁ _ info authInfo hbefore inserted hopen hbegin =>
    -- The write of the id is heard by nobody.
    have hinsert : Silent [.op t (.idm (.insertScheduleId info.scheduleId)) inserted] :=
      ⟨fun _ => rfl, rfl, rfl, rfl, rfl⟩
    have hbegins := alone_begin (hbefore.silent.append hinsert) rfl rfl rfl hbegin
    rw [List.append_assoc] at hbegins
    exact .inr ⟨_, rfl, rfl, hbegins⟩

/-- **How often the client of an update hears a result.**  Once, unless its schedule finishes with
`SUCCESS` while it is the active one of an open session: then the executor's answer and the commit
are both reported. -/
theorem update_once_iff {delivery : Option Delivery}
    (h : UpdateRun platform t callback s es delivery) :
    (results callback es).length = 1 ↔ ∀ d ∈ delivery, ¬d.Commits := by
  cases h with
  | unbegun h hbegun =>
    rcases alone_update h with ⟨honce, -⟩ | ⟨handler, -, -, hbegun', -⟩
    · simp [honce]
    · rw [hbegun] at hbegun'
      cases hbegun'
  -- `BeginSchedule` has finished the schedule, in the session that it has found.
  | inside h hbegun hfinished =>
    rcases alone_update h with ⟨-, hbegun', -⟩ | ⟨handler, -, -, hbegun', hbegins⟩
    · rw [hbegun] at hbegun'
      cases hbegun'
    · rw [hbegun] at hbegun'
      cases hbegun'
      cases hbegins with
      | pending hresults hfinished' =>
        rw [hfinished] at hfinished'
        cases hfinished'
      | inside resultCode scheduleToken hfinished' hresults =>
        rw [hfinished] at hfinished'
        cases hfinished'
        rw [hresults]
        simp [Delivery.Commits]
  | @later userId callerID callerName credInfo r s' s₁ s₂ es es' t' i handler resultCode
      scheduleToken h hbegun hfinished h' =>
    rcases alone_update h with ⟨-, hbegun', -⟩ | ⟨handler', htype, hinner, hbegun', hbegins⟩
    · rw [hbegun] at hbegun'
      cases hbegun'
    · rw [hbegun] at hbegun'
      cases hbegun'
      cases hbegins with
      | inside resultCode scheduleToken hfinished' hresults =>
        rw [hfinished] at hfinished'
        cases hfinished'
      | pending hresults =>
        -- The lock and the unlock of the later call are heard by nobody.
        obtain ⟨s₃, s₄, es₁, hlocked, hdata, -, rfl⟩ := alone_onFinish_sync h'
        obtain ⟨honce, -, -⟩ := finish_once_iff htype hinner hlocked
        rw [results_append, hresults]
        show (results callback (es₁ ++ [_])).length = 1 ↔ _
        rw [results_append]
        show (results callback es₁ ++ []).length = 1 ↔ _
        rw [List.append_nil, honce, hdata]
        simp [Delivery.Commits]

section Twice

def updateState : UserIDMState := { UserIDMState.initial with data := ⟨1, 0⟩ }

/-- The HDI begins schedule 7, which finishes inside `BeginSchedule` with this code; an operation
that the environment does not decide has the default. -/
def beginEnvs (resultCode : UInt32) (rest : List SyncEnv) : List SyncEnv :=
  {} :: {} :: {} :: { idm := { schedule := ⟨7, [70], 0, 0, [⟨1, .pin, List.replicate 32 0⟩]⟩ } } ::
    {} :: {} :: { finish := some (resultCode, [1]) } :: rest

def updateProg : SyncProg ResultCode :=
  synchronous (updateCredentialCtrl 100 0 [] ⟨.pin, 0, []⟩ (some 5))

set_option synthInstance.maxSize 256 in
/-- Everything succeeds, and the client hears two results. -/
theorem update_twice :
    ¬∀ (platform : Platform) (t : Nat) (callback : ClientCallback) (s : UserIDMState)
      (es : List SyncEvent) (delivery : Option Delivery),
      UpdateRun platform t callback s es delivery → (results callback es).length = 1 := by
  intro h
  have hrun : ((sync grantingPlatform).alone 0 updateProg updateState (beginEnvs 0
      [{}, {}, {}, {}, {}, {}, {}, { executor := some 3 }, {}, {}, {}, {}, {}])).map (fun r =>
        (begun r.2.1, finished r.2.1, results 5 r.2.1)) =
      some ([⟨.modifyCred, 1, 7, some 5⟩], [some (0, [1])], [.success, .success]) := by
    decide +kernel
  obtain ⟨⟨r, es, s'⟩, halone, hview⟩ := Option.map_eq_some_iff.mp hrun
  simp only [Prod.mk.injEq] at hview
  obtain ⟨hbegun, hfinished, hresults⟩ := hview
  have honce := h _ 0 5 updateState es _ (.inside (.of_alone halone) hbegun hfinished)
  rw [hresults] at honce
  cases honce

/-- The schedule fails, and the client hears one result. -/
theorem update_once_example : ∃ es : List SyncEvent,
    UpdateRun grantingPlatform 0 5 updateState es (some ⟨3, ⟨1, 7⟩, 7⟩) ∧
      (results 5 es).length = 1 := by
  have hrun : ((sync grantingPlatform).alone 0 updateProg updateState (beginEnvs 3
      [{}, {}])).map (fun r => (begun r.2.1, finished r.2.1)) =
      some ([⟨.modifyCred, 1, 7, some 5⟩], [some (3, [1])]) := by decide +kernel
  obtain ⟨⟨r, es, s'⟩, halone, hview⟩ := Option.map_eq_some_iff.mp hrun
  obtain ⟨hbegun, hfinished⟩ := Prod.mk.inj hview
  have hupdate : UpdateRun grantingPlatform 0 5 updateState es (some ⟨3, ⟨1, 7⟩, 7⟩) :=
    .inside (.of_alone halone) hbegun hfinished
  refine ⟨es, hupdate, (update_once_iff hupdate).mpr ?_⟩
  intro d hd
  obtain rfl := Option.mem_some_iff.mp hd
  exact fun hcommits => absurd hcommits.1 (by decide)

end Twice

end UserIam.UserIDM
