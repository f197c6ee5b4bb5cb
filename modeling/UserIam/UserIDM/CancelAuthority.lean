import UserIam.UserIDM.EnrolmentStart

/-!
# Who may cancel an enrolment

`DelSchedleIdCtrl` does not look at whether there is a challenge: without one it compares its
argument with zero.  What keeps it from cancelling then is that no schedule is active outside of a
session, and that the active schedule has been started in the session that is open.
-/

namespace UserIam.UserIDM

open Conc Machine

/-! ## 1. The session in the history -/

def resetsSession : SyncEvent → Bool
  | .op _ (.idm (.insertChallenge _)) _ => true
  | .op _ (.idm .cleanData) _ => true
  | _ => false

def startedBy : SyncEvent → Option UInt64
  | .op _ (.idm (.beginSchedule info _ _)) _ => some info.scheduleId
  | _ => none

/-- The schedule that has been started last. -/
def lastStarted (es : List SyncEvent) : Option UInt64 := (es.filterMap startedBy).getLast?

/-- The session of this challenge has been opened and is open since then, and this is the schedule
that has been started last in it. -/
def StartedInSession (challenge id : UInt64) (es : List SyncEvent) : Prop :=
  ∃ before t opened after,
    es = before ++ .op t (.idm (.insertChallenge challenge)) opened :: after ∧
    after.any resetsSession = false ∧ lastStarted after = some id

/-- The session is the last one that has been opened, and its schedule has been started last. -/
def InSession (data : UserIDMModule) (es : List SyncEvent) : Prop :=
  ∃ before t opened after,
    es = before ++ .op t (.idm (.insertChallenge data.challenge)) opened :: after ∧
    after.any resetsSession = false ∧
    (data.scheduleId ≠ 0 → lastStarted after = some data.scheduleId)

/-- No schedule is active outside of a session, and the one that is has been started in it. -/
structure Authority (data : UserIDMModule) (es : List SyncEvent) : Prop where
  closed : data.challenge = 0 → data.scheduleId = 0
  opened : data.challenge ≠ 0 → InSession data es

variable {data : UserIDMModule} {es : List SyncEvent} {e : SyncEvent}

theorem authority_closed (es : List SyncEvent) : Authority ⟨0, 0⟩ es :=
  ⟨fun _ => rfl, fun hne => absurd rfl hne⟩

theorem lastStarted_append {es' : List SyncEvent} :
    lastStarted (es ++ es') = (lastStarted es').or (lastStarted es) := by
  rw [lastStarted, List.filterMap_append, List.getLast?_append]
  rfl

theorem lastStarted_singleton : lastStarted [e] = startedBy e := by
  unfold lastStarted
  cases h : startedBy e <;> simp [h]

theorem InSession.push (h : InSession data es) (hreset : resetsSession e = false)
    (hstart : startedBy e = none) : InSession data (es ++ [e]) := by
  obtain ⟨before, t, opened, after, rfl, hsince, hstarted⟩ := h
  refine ⟨before, t, opened, after ++ [e], by simp, ?_, ?_⟩
  · simp [hsince, hreset]
  · intro hactive
    rw [lastStarted_append, lastStarted_singleton, hstart, Option.none_or]
    exact hstarted hactive

theorem Authority.push (h : Authority data es) (hreset : resetsSession e = false)
    (hstart : startedBy e = none) : Authority data (es ++ [e]) :=
  ⟨h.closed, fun hopen => (h.opened hopen).push hreset hstart⟩

theorem Authority.deleteSessionId (h : Authority data es) : Authority data.deleteSessionId es := by
  refine ⟨fun _ => rfl, fun hopen => ?_⟩
  obtain ⟨before, t, opened, after, hes, hsince, -⟩ := h.opened hopen
  exact ⟨before, t, opened, after, hes, hsince, fun hactive => absurd rfl hactive⟩

/-- A session is opened while no schedule is active. -/
theorem authority_open (challenge : UInt64) (t : Nat) (opened : Bool) (es : List SyncEvent) :
    Authority ⟨challenge, 0⟩
      (es ++ [(.op t (.idm (.insertChallenge challenge)) opened : SyncEvent)]) :=
  ⟨fun _ => rfl, fun _ => ⟨es, t, opened, [], rfl, rfl, fun hactive => absurd rfl hactive⟩⟩

/-- A schedule is written into the open session and started. -/
theorem Authority.begin (h : Authority data es) (hopen : data.challenge ≠ 0) {t : Nat}
    {inserted : Bool} {info : CoAuth.ScheduleInfo} {authInfo : CoAuth.AuthInfo}
    {handler : UserIDMCoAuthHandler} :
    Authority { data with scheduleId := info.scheduleId }
      (es ++ [(.op t (.idm (.insertScheduleId info.scheduleId)) inserted : SyncEvent),
        .op t (.idm (.beginSchedule info authInfo handler)) ()]) := by
  refine ⟨fun hclosed => absurd hclosed hopen, fun _ => ?_⟩
  obtain ⟨before, t', opened, after, rfl, hsince, -⟩ := h.opened hopen
  refine ⟨before, t', opened, _, by rw [List.append_assoc, List.cons_append], ?_, ?_⟩
  · rw [List.any_append, hsince]
    rfl
  · intro _
    rw [lastStarted_append]
    rfl

/-! ## 2. What keeps the authority -/

/-- Everything but writing a challenge or a schedule into the session and starting a schedule. -/
def UserIDMOp.settles : UserIDMOp → Bool
  | .insertChallenge _ | .insertScheduleId _ | .beginSchedule .. => false
  | _ => true

def SyncOp.settles : SyncOp → Bool
  | .idm o => o.settles
  | _ => true

theorem UserIDMOp.settles_of_neutral {o : UserIDMOp} (ho : Neutral o) : o.settles = true := by
  cases o <;> first | rfl | cases ho

theorem UserIDMOp.settles_of_handles {o : UserIDMOp} (ho : o.handles = true) :
    o.settles = true := by
  cases o <;> first | rfl | cases ho

variable {platform : Platform} {t : Nat} {s s' : UserIDMState} {es' : List SyncEvent} {α : Type}

theorem authority_step {o : SyncOp} (env : SyncEnv) (ho : o.settles = true)
    (h : Authority s.data es) :
    Authority ((sync platform).handle t o env s).2.data
      (es ++ [(.op t o ((sync platform).handle t o env s).1 : SyncEvent)]) := by
  cases o with
  | idm o =>
    cases o with
    | insertChallenge | insertScheduleId | beginSchedule => cases ho
    | cleanData => exact authority_closed _
    | deleteSessionId => exact h.deleteSessionId.push rfl rfl
    | _ => exact h.push rfl rfl
  | _ => exact h.push rfl rfl

theorem alone_settles {p : SyncProg α} {a : α} (hp : p.All (·.settles = true))
    (h : (sync platform).Alone t p s a es' s') (hs : Authority s.data es) :
    Authority s'.data (es ++ es') :=
  Alone.of_all_history (R := fun s es => Authority s.data es)
    (fun _ env _ _ ho hs => authority_step env ho hs) hp h hs

theorem lift_settles {p : UserIDMProg α} (hp : p.All (·.settles = true)) :
    (lift p).All (·.settles = true) :=
  hp.interp _ fun _ ho => Prog.all_op.mpr ho

theorem syncSetExecutorProp_settles (condition : CoAuth.AuthAttributes)
    (handler : UserIDMSetPropHandler) :
    (syncSetExecutorProp condition handler).All (·.settles = true) := by
  have hreport (result : UInt32) :
      (lift (onResultLocked handler result)).All (·.settles = true) :=
    lift_settles ((onResultLocked_handles _ _).mono fun _ => UserIDMOp.settles_of_handles)
  refine ⟨rfl, fun _ => ⟨rfl, fun locals => ⟨rfl, fun found => ?_⟩⟩⟩
  cases found with
  | none => exact hreport _
  | some remote =>
    dsimp only [Prog.bind]
    split
    · exact ⟨rfl, fun _ => trivial⟩
    · exact ⟨rfl, fun result => hreport _⟩

theorem withExecutors_settles {o : UserIDMOp} (ho : o.settles = true) :
    (withExecutors o).All (·.settles = true) := by
  cases o with
  | setExecutorProp condition handler => exact syncSetExecutorProp_settles condition handler
  | insertChallenge | insertScheduleId | beginSchedule => cases ho
  | _ => exact ⟨rfl, fun _ => trivial⟩

/-- A schedule that has been started may finish before `BeginSchedule` returns. -/
theorem syncBeginSchedule_settles (info : CoAuth.ScheduleInfo) (authInfo : CoAuth.AuthInfo)
    (handler : UserIDMCoAuthHandler) :
    ∃ k, syncBeginSchedule info authInfo handler =
        .call (.idm (.beginSchedule info authInfo handler)) k ∧
      (k ()).All (·.settles = true) := by
  refine ⟨_, rfl, rfl, fun finish => ?_⟩
  cases finish with
  | none => trivial
  | some finish =>
    have hhandles := onFinishLocked_handles handler finish.1 finish.2
    exact hhandles.interp _ fun _ ho => withExecutors_settles (UserIDMOp.settles_of_handles ho)

theorem synchronous_settles {p : UserIDMProg α} (hp : p.All (·.settles = true)) :
    (synchronous p).All (·.settles = true) := by
  refine hp.interp _ fun o ho => ?_
  cases o with
  | insertChallenge | insertScheduleId | beginSchedule => cases ho
  | setExecutorProp condition handler => exact syncSetExecutorProp_settles condition handler
  | _ => exact ⟨rfl, fun _ => trivial⟩

/-! ### The controller -/

theorem UserIDMOp.settles_of_opensNone {o : UserIDMOp} (ho : o.opensNone = true) :
    o.settles = true := by
  cases o <;> first | rfl | cases ho

/-- A part of a call that writes nothing into the session but what closes it. -/
theorem alone_keeps {p : UserIDMProg α} {a : α} (hp : p.All (·.settles = true))
    (h : (sync platform).Alone t (synchronous p) s a es' s') (hs : Authority s.data es) :
    Authority s'.data (es ++ es') :=
  alone_settles (synchronous_settles hp) h hs

theorem alone_openEditSession {userId : Int32} {challenge : UInt64}
    (h : (sync platform).Alone t (synchronous (openEditSessionCtrl userId)) s challenge es' s') :
    Authority s'.data (es ++ es') := by
  have hunnoticed : (openEditSession userId).All (·.unnoticed = true) := by
    simp [openEditSession, UserIDMOp.unnoticed]
  unfold openEditSessionCtrl synchronous at h
  rw [Prog.interp_bind] at h
  obtain ⟨_, s₁, es₁, es₂, -, hclean, rfl⟩ := alone_bind.mp h
  obtain ⟨cleaned, es₃, hopen, rfl⟩ := hclean.call_state _ fun _ => rfl
  dsimp only [Prog.bind] at hopen
  rw [Prog.interp_bind] at hopen
  obtain ⟨challenge', s₂, es₄, es₅, hhdi, hinsert, rfl⟩ := alone_bind.mp hopen
  obtain ⟨rfl, -⟩ := alone_unnoticed hunnoticed hhdi
  obtain ⟨opened, es₆, hret, rfl⟩ := hinsert.call_state _ fun _ => rfl
  obtain ⟨-, rfl, rfl⟩ := alone_ret.mp hret
  -- the session has been cleaned, so no schedule is active when the challenge is written
  have hsplit : es ++ (es₁ ++ .op t (.idm .cleanData) cleaned ::
      (es₄ ++ [(.op t (.idm (.insertChallenge challenge')) opened : SyncEvent)])) =
      es ++ (es₁ ++ .op t (.idm .cleanData) cleaned :: es₄) ++
        [(.op t (.idm (.insertChallenge challenge')) opened : SyncEvent)] := by simp
  rw [hsplit]
  exact authority_open challenge' t opened _

theorem Authority.unnoticed (h : Authority data es) (hes : Unnoticed es') :
    Authority data (es ++ es') := by
  induction es' generalizing es with
  | nil =>
    rw [List.append_nil]
    exact h
  | cons e es' ih =>
    obtain ⟨t, o, r, ho, rfl⟩ := hes e List.mem_cons_self
    rw [List.append_cons]
    apply ih
    · cases o with
      | insertChallenge | cleanData | beginSchedule => cases ho
      | _ => exact h.push rfl rfl
    · exact fun e he => hes e (List.mem_cons_of_mem _ he)

theorem EnrolmentStart.keeps {type : CoAuthType} {callback : ClientCallback}
    (h : EnrolmentStart platform t type callback s es' s') (hs : Authority s.data es) :
    Authority s'.data (es ++ es') := by
  cases h with
  | refused hbefore result =>
    rw [← List.append_assoc]
    exact (hs.unnoticed hbefore).push rfl rfl
  | @started before es₁ _ info authInfo hbefore inserted hopen hbegin =>
    obtain ⟨k, heq, hk⟩ := syncBeginSchedule_settles info authInfo
      ⟨type, s.data.challenge, info.scheduleId, some callback⟩
    rw [heq] at hbegin
    obtain ⟨_, es₂, hrest, rfl⟩ := hbegin.call_state _ fun _ => rfl
    rw [← List.append_assoc, List.append_cons, List.append_cons, List.append_assoc _ [_] [_]]
    exact alone_settles hk hrest ((hs.unnoticed hbefore).begin hopen)

/-! ## 3. Every call -/

theorem SessionProg.keeps {p : UserIDMProg α} {a : α} (hp : SessionProg p)
    (h : (sync platform).Alone t (synchronous p) s a es' s') (hs : Authority s.data es) :
    Authority s'.data (es ++ es') := by
  -- Most functions start no schedule, and none of these can take the authority away.
  have hopensNone {β : Type} {q : UserIDMProg β} {b : β} (hq : q.All (·.opensNone = true))
      (h : (sync platform).Alone t (synchronous q) s b es' s') : Authority s'.data (es ++ es') :=
    alone_keeps (hq.mono fun _ => UserIDMOp.settles_of_opensNone) h hs
  cases hp with
  | openEditSession userId => exact alone_openEditSession h
  | closeEditSession => exact hopensNone closeEditSessionCtrl_opensNone h
  | closeEditSessionById userId => exact hopensNone (closeEditSessionCtrlById_opensNone userId) h
  | addCredential userId callerID credInfo callback =>
    cases callback with
    | none => exact alone_keeps (p := .ret _) trivial h hs
    | some callback =>
      rw [addCredentialCtrl_eq] at h
      exact (alone_startEnrolment h).keeps hs
  | updateCredential userId callerID callerName credInfo callback =>
    cases callback with
    | none => exact alone_keeps (p := .ret _) trivial h hs
    | some callback =>
      rw [updateCredentialCtrl_eq] at h
      exact (alone_startEnrolment h).keeps hs
  | delSchedleId challenge => exact hopensNone (delSchedleIdCtrl_opensNone challenge) h
  | delSchedleIdById userId => exact hopensNone (delSchedleIdCtrlById_opensNone userId) h

theorem OneSession.keeps {p : UserIDMProg α} {a : α} (hp : OneSession p)
    (h : (sync platform).Alone t (synchronous p) s a es' s') (hs : Authority s.data es) :
    Authority s'.data (es ++ es') := by
  rcases hp with hp | ⟨β, q, f, hq, hf, rfl⟩
  · exact alone_keeps (hp.mono fun _ => UserIDMOp.settles_of_neutral) h hs
  · unfold synchronous at h
    rw [Prog.interp_bind] at h
    obtain ⟨b, s₁, es₁, es₂, hsession, hrest, rfl⟩ := alone_bind.mp h
    rw [← List.append_assoc]
    have hs := hq.keeps hsession hs
    exact alone_keeps ((hf b).mono fun _ => UserIDMOp.settles_of_neutral) hrest hs

theorem underLock_settles {q : UserIDMProg Unit} (id : HandlerId)
    (hq : q.All (·.handles = true)) : (underLock id q).All (·.settles = true) :=
  Prog.All.bind ⟨rfl, fun _ => trivial⟩ fun _ =>
    (hq.mono fun _ => UserIDMOp.settles_of_handles).bind fun _ => ⟨rfl, fun _ => trivial⟩

/-- No request, no controller call and no callback of a handler leaves a schedule active outside of
the session it has been started in. -/
theorem call_keeps {call : UserIDMCall}
    (h : (sync platform).Alone t ((sync platform).body call) s () es' s')
    (hs : Authority s.data es) : Authority s'.data (es ++ es') := by
  cases call with
  | request caller code data =>
    have hone := (onRemoteRequest_oneSession platform caller data code).bind
      (f := fun _ => (.ret () : UserIDMProg Unit)) fun _ => trivial
    exact hone.keeps h hs
  | controller call => exact (controllerBody_oneSession call).keeps h hs
  | onFinish i handler resultCode scheduleToken =>
    exact alone_keeps (underLock_settles _ (onFinishLocked_handles _ _ _)) h hs
  | onAcquireInfo i handler acquire =>
    exact alone_keeps (underLock_settles _ (onAcquireInfoLocked_handles _ _)) h hs
  | onResult i handler result =>
    exact alone_keeps (underLock_settles _ (onResultLocked_handles _ _)) h hs

theorem AtomicRun.authority (h : AtomicRun platform s es) : Authority s.data es := by
  induction h with
  | init => exact authority_closed []
  | call call hrun haccept halone ih => exact call_keeps halone ih

/-! ## 4. Cancelling -/

def cancelledBy : SyncEvent → Option UInt64
  | .op _ (.idm (.cancel id)) _ => some id
  | _ => none

/-- The schedules that CoAuth is asked to cancel. -/
def cancelled (es : List SyncEvent) : List UInt64 := es.filterMap cancelledBy

/-- What `DelSchedleIdCtrl` cancels is active, and its argument is what the session says its
challenge is: zero where there is none. -/
theorem cancelled_delSchedleIdCtrl {challenge id : UInt64} {r : ResultCode}
    (h : (sync platform).Alone t (synchronous (delSchedleIdCtrl challenge)) s r es' s')
    (hcancel : id ∈ cancelled es') :
    s.data.scheduleId = id ∧ id ≠ 0 ∧ challenge = s.data.checkChallenge.getD 0 := by
  obtain ⟨es₁, hcompare, rfl⟩ := h.call_eq s.data.checkChallenge s fun _ => rfl
  have hcancel : id ∈ cancelled es₁ := hcancel
  dsimp only [Prog.bind] at hcompare
  split at hcompare
  · obtain ⟨-, rfl, -⟩ := alone_ret.mp hcompare
    cases hcancel
  -- The challenge is the session's, so the active schedule is the one to cancel.
  · next hsame =>
    obtain ⟨es₂, hactive, rfl⟩ := hcompare.call_eq s.data.checkScheduleIdIsActive s fun _ => rfl
    have hcancel : id ∈ cancelled es₂ := hcancel
    cases hslot : s.data.checkScheduleIdIsActive with
    | none =>
      rw [hslot] at hactive
      obtain ⟨-, rfl, -⟩ := alone_ret.mp hactive
      cases hcancel
    | some sessionId =>
      rw [hslot] at hactive
      obtain ⟨hid, hne⟩ := UserIDMModule.checkScheduleIdIsActive_eq_some.mp hslot
      obtain ⟨result, es₃, hrest, rfl⟩ := hactive.call_state s fun _ => rfl
      -- nothing is cancelled once the cancellation is answered
      have hnone : cancelled es₃ = [] := by
        dsimp only [Prog.bind] at hrest
        split at hrest
        · obtain ⟨-, rfl, -⟩ := alone_ret.mp hrest
          rfl
        · obtain ⟨_, es₄, hret, rfl⟩ := hrest.call_state _ fun _ => rfl
          obtain ⟨-, rfl, -⟩ := alone_ret.mp hret
          rfl
      have hcancel : id ∈ sessionId :: cancelled es₃ := hcancel
      rw [hnone, List.mem_singleton] at hcancel
      subst hcancel
      exact ⟨hid, hne, (not_not.mp hsame).symm⟩

/-- Whatever has happened before, no schedule is active outside of a session, and what
`DelSchedleIdCtrl` cancels is the schedule of the session that is open, for its challenge only. -/
theorem cancel_authority (h : AtomicRun platform s es) :
    (s.data.challenge = 0 → s.data.scheduleId = 0) ∧
    ∀ (challenge : UInt64) (t : Nat) (r : ResultCode) (es' : List SyncEvent) (s' : UserIDMState),
      (sync platform).Alone t (synchronous (delSchedleIdCtrl challenge)) s r es' s' →
      ∀ id ∈ cancelled es', challenge ≠ 0 ∧ s.data.challenge = challenge ∧
        s.data.scheduleId = id ∧ StartedInSession challenge id es := by
  have hauthority := h.authority
  refine ⟨hauthority.closed, ?_⟩
  intro challenge t r es' s' hrun id hcancel
  obtain ⟨hid, hactive, hchallenge⟩ := cancelled_delSchedleIdCtrl hrun hcancel
  rw [← hid] at hactive
  have hopen : s.data.challenge ≠ 0 := fun hclosed => hactive (hauthority.closed hclosed)
  have hcheck : s.data.checkChallenge = some s.data.challenge :=
    UserIDMModule.checkChallenge_eq_some.mpr ⟨rfl, hopen⟩
  rw [hcheck, Option.getD_some] at hchallenge
  subst hchallenge hid
  obtain ⟨before, t₀, opened, after, hes, hsince, hstarted⟩ := hauthority.opened hopen
  exact ⟨hopen, rfl, rfl, before, t₀, opened, after, hes, hsince, hstarted hactive⟩

/-- The enrolment of schedule 7 in the session of challenge 1 is cancelled. -/
theorem cancel_authority_example : ∃ (s s' : UserIDMState) (es es' : List SyncEvent),
    AtomicRun grantingPlatform s es ∧
    (sync grantingPlatform).Alone 0 (synchronous (delSchedleIdCtrl 1)) s .success es' s' ∧
      cancelled es' = [7] ∧ StartedInSession 1 7 es := by
  have hrun : (runCalls grantingPlatform .initial [] enrolCalls).map (fun r =>
      ((sync grantingPlatform).alone 0 (synchronous (delSchedleIdCtrl 1)) r.1
        [{}, {}, {}, {}]).map fun r => (r.1, cancelled r.2.1)) =
      some (some (.success, [7])) := by decide +kernel
  obtain ⟨⟨s, es⟩, hcalls, hdelete⟩ := Option.map_eq_some_iff.mp hrun
  obtain ⟨⟨r, es', s'⟩, halone, hcancelled⟩ := Option.map_eq_some_iff.mp hdelete
  obtain ⟨hr, hcancelled⟩ := Prod.mk.inj hcancelled
  subst hr
  refine ⟨s, s', es, es', AtomicRun.init.runCalls hcalls, .of_alone halone, hcancelled, ?_⟩
  have hauthority := (cancel_authority (AtomicRun.init.runCalls hcalls)).2 1 0 .success es' s'
    (.of_alone halone) 7 (by rw [hcancelled]; decide)
  exact hauthority.2.2.2

end UserIam.UserIDM
