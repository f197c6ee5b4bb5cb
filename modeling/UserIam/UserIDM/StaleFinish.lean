import UserIam.Conc.Alone
import UserIam.UserIDM.UserIDMSystem

/-!
# A stale completion

`OnFinish` compares the id of its own schedule with the one in the session only before it commits.
Every branch deletes the id that the session holds, whichever schedule it belongs to.
-/

namespace UserIam.UserIDM

open Conc Machine

/-! ## 1. Handlers -/

/-- Every handler that CoAuth has can report to a client. -/
def Reports (s : UserIDMState) : Prop :=
  ∀ handler ∈ s.coAuthHandlers, handler.innerCallback.isSome = true

/-- A handler that is given to CoAuth has a callback. -/
def begins : UserIDMOp → Prop
  | .beginSchedule _ _ handler => handler.innerCallback.isSome = true
  | _ => True

variable {platform : Platform} {t i : Nat} {s s' : UserIDMState} {c : UserIDMConfig}
  {handler : UserIDMCoAuthHandler} {resultCode : UInt32} {scheduleToken : List UInt8}
  {es : List UserIDMEvent}

theorem begins_of_not_starts {o : UserIDMOp} (ho : o.starts = false) : begins o := by
  cases o with
  | beginSchedule => cases ho
  | _ => trivial

theorem userIDMBody_begins (platform : Platform) (call : UserIDMCall) :
    (userIDMBody platform call).All begins := by
  have hmanages (o : UserIDMOp) (ho : o.manages = true) : begins o :=
    begins_of_not_starts (UserIDMOp.not_starts_of_manages ho)
  have hsession {α : Type} {p : UserIDMProg α} (hp : OneSession p) : p.All begins :=
    hp.all hmanages (fun _ _ _ => trivial) (fun _ => trivial) (fun _ _ _ _ _ => rfl)
  cases call with
  | request caller code data =>
    exact (hsession (onRemoteRequest_oneSession platform caller data code)).discard
  | controller call => exact hsession (controllerBody_oneSession call)
  | onFinish i handler resultCode scheduleToken =>
    exact (onFinish_not_starts _ _ _ _).mono fun _ => begins_of_not_starts
  | onAcquireInfo i handler acquire =>
    exact (onAcquireInfo_not_starts _ _ _).mono fun _ => begins_of_not_starts
  | onResult i handler result =>
    exact (onResult_not_starts _ _ _).mono fun _ => begins_of_not_starts

theorem reports_reachable {ok : UserIDMWorld → UserIDMMove → Prop}
    (hc : (userIDM platform).Reachable ok .initial c) : Reports c.world.state := by
  induction hc with
  | init =>
    intro handler h
    cases h
  | spawn _ _ hs ih =>
    obtain rfl := eq_of_userIDMAccept hs
    exact ih
  | @run c t o k env hc _ ht _ ih =>
    obtain ⟨call, hcall⟩ := hc.exists_spawn ht
    have hall := hc.all_ops (P := fun _ => begins) hcall (userIDMBody_begins platform call)
    have hbegins := (hall.2 _ ht).1
    cases o with
    | beginSchedule info authInfo handler =>
      intro handler' h
      rcases List.mem_append.mp h with h | h
      · exact ih handler' h
      · rw [List.mem_singleton.mp h]
        exact hbegins
    | _ => exact ih

/-! ## 2. What OnFinish does to the session -/

theorem data_of_neutral {α : Type} {p : UserIDMProg α} {a : α} (hp : p.All Neutral)
    (h : (userIDM platform).Alone t p s a es s') : s'.data = s.data := by
  refine Alone.of_all (R := fun s' => s'.data = s.data) (fun o env s₁ ho hs₁ => ?_) hp h rfl
  cases o <;> first | exact hs₁ | cases ho

theorem handlers_of_not_starts {α : Type} {p : UserIDMProg α} {a : α}
    (hp : p.All (·.starts = false)) (h : (userIDM platform).Alone t p s a es s') :
    s'.coAuthHandlers = s.coAuthHandlers := by
  refine Alone.of_all (R := fun s' => s'.coAuthHandlers = s.coAuthHandlers)
    (fun o env s₁ ho hs₁ => ?_) hp h rfl
  cases o <;> first | exact hs₁ | cases ho

/-- Whatever the code and the type: some work, the deletion, and nothing about the session after
it. -/
theorem onFinishLocked_eq (resultCode : UInt32) (scheduleToken : List UInt8)
    {innerCallback : ClientCallback} (hinner : handler.innerCallback = some innerCallback) :
    ∃ (β : Type) (q : UserIDMProg β) (tail : β → UserIDMProg Unit), (∀ b, (tail b).All Neutral) ∧
      onFinishLocked handler resultCode scheduleToken =
        q >>= fun b => .call .deleteSessionId fun _ => tail b := by
  unfold onFinishLocked
  rw [hinner]
  dsimp only
  split
  · exact ⟨Unit, .ret (), fun _ => atomic (.onResult innerCallback .fail 0),
      fun _ => ⟨rfl, fun _ => trivial⟩, rfl⟩
  · split
    · exact ⟨_, commitAdd handler scheduleToken, fun r => atomic (.onResult innerCallback r.1 r.2),
        fun _ => ⟨rfl, fun _ => trivial⟩, rfl⟩
    · exact ⟨_, commitAdd handler scheduleToken, fun r => atomic (.onResult innerCallback r.1 r.2),
        fun _ => ⟨rfl, fun _ => trivial⟩, rfl⟩
    · refine ⟨Unit, onFinishModify handler scheduleToken 0 >>= fun r =>
        atomic (.onResult innerCallback r.1 r.2), fun _ => .ret (), fun _ => trivial, ?_⟩
      rw [Prog.bind_assoc]
      rfl

/-- `OnFinish` locks, works and unlocks. -/
theorem alone_onFinish
    (h : (userIDM platform).Alone t (onFinish i handler resultCode scheduleToken) s () es s') :
    ∃ (s₁ s₂ : UserIDMState) (es₁ : List UserIDMEvent) (e e' : UserIDMEvent),
      s₁.data = s.data ∧ s'.data = s₂.data ∧ es = e :: (es₁ ++ [e']) ∧
      (userIDM platform).Alone t (onFinishLocked handler resultCode scheduleToken) s₁ () es₁ s₂ ∧
        e = .op t (.lock (.coAuth i)) () ∧ e' = .op t (.unlock (.coAuth i)) () := by
  change (userIDM platform).Alone t (.call (.lock (.coAuth i)) fun _ =>
    onFinishLocked handler resultCode scheduleToken >>= fun _ => atomic (.unlock (.coAuth i)))
    s () es s' at h
  obtain ⟨env, es₁, -, hrest, rfl⟩ := alone_call.mp h
  obtain ⟨⟨⟩, s₂, es₁, es₂, hlocked, hunlock, rfl⟩ := alone_bind.mp hrest
  obtain ⟨env', es', -, hret, rfl⟩ := alone_call.mp hunlock
  obtain ⟨-, rfl, rfl⟩ := alone_ret.mp hret
  exact ⟨((userIDM platform).handle t (.lock (.coAuth i)) env s).2, s₂, es₁, _, _, rfl, rfl, rfl,
    hlocked, rfl, rfl⟩

/-- `OnFinish` empties the slot. -/
theorem scheduleId_of_onFinish (hinner : handler.innerCallback.isSome = true)
    (h : (userIDM platform).Alone t (onFinish i handler resultCode scheduleToken) s () es s') :
    s'.data.scheduleId = 0 := by
  obtain ⟨innerCallback, hinner⟩ := Option.isSome_iff_exists.mp hinner
  obtain ⟨s₁, s₂, es₁, e, e', -, hdata, -, hlocked, -⟩ := alone_onFinish h
  obtain ⟨β, q, tail, htail, heq⟩ := onFinishLocked_eq resultCode scheduleToken hinner
  rw [heq] at hlocked
  obtain ⟨b, s₃, es₂, es₃, -, hdelete, -⟩ := alone_bind.mp hlocked
  obtain ⟨env, es₄, -, htail', -⟩ := alone_call.mp hdelete
  rw [hdata, data_of_neutral (htail b) htail']
  rfl

/-! ## 3. The completion that comes after it -/

/-- The HDI is not asked for its result. -/
def Uncommitted (es : List UserIDMEvent) : Prop :=
  ∀ t userId enrollToken r, .op t (.updateEnrollmentResult userId enrollToken) r ∉ es

/-- The check of a slot that is empty. -/
theorem alone_checkActive {α : Type} {a : α} {f : Option UInt64 → UserIDMProg α}
    (hslot : s.data.scheduleId = 0)
    (h : (userIDM platform).Alone t (atomic .checkScheduleIdIsActive >>= f) s a es s') :
    ∃ es', (userIDM platform).Alone t (f none) s a es' s' ∧
      es = .op t .checkScheduleIdIsActive none :: es' := by
  have hnone : s.data.checkScheduleIdIsActive = none := if_pos hslot
  rw [Prog.op_bind] at h
  obtain ⟨env, es', -, hrest, rfl⟩ := alone_call.mp h
  change (userIDM platform).Alone t (f s.data.checkScheduleIdIsActive) s a es' s' at hrest
  rw [hnone] at hrest
  refine ⟨es', hrest, ?_⟩
  show Event.op t UserIDMOp.checkScheduleIdIsActive s.data.checkScheduleIdIsActive :: es' = _
  rw [hnone]

theorem alone_commitAdd {r : ResultCode × UInt64} (hslot : s.data.scheduleId = 0)
    (h : (userIDM platform).Alone t (commitAdd handler scheduleToken) s r es s') :
    r = (.fail, 0) ∧ Uncommitted es := by
  obtain ⟨es', hrest, rfl⟩ := alone_checkActive hslot h
  rw [if_neg (by simp)] at hrest
  obtain ⟨rfl, rfl, rfl⟩ := alone_ret.mp hrest
  exact ⟨rfl, by simp [Uncommitted]⟩

theorem alone_onFinishModify {r : ResultCode × UInt64}
    (hinner : handler.innerCallback.isSome = true) (hslot : s.data.scheduleId = 0)
    (h : (userIDM platform).Alone t (onFinishModify handler scheduleToken 0) s r es s') :
    r = (.fail, 0) ∧ Uncommitted es := by
  unfold onFinishModify at h
  rw [if_neg (by simp [Option.isSome_iff_ne_none.mp hinner]), Prog.op_bind] at h
  obtain ⟨env, es₁, -, hrest, rfl⟩ := alone_call.mp h
  have hanswer : (userIDM platform).handle t .checkChallenge env s =
      (s.data.checkChallenge, s) := rfl
  rw [hanswer] at hrest
  dsimp only at hrest
  split at hrest
  · obtain ⟨rfl, rfl, rfl⟩ := alone_ret.mp hrest
    exact ⟨rfl, by simp [Uncommitted]⟩
  · obtain ⟨es', hnone, rfl⟩ := alone_checkActive hslot hrest
    rw [if_neg (by simp)] at hnone
    obtain ⟨rfl, rfl, rfl⟩ := alone_ret.mp hnone
    exact ⟨rfl, by simp [Uncommitted]⟩

theorem Uncommitted.append {es' : List UserIDMEvent} (h : Uncommitted es) (h' : Uncommitted es') :
    Uncommitted (es ++ es') := by
  intro t userId enrollToken r hmem
  rcases List.mem_append.mp hmem with hmem | hmem
  · exact h t userId enrollToken r hmem
  · exact h' t userId enrollToken r hmem

/-- A success of a schedule that the slot does not hold any more is reported as a failure, and the
HDI is not asked about it. -/
theorem alone_onFinishLocked {innerCallback : ClientCallback}
    (hinner : handler.innerCallback = some innerCallback) (hslot : s.data.scheduleId = 0)
    (h : (userIDM platform).Alone t
      (onFinishLocked handler ResultCode.success.toUInt32 scheduleToken) s () es s') :
    Uncommitted es ∧ .op t (.onResult innerCallback .fail 0) () ∈ es := by
  unfold onFinishLocked at h
  rw [hinner] at h
  dsimp only at h
  rw [if_neg (by simp)] at h
  have hadd (h : (userIDM platform).Alone t (onFinishAdd handler innerCallback scheduleToken) s ()
      es s') : Uncommitted es ∧ .op t (.onResult innerCallback .fail 0) () ∈ es := by
    obtain ⟨r, s₁, es₁, es₂, hcommit, hrest, rfl⟩ := alone_bind.mp h
    obtain ⟨rfl, huncommitted⟩ := alone_commitAdd hslot hcommit
    obtain ⟨_, es₃, -, hnext, rfl⟩ := alone_call.mp hrest
    obtain ⟨_, es₄, -, hlast, rfl⟩ := alone_call.mp hnext
    obtain ⟨-, rfl, -⟩ := alone_ret.mp hlast
    exact ⟨huncommitted.append (by simp [Uncommitted]), by simp⟩
  cases htype : handler.type with
  | addPinCred | addFaceCred =>
    rw [htype] at h
    exact hadd h
  | modifyCred =>
    rw [htype] at h
    obtain ⟨r, s₁, es₁, es₂, hmodify, hrest, rfl⟩ := alone_bind.mp h
    obtain ⟨rfl, huncommitted⟩ := alone_onFinishModify (by simp [hinner]) hslot hmodify
    obtain ⟨_, es₃, -, hnext, rfl⟩ := alone_call.mp hrest
    obtain ⟨_, es₄, -, hlast, rfl⟩ := alone_call.mp hnext
    obtain ⟨-, rfl, -⟩ := alone_ret.mp hlast
    exact ⟨huncommitted.append (by simp [Uncommitted]), by simp⟩

/-! ## 4. Every completion disturbs -/

/-- **A completion disturbs the enrolment that is active.**  Whatever schedule, code and token it
has, the id in the session is gone after it, and when the schedule that was active succeeds, its
client hears `FAIL` and the HDI hears nothing. -/
theorem onFinish_disturbs (platform : Platform) {ok : UserIDMWorld → UserIDMMove → Prop}
    (hc : (userIDM platform).Reachable ok .initial c)
    (hactive : c.world.state.data.scheduleId ≠ 0)
    (hhandler : c.world.state.coAuthHandlers[i]? = some handler)
    (hrun : (userIDM platform).Alone t (onFinish i handler resultCode scheduleToken)
      c.world.state () es s') :
    s'.data.scheduleId ≠ c.world.state.data.scheduleId ∧
      ∀ t' j handler' scheduleToken' es' s'', s'.coAuthHandlers[j]? = some handler' →
        handler'.lastScheduleId = c.world.state.data.scheduleId →
        (userIDM platform).Alone t' (onFinish j handler' ResultCode.success.toUInt32 scheduleToken')
          s' () es' s'' →
        Uncommitted es' ∧ ∃ innerCallback, handler'.innerCallback = some innerCallback ∧
          .op t' (.onResult innerCallback .fail 0) () ∈ es' := by
  have hreports := reports_reachable hc
  have hslot : s'.data.scheduleId = 0 :=
    scheduleId_of_onFinish (hreports handler (List.mem_of_getElem? hhandler)) hrun
  refine ⟨hslot ▸ hactive.symm, ?_⟩
  intro t' j handler' scheduleToken' es' s'' hhandler' _ hrun'
  rw [handlers_of_not_starts (onFinish_not_starts _ _ _ _) hrun] at hhandler'
  obtain ⟨innerCallback, hinner⟩ :=
    Option.isSome_iff_exists.mp (hreports handler' (List.mem_of_getElem? hhandler'))
  obtain ⟨s₁, s₂, es₁, e, e', hdata, -, rfl, hlocked, rfl, rfl⟩ := alone_onFinish hrun'
  obtain ⟨huncommitted, hreport⟩ := alone_onFinishLocked hinner (hdata ▸ hslot) hlocked
  refine ⟨?_, innerCallback, hinner, by simp [hreport]⟩
  have hlock : Uncommitted [.op t' (.lock (.coAuth j)) ()] := by simp [Uncommitted]
  exact hlock.append (huncommitted.append (by simp [Uncommitted]))

section Disturbed

def lateSchedule (scheduleId : UInt64) : HdiScheduleInfo :=
  ⟨scheduleId, [1], 0, 0, [⟨1, .pin, List.replicate 32 0⟩]⟩

def lateHandler (scheduleId : UInt64) : UserIDMCoAuthHandler := ⟨.addPinCred, 1, scheduleId, some 5⟩

/-- Thread `t` enrols a credential under the open session. -/
def lateAdd (t : Nat) (scheduleId : UInt64) : List (Machine.Label UserIDMEnv UserIDMCall) :=
  [.spawn (.controller (.addCredential 100 0 ⟨.pin, 10000, []⟩ (some 5))), .run t {}, .run t {},
   .run t {}, .run t { schedule := lateSchedule scheduleId }, .run t {}, .run t {}]

/-- A session is opened; the enrolment of schedule 7 is cancelled, that of schedule 8 begins. -/
def lateRun : List (Machine.Label UserIDMEnv UserIDMCall) :=
  [.spawn (.controller (.openEditSession 100)), .run 0 {}, .run 0 {}, .run 0 {},
   .run 0 { hdiChallenge := [1, 0, 0, 0, 0, 0, 0, 0] }, .run 0 {}] ++ lateAdd 1 7 ++
  [.spawn (.controller (.delSchedleId 1)), .run 2 {}, .run 2 {}, .run 2 {}, .run 2 {}] ++
  lateAdd 3 8

def latePlatform : Platform := ⟨⟨fun _ _ => true, fun _ => true, fun _ => (.success, 0)⟩, 22⟩

/-- The cancelled schedule 7 reports its end, and schedule 8 is not active any more. -/
theorem onFinish_stale :
    ¬∀ (platform : Platform) (c : UserIDMConfig) (S₂ : UInt64) (t i : Nat)
      (handler : UserIDMCoAuthHandler) (resultCode : UInt32) (scheduleToken : List UInt8)
      (es : List UserIDMEvent) (s' : UserIDMState),
      (userIDM platform).Reachable Machine.anyMove .initial c →
      c.world.state.data.scheduleId = S₂ → S₂ ≠ 0 →
      c.world.state.coAuthHandlers[i]? = some handler → handler.lastScheduleId ≠ S₂ →
      (userIDM platform).Alone t (onFinish i handler resultCode scheduleToken) c.world.state () es
        s' → s'.data.scheduleId = S₂ := by
  intro h
  have hrun : ((userIDM latePlatform).exec Machine.anyMove ⟨⟨.initial, []⟩, []⟩ lateRun).map
      (fun c => (c.world.state.data, c.world.state.coAuthHandlers[0]?,
        ((userIDM latePlatform).alone 4 (onFinish 0 (lateHandler 7) 3 []) c.world.state
          [{}, {}, {}, {}]).map fun r => r.2.2.data.scheduleId)) =
      some (⟨1, 8⟩, some (lateHandler 7), some 0) := by decide +kernel
  obtain ⟨c, hc, hchecks⟩ := Option.map_eq_some_iff.mp hrun
  simp only [Prod.mk.injEq] at hchecks
  obtain ⟨hdata, hhandler, hfinish⟩ := hchecks
  obtain ⟨⟨⟨⟩, es, s'⟩, halone, hslot⟩ := Option.map_eq_some_iff.mp hfinish
  have hkept := h latePlatform c 8 4 0 (lateHandler 7) 3 [] es s' (Machine.Reachable.exec .init hc)
    (by rw [hdata]) (by decide) hhandler (by decide) (.of_alone halone)
  rw [hslot] at hkept
  exact absurd hkept (by decide)

/-- The same run: schedule 8 succeeds after that, and its client hears `FAIL`. -/
theorem onFinish_disturbs_example :
    ∃ (c : UserIDMConfig) (es es' : List UserIDMEvent) (s' s'' : UserIDMState),
      (userIDM latePlatform).Reachable Machine.anyMove .initial c ∧
      c.world.state.data.scheduleId = 8 ∧
      (userIDM latePlatform).Alone 4 (onFinish 0 (lateHandler 7) 3 []) c.world.state () es s' ∧
      (userIDM latePlatform).Alone 5 (onFinish 1 (lateHandler 8) 0 [1]) s' () es' s'' ∧
      s'.data.scheduleId ≠ 8 ∧ Uncommitted es' := by
  have hrun : ((userIDM latePlatform).exec Machine.anyMove ⟨⟨.initial, []⟩, []⟩ lateRun).map
      (fun c => (c.world.state.data, c.world.state.coAuthHandlers[0]?,
        ((userIDM latePlatform).alone 4 (onFinish 0 (lateHandler 7) 3 []) c.world.state
          [{}, {}, {}, {}]).map fun r => (r.2.2.coAuthHandlers[1]?,
            ((userIDM latePlatform).alone 5 (onFinish 1 (lateHandler 8) 0 [1]) r.2.2
              [{}, {}, {}, {}, {}]).isSome))) =
      some (⟨1, 8⟩, some (lateHandler 7), some (some (lateHandler 8), true)) := by decide +kernel
  obtain ⟨c, hc, hchecks⟩ := Option.map_eq_some_iff.mp hrun
  simp only [Prod.mk.injEq] at hchecks
  obtain ⟨hdata, hhandler, hfinish⟩ := hchecks
  obtain ⟨⟨⟨⟩, es, s'⟩, halone, hlater⟩ := Option.map_eq_some_iff.mp hfinish
  obtain ⟨hhandler', hlater⟩ := Prod.mk.inj hlater
  obtain ⟨⟨⟨⟩, es', s''⟩, halone'⟩ := Option.isSome_iff_exists.mp hlater
  have hreach : (userIDM latePlatform).Reachable Machine.anyMove .initial c := .exec .init hc
  have hactive : c.world.state.data.scheduleId = 8 := by rw [hdata]
  obtain ⟨hgone, hafter⟩ := onFinish_disturbs latePlatform hreach (by rw [hdata]; decide) hhandler
    (.of_alone halone)
  obtain ⟨huncommitted, -⟩ := hafter 5 1 (lateHandler 8) [1] es' s'' hhandler' (by rw [hdata]; rfl)
    (.of_alone halone')
  rw [hactive] at hgone
  exact ⟨c, es, es', s', s'', hreach, hactive, .of_alone halone, .of_alone halone', hgone,
    huncommitted⟩

end Disturbed

end UserIam.UserIDM
