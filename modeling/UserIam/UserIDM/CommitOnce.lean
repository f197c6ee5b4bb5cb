import UserIam.UserIDM.CommitState

/-!
# One commit for a schedule

The slot of the session and the mutex of the handler together let one `OnFinish` of a schedule
commit: the first one that takes the mutex finds the id in the session or never will, and the id is
gone before the mutex is free again.
-/

namespace UserIam.UserIDM

open Conc

/-! ## 1. Commits on behalf of a schedule -/

def isCommit : UserIDMEvent → Bool
  | .op _ (.updateEnrollmentResult ..) _ => true
  | _ => false

def UserIDMCall.finishes (S : UInt64) : UserIDMCall → Bool
  | .onFinish _ handler _ _ => handler.lastScheduleId = S
  | _ => false

/-- The thread runs an `OnFinish` of the schedule. -/
def Finishes (S : UInt64) (trace : List UserIDMEvent) (t : Nat) : Prop :=
  ∃ call, .spawn t call ∈ trace ∧ call.finishes S = true

/-- The thread has taken a mutex. -/
def Locked (trace : List UserIDMEvent) (t : Nat) : Prop :=
  ∃ id, .op t (.lock id) () ∈ trace

/-- A commit is the first one of its thread, which has taken its mutex, and no other `OnFinish` of
the schedule has taken its mutex before. -/
def CommitsAlone (S : UInt64) (pre : List UserIDMEvent) : UserIDMEvent → Prop
  | .op t (.updateEnrollmentResult ..) _ =>
    Finishes S pre t → Locked pre t ∧ (∀ e ∈ pre, e.tid = t → isCommit e = false) ∧
      ∀ t', t' ≠ t → Finishes S pre t' → ¬Locked pre t'
  | _ => True

variable {platform : Platform} {S : UInt64} {t : Nat} {w : UserIDMWorld} {s : UserIDMState}
  {e : UserIDMEvent} {st : CommitState} {b : Option Nat}

theorem enter_mem_marks : .enter ∈ w.marks (commitMark S) t ↔ Finishes S w.trace t := by
  rw [World.mem_marks]
  constructor
  · rintro ⟨e, he, rfl, hmark⟩
    cases e with
    | spawn t call =>
      cases call with
      | onFinish i handler resultCode scheduleToken =>
        refine ⟨_, he, ?_⟩
        by_cases hid : handler.lastScheduleId = S
        · exact decide_eq_true hid
        · simp [commitMark, hid] at hmark
      | _ => cases hmark
    | op t o r =>
      cases o <;> simp only [commitMark] at hmark <;> try split at hmark
      all_goals cases hmark
  · rintro ⟨call, hmem, hfinishes⟩
    refine ⟨_, hmem, rfl, ?_⟩
    cases call with
    | onFinish i handler resultCode scheduleToken => exact if_pos (of_decide_eq_true hfinishes)
    | _ => cases hfinishes

theorem commit_mem_marks (he : e ∈ w.trace) (hcommit : isCommit e = true) :
    .commit ∈ w.marks (commitMark S) e.tid := by
  refine (World.mem_marks _).mpr ⟨e, he, rfl, ?_⟩
  cases e with
  | spawn => cases hcommit
  | op t o r => cases o <;> first | rfl | cases hcommit

theorem lock_mem_marks : .lock ∈ w.marks (commitMark S) t ↔ Locked w.trace t := by
  rw [World.mem_marks]
  constructor
  · rintro ⟨e, he, rfl, hmark⟩
    cases e with
    | spawn t call =>
      cases call <;> simp only [commitMark] at hmark <;> try split at hmark
      all_goals cases hmark
    | op t o r =>
      cases o with
      | lock id => exact ⟨id, he⟩
      | _ =>
        simp only [commitMark] at hmark
        try split at hmark
        all_goals cases hmark
  · rintro ⟨id, hmem⟩
    exact ⟨_, hmem, rfl, rfl⟩

/-! ## 2. The invariant -/

/-- The `i`-th handler is one of the schedule. -/
def HandlerOf (S : UInt64) (s : UserIDMState) (i : Nat) : Prop :=
  ∃ handler, s.coAuthHandlers[i]? = some handler ∧ handler.lastScheduleId = S

/-- How the schedule stands agrees with the session, the handlers and the mutexes. -/
structure Stage (S : UInt64) (w : UserIDMWorld) (st : CommitState) (b : Option Nat) : Prop where
  fits : st.Fits b (w.marks (commitMark S))
  slot : w.state.data.scheduleId = S → st.active = true
  handler : ∀ i, HandlerOf S w.state i → st.hasHandler = true
  unique : ∀ i j, HandlerOf S w.state i → HandlerOf S w.state j → i = j
  holds : ∀ t, st = .first t → ∃ i, HandlerOf S w.state i ∧
    w.marks (Machine.lockMark UserIDMOp.lockKind (.coAuth i)) t = [true]

/-- An id that is not zero has a stage; nobody finds the id zero in the session. -/
structure CommitInv (S : UInt64) (w : UserIDMWorld) : Prop where
  pass : ∀ t, .pass ∈ w.marks (commitMark S) t → S ≠ 0
  callbacks : ∀ handler ∈ w.state.coAuthHandlers, handler.innerCallback.isSome = true
  stage : S ≠ 0 → ∃ st b, Stage S w st b
  once : w.Each (CommitsAlone S)

/-- The handlers stay, and whoever is the first `OnFinish` afterwards was it before and has not
touched a mutex. -/
theorem Stage.push {st' : CommitState} {b' : Option Nat} (h : Stage S w st b)
    (hfits : st'.Fits b' ((w.push s e).marks (commitMark S)))
    (hslot : s.data.scheduleId = S → st'.active = true)
    (hhandlers : s.coAuthHandlers = w.state.coAuthHandlers)
    (hhas : st.hasHandler = true → st'.hasHandler = true)
    (hfirst : ∀ t, st' = .first t → st = .first t ∧
      (t = e.tid → ∀ id, Machine.lockMark UserIDMOp.lockKind id e = none)) :
    Stage S (w.push s e) st' b' where
  fits := hfits
  slot := hslot
  handler i hi := by
    unfold HandlerOf at hi
    rw [World.push_state, hhandlers] at hi
    exact hhas (h.handler i hi)
  unique i j := by
    unfold HandlerOf
    rw [World.push_state, hhandlers]
    exact h.unique i j
  holds t ht := by
    obtain ⟨hst, hlock⟩ := hfirst t ht
    obtain ⟨i, hi, hmarks⟩ := h.holds t hst
    refine ⟨i, by unfold HandlerOf at hi ⊢; rwa [World.push_state, hhandlers], ?_⟩
    rw [World.marks_push]
    by_cases htid : t = e.tid
    · subst htid
      rw [hlock rfl, Option.toList_none, List.append_nil, Function.update_eq_self, hmarks]
    · rw [Function.update_of_ne htid, hmarks]

theorem CommitInv.push (h : CommitInv S w) (hpass : commitMark S e = some .pass → S ≠ 0)
    (hhandlers : ∀ handler ∈ s.coAuthHandlers, handler.innerCallback.isSome = true)
    (hstage : S ≠ 0 → ∀ st b, Stage S w st b → ∃ st' b', Stage S (w.push s e) st' b')
    (honce : CommitsAlone S w.trace e) : CommitInv S (w.push s e) where
  pass t ht := by
    obtain ⟨d, hd, -, hmark⟩ := (World.mem_marks _).mp ht
    rw [World.push_trace, List.mem_append, List.mem_singleton] at hd
    rcases hd with hd | rfl
    · exact h.pass d.tid ((World.mem_marks _).mpr ⟨d, hd, rfl, hmark⟩)
    · exact hpass hmark
  callbacks := hhandlers
  stage hS := by
    obtain ⟨st, b, hst⟩ := h.stage hS
    exact hstage hS st b hst
  once := World.each_push.mpr ⟨h.once, honce⟩

/-! ## 3. The condition -/

/-- The HDI answers a `BeginEnrollment` call with the id. -/
def handsOut (S : UInt64) : UserIDMEvent → Bool
  | .op _ (.beginEnrollment ..) r => r.1 = .success ∧ r.2.scheduleId = S
  | _ => false

/-- The HDI never returns the same non-zero schedule id from two `BeginEnrollment` calls. -/
def handsOutOnce (w : UserIDMWorld) : UserIDMMove → Prop
  | .op _ (.beginEnrollment ..) env =>
    env.ret = .success → env.schedule.scheduleId ≠ 0 →
      ∀ e ∈ w.trace, handsOut env.schedule.scheduleId e = false
  | _ => True

instance (w : UserIDMWorld) (mv : UserIDMMove) : Decidable (handsOutOnce w mv) := by
  unfold handsOutOnce
  split <;> infer_instance

theorem commitMark_eq_enroll : commitMark S e = some .enroll ↔ handsOut S e = true := by
  cases e with
  | spawn t call =>
    cases call <;> simp [commitMark, handsOut]
  | op t o r =>
    cases o <;> simp [commitMark, handsOut]

/-- What is known of every world: who owns the mutexes, and that CoAuth has the handler of an
`OnFinish`. -/
structure Known (w : UserIDMWorld) : Prop where
  owned : Machine.Owned UserIDMOp.lockKind UserIDMState.owner w
  registered : ∀ {t i handler resultCode scheduleToken},
    .spawn t (.onFinish i handler resultCode scheduleToken) ∈ w.trace →
      w.state.coAuthHandlers[i]? = some handler

abbrev commitOk (w : UserIDMWorld) (mv : UserIDMMove) : Prop := handsOutOnce w mv ∧ Known w

/-! ## 4. Steps that neither start nor finish the schedule -/

theorem commitsAlone_of_mark {pre : List UserIDMEvent} (h : commitMark S e ≠ some .commit) :
    CommitsAlone S pre e := by
  cases e with
  | spawn => trivial
  | op t o r => cases o <;> trivial

/-- The first `OnFinish` keeps its mutex until it has deleted the id. -/
theorem CommitInv.push_silent (h : CommitInv S w) (hmark : commitMark S e = none)
    (hlock : .enter ∈ w.marks (commitMark S) e.tid → .delete ∉ w.marks (commitMark S) e.tid →
      ∀ id, Machine.lockMark UserIDMOp.lockKind id e = none)
    (hhandlers : s.coAuthHandlers = w.state.coAuthHandlers)
    (hslot : S ≠ 0 → s.data.scheduleId = S → w.state.data.scheduleId = S) :
    CommitInv S (w.push s e) := by
  refine h.push (by simp [hmark]) (by rw [hhandlers]; exact h.callbacks)
    (fun hS st b hst => ⟨st, b, ?_⟩) (commitsAlone_of_mark (by simp [hmark]))
  refine hst.push ?_ (fun hs => hst.slot (hslot hS hs)) hhandlers id fun t ht => ⟨ht, ?_⟩
  · rw [World.marks_push, hmark, Option.toList_none, List.append_nil, Function.update_eq_self]
    exact hst.fits
  · rintro rfl
    obtain ⟨henter, -, hdelete⟩ := hst.fits.first _ ht
    exact hlock henter hdelete

theorem CommitInv.push_other {k : CommitMark} (h : CommitInv S w) (hmark : commitMark S e = some k)
    (henroll : .enroll ∉ w.marks (commitMark S) e.tid)
    (henter : .enter ∉ w.marks (commitMark S) e.tid) (hk : k ≠ .enroll ∧ k ≠ .enter)
    (hpass : k = .pass → S ≠ 0) (hhandlers : s.coAuthHandlers = w.state.coAuthHandlers)
    (hslot : S ≠ 0 → s.data.scheduleId = S → w.state.data.scheduleId = S) :
    CommitInv S (w.push s e) := by
  refine h.push (fun hp => hpass (Option.some.inj (hmark.symm.trans hp)))
    (by rw [hhandlers]; exact h.callbacks) (fun hS st b hst => ⟨st, b, ?_⟩) ?_
  · refine hst.push ?_ (fun hs => hst.slot (hslot hS hs)) hhandlers id fun t ht => ⟨ht, ?_⟩
    · rw [World.marks_push, hmark]
      exact hst.fits.other henroll henter hk
    · rintro rfl
      exact absurd (hst.fits.first _ ht).1 henter
  · cases e with
    | spawn => trivial
    | op t o r =>
      cases o with
      | updateEnrollmentResult =>
        exact fun hfinishes => absurd (enter_mem_marks.mpr hfinishes) henter
      | _ => trivial

/-- Everything but enrolling, inserting and beginning. -/
def UserIDMOp.quiet : UserIDMOp → Bool
  | .beginEnrollment .. => false
  | o => !o.starts

/-- Neutral operations, and reading the challenge. -/
def UserIDMOp.silent : UserIDMOp → Bool
  | .checkChallenge => true
  | o => o.neutral

theorem CommitInv.perform_silent {o : UserIDMOp} (ho : o.silent = true) {env : UserIDMEnv}
    (hw : CommitInv S w) : CommitInv S ((userIDM platform).perform w t o env) := by
  have hkind : o.lockKind = none := by cases o <;> first | rfl | cases ho
  refine hw.push_silent ?_ (fun _ _ id => Machine.lockMark_of_none hkind _ _) ?_ fun _ hs => ?_
  · cases o <;> first | rfl | cases ho
  · cases o <;> first | rfl | cases ho
  · cases o <;> first | exact hs | cases ho

theorem CommitInv.perform_quiet {o : UserIDMOp} (ho : o.quiet = true) {env : UserIDMEnv}
    (hw : CommitInv S w) (henroll : .enroll ∉ w.marks (commitMark S) t)
    (henter : .enter ∉ w.marks (commitMark S) t) :
    CommitInv S ((userIDM platform).perform w t o env) := by
  have hzero : S ≠ 0 → (0 : UInt64) = S → w.state.data.scheduleId = S :=
    fun hS hs => absurd hs.symm hS
  cases o with
  | insertScheduleId => cases ho
  | beginSchedule => cases ho
  | beginEnrollment => cases ho
  | deleteSessionId =>
    exact hw.push_other rfl henroll henter ⟨nofun, nofun⟩ nofun rfl hzero
  | cleanData => exact hw.push_silent rfl (fun _ _ _ => rfl) rfl hzero
  | lock => exact hw.push_other rfl henroll henter ⟨nofun, nofun⟩ nofun rfl fun _ hs => hs
  | unlock =>
    exact hw.push_silent rfl (fun henter' => absurd henter' henter) rfl fun _ hs => hs
  | updateEnrollmentResult =>
    exact hw.push_other rfl henroll henter ⟨nofun, nofun⟩ nofun rfl fun _ hs => hs
  | checkScheduleIdIsActive =>
    by_cases hpass : w.state.data.checkScheduleIdIsActive = some S
    · have hS := (UserIDMModule.checkScheduleIdIsActive_eq_some.mp hpass).2
      exact hw.push_other (if_pos hpass) henroll henter ⟨nofun, nofun⟩ (fun _ => hS) rfl
        fun _ hs => hs
    · exact hw.push_silent (if_neg hpass) (fun _ _ _ => rfl) rfl fun _ hs => hs
  | _ => exact hw.push_silent rfl (fun _ _ _ => rfl) rfl fun _ hs => hs

/-! ## 5. Programs -/

abbrev KeepsCommit (platform : Platform) (S : UInt64) (t : Nat) {α : Type} (p : UserIDMProg α)
    (Q : α → List UserIDMEvent → Prop) (h : List UserIDMEvent) : Prop :=
  (userIDM platform).Keeps commitOk (CommitInv S) t p Q h

variable {α β : Type} {h : List UserIDMEvent} {marks : List CommitMark}

/-- A program that neither enrols nor inserts nor begins, in a thread that has done none of it and
runs no `OnFinish` of the schedule. -/
theorem keepsCommit_quiet {p : UserIDMProg α} (hp : p.All (·.quiet = true))
    (henroll : .enroll ∉ h.filterMap (commitMark S))
    (henter : .enter ∉ h.filterMap (commitMark S)) :
    KeepsCommit platform S t p (fun _ _ => True) h := by
  have hquiet {o : UserIDMOp} (ho : o.quiet = true) (r : UserIDMRes o) (k : CommitMark)
      (hk : commitMark S (.op t o r) = some k) : k ≠ .enroll ∧ k ≠ .enter := by
    cases o <;> grind [commitMark, UserIDMOp.quiet, UserIDMOp.starts]
  refine Machine.Keeps.mono (Q := fun _ h => .enroll ∉ h.filterMap (commitMark S) ∧
    .enter ∉ h.filterMap (commitMark S)) ?_ fun _ _ _ => trivial
  refine Machine.Keeps.of_all (fun w env o ho hw hR _ _ => ?_) hp ⟨henroll, henter⟩
  refine ⟨hw.perform_quiet ho hR.1 hR.2, ?_⟩
  rw [World.filterMap_concat _ rfl]
  simp only [List.mem_append, Option.mem_toList, not_or]
  exact ⟨⟨hR.1, fun hk => (hquiet ho _ _ hk).1 rfl⟩, ⟨hR.2, fun hk => (hquiet ho _ _ hk).2 rfl⟩⟩

/-- Silent steps leave the marks as they are. -/
theorem keepsCommit_silent {p : UserIDMProg α} (hp : p.All (·.silent = true))
    (hh : h.filterMap (commitMark S) = marks) :
    KeepsCommit platform S t p (fun _ h => h.filterMap (commitMark S) = marks) h := by
  refine Machine.Keeps.of_all (fun w env o ho hw hR _ _ => ⟨hw.perform_silent ho, ?_⟩) hp hh
  have hmark : commitMark S (.op t o ((userIDM platform).answer w t o env)) = none := by
    cases o <;> first | rfl | cases ho
  rw [World.filterMap_concat _ hR, hmark, Option.toList_none, List.append_nil]

theorem keepsCommit_bind {p : UserIDMProg α} (hp : p.All (·.silent = true))
    {f : α → UserIDMProg β} {Q : β → List UserIDMEvent → Prop}
    (hh : h.filterMap (commitMark S) = marks)
    (hf : ∀ a h, h.filterMap (commitMark S) = marks → KeepsCommit platform S t (f a) Q h) :
    KeepsCommit platform S t (p >>= f) Q h :=
  (keepsCommit_silent hp hh).bind hf

/-! ### Starting an enrolment -/

/-- The check that no enrolment is active, by a thread that has started none. -/
theorem keepsCommit_checkFree (hh : h.filterMap (commitMark S) = [])
    {k : Option UInt64 → UserIDMProg α} {Q : α → List UserIDMEvent → Prop}
    (hsome : ∀ id h, KeepsCommit platform S t (k (some id)) Q h)
    (hnone : ∀ h, h.filterMap (commitMark S) = [] → KeepsCommit platform S t (k none) Q h) :
    KeepsCommit platform S t (.call .checkScheduleIdIsActive k) Q h := by
  intro w env hw hown _ _
  subst hown
  have hmarks : w.marks (commitMark S) t = [] := hh
  refine ⟨hw.perform_quiet rfl (by simp [hmarks]) (by simp [hmarks]), ?_⟩
  cases (userIDM platform).answer w t .checkScheduleIdIsActive env with
  | some id => exact hsome id _
  | none => exact hnone _ (World.filterMap_concat _ hh _)

theorem copyScheduleInfo_scheduleId {hdiInfo : HdiScheduleInfo} {info : CoAuth.ScheduleInfo}
    (h : copyScheduleInfo hdiInfo = some info) : info.scheduleId = hdiInfo.scheduleId := by
  unfold copyScheduleInfo at h
  split at h
  · cases h
  · split at h
    · cases h
    · split at h
      · cases h
        rfl
      · cases h

/-- The HDI hands the id out for the first time. -/
theorem CommitInv.enroll (hS : S ≠ 0 → ∀ e ∈ w.trace, handsOut S e = false)
    (h : CommitInv S w) (hmark : commitMark S e = some .enroll)
    (hmarks : w.marks (commitMark S) e.tid = []) (hs : s = w.state) : CommitInv S (w.push s e) := by
  subst hs
  refine h.push (by simp [hmark]) h.callbacks (fun hne st b hst => ?_)
    (commitsAlone_of_mark (by simp [hmark]))
  have hfirst : ∀ t, .enroll ∉ w.marks (commitMark S) t := by
    intro t ht
    obtain ⟨d, hd, -, hd'⟩ := (World.mem_marks _).mp ht
    rw [commitMark_eq_enroll, hS hne d hd] at hd'
    cases hd'
  obtain ⟨rfl, hfits⟩ := hst.fits.enroll hfirst hmarks
  refine ⟨.enrolled e.tid, some e.tid,
    hst.push ?_ (fun hslot => ?_) rfl (fun hhas => ?_) fun _ ht => ?_⟩
  · rw [World.marks_push, hmarks, hmark]
    exact hfits
  · cases hst.slot hslot
  · cases hhas
  · cases ht

theorem keepsCommit_initSchedule (authToken : List UInt8) (userId : Int32) (authType : AuthType)
    (hh : h.filterMap (commitMark S) = []) :
    KeepsCommit platform S t (initSchedule authToken userId authType)
      (fun r h => ∀ info, r = .ok info →
        h.filterMap (commitMark S) = if info.scheduleId = S then [.enroll] else []) h := by
  unfold initSchedule
  refine keepsCommit_bind (p := atomic .getHdiInterface) ⟨rfl, fun _ => trivial⟩ hh
    fun found h hh => ?_
  split
  · exact nofun
  · intro w env hw hown _ hok
    subst hown
    have hconcat := World.filterMap_concat (commitMark S) hh (.op t
      (.beginEnrollment userId authToken authType) (env.ret, env.schedule))
    refine ⟨?_, ?_⟩
    -- The HDI hands out the id: now, to another enrolment, or not at all.
    · by_cases hout : env.ret = .success ∧ env.schedule.scheduleId = S
      · refine CommitInv.enroll (fun hne => ?_) hw (if_pos hout) hh rfl
        have honce := hok.1 hout.1
        rw [hout.2] at honce
        exact honce hne
      · exact hw.push_silent (if_neg hout) (fun _ _ _ => rfl) rfl fun _ hs => hs
    · have hanswer : (userIDM platform).answer w t
        (.beginEnrollment userId authToken authType) env = (env.ret, env.schedule) := rfl
      rw [hanswer]
      dsimp only [Prog.bind]
      split
      · exact nofun
      · next hret =>
        have hret : env.ret = .success := not_not.mp hret
        split
        · exact nofun
        · next info hinfo =>
          intro info' hinfo'
          cases hinfo'
          rw [hconcat, copyScheduleInfo_scheduleId hinfo]
          by_cases hid : env.schedule.scheduleId = S
          · simp [commitMark, hret, hid]
          · simp [commitMark, hid]

theorem CommitInv.insert {env : UserIDMEnv} (h : CommitInv S w)
    (hmarks : w.marks (commitMark S) t = [.enroll]) :
    CommitInv S ((userIDM platform).perform w t (.insertScheduleId S) env) := by
  have hmark : commitMark S (.op t (.insertScheduleId S)
      ((userIDM platform).answer w t (.insertScheduleId S) env)) = some .insert := if_pos rfl
  refine h.push (by simp [hmark]) h.callbacks (fun hne st b hst => ?_) trivial
  obtain ⟨rfl, hfits⟩ := hst.fits.insert hmarks
  refine ⟨.inserted t, b, hst.push ?_ (fun _ => rfl) rfl (fun hhas => ?_) fun _ ht => ?_⟩
  · rw [World.marks_push, Event.tid_op, hmarks, hmark]
    exact hfits
  · cases hhas
  · cases ht

theorem handlerOf_append {handlers : List UserIDMCoAuthHandler} {handler : UserIDMCoAuthHandler}
    {i : Nat} (hs : s.coAuthHandlers = handlers ++ [handler]) :
    HandlerOf S s i ↔ (∃ handler', handlers[i]? = some handler' ∧ handler'.lastScheduleId = S) ∨
      i = handlers.length ∧ handler.lastScheduleId = S := by
  unfold HandlerOf
  rw [hs]
  rcases lt_trichotomy i handlers.length with hi | rfl | hi
  · rw [List.getElem?_append_left hi]
    exact ⟨.inl, fun h => h.resolve_right fun h => absurd h.1 hi.ne⟩
  · simp
  · rw [List.getElem?_eq_none (by simp; omega), List.getElem?_eq_none (by omega)]
    simp [hi.ne']

/-- The handler goes to CoAuth; it is the only one of its schedule. -/
theorem CommitInv.begin {env : UserIDMEnv} {info : CoAuth.ScheduleInfo}
    {authInfo : CoAuth.AuthInfo} {handler : UserIDMCoAuthHandler} (h : CommitInv S w)
    (hcallback : handler.innerCallback.isSome = true)
    (hid : handler.lastScheduleId = info.scheduleId)
    (hmarks : info.scheduleId = S → w.marks (commitMark S) t = [.enroll, .insert]) :
    CommitInv S ((userIDM platform).perform w t (.beginSchedule info authInfo handler) env) := by
  refine h.push ?_ (fun handler' hmem => ?_) (fun hne st b hst => ?_) trivial
  · simp only [commitMark]
    split <;> nofun
  · rcases List.mem_append.mp hmem with hmem | hmem
    · exact h.callbacks handler' hmem
    · rw [List.mem_singleton.mp hmem]
      exact hcallback
  let s' := (userIDMHandle t env w.state (.beginSchedule info authInfo handler)).2
  have happend (i : Nat) := handlerOf_append (S := S) (i := i) (s := s') rfl
  by_cases hS : info.scheduleId = S
  · obtain ⟨rfl, hfits⟩ := hst.fits.begin (hmarks hS)
    -- The handler that CoAuth is given is the only one of the schedule.
    have hnew {i : Nat} (hi : HandlerOf S s' i) : i = w.state.coAuthHandlers.length := by
      rcases (happend i).mp hi with hi | hi
      · cases hst.handler i hi
      · exact hi.1
    refine ⟨.begun, b, ?_, fun _ => rfl, fun _ _ => rfl, fun i j hi hj => ?_, nofun⟩
    · rw [World.marks_push, Event.tid_op, hmarks hS]
      simpa [commitMark, hS] using hfits
    · rw [hnew hi, hnew hj]
  · have hold {i : Nat} : HandlerOf S s' i ↔ HandlerOf S w.state i :=
      (happend i).trans (or_iff_left fun hi => hS (hid.symm.trans hi.2))
    refine ⟨st, b, ?_, hst.slot, fun i hi => hst.handler i (hold.mp hi), fun i j hi hj => ?_,
      fun t' ht' => ?_⟩
    · rw [World.marks_push]
      simpa [commitMark, hS] using hst.fits
    · exact hst.unique i j (hold.mp hi) (hold.mp hj)
    · obtain ⟨i, hi, hlocked⟩ := hst.holds t' ht'
      refine ⟨i, hold.mpr hi, ?_⟩
      rw [World.marks_push, Machine.lockMark_of_none rfl, Option.toList_none, List.append_nil,
        Function.update_eq_self]
      exact hlocked

theorem keepsCommit_begin (info : CoAuth.ScheduleInfo) (authInfo : CoAuth.AuthInfo)
    (type : CoAuthType) (challenge : UInt64) (callback : ClientCallback)
    (hh : h.filterMap (commitMark S) = if info.scheduleId = S then [.enroll] else []) :
    KeepsCommit platform S t
      (.call (.insertScheduleId info.scheduleId) fun _ =>
        .call (.beginSchedule info authInfo ⟨type, challenge, info.scheduleId, some callback⟩)
          fun _ => .ret ResultCode.success)
      (fun _ _ => True) h := by
  intro w env hw hown _ _
  subst hown
  have hconcat := World.filterMap_concat (commitMark S) hh
  by_cases hid : info.scheduleId = S
  · subst hid
    rw [if_pos rfl] at hh
    refine ⟨hw.insert hh, fun w' env' hw' hown' _ _ => ⟨hw'.begin rfl rfl fun _ => ?_, trivial⟩⟩
    rw [World.marks, hown', hconcat]
    simp [commitMark]
  · refine ⟨hw.push_silent (if_neg hid) (fun _ _ _ => rfl) rfl fun _ hs => absurd hs hid,
      fun w' env' hw' _ _ _ => ⟨hw'.begin rfl rfl fun heq => absurd heq hid, trivial⟩⟩

theorem keepsCommit_start (type : CoAuthType) (authInfo : CoAuth.AuthInfo)
    (credInfo : AddCredInfo) (userId : Int32) (callback : ClientCallback)
    (hh : h.filterMap (commitMark S) = []) :
    KeepsCommit platform S t (startEnrolment type authInfo credInfo userId callback)
      (fun _ _ => True) h := by
  have hreport (ret code : ResultCode) (h : List UserIDMEvent) :
      KeepsCommit platform S t (.call (.onResult callback code 0) fun _ => .ret ret)
        (fun _ _ => True) h :=
    Machine.Keeps.mono (keepsCommit_silent ⟨rfl, fun _ => trivial⟩ rfl) fun _ _ _ => trivial
  unfold startEnrolment
  refine keepsCommit_bind (p := atomic .checkChallenge) ⟨rfl, fun _ => trivial⟩ hh
    fun found h hh => ?_
  cases found with
  | none => exact hreport _ _ h
  | some challenge =>
    refine keepsCommit_checkFree hh (fun id h => hreport _ _ h) fun h hh => ?_
    refine (keepsCommit_initSchedule credInfo.token userId credInfo.authType hh).bind
      fun r h hh => ?_
    cases r with
    | error ret => exact hreport _ _ h
    | ok info => exact keepsCommit_begin info authInfo type challenge callback (hh info rfl)

/-! ### Finishing the schedule -/

theorem CommitInv.lock {i : Nat} {env : UserIDMEnv} (h : CommitInv S w) (hw : Known w)
    (hmarks : w.marks (commitMark S) t = [.enter]) (hhandler : HandlerOf S w.state i)
    (hunlocked : ∀ id, w.marks (Machine.lockMark UserIDMOp.lockKind id) t = [])
    (hen : (userIDM platform).enabled t (.lock (.coAuth i)) env w.state = true) :
    CommitInv S ((userIDM platform).perform w t (.lock (.coAuth i)) env) := by
  refine h.push nofun h.callbacks (fun hne st b hst => ?_) trivial
  have howner : w.state.owner (.coAuth i) = none := (userIDM_mutex platform).free rfl hen
  have hfree : ∀ t', st ≠ .first t' := by
    intro t' ht'
    obtain ⟨j, hj, hlocked⟩ := hst.holds t' ht'
    rw [hst.unique j i hj hhandler] at hlocked
    have hsome := hw.owned t' (.coAuth i) hlocked
    rw [howner] at hsome
    cases hsome
  obtain ⟨st', hst', hfits⟩ := hst.fits.lock hmarks hfree
  refine ⟨st', b, ?_, fun hslot => ?_, fun j hj => ?_, hst.unique, fun t' ht' => ?_⟩
  · rw [World.marks_push, Event.tid_op, hmarks]
    exact hfits
  · rcases hst' with ⟨rfl, rfl⟩ | ⟨rfl, rfl⟩
    · rfl
    · exact hst.slot hslot
  · rcases hst' with ⟨rfl, rfl⟩ | ⟨rfl, rfl⟩ <;> rfl
  · obtain rfl : t' = t := by
      rcases hst' with ⟨rfl, rfl⟩ | ⟨rfl, rfl⟩
      · exact (CommitState.first.inj ht').symm
      · cases ht'
    refine ⟨i, hhandler, ?_⟩
    rw [World.marks_push, Event.tid_op, Function.update_self, hunlocked]
    simp [Machine.lockMark, UserIDMOp.lockKind]

theorem CommitInv.check {env : UserIDMEnv} (h : CommitInv S w)
    (hmarks : w.marks (commitMark S) t = [.enter, .lock]) :
    CommitInv S ((userIDM platform).perform w t .checkScheduleIdIsActive env) := by
  by_cases hpass : w.state.data.checkScheduleIdIsActive = some S
  · obtain ⟨hslot, hS⟩ := UserIDMModule.checkScheduleIdIsActive_eq_some.mp hpass
    have hmark : commitMark S (.op t .checkScheduleIdIsActive
        ((userIDM platform).answer w t .checkScheduleIdIsActive env)) = some .pass := if_pos hpass
    refine h.push (fun _ => hS) h.callbacks (fun _ st b hst => ?_) trivial
    obtain ⟨rfl, hfits⟩ := hst.fits.pass hmarks (hst.slot hslot)
    refine ⟨.first t, b, hst.push ?_ hst.slot rfl id fun _ ht => ⟨ht, fun _ _ => rfl⟩⟩
    rw [World.marks_push, Event.tid_op, hmarks, hmark]
    exact hfits
  · exact h.push_silent (if_neg hpass) (fun _ _ _ => rfl) rfl fun _ hs => hs

theorem CommitInv.commit {userId : Int32} {enrollToken : List UInt8} {env : UserIDMEnv}
    (h : CommitInv S w) (hmarks : w.marks (commitMark S) t = [.enter, .lock, .pass]) :
    CommitInv S ((userIDM platform).perform w t (.updateEnrollmentResult userId enrollToken)
      env) := by
  have hS : S ≠ 0 := h.pass t (by simp [hmarks])
  refine h.push (fun _ => hS) h.callbacks (fun _ st b hst => ?_) fun _ => ⟨?_, ?_, ?_⟩
  · obtain ⟨rfl, hfits⟩ := hst.fits.commit hmarks
    refine ⟨.first t, b, hst.push ?_ hst.slot rfl id fun _ ht => ⟨ht, fun _ _ => rfl⟩⟩
    rw [World.marks_push, Event.tid_op, hmarks]
    exact hfits
  · exact lock_mem_marks (S := S).mp (by simp [hmarks])
  · intro e he htid
    by_contra hcommit
    have hmem := commit_mem_marks (S := S) he (Bool.of_not_eq_false hcommit)
    rw [htid, hmarks] at hmem
    simp at hmem
  · intro t' hne hfinishes hlocked
    obtain ⟨st, b, hst⟩ := h.stage hS
    have hfirst := (hst.fits.commit hmarks).1
    rcases hst.fits.locked t' (enter_mem_marks.mpr hfinishes) (lock_mem_marks.mpr hlocked) with
      h' | h'
    · exact hne (CommitState.first.inj (h'.symm.trans hfirst))
    · cases h'.symm.trans hfirst

theorem CommitInv.delete {env : UserIDMEnv} (h : CommitInv S w)
    (henter : .enter ∈ w.marks (commitMark S) t) (hlock : .lock ∈ w.marks (commitMark S) t) :
    CommitInv S ((userIDM platform).perform w t .deleteSessionId env) := by
  refine h.push nofun h.callbacks (fun hne st b hst => ?_) trivial
  refine ⟨.ended, b, hst.push ?_ (fun hslot => absurd hslot.symm hne) rfl (fun _ => rfl) nofun⟩
  rw [World.marks_push]
  exact hst.fits.delete henter hlock

theorem keepsCommit_check (hh : h.filterMap (commitMark S) = [.enter, .lock])
    {k : Option UInt64 → UserIDMProg α} {Q : α → List UserIDMEvent → Prop}
    (hpass : ∀ h, h.filterMap (commitMark S) = [.enter, .lock, .pass] →
      KeepsCommit platform S t (k (some S)) Q h)
    (hother : ∀ r h, r ≠ some S → h.filterMap (commitMark S) = [.enter, .lock] →
      KeepsCommit platform S t (k r) Q h) :
    KeepsCommit platform S t (.call .checkScheduleIdIsActive k) Q h := by
  intro w env hw hown _ _
  subst hown
  refine ⟨hw.check hh, ?_⟩
  have hconcat := World.filterMap_concat (commitMark S) hh
  by_cases hr : (userIDM platform).answer w t .checkScheduleIdIsActive env = some S
  · rw [hr]
    refine hpass _ ((hconcat _).trans ?_)
    simp [commitMark]
  · refine hother _ _ hr ((hconcat _).trans ?_)
    simp [commitMark, hr]

theorem keepsCommit_update {userId : Int32} {enrollToken : List UInt8}
    (hh : h.filterMap (commitMark S) = [.enter, .lock, .pass])
    {k : ResultCode × UInt64 × HdiCredentialInfo → UserIDMProg α}
    {Q : α → List UserIDMEvent → Prop}
    (hk : ∀ r h, h.filterMap (commitMark S) = [.enter, .lock, .pass, .commit] →
      KeepsCommit platform S t (k r) Q h) :
    KeepsCommit platform S t (.call (.updateEnrollmentResult userId enrollToken) k) Q h := by
  intro w env hw hown _ _
  subst hown
  exact ⟨hw.commit hh, hk _ _ (World.filterMap_concat (commitMark S) hh _)⟩

/-- The thread runs an `OnFinish` of the schedule and has taken its mutex. -/
def Holds (S : UInt64) (h : List UserIDMEvent) : Prop :=
  ∃ marks, h.filterMap (commitMark S) = .enter :: .lock :: marks

theorem keepsCommit_holds {p : UserIDMProg α} (hp : p.All (·.silent = true)) (hh : Holds S h) :
    KeepsCommit platform S t p (fun _ => Holds S) h := by
  obtain ⟨marks, hh⟩ := hh
  exact Machine.Keeps.mono (keepsCommit_silent hp hh) fun _ _ hh' => ⟨marks, hh'⟩

theorem keepsCommit_delete (hh : Holds S h) {k : Unit → UserIDMProg α}
    {Q : α → List UserIDMEvent → Prop}
    (hk : ∀ h, .delete ∈ h.filterMap (commitMark S) → KeepsCommit platform S t (k ()) Q h) :
    KeepsCommit platform S t (.call .deleteSessionId k) Q h := by
  intro w env hw hown _ _
  subst hown
  obtain ⟨marks, hh⟩ := hh
  have hmarks : w.marks (commitMark S) t = .enter :: .lock :: marks := hh
  refine ⟨hw.delete (by simp [hmarks]) (by simp [hmarks]), hk _ ?_⟩
  rw [World.filterMap_concat _ rfl]
  simp [commitMark]

theorem keepsCommit_addCredential (enrollToken : List UInt8) (credentialId : UInt64)
    (hh : h.filterMap (commitMark S) = [.enter, .lock, .pass]) :
    KeepsCommit platform S t (addCredential enrollToken credentialId) (fun _ => Holds S) h := by
  unfold addCredential
  refine keepsCommit_bind (p := atomic .getHdiInterface) ⟨rfl, fun _ => trivial⟩ hh
    fun found h hh => ?_
  split
  · exact ⟨_, hh⟩
  · exact keepsCommit_update hh fun r h hh => ⟨_, hh⟩

theorem keepsCommit_updateCredential (enrollToken : List UInt8) (credentialId : UInt64)
    (deletedCredential : CredentialInfo)
    (hh : h.filterMap (commitMark S) = [.enter, .lock, .pass]) :
    KeepsCommit platform S t (updateCredential enrollToken credentialId deletedCredential)
      (fun _ => Holds S) h := by
  unfold updateCredential
  refine keepsCommit_bind (p := atomic .getHdiInterface) ⟨rfl, fun _ => trivial⟩ hh
    fun found h hh => ?_
  split
  · exact ⟨_, hh⟩
  · refine keepsCommit_update hh fun r h hh => ?_
    dsimp only [Prog.bind]
    split
    · exact ⟨_, hh⟩
    · exact ⟨_, hh⟩

theorem keepsCommit_commitAdd (handler : UserIDMCoAuthHandler) (scheduleToken : List UInt8)
    (hid : handler.lastScheduleId = S) (hh : h.filterMap (commitMark S) = [.enter, .lock]) :
    KeepsCommit platform S t (commitAdd handler scheduleToken) (fun _ => Holds S) h := by
  subst hid
  refine keepsCommit_check hh (fun h hh => ?_) fun r h hr hh => ?_
  · dsimp only [Prog.bind]
    rw [if_pos rfl]
    exact keepsCommit_addCredential scheduleToken 0 hh
  · dsimp only [Prog.bind]
    rw [if_neg hr]
    exact ⟨_, hh⟩

theorem keepsCommit_onFinishModify (handler : UserIDMCoAuthHandler) (scheduleToken : List UInt8)
    (credentialId : UInt64) (hid : handler.lastScheduleId = S)
    (hh : h.filterMap (commitMark S) = [.enter, .lock]) :
    KeepsCommit platform S t (onFinishModify handler scheduleToken credentialId)
      (fun _ => Holds S) h := by
  subst hid
  unfold onFinishModify
  split
  · exact ⟨_, hh⟩
  · refine keepsCommit_bind (p := atomic .checkChallenge) ⟨rfl, fun _ => trivial⟩ hh
      fun found h hh => ?_
    cases found with
    | none => exact ⟨_, hh⟩
    | some challenge =>
      refine keepsCommit_check hh (fun h hh => ?_) fun r h hr hh => ?_
      · dsimp only [Prog.bind]
        rw [if_pos rfl]
        refine keepsCommit_bind (p := atomic .uninitialised) ⟨rfl, fun _ => trivial⟩ hh
          fun info h hh => ?_
        refine Machine.Keeps.bind (keepsCommit_updateCredential _ _ _ hh) fun r h hh => ?_
        exact keepsCommit_holds ⟨rfl, fun _ => trivial⟩ hh
      · dsimp only [Prog.bind]
        rw [if_neg hr]
        exact ⟨_, hh⟩

/-- Once the id is deleted the rest of an `OnFinish` is harmless. -/
theorem keepsCommit_deleted {p : UserIDMProg α} (hp : p.All (·.silent = true))
    (hh : .delete ∈ h.filterMap (commitMark S)) :
    KeepsCommit platform S t p (fun _ h => .delete ∈ h.filterMap (commitMark S)) h :=
  Machine.Keeps.mono (keepsCommit_silent hp rfl) fun _ _ hh' => hh' ▸ hh

theorem keepsCommit_onFinishLocked (handler : UserIDMCoAuthHandler) (resultCode : UInt32)
    (scheduleToken : List UInt8) (hid : handler.lastScheduleId = S)
    (hcallback : handler.innerCallback.isSome = true)
    (hh : h.filterMap (commitMark S) = [.enter, .lock]) :
    KeepsCommit platform S t (onFinishLocked handler resultCode scheduleToken)
      (fun _ h => .delete ∈ h.filterMap (commitMark S)) h := by
  have hadd (innerCallback : ClientCallback) :
      KeepsCommit platform S t (onFinishAdd handler innerCallback scheduleToken)
        (fun _ h => .delete ∈ h.filterMap (commitMark S)) h := by
    refine Machine.Keeps.bind (keepsCommit_commitAdd handler scheduleToken hid hh) fun r h hh => ?_
    refine keepsCommit_delete hh fun h hh => ?_
    exact keepsCommit_deleted ⟨rfl, fun _ => trivial⟩ hh
  obtain ⟨innerCallback, hinner⟩ := Option.isSome_iff_exists.mp hcallback
  unfold onFinishLocked
  rw [hinner]
  dsimp only
  split
  · refine keepsCommit_delete ⟨_, hh⟩ fun h hh => ?_
    exact keepsCommit_deleted ⟨rfl, fun _ => trivial⟩ hh
  · cases handler.type with
    | addPinCred => exact hadd innerCallback
    | addFaceCred => exact hadd innerCallback
    | modifyCred =>
      refine Machine.Keeps.bind (keepsCommit_onFinishModify handler scheduleToken 0 hid hh)
        fun r h hh => ?_
      refine Machine.Keeps.bind (keepsCommit_holds (p := atomic (.onResult innerCallback r.1 r.2))
        ⟨rfl, fun _ => trivial⟩ hh) fun _ h hh => ?_
      exact keepsCommit_delete hh fun h hh => hh

/-- An `OnFinish` of the schedule keeps the invariant. -/
theorem keepsCommit_onFinish (i : Nat) (handler : UserIDMCoAuthHandler) (resultCode : UInt32)
    (scheduleToken : List UInt8) (hid : handler.lastScheduleId = S) :
    KeepsCommit platform S t (onFinish i handler resultCode scheduleToken) (fun _ _ => True)
      [.spawn t (.onFinish i handler resultCode scheduleToken)] := by
  intro w env hw hown hen hok
  have hmem : .spawn t (.onFinish i handler resultCode scheduleToken) ∈ w.own t := by simp [hown]
  have hregistered := hok.2.registered (World.mem_own.mp hmem).1
  have hmarks : w.marks (commitMark S) t = [.enter] := by
    simp [World.marks, hown, commitMark, hid]
  refine ⟨hw.lock hok.2 hmarks ⟨handler, hregistered, hid⟩ (fun id => ?_) hen, ?_⟩
  · simp [World.marks, hown, Machine.lockMark]
  have hcallback := hw.callbacks handler (List.mem_of_getElem? hregistered)
  show KeepsCommit platform S t (onFinishLocked handler resultCode scheduleToken >>= fun _ =>
    atomic (.unlock (.coAuth i))) _ _
  refine Machine.Keeps.bind (keepsCommit_onFinishLocked handler resultCode scheduleToken hid
    hcallback ?_) fun _ h hh => ?_
  · simp [commitMark, hid]
  · intro w env hw hown _ _
    refine ⟨hw.push_silent rfl (fun _ hdelete => ?_) rfl fun _ hs => hs, trivial⟩
    rw [Event.tid_op, World.marks, hown] at hdelete
    exact absurd hh hdelete

/-! ## 6. Runs -/

theorem UserIDMOp.silent_of_neutral {o : UserIDMOp} (ho : Neutral o) : o.silent = true := by
  cases o <;> first | rfl | cases ho

theorem UserIDMOp.quiet_of_manages {o : UserIDMOp} (ho : o.manages = true) : o.quiet = true := by
  cases o <;> first | rfl | cases ho

theorem UserIDMOp.quiet_of_handles {o : UserIDMOp} (ho : o.handles = true) : o.quiet = true := by
  cases o <;> first | rfl | cases ho

theorem underLock_quiet {q : UserIDMProg Unit} (id : HandlerId) (hq : q.All (·.handles = true)) :
    (underLock id q).All (·.quiet = true) :=
  Prog.All.bind ⟨rfl, fun _ => trivial⟩ fun _ =>
    (hq.mono fun _ => UserIDMOp.quiet_of_handles).bind fun _ => ⟨rfl, fun _ => trivial⟩

/-- The `OnFinish` of a handler that CoAuth has begins. -/
theorem CommitInv.enter {i : Nat} {handler : UserIDMCoAuthHandler} {resultCode : UInt32}
    {scheduleToken : List UInt8} (h : CommitInv S w) (hmarks : w.marks (commitMark S) t = [])
    (hregistered : w.state.coAuthHandlers[i]? = some handler) (hid : handler.lastScheduleId = S) :
    CommitInv S (w.push w.state (.spawn t (.onFinish i handler resultCode scheduleToken))) := by
  have hmark : commitMark S (.spawn t (.onFinish i handler resultCode scheduleToken)) =
      some .enter := if_pos hid
  refine h.push (by simp [hmark]) h.callbacks (fun _ st b hst => ?_) trivial
  have hfits := hst.fits.enter hmarks (hst.handler i ⟨handler, hregistered, hid⟩)
  refine ⟨st, b, hst.push ?_ hst.slot rfl id fun _ ht => ⟨ht, fun _ _ => rfl⟩⟩
  rw [World.marks_push, Event.tid_spawn, hmarks, hmark]
  exact hfits

theorem keepsCommit_spawn (w : UserIDMWorld) (call : UserIDMCall) (s : UserIDMState)
    (hw : CommitInv S w) (hfresh : w.Fresh t) (hs : userIDMAccept w.state call = some s) :
    CommitInv S (w.push s (.spawn t call)) ∧
      KeepsCommit platform S t (userIDMBody platform call) (fun _ _ => True)
        [.spawn t call] := by
  have hown : w.marks (commitMark S) t = [] := by simp [World.marks, hfresh.own_eq_nil]
  obtain rfl := eq_of_userIDMAccept hs
  have hsilent (hmark : commitMark S (.spawn t call) = none) :
      CommitInv S (w.push w.state (.spawn t call)) :=
    hw.push_silent hmark (fun _ _ _ => rfl) rfl fun _ hs => hs
  have hquiet {p : UserIDMProg Unit} (hmark : commitMark S (.spawn t call) = none)
      (hp : p.All (·.quiet = true)) :
      KeepsCommit platform S t p (fun _ _ => True) [.spawn t call] :=
    keepsCommit_quiet hp (by simp [hmark]) (by simp [hmark])
  have hone {p : UserIDMProg Unit} (hmark : commitMark S (.spawn t call) = none)
      (hp : OneSession p) : KeepsCommit platform S t p (fun _ _ => True) [.spawn t call] := by
    refine keeps_oneSession (fun _ _ _ ho hw => ?_) (fun hq => ?_) ?_ hp
    · exact hw.perform_silent (UserIDMOp.silent_of_neutral ho)
    · refine keepsCommit_quiet (hq.mono fun _ => UserIDMOp.quiet_of_manages) ?_ ?_
      · simp [hmark]
      · simp [hmark]
    · intro type authInfo credInfo userId callback
      exact keepsCommit_start type authInfo credInfo userId callback (by simp [hmark])
  cases call with
  | request caller code data =>
    exact ⟨hsilent rfl, hone rfl ((onRemoteRequest_oneSession platform caller data code).bind
      fun _ => trivial)⟩
  | controller call => exact ⟨hsilent rfl, hone rfl (controllerBody_oneSession call)⟩
  | onFinish i handler resultCode scheduleToken =>
    by_cases hid : handler.lastScheduleId = S
    · have hregistered : w.state.coAuthHandlers[i]? = some handler := by
        simp only [userIDMAccept, Option.ite_none_right_eq_some] at hs
        exact hs.1
      exact ⟨hw.enter hown hregistered hid, keepsCommit_onFinish i handler resultCode _ hid⟩
    -- the handler of another schedule
    · have hmark : commitMark S (.spawn t (.onFinish i handler resultCode scheduleToken)) = none :=
        if_neg hid
      exact ⟨hsilent hmark, hquiet hmark (underLock_quiet _ (onFinishLocked_handles _ _ _))⟩
  | onAcquireInfo i handler acquire =>
    exact ⟨hsilent rfl, hquiet rfl (underLock_quiet _ (onAcquireInfoLocked_handles _ _))⟩
  | onResult i handler result =>
    exact ⟨hsilent rfl, hquiet rfl (underLock_quiet _ (onResultLocked_handles _ _))⟩

theorem commitInv_initial : CommitInv S ⟨.initial, []⟩ where
  pass _ ht := by cases ht
  callbacks handler hmem := by cases hmem
  stage hS := by
    refine ⟨.idle, none, CommitState.fits_idle, fun hslot => absurd hslot.symm hS, ?_, ?_, nofun⟩
    · rintro i ⟨handler, hi, -⟩
      cases hi
    · rintro i j ⟨handler, hi, -⟩
      cases hi
  once pre e post h := by simp at h

/-- Every commit in a run comes alone. -/
theorem reachable_commitsAlone (S : UInt64) {c : UserIDMConfig}
    (hc : (userIDM platform).Reachable handsOutOnce .initial c) :
    c.world.Each (CommitsAlone S) := by
  have hknown (c : UserIDMConfig) (hc : (userIDM platform).Reachable handsOutOnce .initial c) :
      Known c.world :=
    ⟨Machine.reachable_owned (userIDM_mutex platform) (userIDMBody_brackets platform) hc,
      fun h => registered_of_onFinish hc h⟩
  exact (Machine.reachable_keeps (Q := fun _ => True) commitInv_initial
    (fun w t call s hw hfresh _ hs => keepsCommit_spawn w call s hw hfresh hs)
    (hc.strengthen hknown)).1.once

/-- The commits of the `OnFinish` calls of a schedule. -/
def commits (S : UInt64) (w : UserIDMWorld) : List UserIDMEvent :=
  w.trace.filter fun e => isCommit e && decide (e.tid ∈ w.spawned (·.finishes S))

theorem mem_commits :
    e ∈ commits S w ↔ e ∈ w.trace ∧ isCommit e = true ∧ e.tid ∈ w.spawned (·.finishes S) := by
  simp [commits]

/-- The thread of a commit has been started before, and so the commit comes alone. -/
theorem commitsAlone_of_mem_commits {c : UserIDMConfig}
    (hc : (userIDM platform).Reachable handsOutOnce .initial c) {pre post : List UserIDMEvent}
    (hsplit : c.world.trace = pre ++ e :: post) (he : e ∈ commits S c.world) :
    Locked pre e.tid ∧ (∀ d ∈ pre, d.tid = e.tid → isCommit d = false) ∧
      ∀ t, t ≠ e.tid → Finishes S pre t → ¬Locked pre t := by
  obtain ⟨-, hcommit, hspawned⟩ := mem_commits.mp he
  obtain ⟨call, hcall, hfinishes⟩ := World.mem_spawned.mp hspawned
  have halone := reachable_commitsAlone S hc pre e post hsplit
  cases e with
  | spawn => cases hcommit
  | op t o r =>
    have hbefore := hc.spawn_before hcall hsplit
    cases o with
    | updateEnrollmentResult userId enrollToken => exact halone ⟨call, hbefore, hfinishes⟩
    | _ => cases hcommit

/-- **One commit for a schedule.**  When the HDI hands every schedule id out once, the `OnFinish`
calls of a schedule commit at most once in any run, and no `OnFinish` of the schedule has taken its
mutex before the one that commits. -/
theorem commit_once (platform : Platform) (S : UInt64) {c : UserIDMConfig}
    (hc : (userIDM platform).Reachable handsOutOnce .initial c) :
    (commits S c.world).length ≤ 1 ∧
      ∀ pre e post, c.world.trace = pre ++ e :: post → e ∈ commits S c.world →
        ∀ t ∈ c.world.spawned (·.finishes S), t ≠ e.tid → ¬Locked pre t := by
  have hbefore : ∀ pre e post, c.world.trace = pre ++ e :: post → e ∈ commits S c.world →
      ∀ t ∈ c.world.spawned (·.finishes S), t ≠ e.tid → ¬Locked pre t := by
    intro pre e post hsplit he t ht hne hlocked
    refine (commitsAlone_of_mem_commits hc hsplit he).2.2 t hne ?_ hlocked
    obtain ⟨call, hcall, hfinishes⟩ := World.mem_spawned.mp ht
    obtain ⟨id, hlock⟩ := hlocked
    obtain ⟨pre', post', rfl⟩ := List.append_of_mem hlock
    have hsplit' : c.world.trace = pre' ++ .op t (.lock id) () :: (post' ++ e :: post) := by
      simp [hsplit]
    have hmem := hc.spawn_before hcall hsplit'
    exact ⟨call, by simp [hmem], hfinishes⟩
  refine ⟨?_, hbefore⟩
  by_contra hlong
  -- Nobody else has locked the handler before a commit, but the first of two has.
  match hlist : commits S c.world with
  | [] => simp [hlist] at hlong
  | [_] => simp [hlist] at hlong
  | d :: e :: rest =>
    have hfilter : commits S c.world = [d] ++ e :: rest := hlist
    obtain ⟨pre, post, hsplit, hpre, -⟩ := World.split_of_filter hfilter
    have hd : d ∈ commits S c.world := by simp [hlist]
    have he : e ∈ commits S c.world := by simp [hlist]
    have hdpre : d ∈ pre := by
      have : d ∈ pre.filter _ := hpre ▸ List.mem_singleton_self d
      exact (List.mem_filter.mp this).1
    obtain ⟨-, hfirst, -⟩ := commitsAlone_of_mem_commits hc hsplit he
    obtain ⟨-, hcommit, hspawned⟩ := mem_commits.mp hd
    by_cases htid : d.tid = e.tid
    · rw [hfirst d hdpre htid] at hcommit
      cases hcommit
    · obtain ⟨pre', post', rfl⟩ := List.append_of_mem hdpre
      have hsplit' : c.world.trace = pre' ++ d :: (post' ++ e :: post) := by simp [hsplit]
      obtain ⟨⟨id, hlock⟩, -⟩ := commitsAlone_of_mem_commits hc hsplit' hd
      exact hbefore _ e post hsplit he d.tid hspawned htid ⟨id, by simp [hlock]⟩

section Twice

def oncePlatform : Platform := ⟨⟨fun _ _ => true, fun _ => true, fun _ => (.success, 0)⟩, 22⟩

def onceHandler : UserIDMCoAuthHandler := ⟨.addPinCred, 1, 7, some 5⟩

/-- An enrolment is begun, and `OnFinish` is called twice; the second call gets the mutex last. -/
def finishTwice : List (Machine.Label UserIDMEnv UserIDMCall) :=
  [.spawn (.controller (.openEditSession 100)), .run 0 {}, .run 0 {}, .run 0 {},
   .run 0 { hdiChallenge := [1, 0, 0, 0, 0, 0, 0, 0] }, .run 0 {},
   .spawn (.controller (.addCredential 100 0 ⟨.pin, 10000, []⟩ (some 5))),
   .run 1 {}, .run 1 {}, .run 1 {},
   .run 1 { schedule := ⟨7, [1], 0, 0, [⟨1, .pin, List.replicate 32 0⟩]⟩ }, .run 1 {}, .run 1 {},
   .spawn (.onFinish 0 onceHandler 0 []), .spawn (.onFinish 0 onceHandler 0 []),
   .run 2 {}, .run 2 {}, .run 2 {}, .run 2 {}, .run 2 {}, .run 2 {}, .run 2 {},
   .run 3 {}, .run 3 {}, .run 3 {}, .run 3 {}, .run 3 {}]

/-- Of the two calls one commits. -/
theorem commit_once_example :
    ∃ c, (userIDM oncePlatform).Reachable handsOutOnce .initial c ∧
      (c.world.spawned (·.finishes 7)).length = 2 ∧ commits 7 c.world ≠ [] ∧
        (commits 7 c.world).length ≤ 1 := by
  have hrun : ((userIDM oncePlatform).exec handsOutOnce ⟨⟨.initial, []⟩, []⟩ finishTwice).map
      (fun c => ((c.world.spawned (·.finishes 7)).length, (commits 7 c.world).isEmpty)) =
        some (2, false) := by decide
  obtain ⟨c, hc, heq⟩ := Option.map_eq_some_iff.mp hrun
  obtain ⟨hlength, hcommits⟩ := Prod.mk.inj heq
  have hreach : (userIDM oncePlatform).Reachable handsOutOnce .initial c :=
    Machine.Reachable.exec .init hc
  refine ⟨c, hreach, hlength, ?_, (commit_once oncePlatform 7 hreach).1⟩
  simpa using hcommits

end Twice

end UserIam.UserIDM
