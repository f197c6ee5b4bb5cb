import UserIam.CoAuth.EndState

/-!
# At most one OnFinish

`Finish`, `TimeOut` and a failing `BeginSchedule` each look the callback up, call it and delete the
schedule in separate steps.  As long as each of them is alone while it does so, the callback is
called once; two that overlap both call it.
-/

namespace UserIam.CoAuth

open Conc

/-! ## 1. The invariant of a run -/

variable {service : CoAuthService} {S : UInt64}

/-- How often `OnFinish` has been invoked on behalf of a schedule. -/
def onFinishCount (S : UInt64) (trace : List CoAuthEvent) : Nat :=
  trace.countP fun
    | .op _ (.onFinish id ..) _ => id = S
    | _ => false

theorem onFinishCount_push (w : CoAuthWorld) (s : CoAuthState) (e : CoAuthEvent) :
    onFinishCount S (w.push s e).trace =
      onFinishCount S w.trace + if endMark S e = some .finish then 1 else 0 := by
  rw [onFinishCount, World.push_trace, List.countP_append, onFinishCount, List.countP_singleton]
  congr 2
  rcases e with ⟨t, call⟩ | ⟨t, o, r⟩
  · cases call <;> simp [endMark]
  · cases o <;> simp [endMark]

/-- The pool, the phases of the calls and the number of `OnFinish` calls agree. -/
def EndInv (S : UInt64) (w : CoAuthWorld) : Prop :=
  ∃ (st : EndState) (b : Option Nat), st.Fits b (w.marks (endMark S)) ∧
    (w.state.pool.scheResPool S).isSome = st.present ∧ onFinishCount S w.trace ≤ st.count

theorem EndInv.onFinishCount_le {w : CoAuthWorld} (h : EndInv S w) :
    onFinishCount S w.trace ≤ 1 := by
  obtain ⟨st, b, -, -, hcount⟩ := h
  exact hcount.trans (by cases st <;> simp [EndState.count])

/-- An event that leaves the phases and the presence of the schedule alone. -/
theorem EndInv.push_unmarked {w : CoAuthWorld} {s : CoAuthState} {e : CoAuthEvent}
    (h : EndInv S w) (hmark : endMark S e = none)
    (hpresent : (s.pool.scheResPool S).isSome = (w.state.pool.scheResPool S).isSome) :
    EndInv S (w.push s e) := by
  obtain ⟨st, b, hfits, hst, hcount⟩ := h
  refine ⟨st, b, ?_, hpresent.trans hst, ?_⟩
  · rw [World.marks_push, hmark, Option.toList_none, List.append_nil, Function.update_eq_self]
    exact hfits
  · rw [onFinishCount_push, hmark]
    simpa using hcount

/-- An event that moves the schedule to another state. -/
theorem EndInv.push_marked {w : CoAuthWorld} {s : CoAuthState} {e : CoAuthEvent} {k : EndMark}
    {st : EndState} {b : Option Nat} {phase : List EndMark}
    (hphase : w.marks (endMark S) e.tid = phase) (hmark : endMark S e = some k)
    (hfits : st.Fits b (Function.update (w.marks (endMark S)) e.tid (phase ++ [k])))
    (hpresent : (s.pool.scheResPool S).isSome = st.present)
    (hcount : onFinishCount S w.trace + (if k = .finish then 1 else 0) ≤ st.count) :
    EndInv S (w.push s e) := by
  refine ⟨st, b, ?_, hpresent, ?_⟩
  · rw [World.marks_push, hphase, hmark]
    exact hfits
  · rw [onFinishCount_push, hmark]
    simpa using hcount

/-- The operations that change how a schedule stands. -/
def touches (S : UInt64) : CoAuthOp → Bool
  | .saveScheduleCallback id .. => id = S
  | .findScheduleCallback id => id = S
  | .onFinish id .. => id = S
  | .deleteScheduleCallback id => id = S
  | _ => false

theorem endMark_of_not_touches {o : CoAuthOp} (ho : touches S o = false) (t : Nat)
    (r : CoAuthRes o) : endMark S (.op t o r) = none := by
  cases o <;> simp_all [touches, endMark]

theorem present_of_not_touches {o : CoAuthOp} (ho : touches S o = false) (env : CoAuthEnv)
    (s : CoAuthState) :
    ((coAuthHandle env s o).2.pool.scheResPool S).isSome = (s.pool.scheResPool S).isSome := by
  have hreplaces : o.replaces S = false := by
    cases o <;> first | rfl | exact ho
  have hkept := congrArg Option.isSome (callback_of_not_replaces hreplaces env s)
  rwa [Option.isSome_map, Option.isSome_map] at hkept

/-! ## 2. The condition -/

def CoAuthCall.begins (S : UInt64) : CoAuthCall → Bool
  | .beginSchedule info .. => info.scheduleId = S
  | _ => false

/-- The HDI hands a schedule id out once: at most one `BeginSchedule` is made with it. -/
def handedOutOnce (S : UInt64) (w : CoAuthWorld) : CoAuthMove → Prop
  | .spawn _ call => call.begins S → ∀ e ∈ w.trace, endMark S e ≠ some .begin
  | .op .. => True

instance (S : UInt64) (w : CoAuthWorld) : (mv : CoAuthMove) → Decidable (handedOutOnce S w mv)
  | .spawn _ call =>
    inferInstanceAs (Decidable (call.begins S → ∀ e ∈ w.trace, endMark S e ≠ some .begin))
  | .op .. => isTrue trivial

/-- No call is between taking the callback of the schedule and deleting the schedule. -/
def nobodyEnds (S : UInt64) (w : CoAuthWorld) : Prop :=
  ∀ e ∈ w.trace, ¬isEnding (w.marks (endMark S) e.tid)

theorem nobodyEnds_iff {S : UInt64} {w : CoAuthWorld} :
    nobodyEnds S w ↔ ∀ t, ¬isEnding (w.marks (endMark S) t) := by
  refine ⟨fun h t ht => ?_, fun h e _ => h e.tid⟩
  cases hmarks : w.marks (endMark S) t with
  | nil =>
    rw [hmarks] at ht
    cases ht
  | cons k rest =>
    have hk : k ∈ w.marks (endMark S) t := hmarks ▸ List.mem_cons_self
    obtain ⟨e, he, rfl, -⟩ := (World.mem_marks _).mp hk
    exact h e he ht

/-- A call that ends the schedule is alone: when `Finish` or `TimeOut` finds the callback, and when
`BeginSchedule` reports that an executor failed, no call is between taking the callback and deleting
the schedule; and `BeginSchedule` does not report a schedule that has been deleted. -/
def endsAlone (S : UInt64) (w : CoAuthWorld) : CoAuthMove → Prop
  | .op t (.findScheduleCallback id) _ =>
    id = S → w.marks (endMark S) t = [.start] → (w.state.pool.scheResPool S).isSome →
      nobodyEnds S w
  | .op t (.onFinish id ..) _ =>
    id = S → w.marks (endMark S) t = [.begin, .save] →
      (w.state.pool.scheResPool S).isSome ∧ nobodyEnds S w
  | _ => True

instance (S : UInt64) (w : CoAuthWorld) : Decidable (nobodyEnds S w) :=
  inferInstanceAs (Decidable (∀ e ∈ w.trace, ¬isEnding (w.marks (endMark S) e.tid)))

instance (S : UInt64) (w : CoAuthWorld) (mv : CoAuthMove) : Decidable (endsAlone S w mv) := by
  unfold endsAlone
  split <;> infer_instance

abbrev endsOk (S : UInt64) (w : CoAuthWorld) (mv : CoAuthMove) : Prop :=
  handedOutOnce S w mv ∧ endsAlone S w mv

/-! ## 3. Programs -/

abbrev KeepsEnd (service : CoAuthService) (S : UInt64) (t : Nat) {α : Type} (p : CoAuthProg α)
    (Q : α → List CoAuthEvent → Prop) (h : List CoAuthEvent) : Prop :=
  (coAuth service).Keeps (endsOk S) (EndInv S) t p Q h

variable {t : Nat} {α β : Type}

/-- A program that does not touch the schedule. -/
theorem keepsEnd_untouched {p : CoAuthProg α} (hp : p.All fun o => touches S o = false)
    {h : List CoAuthEvent} {phase : List EndMark} (hh : h.filterMap (endMark S) = phase) :
    KeepsEnd service S t p (fun _ h' => h'.filterMap (endMark S) = phase) h := by
  refine Machine.Keeps.of_all (fun w env o ho hw hR _ _ => ⟨?_, ?_⟩) hp hh
  · exact hw.push_unmarked (endMark_of_not_touches ho _ _) (present_of_not_touches ho env w.state)
  · rw [World.filterMap_concat _ hR, endMark_of_not_touches ho, Option.toList_none, List.append_nil]

/-- A first part that does not touch the schedule leaves the phase to the second part. -/
theorem keepsEnd_bind_untouched {p : CoAuthProg α} (hp : p.All fun o => touches S o = false)
    {f : α → CoAuthProg β} {Q : β → List CoAuthEvent → Prop} {h : List CoAuthEvent}
    {phase : List EndMark} (hh : h.filterMap (endMark S) = phase)
    (hf : ∀ a h', h'.filterMap (endMark S) = phase → KeepsEnd service S t (f a) Q h') :
    KeepsEnd service S t (p >>= f) Q h :=
  Machine.keeps_bind.mpr ((keepsEnd_untouched hp hh).mono hf)

theorem keepsEnd_all {p : CoAuthProg α} (hp : p.All fun o => touches S o = false)
    (h : List CoAuthEvent) : KeepsEnd service S t p (fun _ _ => True) h :=
  (keepsEnd_untouched hp rfl).mono fun _ _ _ => trivial

theorem not_touches_of_asks {o : CoAuthOp} (h : o.asksExecutors = true) : touches S o = false := by
  cases o <;> simp_all [touches, CoAuthOp.asksExecutors]

theorem cancel_untouched (id : UInt64) : (cancel service id).All fun o => touches S o = false :=
  (cancel_asks id).mono fun _ ho => not_touches_of_asks ho.1

theorem not_touches_of_ne {o : CoAuthOp} (h : o.schedule ≠ some S) : touches S o = false := by
  cases o <;> simp_all [touches, CoAuthOp.schedule]

/-- A call about another schedule. -/
theorem keepsEnd_other {call : CoAuthCall} (hcall : call.schedule ≠ some S)
    (h : List CoAuthEvent) :
    KeepsEnd service S t (coAuthBody service call) (fun _ _ => True) h :=
  keepsEnd_all ((coAuthBody_about hcall).mono fun _ => not_touches_of_ne) h

/-! ### Programs that end the schedule -/

theorem keepsEnd_delete {h : List CoAuthEvent}
    (hh : h.filterMap (endMark S) = [.start, .lookup, .finish] ∨
      h.filterMap (endMark S) = [.begin, .save, .finish])
    {k : ResultCode → CoAuthProg α} {Q : α → List CoAuthEvent → Prop}
    (hk : ∀ r h', KeepsEnd service S t (k r) Q h') :
    KeepsEnd service S t (.call (.deleteScheduleCallback S) k) Q h := by
  rintro w env ⟨st, b, hfits, hpresent, hcount⟩ rfl - -
  obtain ⟨rfl, hover⟩ := hfits.delete (t := t) hh
  refine ⟨EndInv.push_marked rfl (if_pos rfl) hover ?_ hcount, hk _ _⟩
  exact congrArg Option.isSome (AuthResPool.deleteScheduleCallback_self _ _)

theorem keepsEnd_onFinish {h : List CoAuthEvent} (hh : h.filterMap (endMark S) = [.start, .lookup])
    {callback : CoAuthCallback} {resultCode : UInt32} {token : List UInt8}
    {k : Unit → CoAuthProg α} {Q : α → List CoAuthEvent → Prop}
    (hk : ∀ h', h'.filterMap (endMark S) = [.start, .lookup, .finish] →
      KeepsEnd service S t (k ()) Q h') :
    KeepsEnd service S t (.call (.onFinish S callback resultCode token) k) Q h := by
  rintro w env ⟨st, b, hfits, hpresent, hcount⟩ rfl - -
  obtain ⟨rfl, htold⟩ := hfits.finish (t := t) hh
  refine ⟨EndInv.push_marked hh (if_pos rfl) htold hpresent (Nat.succ_le_succ hcount), hk _ ?_⟩
  rw [World.filterMap_concat _ hh]
  simp [endMark]

/-- A lookup that finds the callback is alone, and the call that made it may end the schedule. -/
theorem keepsEnd_find {h : List CoAuthEvent} (hh : h.filterMap (endMark S) = [.start])
    {k : ResultCode × Option CoAuthCallback → CoAuthProg α} {Q : α → List CoAuthEvent → Prop}
    (hnone : ∀ code h', KeepsEnd service S t (k (code, none)) Q h')
    (hfound : ∀ callback h', h'.filterMap (endMark S) = [.start, .lookup] →
      KeepsEnd service S t (k (.success, some callback)) Q h') :
    KeepsEnd service S t (.call (.findScheduleCallback S) k) Q h := by
  rintro w env hinv rfl - hok
  have hanswer : (coAuth service).answer w t (.findScheduleCallback S) env =
    w.state.pool.findScheduleCallback S := rfl
  rw [hanswer, Machine.perform, hanswer, AuthResPool.findScheduleCallback]
  rcases hpool : w.state.pool.scheResPool S with _ | ⟨executorNum, info, _ | callback⟩
  · exact ⟨hinv.push_unmarked (by simp [endMark]) rfl, hnone _ _⟩
  · exact ⟨hinv.push_unmarked (by simp [endMark]) rfl, hnone _ _⟩
  · have hmark : endMark S (.op t (.findScheduleCallback S) (.success, some callback)) =
        some .lookup := by simp [endMark]
    have hsome : (w.state.pool.scheResPool S).isSome = true := by rw [hpool, Option.isSome_some]
    have hfree := nobodyEnds_iff.mp (hok.2 rfl hh hsome)
    obtain ⟨st, b, hfits, hpresent, hcount⟩ := hinv
    obtain ⟨rfl, htaken⟩ := hfits.lookup (t := t) hh (hpresent.symm.trans hsome) hfree
    refine ⟨EndInv.push_marked hh hmark htaken hsome hcount, hfound _ _ ?_⟩
    rw [World.filterMap_concat _ hh, hmark]
    rfl

/-- The lookup of a call that only reports progress, of any schedule. -/
theorem keepsEnd_report {h : List CoAuthEvent} (hh : h.filterMap (endMark S) = []) {id : UInt64}
    {k : ResultCode × Option CoAuthCallback → CoAuthProg α} {Q : α → List CoAuthEvent → Prop}
    (hk : ∀ r h', KeepsEnd service S t (k r) Q h') :
    KeepsEnd service S t (.call (.findScheduleCallback id) k) Q h := by
  rintro w env hinv rfl - -
  refine ⟨?_, hk _ _⟩
  cases hmark : endMark S (.op t (.findScheduleCallback id)
      ((coAuth service).answer w t (.findScheduleCallback id) env)) with
  | none => exact hinv.push_unmarked hmark rfl
  | some mark =>
    obtain rfl : mark = .lookup := by
      simp only [endMark] at hmark
      split at hmark <;> simp_all
    obtain ⟨st, b, hfits, hpresent, hcount⟩ := hinv
    exact EndInv.push_marked hh hmark (hfits.report (t := t) hh) hpresent hcount

theorem keepsEnd_save {h : List CoAuthEvent} (hh : h.filterMap (endMark S) = [.begin])
    {info : ScheduleInfo} {callback : Option CoAuthCallback}
    {k : ResultCode → CoAuthProg α} {Q : α → List CoAuthEvent → Prop}
    (hk : ∀ h', h'.filterMap (endMark S) = [.begin, .save] →
      KeepsEnd service S t (k .success) Q h') :
    KeepsEnd service S t (.call (.saveScheduleCallback S info callback) k) Q h := by
  rintro w env ⟨st, b, hfits, hpresent, hcount⟩ rfl - -
  obtain ⟨rfl, hlive⟩ := hfits.save (t := t) hh
  have hnone : w.state.pool.scheResPool S = none := by simpa [EndState.present] using hpresent
  have hanswer : (coAuth service).answer w t (.saveScheduleCallback S info callback) env =
      .success := by
    simp [Machine.answer, coAuth, coAuthHandle, AuthResPool.insertSchedule, hnone]
  rw [hanswer]
  refine ⟨EndInv.push_marked hh (if_pos rfl) hlive ?_ hcount, hk _ ?_⟩
  · exact congrArg Option.isSome (AuthResPool.insertSchedule_self _ _ _ _)
  · rw [World.filterMap_concat _ hh]
    simp [endMark]

/-- `BeginSchedule` reports a schedule that never got into the pool. -/
theorem keepsEnd_onFinish_early {h : List CoAuthEvent} (hh : h.filterMap (endMark S) = [.begin])
    {callback : CoAuthCallback} {resultCode : UInt32} {token : List UInt8}
    {k : Unit → CoAuthProg α} {Q : α → List CoAuthEvent → Prop}
    (hk : ∀ h', KeepsEnd service S t (k ()) Q h') :
    KeepsEnd service S t (.call (.onFinish S callback resultCode token) k) Q h := by
  rintro w env ⟨st, b, hfits, hpresent, hcount⟩ rfl - -
  obtain ⟨rfl, hover⟩ := hfits.finishEarly (t := t) hh
  exact ⟨EndInv.push_marked hh (if_pos rfl) hover hpresent (Nat.succ_le_succ hcount), hk _⟩

/-- `BeginSchedule` reports that an executor failed: it is alone. -/
theorem keepsEnd_onFinish_begin {h : List CoAuthEvent}
    (hh : h.filterMap (endMark S) = [.begin, .save])
    {callback : CoAuthCallback} {resultCode : UInt32} {token : List UInt8}
    {k : Unit → CoAuthProg α} {Q : α → List CoAuthEvent → Prop}
    (hk : ∀ h', h'.filterMap (endMark S) = [.begin, .save, .finish] →
      KeepsEnd service S t (k ()) Q h') :
    KeepsEnd service S t (.call (.onFinish S callback resultCode token) k) Q h := by
  rintro w env ⟨st, b, hfits, hpresent, hcount⟩ rfl - hok
  obtain ⟨hsome, hfree⟩ := hok.2 rfl hh
  obtain ⟨rfl, htold⟩ := hfits.finishBegin (t := t) hh (hpresent.symm.trans hsome)
    (nobodyEnds_iff.mp hfree)
  refine ⟨EndInv.push_marked hh (if_pos rfl) htold hpresent (Nat.succ_le_succ hcount), hk _ ?_⟩
  rw [World.filterMap_concat _ hh]
  simp [endMark]

/-! ### The calls of the schedule -/

theorem keepsEnd_discard {p : CoAuthProg α} {h : List CoAuthEvent}
    (hp : KeepsEnd service S t p (fun _ _ => True) h) :
    KeepsEnd service S t (Prog.discard p) (fun _ _ => True) h :=
  Machine.keeps_bind.mpr (hp.mono fun _ _ _ => trivial)

theorem keepsEnd_finish (resultCode : ResultCode) (finalResult : Option AuthAttributes)
    {h : List CoAuthEvent} (hh : h.filterMap (endMark S) = [.start]) :
    KeepsEnd service S t (finish service S resultCode finalResult) (fun _ _ => True) h := by
  rw [finish]
  split
  · trivial
  · refine keepsEnd_bind_untouched (p := atomic (.getScheduleCount S)) (by simp [touches]) hh
      fun scheCount h hh => ?_
    split
    · exact (keepsEnd_untouched (p := atomic (.scheduleCountMinus S)) (by simp [touches]) hh).mono
        fun _ _ _ => trivial
    · refine keepsEnd_bind_untouched (monitorRemoveCall_all rfl) hh fun _ h hh => ?_
      rw [finishLast]
      refine keepsEnd_find hh (fun code h => trivial) fun callback h hh => ?_
      cases finalResult with
      | none =>
        exact keepsEnd_onFinish hh fun h hh => keepsEnd_delete (.inl hh) fun _ _ => trivial
      | some finalResult =>
        exact keepsEnd_onFinish hh fun h hh => keepsEnd_delete (.inl hh) fun _ _ => trivial

theorem keepsEnd_timeOut {h : List CoAuthEvent} (hh : h.filterMap (endMark S) = [.start]) :
    KeepsEnd service S t (timeOut service S) (fun _ _ => True) h := by
  rw [timeOut]
  split
  · trivial
  · refine keepsEnd_find hh (fun code h => trivial) fun callback h hh => ?_
    refine keepsEnd_onFinish hh fun h hh => ?_
    refine keepsEnd_bind_untouched (cancel_untouched S) hh fun _ h hh => ?_
    exact keepsEnd_delete (.inl hh) fun _ _ => trivial

theorem keepsEnd_beginSchedule (info : ScheduleInfo) (authInfo : AuthInfo)
    (callback : Option CoAuthCallback) {h : List CoAuthEvent}
    (hh : h.filterMap (endMark info.scheduleId) = [.begin]) :
    KeepsEnd service info.scheduleId t (beginSchedule service info authInfo callback)
      (fun _ _ => True) h := by
  cases callback with
  | none => trivial
  | some callback =>
    rw [beginSchedule]
    split
    · exact keepsEnd_onFinish_early hh fun _ => trivial
    · split
      · exact keepsEnd_onFinish_early hh fun _ => trivial
      · refine keepsEnd_save hh fun h hh => ?_
        refine keepsEnd_bind_untouched (monitorCall_all rfl) hh fun _ h hh => ?_
        refine keepsEnd_bind_untouched
          ((beginExecute_asks _ _ _ _ _).mono fun _ ho => not_touches_of_asks ho.1) hh
          fun executeRet h hh => ?_
        split
        · refine keepsEnd_onFinish_begin hh fun h hh => keepsEnd_delete (.inr hh) fun _ h => ?_
          exact keepsEnd_all (monitorRemoveCall_all rfl) h
        · trivial

theorem keepsEnd_sendData (id : UInt64) (message : Option (List UInt8)) {h : List CoAuthEvent}
    (hh : h.filterMap (endMark S) = []) :
    KeepsEnd service S t (sendData service id message) (fun _ _ => True) h := by
  cases message with
  | none => trivial
  | some message =>
    rw [sendData]
    split
    · trivial
    · refine keepsEnd_report hh fun r h => keepsEnd_all ?_ h
      obtain ⟨findRet, _ | callback⟩ := r
      · trivial
      · dsimp only [Prog.bind]
        split
        · trivial
        · split
          · trivial
          · exact ⟨rfl, fun _ => trivial⟩

/-- A call that starts keeps the invariant, and so does its program. -/
theorem keepsEnd_spawn (w : CoAuthWorld) (call : CoAuthCall) (s : CoAuthState)
    (hinv : EndInv S w) (hfresh : w.Fresh t) (hok : endsOk S w (.spawn t call))
    (hs : coAuthAccept w.state call = some s) :
    EndInv S (w.push s (.spawn t call)) ∧
      KeepsEnd service S t (coAuthBody service call) (fun _ _ => True) [.spawn t call] := by
  have hpool : (s.pool.scheResPool S).isSome = (w.state.pool.scheResPool S).isSome := by
    rw [coAuthAccept_pool hs]
  have hphase : w.marks (endMark S) t = [] := by
    rw [World.marks, hfresh.own_eq_nil, List.filterMap_nil]
  -- a call about another schedule leaves no mark and does not touch the entry
  by_cases hcall : call.schedule = some S
  · cases call with
    | beginSchedule info authInfo callback =>
      obtain rfl : info.scheduleId = S := Option.some.inj hcall
      have hmark : endMark info.scheduleId (.spawn t (.beginSchedule info authInfo callback)) =
          some .begin := if_pos rfl
      refine ⟨?_, keepsEnd_beginSchedule info authInfo callback (by simp [hmark])⟩
      obtain ⟨st, b, hfits, hpresent, hcount⟩ := hinv
      -- The schedule id is handed out once, so no other thread has begun it.
      have hfirst : ∀ t, .begin ∉ w.marks (endMark info.scheduleId) t := by
        intro t ht
        obtain ⟨e, he, -, hbegin⟩ := (World.mem_marks _).mp ht
        exact hok.1 (decide_eq_true rfl) e he hbegin
      exact EndInv.push_marked hphase hmark (hfits.begin (t := t) hfirst)
        (hpool.trans hpresent) hcount
    | finish id srcType resultCode finalResult =>
      obtain rfl : id = S := Option.some.inj hcall
      have hmark : endMark id (.spawn t (.finish id srcType resultCode finalResult)) =
          some .start := if_pos rfl
      refine ⟨?_, keepsEnd_discard (keepsEnd_finish resultCode finalResult (by simp [hmark]))⟩
      obtain ⟨st, b, hfits, hpresent, hcount⟩ := hinv
      exact EndInv.push_marked hphase hmark (hfits.start (t := t) hphase)
        (hpool.trans hpresent) hcount
    | timeOut id =>
      obtain rfl : id = S := Option.some.inj hcall
      have hmark : endMark id (.spawn t (.timeOut id)) = some .start := if_pos rfl
      refine ⟨?_, keepsEnd_timeOut (by simp [hmark])⟩
      obtain ⟨st, b, hfits, hpresent, hcount⟩ := hinv
      exact EndInv.push_marked hphase hmark (hfits.start (t := t) hphase)
        (hpool.trans hpresent) hcount
    | cancel id =>
      exact ⟨hinv.push_unmarked rfl hpool, keepsEnd_discard (keepsEnd_all (cancel_untouched id) _)⟩
    | sendData id transNum srcType dstType message =>
      exact ⟨hinv.push_unmarked rfl hpool, keepsEnd_discard (keepsEnd_sendData id message rfl)⟩
    | register => cases hcall
    | onRemoteDied => cases hcall
  · refine ⟨hinv.push_unmarked ?_ hpool, keepsEnd_other hcall _⟩
    cases call with
    | beginSchedule => exact if_neg fun hid => hcall (congrArg some hid)
    | finish => exact if_neg fun hid => hcall (congrArg some hid)
    | timeOut => exact if_neg fun hid => hcall (congrArg some hid)
    | _ => rfl

theorem endInv_initial : EndInv S ⟨CoAuthState.initial, []⟩ :=
  ⟨.idle, none, by constructor <;> simp [World.marks, World.own, isEnding, EndState.holder],
    rfl, Nat.zero_le _⟩

/-- **At most one `OnFinish`.**  In every run in which each call that ends the schedule is alone,
the callback of the schedule hears at most once that the schedule is over. -/
theorem onFinish_atMostOnce (service : CoAuthService) (S : UInt64) {c : CoAuthConfig}
    (hc : (coAuth service).Reachable (endsOk S) CoAuthState.initial c) :
    onFinishCount S c.world.trace ≤ 1 := by
  have hspawn : ∀ w t call s, EndInv S w → w.Fresh t → endsOk S w (.spawn t call) →
      (coAuth service).accept call w.state = some s → EndInv S (w.push s (.spawn t call)) ∧
        KeepsEnd service S t (coAuthBody service call) (fun _ _ => True) [.spawn t call] :=
    fun w t call s => keepsEnd_spawn w call s
  exact (Machine.reachable_keeps (Q := fun _ => True) endInv_initial hspawn hc).1.onFinishCount_le

/-! ## 4. A finish and a timeout that meet -/

section Race

/-- Schedule 7 with one executor, which starts. -/
def raceBegin : List (Machine.Label CoAuthEnv CoAuthCall) :=
  [.spawn (.register 1 (some ⟨.pin⟩) (some 5)), .run 0 {},
   .spawn (.beginSchedule ⟨7, [⟨1, .pin, []⟩], 0, 0, 0⟩ ⟨[], 0⟩ (some 9)),
   .run 1 {}, .run 1 {}, .run 1 {}, .run 1 {}]

/-- The timeout starts just before the finish removes it, and both find the callback. -/
def raceEnd : List (Machine.Label CoAuthEnv CoAuthCall) :=
  [.spawn (.finish 7 0 .success (some .new)), .run 2 {}, .spawn (.timeOut 7), .run 3 {},
   .run 2 {}, .run 2 {}, .run 2 {}, .run 3 {}]

/-- The callback hears both that the schedule has succeeded and that it has timed out. -/
theorem onFinish_twice :
    ¬∀ (service : CoAuthService) (S : UInt64) (c : CoAuthConfig),
      (coAuth service).Reachable (handedOutOnce S) CoAuthState.initial c →
        onFinishCount S c.world.trace ≤ 1 := by
  intro h
  have hrun : ((coAuth ⟨true, true, true⟩).exec (handedOutOnce 7) ⟨⟨.initial, []⟩, []⟩
      (raceBegin ++ raceEnd)).map (fun c => onFinishCount 7 c.world.trace) = some 2 := by decide
  obtain ⟨c, hc, hcount⟩ := Option.map_eq_some_iff.mp hrun
  have hle := h ⟨true, true, true⟩ 7 c (Machine.Reachable.exec .init hc)
  omega

/-- The same finish without the timeout: one `OnFinish`. -/
theorem onFinish_atMostOnce_example :
    ∃ c, (coAuth ⟨true, true, true⟩).Reachable (endsOk 7) .initial c ∧
      onFinishCount 7 c.world.trace = 1 ∧ onFinishCount 7 c.world.trace ≤ 1 := by
  have hrun : ((coAuth ⟨true, true, true⟩).exec (endsOk 7) ⟨⟨.initial, []⟩, []⟩
      (raceBegin ++ [.spawn (.finish 7 0 .success (some .new)), .run 2 {}, .run 2 {}, .run 2 {},
        .run 2 {}, .run 2 {}])).map (fun c => onFinishCount 7 c.world.trace) = some 1 := by decide
  obtain ⟨c, hc, hcount⟩ := Option.map_eq_some_iff.mp hrun
  have hreach : (coAuth ⟨true, true, true⟩).Reachable (endsOk 7) .initial c :=
    Machine.Reachable.exec .init hc
  exact ⟨c, hreach, hcount, onFinish_atMostOnce _ 7 hreach⟩

end Race

end UserIam.CoAuth
