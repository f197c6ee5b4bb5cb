import UserIam.CoAuth.OnFinishOnce

/-!
# No schedule is forgotten

A schedule in the pool is waited for by its timeout, or some call is about to post the timeout or to
delete the schedule.
-/

namespace UserIam.CoAuth

open Conc Machine

/-! ## 1. The steps of a call -/

/-- `missed` is a lookup that finds no callback. -/
inductive TimerMark where
  | begin
  | finish
  | timeOut
  | save
  | post
  | remove
  | lookup
  | missed
  | told
  | delete
  deriving DecidableEq, Repr

def timerMark (S : UInt64) : CoAuthEvent → Option TimerMark
  | .spawn _ (.beginSchedule info ..) => if info.scheduleId = S then some .begin else none
  | .spawn _ (.finish id ..) => if id = S then some .finish else none
  | .spawn _ (.timeOut id) => if id = S then some .timeOut else none
  | .op _ (.saveScheduleCallback id ..) _ => if id = S then some .save else none
  | .op _ (.postHighPriorityTask name) _ => if name = S then some .post else none
  | .op _ (.removeTask name) _ => if name = S then some .remove else none
  | .op _ (.findScheduleCallback id) r =>
    if id = S then if r.1 = .success ∧ r.2.isSome then some .lookup else some .missed else none
  | .op _ (.onFinish id ..) _ => if id = S then some .told else none
  | .op _ (.deleteScheduleCallback id) _ => if id = S then some .delete else none
  | _ => none

/-- The phases of a call that has still to post the timeout, or to delete the schedule. -/
def owingPhases : List (List TimerMark) :=
  [[.begin, .save], [.begin, .save, .post, .told],
   [.finish, .remove], [.finish, .remove, .lookup], [.finish, .remove, .lookup, .told],
   [.timeOut], [.timeOut, .lookup], [.timeOut, .lookup, .told]]

abbrev Owing (phase : List TimerMark) : Prop := phase ∈ owingPhases

variable {service : CoAuthService} {S : UInt64} {w : CoAuthWorld} {s : CoAuthState}
  {e : CoAuthEvent} {t : Nat} {phase : List TimerMark} {k : TimerMark}

/-! ## 2. The invariant -/

/-- The callback that the pool has for the schedule. -/
def callbackOf (S : UInt64) (s : CoAuthState) : Option (Option CoAuthCallback) :=
  (s.pool.scheResPool S).map (·.callback)

structure TimerInv (service : CoAuthService) (S : UInt64) (w : CoAuthWorld) : Prop where
  owed : (callbackOf S w.state).isSome = true →
    S ∈ w.state.tasks ∨ ∃ t, Owing (w.marks (timerMark S) t)
  callback : callbackOf S w.state ≠ some none
  managed : service.coAuthResMgrPtr = false → callbackOf S w.state = none
  once : ∀ t t', .begin ∈ w.marks (timerMark S) t → .begin ∈ w.marks (timerMark S) t' → t = t'
  begun : (callbackOf S w.state).isSome = true →
    ∃ t, [.begin, .save] <+: w.marks (timerMark S) t ∧ .delete ∉ w.marks (timerMark S) t

theorem TimerInv.push_unmarked (h : TimerInv service S w) (hmark : timerMark S e = none)
    (hpool : callbackOf S s = callbackOf S w.state)
    (htasks : S ∈ w.state.tasks → S ∈ s.tasks) : TimerInv service S (w.push s e) := by
  have hmarks : (w.push s e).marks (timerMark S) = w.marks (timerMark S) := by
    rw [World.marks_push, hmark, Option.toList_none, List.append_nil, Function.update_eq_self]
  constructor
  · rw [World.push_state, hpool, hmarks]
    exact fun hsome => (h.owed hsome).imp_left htasks
  · rw [World.push_state, hpool]
    exact h.callback
  · rw [World.push_state, hpool]
    exact h.managed
  · rw [hmarks]
    exact h.once
  · rw [World.push_state, hpool, hmarks]
    exact h.begun

/-- A step of a call from one phase to the next. -/
structure TimerStep (service : CoAuthService) (S : UInt64) (phase : List TimerMark) (k : TimerMark)
    (s s' : CoAuthState) : Prop where
  notBegin : k ≠ .begin
  owed : (callbackOf S s').isSome = true → S ∈ s'.tasks ∨ Owing (phase ++ [k]) ∨
    ((callbackOf S s).isSome = true ∧ ¬Owing phase ∧ (S ∈ s.tasks → S ∈ s'.tasks))
  callback : callbackOf S s' ≠ some none
  begun : (callbackOf S s').isSome = true →
    (phase = [.begin] ∧ k = .save ∧ service.coAuthResMgrPtr = true) ∨
      (k ≠ .delete ∧ (callbackOf S s).isSome = true)

theorem TimerInv.push_marked (h : TimerInv service S w)
    (hphase : w.marks (timerMark S) e.tid = phase) (hmark : timerMark S e = some k)
    (hstep : TimerStep service S phase k w.state s) : TimerInv service S (w.push s e) := by
  have hself : (w.push s e).marks (timerMark S) e.tid = phase ++ [k] := by
    rw [World.marks_push, Function.update_self, hphase, hmark, Option.toList_some]
  have hother {t : Nat} (ht : t ≠ e.tid) :
      (w.push s e).marks (timerMark S) t = w.marks (timerMark S) t := by
    rw [World.marks_push, Function.update_of_ne ht]
  have hbegin {t : Nat} (hb : .begin ∈ (w.push s e).marks (timerMark S) t) :
      .begin ∈ w.marks (timerMark S) t := by
    by_cases ht : t = e.tid
    · subst ht
      rw [hself, List.mem_append, List.mem_singleton] at hb
      rw [hphase]
      exact hb.resolve_right hstep.notBegin.symm
    · rwa [hother ht] at hb
  constructor
  · intro hsome
    -- owed by a task, by the thread itself, or by whoever owed it before
    rcases hstep.owed hsome with htask | howing | ⟨hsome, hnot, htasks⟩
    · exact .inl htask
    · exact .inr ⟨e.tid, by rwa [hself]⟩
    · rcases h.owed hsome with htask | ⟨t, howing⟩
      · exact .inl (htasks htask)
      · have ht : t ≠ e.tid := by
          rintro rfl
          rw [hphase] at howing
          exact hnot howing
        exact .inr ⟨t, by rwa [hother ht]⟩
  · exact hstep.callback
  · intro hptr
    by_contra hne
    -- without a manager nothing is ever saved
    rcases hstep.begun (Option.isSome_iff_ne_none.mpr hne) with ⟨-, -, htrue⟩ | ⟨-, hsome⟩
    · rw [hptr] at htrue
      cases htrue
    · rw [h.managed hptr] at hsome
      cases hsome
  · exact fun t t' ht ht' => h.once t t' (hbegin ht) (hbegin ht')
  · intro hsome
    rcases hstep.begun hsome with ⟨rfl, rfl, -⟩ | ⟨hk, hsome⟩
    · refine ⟨e.tid, ?_, ?_⟩ <;> rw [hself]
      · exact List.prefix_rfl
      · decide
    · obtain ⟨t, hsaved, hdelete⟩ := h.begun hsome
      by_cases ht : t = e.tid
      · subst ht
        rw [hphase] at hsaved hdelete
        refine ⟨e.tid, ?_, ?_⟩ <;> rw [hself]
        · exact hsaved.trans (List.prefix_append _ _)
        · rw [List.mem_append, List.mem_singleton]
          exact fun hmem => hmem.elim hdelete (Ne.symm hk)
      · exact ⟨t, by rwa [hother ht], by rwa [hother ht]⟩

/-- The thread that has begun the schedule is the one that has saved it. -/
theorem TimerInv.saved (h : TimerInv service S w) (hbegin : .begin ∈ w.marks (timerMark S) t)
    (hsome : (callbackOf S w.state).isSome = true) :
    [.begin, .save] <+: w.marks (timerMark S) t ∧ .delete ∉ w.marks (timerMark S) t := by
  obtain ⟨t', hsaved, hdelete⟩ := h.begun hsome
  obtain rfl : t = t' := h.once t t' hbegin (hsaved.subset List.mem_cons_self)
  exact ⟨hsaved, hdelete⟩

/-! ## 3. Operations -/

/-- The operations with a mark. -/
def times (S : UInt64) : CoAuthOp → Bool
  | .saveScheduleCallback id .. => id = S
  | .postHighPriorityTask name => name = S
  | .removeTask name => name = S
  | .findScheduleCallback id => id = S
  | .onFinish id .. => id = S
  | .deleteScheduleCallback id => id = S
  | _ => false

theorem timerMark_of_not_times {o : CoAuthOp} (ho : times S o = false) (t : Nat) (r : CoAuthRes o) :
    timerMark S (.op t o r) = none := by
  cases o <;> simp_all [times, timerMark]

theorem callbackOf_of_not_times {o : CoAuthOp} (ho : times S o = false) (env : CoAuthEnv)
    (s : CoAuthState) : callbackOf S (coAuthHandle env s o).2 = callbackOf S s := by
  have hreplaces : o.replaces S = false := by
    cases o <;> first | rfl | exact ho
  exact callback_of_not_replaces hreplaces env s

theorem tasks_of_not_times {o : CoAuthOp} (ho : times S o = false) (env : CoAuthEnv)
    (s : CoAuthState) (h : S ∈ s.tasks) : S ∈ (coAuthHandle env s o).2.tasks := by
  cases o with
  | postHighPriorityTask name => exact List.mem_append_left _ h
  | removeTask name =>
    have hne : name ≠ S := by simpa [times] using ho
    exact List.mem_filter.mpr ⟨h, by simpa using hne.symm⟩
  | _ => exact h

/-- A step that leaves the pool alone. -/
theorem TimerStep.of_pool {s' : CoAuthState} (h : TimerInv service S w) (hs : w.state = s)
    (hpool : s'.pool = s.pool) (hbegin : k ≠ .begin) (hdelete : k ≠ .delete)
    (howed : (callbackOf S s).isSome = true → S ∈ s'.tasks ∨ Owing (phase ++ [k]) ∨
      (¬Owing phase ∧ (S ∈ s.tasks → S ∈ s'.tasks))) :
    TimerStep service S phase k s s' := by
  have hsame : callbackOf S s' = callbackOf S s := by rw [callbackOf, hpool, callbackOf]
  subst hs
  constructor
  · exact hbegin
  · rw [hsame]
    exact fun hsome => (howed hsome).imp_right (Or.imp_right fun hrest => ⟨hsome, hrest⟩)
  · rw [hsame]
    exact h.callback
  · rw [hsame]
    exact fun hsome => .inr ⟨hdelete, hsome⟩

theorem timerStep_save {info : ScheduleInfo} {callback : CoAuthCallback} {env : CoAuthEnv}
    (hnone : w.state.pool.scheResPool S = none) (hptr : service.coAuthResMgrPtr = true) :
    TimerStep service S [.begin] .save w.state
      (coAuthHandle env w.state (.saveScheduleCallback S info (some callback))).2 := by
  have hcallback : callbackOf S
      (coAuthHandle env w.state (.saveScheduleCallback S info (some callback))).2 =
        some (some callback) := by
    rw [callbackOf, coAuthHandle, AuthResPool.insertSchedule_self, hnone]
    rfl
  constructor
  · simp
  · exact fun _ => .inr (.inl (by decide))
  · simp [hcallback]
  · exact fun _ => .inl ⟨rfl, rfl, hptr⟩

theorem timerStep_delete {env : CoAuthEnv} {s : CoAuthState} :
    TimerStep service S phase .delete s (coAuthHandle env s (.deleteScheduleCallback S)).2 := by
  have hnone : callbackOf S (coAuthHandle env s (.deleteScheduleCallback S)).2 = none := by
    rw [callbackOf, coAuthHandle, AuthResPool.deleteScheduleCallback_self, Option.map_none]
  constructor
  · simp
  all_goals simp [hnone]

/-- A lookup finds the callback as long as the schedule is in the pool. -/
theorem TimerInv.find (h : TimerInv service S w) :
    (callbackOf S w.state = none ∧ w.state.pool.findScheduleCallback S = (.fail, none)) ∨
      ∃ callback, callbackOf S w.state = some (some callback) ∧
        w.state.pool.findScheduleCallback S = (.success, some callback) := by
  have hne := h.callback
  unfold callbackOf at hne ⊢
  rw [AuthResPool.findScheduleCallback]
  rcases hpool : w.state.pool.scheResPool S with _ | ⟨executorNum, info, _ | callback⟩
  · exact .inl ⟨rfl, rfl⟩
  · rw [hpool] at hne
    exact absurd rfl hne
  · exact .inr ⟨callback, rfl, rfl⟩

/-! ## 4. Programs -/

/-- A call that has returned owes nothing. -/
def Paid (service : CoAuthService) (S : UInt64) (h : List CoAuthEvent) : Prop :=
  service.coAuthResMgrPtr = true → ¬Owing (h.filterMap (timerMark S))

abbrev KeepsTimer (service : CoAuthService) (S : UInt64) (t : Nat) {α : Type} (p : CoAuthProg α)
    (Q : α → List CoAuthEvent → Prop) (h : List CoAuthEvent) : Prop :=
  (coAuth service).Keeps (handedOutOnce S) (TimerInv service S) t p Q h

variable {α β : Type} {h : List CoAuthEvent}

theorem paid_of_phase (hh : h.filterMap (timerMark S) = phase) (hphase : ¬Owing phase) :
    Paid service S h := by
  intro _
  rwa [hh]

theorem TimerInv.perform_calm {o : CoAuthOp} (ho : times S o = false) {env : CoAuthEnv}
    (hw : TimerInv service S w) : TimerInv service S ((coAuth service).perform w t o env) :=
  hw.push_unmarked (timerMark_of_not_times ho _ _) (callbackOf_of_not_times ho env w.state)
    (tasks_of_not_times ho env w.state)

/-- A program without marks. -/
theorem keepsTimer_calm {p : CoAuthProg α} (hp : p.All fun o => times S o = false)
    (hh : h.filterMap (timerMark S) = phase) :
    KeepsTimer service S t p (fun _ h' => h'.filterMap (timerMark S) = phase) h := by
  refine Keeps.of_all (fun w env o ho hw hR _ _ => ⟨hw.perform_calm ho, ?_⟩) hp hh
  rw [World.filterMap_concat _ hR, timerMark_of_not_times ho, Option.toList_none, List.append_nil]

theorem keepsTimer_paid {p : CoAuthProg α} (hh : h.filterMap (timerMark S) = phase)
    (hphase : ¬Owing phase) (hp : p.All fun o => times S o = false) :
    KeepsTimer service S t p (fun _ => Paid service S) h :=
  (keepsTimer_calm hp hh).mono fun _ _ hh => paid_of_phase hh hphase

theorem keepsTimer_bind_calm {p : CoAuthProg α} (hp : p.All fun o => times S o = false)
    {f : α → CoAuthProg β} {Q : β → List CoAuthEvent → Prop}
    (hh : h.filterMap (timerMark S) = phase)
    (hf : ∀ a h', h'.filterMap (timerMark S) = phase → KeepsTimer service S t (f a) Q h') :
    KeepsTimer service S t (p >>= f) Q h :=
  keeps_bind.mpr ((keepsTimer_calm hp hh).mono hf)

/-- An operation that takes the call from one phase to the next. -/
theorem keepsTimer_step {o : CoAuthOp} {f : CoAuthRes o → CoAuthProg α}
    {Q : α → List CoAuthEvent → Prop} (hh : h.filterMap (timerMark S) = phase)
    (hstep : ∀ w env, TimerInv service S w → w.marks (timerMark S) t = phase →
      ∃ k, timerMark S (.op t o (coAuthHandle env w.state o).1) = some k ∧
        TimerStep service S phase k w.state (coAuthHandle env w.state o).2 ∧
        ∀ h', h'.filterMap (timerMark S) = phase ++ [k] →
          KeepsTimer service S t (f (coAuthHandle env w.state o).1) Q h') :
    KeepsTimer service S t (.call o f) Q h := by
  rintro w env hw rfl - -
  obtain ⟨k, hmark, htimer, hk⟩ := hstep w env hw hh
  refine ⟨hw.push_marked hh hmark htimer, hk _ ?_⟩
  rw [World.filterMap_concat _ hh]
  exact congrArg (phase ++ ·) (congrArg Option.toList hmark)

theorem keepsTimer_delete {f : ResultCode → CoAuthProg α} {Q : α → List CoAuthEvent → Prop}
    (hh : h.filterMap (timerMark S) = phase)
    (hf : ∀ r h', h'.filterMap (timerMark S) = phase ++ [TimerMark.delete] →
      KeepsTimer service S t (f r) Q h') :
    KeepsTimer service S t (.call (.deleteScheduleCallback S) f) Q h :=
  keepsTimer_step hh fun _ _ _ _ => ⟨.delete, if_pos rfl, timerStep_delete, hf _⟩

/-- The callback is told the end by a call that still has to delete the schedule, or by one that has
never saved it. -/
theorem keepsTimer_told {callback : CoAuthCallback} {code : UInt32} {token : List UInt8}
    {f : Unit → CoAuthProg α} {Q : α → List CoAuthEvent → Prop}
    (hh : h.filterMap (timerMark S) = phase)
    (howing : Owing (phase ++ [TimerMark.told]) ∨ ¬Owing phase)
    (hf : ∀ h', h'.filterMap (timerMark S) = phase ++ [TimerMark.told] →
      KeepsTimer service S t (f ()) Q h') :
    KeepsTimer service S t (.call (.onFinish S callback code token) f) Q h := by
  refine keepsTimer_step hh fun w env hw _ => ⟨.told, if_pos rfl, ?_, hf⟩
  refine .of_pool hw rfl rfl (by simp) (by simp) fun _ => .inr ?_
  exact howing.imp_right fun hnot => ⟨hnot, id⟩

theorem keepsTimer_find {f : ResultCode × Option CoAuthCallback → CoAuthProg α}
    {Q : α → List CoAuthEvent → Prop} (hh : h.filterMap (timerMark S) = phase)
    (howing : Owing (phase ++ [TimerMark.lookup]) ∨ ¬Owing phase)
    (hmissed : ∀ h', h'.filterMap (timerMark S) = phase ++ [TimerMark.missed] →
      KeepsTimer service S t (f (.fail, none)) Q h')
    (hfound : ∀ callback h', h'.filterMap (timerMark S) = phase ++ [TimerMark.lookup] →
      KeepsTimer service S t (f (.success, some callback)) Q h') :
    KeepsTimer service S t (.call (.findScheduleCallback S) f) Q h := by
  refine keepsTimer_step hh fun w env hw _ => ?_
  have hanswer : (coAuthHandle env w.state (.findScheduleCallback S)).1 =
    w.state.pool.findScheduleCallback S := rfl
  rcases hw.find with ⟨hnone, hfind⟩ | ⟨callback, hsome, hfind⟩
  · refine ⟨.missed, ?_, .of_pool hw rfl rfl (by simp) (by simp) fun hsome => ?_, ?_⟩
    · rw [hanswer, hfind]
      simp [timerMark]
    · rw [hnone] at hsome
      cases hsome
    · rw [hanswer, hfind]
      exact hmissed
  · refine ⟨.lookup, ?_, .of_pool hw rfl rfl (by simp) (by simp) fun _ => .inr ?_, ?_⟩
    · rw [hanswer, hfind]
      simp [timerMark]
    · exact howing.imp_right fun hnot => ⟨hnot, id⟩
    · rw [hanswer, hfind]
      exact hfound callback

/-- The timeout is removed by a call that goes on to delete the schedule. -/
theorem keepsTimer_remove (heventHandler : service.eventHandler = true)
    {f : Unit → CoAuthProg α} {Q : α → List CoAuthEvent → Prop}
    (hh : h.filterMap (timerMark S) = [.finish])
    (hf : ∀ h', h'.filterMap (timerMark S) = [.finish, .remove] →
      KeepsTimer service S t (f ()) Q h') :
    KeepsTimer service S t (monitorRemoveCall service S >>= f) Q h := by
  rw [monitorRemoveCall, if_pos heventHandler, Prog.op_bind]
  refine keepsTimer_step hh fun w env hw _ => ⟨.remove, if_pos rfl, ?_, hf⟩
  exact .of_pool hw rfl rfl (by simp) (by simp) fun _ => .inr (.inl (by decide))

theorem keepsTimer_save {info : ScheduleInfo} {callback : CoAuthCallback}
    (hptr : service.coAuthResMgrPtr = true) {f : ResultCode → CoAuthProg α}
    {Q : α → List CoAuthEvent → Prop} (hh : h.filterMap (timerMark S) = [.begin])
    (hf : ∀ h', h'.filterMap (timerMark S) = [.begin, .save] →
      KeepsTimer service S t (f .success) Q h') :
    KeepsTimer service S t (.call (.saveScheduleCallback S info (some callback)) f) Q h := by
  refine keepsTimer_step hh fun w env hw hphase => ?_
  have hnone : w.state.pool.scheResPool S = none := by
    by_contra hne
    have hsome : (callbackOf S w.state).isSome = true := by
      rw [callbackOf, Option.isSome_map]
      exact Option.isSome_iff_ne_none.mpr hne
    have hsaved := (hw.saved (t := t) (by simp [hphase]) hsome).1
    rw [hphase] at hsaved
    exact absurd hsaved (by decide)
  have hanswer : (coAuthHandle env w.state (.saveScheduleCallback S info (some callback))).1 =
      .success := by
    simp [coAuthHandle, AuthResPool.insertSchedule, hnone]
  refine ⟨.save, if_pos rfl, timerStep_save hnone hptr, ?_⟩
  rw [hanswer]
  exact hf

theorem keepsTimer_post (heventHandler : service.eventHandler = true)
    {f : Unit → CoAuthProg α} {Q : α → List CoAuthEvent → Prop}
    (hh : h.filterMap (timerMark S) = [.begin, .save])
    (hf : ∀ h', h'.filterMap (timerMark S) = [.begin, .save, .post] →
      KeepsTimer service S t (f ()) Q h') :
    KeepsTimer service S t (monitorCall service S >>= f) Q h := by
  rw [monitorCall, if_pos heventHandler, Prog.op_bind]
  refine keepsTimer_step hh fun w env hw _ => ⟨.post, if_pos rfl, ?_, hf⟩
  exact .of_pool hw rfl rfl (by simp) (by simp) fun _ =>
    .inl (List.mem_append_right _ (List.mem_singleton_self S))

/-- A failing `BeginSchedule` removes the timeout when the schedule is gone. -/
theorem keepsTimer_remove_begin (heventHandler : service.eventHandler = true)
    (hh : h.filterMap (timerMark S) = [.begin, .save, .post, .told, .delete]) :
    KeepsTimer service S t (monitorRemoveCall service S) (fun _ => Paid service S) h := by
  rw [monitorRemoveCall, if_pos heventHandler]
  refine keepsTimer_step hh fun w env hw hphase => ⟨.remove, if_pos rfl, ?_, fun h' hh' => ?_⟩
  · refine .of_pool hw rfl rfl (by simp) (by simp) fun hsome => ?_
    have hdelete := (hw.saved (t := t) (by simp [hphase]) hsome).2
    rw [hphase] at hdelete
    exact absurd (by simp) hdelete
  · exact paid_of_phase hh' (by decide)

/-! ## 5. The calls of the schedule -/

theorem not_times_of_asks {o : CoAuthOp} (h : o.asksExecutors = true) : times S o = false := by
  cases o <;> simp_all [times, CoAuthOp.asksExecutors]

theorem not_times_of_ne {o : CoAuthOp} (h : o.schedule ≠ some S) : times S o = false := by
  cases o <;> simp_all [times, CoAuthOp.schedule]

theorem keepsTimer_finish (heventHandler : service.eventHandler = true) (resultCode : ResultCode)
    (finalResult : Option AuthAttributes) (hh : h.filterMap (timerMark S) = [.finish]) :
    KeepsTimer service S t (finish service S resultCode finalResult) (fun _ => Paid service S)
      h := by
  rw [finish]
  split
  · exact paid_of_phase hh (by decide)
  · refine keepsTimer_bind_calm (p := atomic (.getScheduleCount S)) (by simp [times]) hh
      fun scheCount h hh => ?_
    split
    · exact keepsTimer_paid hh (by decide) ⟨rfl, fun _ => trivial⟩
    · refine keepsTimer_remove heventHandler hh fun h hh => ?_
      rw [finishLast]
      refine keepsTimer_find hh (.inl (by decide)) (fun h hh => paid_of_phase hh (by decide))
        fun callback h hh => ?_
      cases finalResult with
      | none =>
        refine keepsTimer_told hh (.inl (by decide)) fun h hh => keepsTimer_delete hh ?_
        exact fun _ h hh => paid_of_phase hh (by decide)
      | some finalResult =>
        refine keepsTimer_told hh (.inl (by decide)) fun h hh => keepsTimer_delete hh ?_
        exact fun _ h hh => paid_of_phase hh (by decide)

theorem keepsTimer_timeOut (hh : h.filterMap (timerMark S) = [.timeOut]) :
    KeepsTimer service S t (timeOut service S) (fun _ => Paid service S) h := by
  rw [timeOut]
  split
  · next hptr =>
    intro htrue
    simp [htrue] at hptr
  · refine keepsTimer_find hh (.inl (by decide)) (fun h hh => paid_of_phase hh (by decide))
      fun callback h hh => ?_
    refine keepsTimer_told hh (.inl (by decide)) fun h hh => ?_
    refine keepsTimer_bind_calm ((cancel_asks S).mono fun _ ho => not_times_of_asks ho.1) hh
      fun _ h hh => ?_
    exact keepsTimer_delete hh fun _ h hh => paid_of_phase hh (by decide)

theorem keepsTimer_beginSchedule (heventHandler : service.eventHandler = true)
    (info : ScheduleInfo) (authInfo : AuthInfo) (callback : Option CoAuthCallback)
    (hh : h.filterMap (timerMark info.scheduleId) = [.begin]) :
    KeepsTimer service info.scheduleId t (beginSchedule service info authInfo callback)
      (fun _ => Paid service info.scheduleId) h := by
  have hearly {callback : CoAuthCallback} {code : UInt32} :
      KeepsTimer service info.scheduleId t
        (atomic (.onFinish info.scheduleId callback code []))
        (fun _ => Paid service info.scheduleId) h :=
    keepsTimer_told hh (.inr (by decide)) fun h hh => paid_of_phase hh (by decide)
  cases callback with
  | none => exact paid_of_phase hh (by decide)
  | some callback =>
    rw [beginSchedule]
    split
    · exact hearly
    · split
      · exact hearly
      · next hptr =>
        refine keepsTimer_save (by simpa using hptr) hh fun h hh => ?_
        refine keepsTimer_post heventHandler hh fun h hh => ?_
        refine keepsTimer_bind_calm
          ((beginExecute_asks _ _ _ _ _).mono fun _ ho => not_times_of_asks ho.1) hh
          fun executeRet h hh => ?_
        split
        · refine keepsTimer_told hh (.inl (by decide)) fun h hh => ?_
          exact keepsTimer_delete hh fun _ h hh => keepsTimer_remove_begin heventHandler hh
        · exact paid_of_phase hh (by decide)

theorem keepsTimer_sendData (message : Option (List UInt8))
    (hh : h.filterMap (timerMark S) = []) :
    KeepsTimer service S t (sendData service S message) (fun _ => Paid service S) h := by
  cases message with
  | none => exact paid_of_phase hh (by decide)
  | some message =>
    rw [sendData]
    split
    · exact paid_of_phase hh (by decide)
    · refine keepsTimer_find hh (.inr (by decide)) (fun h hh => paid_of_phase hh (by decide))
        fun callback h hh => ?_
      refine keepsTimer_paid hh (by decide) ?_
      dsimp only [Prog.bind]
      split
      · trivial
      · split
        · trivial
        · exact ⟨rfl, fun _ => trivial⟩

theorem keepsTimer_discard {p : CoAuthProg α}
    (hp : KeepsTimer service S t p (fun _ => Paid service S) h) :
    KeepsTimer service S t (Prog.discard p) (fun _ => Paid service S) h :=
  keeps_bind.mpr hp

/-! ## 6. Calls that start -/

/-- A call starts: what it is about to post or to delete is owed from now on. -/
theorem TimerInv.push_spawn {call : CoAuthCall} {phase : List TimerMark}
    (hw : TimerInv service S w) (hfresh : w.Fresh t)
    (hphase : (timerMark S (.spawn t call)).toList = phase)
    (hpool : s.pool = w.state.pool)
    (htasks : S ∈ w.state.tasks → S ∈ s.tasks ∨ Owing phase)
    (hbegin : .begin ∈ phase → ∀ t', .begin ∉ w.marks (timerMark S) t') :
    TimerInv service S (w.push s (.spawn t call)) := by
  have hself : (w.push s (.spawn t call)).marks (timerMark S) t = phase := by
    rw [World.marks_push, Event.tid_spawn, Function.update_self, World.marks, hfresh.own_eq_nil,
      hphase]
    rfl
  -- A new thread has left no marks.
  have hbefore : w.marks (timerMark S) t = [] := by
    rw [World.marks, hfresh.own_eq_nil, List.filterMap_nil]
  have hother {t' : Nat} (ht : t' ≠ t) :
      (w.push s (.spawn t call)).marks (timerMark S) t' = w.marks (timerMark S) t' := by
    rw [World.marks_push, Event.tid_spawn, Function.update_of_ne ht]
  have hsame : callbackOf S (w.push s (.spawn t call)).state = callbackOf S w.state := by
    rw [World.push_state, callbackOf, hpool, callbackOf]
  have hne {t' : Nat} (h : w.marks (timerMark S) t' ≠ []) : t' ≠ t := by
    rintro rfl
    exact h hbefore
  constructor
  · rw [hsame]
    intro hsome
    rcases hw.owed hsome with htask | ⟨t', howing⟩
    · exact (htasks htask).imp_right fun howing => ⟨t, by rwa [hself]⟩
    · refine .inr ⟨t', ?_⟩
      rwa [hother (hne fun hnil => ?_)]
      rw [hnil] at howing
      exact absurd howing (by decide)
  · rw [hsame]
    exact hw.callback
  · rw [hsame]
    exact hw.managed
  · intro t₁ t₂ h₁ h₂
    -- only one of two threads that have begun can be the new one
    by_cases ht₁ : t₁ = t <;> by_cases ht₂ : t₂ = t
    · rw [ht₁, ht₂]
    · subst ht₁
      rw [hself] at h₁
      rw [hother ht₂] at h₂
      exact absurd h₂ (hbegin h₁ t₂)
    · subst ht₂
      rw [hself] at h₂
      rw [hother ht₁] at h₁
      exact absurd h₁ (hbegin h₂ t₁)
    · rw [hother ht₁] at h₁
      rw [hother ht₂] at h₂
      exact hw.once t₁ t₂ h₁ h₂
  · rw [hsame]
    intro hsome
    obtain ⟨t', hsaved, hdelete⟩ := hw.begun hsome
    have ht : t' ≠ t := hne fun hnil => by
      rw [hnil] at hsaved
      exact absurd hsaved (by decide)
    exact ⟨t', by rwa [hother ht], by rwa [hother ht]⟩

/-- Only a timeout takes the task of its schedule. -/
theorem coAuthAccept_tasks {s s' : CoAuthState} {call : CoAuthCall}
    (hs : coAuthAccept s call = some s') (hcall : call.schedule ≠ some S) (htask : S ∈ s.tasks) :
    S ∈ s'.tasks := by
  cases call with
  | timeOut id =>
    simp only [coAuthAccept] at hs
    split at hs
    · cases hs
      exact (List.mem_erase_of_ne fun hid => hcall (congrArg some hid.symm)).mpr htask
    · cases hs
  | _ =>
    cases hs
    exact htask

theorem timerMark_spawn_of_ne {call : CoAuthCall} (hcall : call.schedule ≠ some S) :
    timerMark S (.spawn t call) = none := by
  cases call with
  | beginSchedule => exact if_neg fun hid => hcall (congrArg some hid)
  | finish => exact if_neg fun hid => hcall (congrArg some hid)
  | timeOut => exact if_neg fun hid => hcall (congrArg some hid)
  | _ => rfl

theorem keepsTimer_spawn_other {call : CoAuthCall} (hw : TimerInv service S w)
    (hs : coAuthAccept w.state call = some s) (hcall : call.schedule ≠ some S) :
    TimerInv service S (w.push s (.spawn t call)) ∧
      KeepsTimer service S t (coAuthBody service call) (fun _ => Paid service S)
        [.spawn t call] := by
  have hmark : timerMark S (.spawn t call) = none := timerMark_spawn_of_ne hcall
  have hsame : callbackOf S s = callbackOf S w.state := by
    rw [callbackOf, coAuthAccept_pool hs, callbackOf]
  refine ⟨hw.push_unmarked hmark hsame (coAuthAccept_tasks hs hcall), ?_⟩
  have hquiet : [.spawn t call].filterMap (timerMark S) = [] := by simp [hmark]
  exact keepsTimer_paid hquiet (by decide)
    ((coAuthBody_about hcall).mono fun _ => not_times_of_ne)

theorem keepsTimer_spawn (heventHandler : service.eventHandler = true) (w : CoAuthWorld)
    (call : CoAuthCall) (s : CoAuthState) (hw : TimerInv service S w) (hfresh : w.Fresh t)
    (hok : handedOutOnce S w (.spawn t call)) (hs : coAuthAccept w.state call = some s) :
    TimerInv service S (w.push s (.spawn t call)) ∧
      KeepsTimer service S t (coAuthBody service call) (fun _ => Paid service S)
        [.spawn t call] := by
  have hpool := coAuthAccept_pool hs
  by_cases hcall : call.schedule = some S
  · cases call with
    | beginSchedule info authInfo callback =>
      obtain rfl : info.scheduleId = S := Option.some.inj hcall
      cases hs
      have hmark : timerMark info.scheduleId (.spawn t (.beginSchedule info authInfo callback)) =
          some .begin := if_pos rfl
      refine ⟨hw.push_spawn hfresh (by rw [hmark]) rfl .inl fun _ t' hbegin => ?_,
        keepsTimer_beginSchedule heventHandler info authInfo callback (by simp [hmark])⟩
      obtain ⟨e, he, -, hbegin⟩ := (World.mem_marks _).mp hbegin
      refine hok (decide_eq_true rfl) e he ?_
      rcases e with ⟨t, call⟩ | ⟨t, o, r⟩
      · cases call <;> simp_all [timerMark, endMark]
      · cases o with
        | findScheduleCallback id =>
          simp only [timerMark] at hbegin
          split at hbegin
          · split at hbegin <;> cases hbegin
          · cases hbegin
        | _ => simp_all [timerMark]
    | finish id srcType resultCode finalResult =>
      obtain rfl : id = S := Option.some.inj hcall
      cases hs
      have hmark : timerMark id (.spawn t (.finish id srcType resultCode finalResult)) =
          some .finish := if_pos rfl
      exact ⟨hw.push_spawn hfresh (by rw [hmark]) rfl .inl (by simp),
        keepsTimer_discard (keepsTimer_finish heventHandler resultCode finalResult
          (by simp [hmark]))⟩
    | timeOut id =>
      obtain rfl : id = S := Option.some.inj hcall
      have hmark : timerMark id (.spawn t (.timeOut id)) = some .timeOut := if_pos rfl
      refine ⟨hw.push_spawn hfresh (by rw [hmark]) hpool (fun _ => .inr (by decide)) (by simp),
        keepsTimer_timeOut (by simp [hmark])⟩
    | cancel id =>
      cases hs
      have hquiet : [.spawn t (.cancel id)].filterMap (timerMark S) = [] := rfl
      refine ⟨hw.push_unmarked rfl rfl fun htask => htask, keepsTimer_discard ?_⟩
      exact keepsTimer_paid hquiet (by decide)
        ((cancel_asks id).mono fun _ ho => not_times_of_asks ho.1)
    | sendData id transNum srcType dstType message =>
      obtain rfl : id = S := Option.some.inj hcall
      cases hs
      exact ⟨hw.push_unmarked rfl rfl fun htask => htask,
        keepsTimer_discard (keepsTimer_sendData message rfl)⟩
    | register => cases hcall
    | onRemoteDied => cases hcall
  · exact keepsTimer_spawn_other hw hs hcall

/-! ## 7. Every run -/

theorem timerInv_initial : TimerInv service S ⟨.initial, []⟩ := by
  have hnil (t : Nat) : World.marks (timerMark S) ⟨CoAuthState.initial, []⟩ t = [] := rfl
  constructor
  · exact nofun
  · exact nofun
  · exact fun _ => rfl
  · intro t t' ht
    rw [hnil] at ht
    cases ht
  · exact nofun

/-- The call has begun the schedule and has not posted its timeout yet. -/
def PostsTimeout (S : UInt64) (w : CoAuthWorld) (t : Nat) : Prop :=
  .begin ∈ w.marks (timerMark S) t ∧ .post ∉ w.marks (timerMark S) t

/-- The call is a finish or a timeout of the schedule, or has begun it and reported that it failed,
and has not deleted it yet. -/
def DeletesSchedule (S : UInt64) (w : CoAuthWorld) (t : Nat) : Prop :=
  (.finish ∈ w.marks (timerMark S) t ∨ .timeOut ∈ w.marks (timerMark S) t ∨
    (.begin ∈ w.marks (timerMark S) t ∧ .told ∈ w.marks (timerMark S) t)) ∧
  .delete ∉ w.marks (timerMark S) t

def InProgress (c : CoAuthConfig) (t : Nat) : Prop :=
  ∃ p, c.threads[t]? = some p ∧ p.returned = false

theorem posts_or_deletes_of_owing (h : Owing (w.marks (timerMark S) t)) :
    PostsTimeout S w t ∨ DeletesSchedule S w t := by
  have hall : ∀ phase ∈ owingPhases, (.begin ∈ phase ∧ .post ∉ phase) ∨
      ((.finish ∈ phase ∨ .timeOut ∈ phase ∨ (.begin ∈ phase ∧ .told ∈ phase)) ∧
        .delete ∉ phase) := by decide
  exact hall _ h

/-- **No schedule is forgotten.**  Every schedule in the pool has a pending timeout, or belongs to a
call in progress that has still to post the timeout or to delete the schedule. -/
theorem scheResPool_waited_for (service : CoAuthService) (S : UInt64)
    (heventHandler : service.eventHandler = true) {c : CoAuthConfig}
    (hc : (coAuth service).Reachable (handedOutOnce S) .initial c)
    (hpool : (c.world.state.pool.scheResPool S).isSome = true) :
    S ∈ c.world.state.tasks ∨
      ∃ t, InProgress c t ∧ (PostsTimeout S c.world t ∨ DeletesSchedule S c.world t) := by
  obtain ⟨hinv, hthreads⟩ := reachable_keeps (Q := Paid service S) timerInv_initial
    (fun w t call s => keepsTimer_spawn heventHandler w call s) hc
  have hsome : (callbackOf S c.world.state).isSome = true := by rwa [callbackOf, Option.isSome_map]
  refine (hinv.owed hsome).imp_right fun ⟨t, howing⟩ => ?_
  refine ⟨t, ?_, posts_or_deletes_of_owing howing⟩
  obtain ⟨k, hk⟩ : ∃ k, k ∈ c.world.marks (timerMark S) t := by
    cases hmarks : c.world.marks (timerMark S) t with
    | nil =>
      rw [hmarks] at howing
      exact absurd howing (by decide)
    | cons k rest => exact ⟨k, List.mem_cons_self⟩
  obtain ⟨e, he, rfl, -⟩ := (World.mem_marks _).mp hk
  have hlt : e.tid < c.threads.length := hc.fresh e he
  refine ⟨c.threads[e.tid], List.getElem?_eq_getElem hlt, ?_⟩
  by_contra hreturned
  -- a call that has returned owes nothing, unless the manager is missing and the pool is empty
  have hpaid := (hthreads e.tid _ (List.getElem?_eq_getElem hlt)).of_returned
    (Prog.eq_ret_of_returned (by simpa using hreturned))
  cases hptr : service.coAuthResMgrPtr with
  | false =>
    rw [hinv.managed hptr] at hsome
    cases hsome
  | true => exact hpaid hptr howing

/-- A finish whose executor reports while `BeginSchedule` still runs: the schedule waits for nothing
but that finish. -/
theorem scheResPool_waited_for_example :
    ∃ c, (coAuth ⟨true, true, true⟩).Reachable (handedOutOnce 7) .initial c ∧
      (c.world.state.pool.scheResPool 7).isSome = true ∧ 7 ∉ c.world.state.tasks ∧
      (7 ∈ c.world.state.tasks ∨
        ∃ t, InProgress c t ∧ (PostsTimeout 7 c.world t ∨ DeletesSchedule 7 c.world t)) := by
  have hrun : ((coAuth ⟨true, true, true⟩).exec (handedOutOnce 7) ⟨⟨.initial, []⟩, []⟩
      (raceBegin ++ [.spawn (.finish 7 0 .success (some .new)), .run 2 {}, .run 2 {}])).map
      (fun c => ((c.world.state.pool.scheResPool 7).isSome, c.world.state.tasks)) =
        some (true, []) := by decide
  obtain ⟨c, hc, heq⟩ := Option.map_eq_some_iff.mp hrun
  obtain ⟨hpool, htasks⟩ := Prod.mk.inj heq
  have hreach : (coAuth ⟨true, true, true⟩).Reachable (handedOutOnce 7) .initial c :=
    .exec .init hc
  refine ⟨c, hreach, hpool, by simp [htasks], ?_⟩
  exact scheResPool_waited_for ⟨true, true, true⟩ 7 rfl hreach hpool

end UserIam.CoAuth
