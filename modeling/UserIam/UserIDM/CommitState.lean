import UserIam.UserIDM.UserIDMSystem

/-!
# The life of an enrolment schedule

How a schedule id travels: the HDI hands it out, its start inserts it into the session and gives
CoAuth a handler; the first `OnFinish` of the handler that takes the mutex may commit, and deletes
the id from the session before it gives the mutex back.
-/

namespace UserIam.UserIDM

open Conc

/-! ## 1. The steps that matter -/

/-- The HDI hands the id out, the id is inserted, its handler goes to CoAuth; an `OnFinish` of the
schedule is called, some mutex is taken, the id is found in the session, some enrolment is
committed, the session's id is deleted. -/
inductive CommitMark where
  | enroll
  | insert
  | begin
  | enter
  | lock
  | pass
  | commit
  | delete
  deriving DecidableEq, Repr

def commitMark (S : UInt64) : UserIDMEvent → Option CommitMark
  | .spawn _ (.onFinish _ handler _ _) => if handler.lastScheduleId = S then some .enter else none
  | .op _ (.beginEnrollment ..) r =>
    if r.1 = .success ∧ r.2.scheduleId = S then some .enroll else none
  | .op _ (.insertScheduleId id) _ => if id = S then some .insert else none
  | .op _ (.beginSchedule info _ _) _ => if info.scheduleId = S then some .begin else none
  | .op _ (.lock _) _ => some .lock
  | .op _ .checkScheduleIdIsActive r => if r = some S then some .pass else none
  | .op _ (.updateEnrollmentResult ..) _ => some .commit
  | .op _ .deleteSessionId _ => some .delete
  | _ => none

/-! ## 2. The state of a schedule -/

/-- Not handed out yet; known to its start only; inserted; begun, with a handler whose mutex no
`OnFinish` has taken; in the hands of the first `OnFinish`; over. -/
inductive CommitState where
  | idle
  | enrolled (t : Nat)
  | inserted (t : Nat)
  | begun
  | first (t : Nat)
  | ended
  deriving DecidableEq, Repr

namespace CommitState

/-- The session may hold the id. -/
def active : CommitState → Bool
  | .inserted _ | .begun | .first _ => true
  | .idle | .enrolled _ | .ended => false

/-- CoAuth has the handler. -/
def hasHandler : CommitState → Bool
  | .begun | .first _ | .ended => true
  | .idle | .enrolled _ | .inserted _ => false

/-- What the steps of the threads are in a state; `b` is the thread that the id was handed to. -/
structure Fits (st : CommitState) (b : Option Nat) (phase : Nat → List CommitMark) : Prop where
  handedOut : ∀ t, .enroll ∈ phase t ↔ b = some t
  idle : st = .idle ↔ b = none
  enrolled : ∀ t, .enroll ∈ phase t → .insert ∉ phase t → st = .enrolled t
  inserted : ∀ t, .enroll ∈ phase t → .insert ∈ phase t → .begin ∉ phase t → st = .inserted t
  entered : ∀ t, .enter ∈ phase t → st.hasHandler
  locked : ∀ t, .enter ∈ phase t → .lock ∈ phase t → st = .first t ∨ st = .ended
  passed : ∀ t, .enter ∈ phase t → .pass ∈ phase t → .delete ∉ phase t → st = .first t
  first : ∀ t, st = .first t → .enter ∈ phase t ∧ .lock ∈ phase t ∧ .delete ∉ phase t

variable {st : CommitState} {b : Option Nat} {phase : Nat → List CommitMark} {t : Nat}

theorem fits_idle : CommitState.idle.Fits none fun _ => [] := by
  constructor <;> simp

/-- Steps of a thread that neither starts nor finishes the schedule. -/
theorem Fits.other {k : CommitMark} (h : st.Fits b phase) (henroll : .enroll ∉ phase t)
    (henter : .enter ∉ phase t) (hk : k ≠ .enroll ∧ k ≠ .enter) :
    st.Fits b (Function.update phase t (phase t ++ [k])) := by
  obtain ⟨handedOut, idle, enrolled, inserted, entered, locked, passed, first⟩ := h
  constructor <;> grind [Function.update_apply]

theorem Fits.enroll (h : st.Fits b phase) (hfirst : ∀ t, .enroll ∉ phase t) (ht : phase t = []) :
    st = .idle ∧ (CommitState.enrolled t).Fits (some t) (Function.update phase t [.enroll]) := by
  obtain ⟨handedOut, idle, enrolled, inserted, entered, locked, passed, first⟩ := h
  have hb : b = none :=
    Option.eq_none_iff_forall_ne_some.mpr fun t ht => hfirst t ((handedOut t).mpr ht)
  have hidle : st = .idle := idle.mpr hb
  refine ⟨hidle, ?_⟩
  constructor <;> grind [Function.update_apply, hasHandler]

theorem Fits.insert (h : st.Fits b phase) (ht : phase t = [.enroll]) :
    st = .enrolled t ∧ (CommitState.inserted t).Fits b
      (Function.update phase t [.enroll, .insert]) := by
  obtain ⟨handedOut, idle, enrolled, inserted, entered, locked, passed, first⟩ := h
  have hst := enrolled t (by simp [ht]) (by simp [ht])
  refine ⟨hst, ?_⟩
  constructor <;> grind [Function.update_apply, hasHandler]

theorem Fits.begin (h : st.Fits b phase) (ht : phase t = [.enroll, .insert]) :
    st = .inserted t ∧ begun.Fits b (Function.update phase t [.enroll, .insert, .begin]) := by
  obtain ⟨handedOut, idle, enrolled, inserted, entered, locked, passed, first⟩ := h
  have hst := inserted t (by simp [ht]) (by simp [ht]) (by simp [ht])
  refine ⟨hst, ?_⟩
  constructor <;> grind [Function.update_apply, hasHandler]

theorem Fits.enter (h : st.Fits b phase) (ht : phase t = []) (hhandler : st.hasHandler) :
    st.Fits b (Function.update phase t [.enter]) := by
  obtain ⟨handedOut, idle, enrolled, inserted, entered, locked, passed, first⟩ := h
  constructor <;> grind [Function.update_apply]

/-- The mutex is free: no other `OnFinish` is the first one at this moment. -/
theorem Fits.lock (h : st.Fits b phase) (ht : phase t = [.enter]) (hfree : ∀ t', st ≠ .first t') :
    ∃ st' : CommitState, (st' = .first t ∧ st = .begun ∨ st' = .ended ∧ st = .ended) ∧
      st'.Fits b (Function.update phase t [.enter, .lock]) := by
  obtain ⟨handedOut, idle, enrolled, inserted, entered, locked, passed, first⟩ := h
  have hhandler := entered t (by simp [ht])
  cases st with
  | begun =>
    refine ⟨.first t, .inl ⟨rfl, rfl⟩, ?_⟩
    constructor <;> grind [Function.update_apply, hasHandler]
  | ended =>
    refine ⟨.ended, .inr ⟨rfl, rfl⟩, ?_⟩
    constructor <;> grind [Function.update_apply, hasHandler]
  | first t' => exact absurd rfl (hfree t')
  | _ => cases hhandler

/-- An `OnFinish` that finds the id in the session is the first one. -/
theorem Fits.pass (h : st.Fits b phase) (ht : phase t = [.enter, .lock]) (hactive : st.active) :
    st = .first t ∧ st.Fits b (Function.update phase t [.enter, .lock, .pass]) := by
  obtain ⟨handedOut, idle, enrolled, inserted, entered, locked, passed, first⟩ := h
  have hst : st = .first t := by
    rcases locked t (by simp [ht]) (by simp [ht]) with hst | rfl
    · exact hst
    · cases hactive
  refine ⟨hst, ?_⟩
  constructor <;> grind [Function.update_apply]

theorem Fits.commit (h : st.Fits b phase) (ht : phase t = [.enter, .lock, .pass]) :
    st = .first t ∧ st.Fits b (Function.update phase t [.enter, .lock, .pass, .commit]) := by
  obtain ⟨handedOut, idle, enrolled, inserted, entered, locked, passed, first⟩ := h
  have hst := passed t (by simp [ht]) (by simp [ht]) (by simp [ht])
  refine ⟨hst, ?_⟩
  constructor <;> grind [Function.update_apply]

theorem Fits.delete (h : st.Fits b phase) (henter : .enter ∈ phase t) (hlock : .lock ∈ phase t) :
    ended.Fits b (Function.update phase t (phase t ++ [CommitMark.delete])) := by
  obtain ⟨handedOut, idle, enrolled, inserted, entered, locked, passed, first⟩ := h
  have hst := locked t henter hlock
  constructor <;> grind [Function.update_apply, hasHandler]

end CommitState

end UserIam.UserIDM
