import UserIam.CoAuth.CoAuthManager

/-!
# How a schedule ends

The life of one schedule, seen from outside: which calls may end it, which of them has taken its
callback, and when it is over.
-/

namespace UserIam.CoAuth

open Conc

/-! ## 1. The paths that end a schedule -/

/-- The steps of a call that matter for how a schedule ends: it is one of `Finish` and `TimeOut`
(`start`) or a `BeginSchedule` (`begin`), it puts the schedule into the pool, it finds the callback,
it calls `OnFinish`, it deletes the schedule from the pool. -/
inductive EndMark where
  | start
  | begin
  | save
  | lookup
  | finish
  | delete
  deriving DecidableEq, Repr

def endMark (S : UInt64) : CoAuthEvent → Option EndMark
  | .spawn _ (.finish id ..) => if id = S then some .start else none
  | .spawn _ (.timeOut id) => if id = S then some .start else none
  | .spawn _ (.beginSchedule info ..) => if info.scheduleId = S then some .begin else none
  | .op _ (.saveScheduleCallback id ..) _ => if id = S then some .save else none
  | .op _ (.findScheduleCallback id) r =>
    if id = S ∧ r.1 = .success ∧ r.2.isSome then some .lookup else none
  | .op _ (.onFinish id ..) _ => if id = S then some .finish else none
  | .op _ (.deleteScheduleCallback id) _ => if id = S then some .delete else none
  | _ => none

/-- The call has taken the callback of the schedule and has not deleted the schedule yet. -/
def isEnding (phase : List EndMark) : Bool :=
  phase = [.start, .lookup] ∨ phase = [.start, .lookup, .finish] ∨ phase = [.begin, .save, .finish]

/-- How far the schedule is: not in the pool yet, in the pool and untouched, its callback taken by a
call, `OnFinish` called by a call, over. -/
inductive EndState where
  | idle
  | live
  | taken (t : Nat)
  | told (t : Nat)
  | over
  deriving DecidableEq, Repr

namespace EndState

def present : EndState → Bool
  | .idle | .over => false
  | .live | .taken _ | .told _ => true

def count : EndState → Nat
  | .idle | .live | .taken _ => 0
  | .told _ | .over => 1

def holder : EndState → Option Nat
  | .taken t | .told t => some t
  | _ => none

/-- What the phases of the calls are in a state; `b` is the call of `BeginSchedule`. -/
structure Fits (st : EndState) (b : Option Nat) (phase : Nat → List EndMark) : Prop where
  begins : ∀ t, .begin ∈ phase t ↔ b = some t
  begun : st ≠ .idle → b ≠ none
  past : st ≠ .idle → ∀ t, phase t ≠ [.begin]
  ending : ∀ t, isEnding (phase t) ↔ st.holder = some t
  finished : ∀ t, st = .told t → .finish ∈ phase t
  unfinished : ∀ t, st = .taken t → .finish ∉ phase t

variable {st : EndState} {b : Option Nat} {phase : Nat → List EndMark} {t : Nat}

theorem Fits.start (h : st.Fits b phase) (ht : phase t = []) :
    st.Fits b (Function.update phase t [.start]) := by
  obtain ⟨begins, begun, past, ending, finished, unfinished⟩ := h
  constructor <;> grind [isEnding, holder, Function.update_apply]

theorem Fits.begin (h : st.Fits b phase) (hfirst : ∀ t, .begin ∉ phase t) :
    st.Fits (some t) (Function.update phase t [.begin]) := by
  obtain ⟨begins, begun, past, ending, finished, unfinished⟩ := h
  have hb : b = none :=
    Option.eq_none_iff_forall_ne_some.mpr fun t ht => hfirst t ((begins t).mpr ht)
  have hidle : st = .idle := by_contra fun hne => begun hne hb
  constructor <;> grind [isEnding, holder, Function.update_apply]

theorem Fits.save (h : st.Fits b phase) (ht : phase t = [.begin]) :
    st = .idle ∧ live.Fits b (Function.update phase t [.begin, .save]) := by
  obtain ⟨begins, begun, past, ending, finished, unfinished⟩ := h
  have hidle : st = .idle := by grind
  refine ⟨hidle, ?_⟩
  constructor <;> grind [isEnding, holder, Function.update_apply]

theorem Fits.lookup (h : st.Fits b phase) (ht : phase t = [.start]) (hpresent : st.present = true)
    (hfree : ∀ t, ¬isEnding (phase t)) :
    st = .live ∧ (taken t).Fits b (Function.update phase t [.start, .lookup]) := by
  obtain ⟨begins, begun, past, ending, finished, unfinished⟩ := h
  have hlive : st = .live := by cases st <;> grind [isEnding, holder, present]
  refine ⟨hlive, ?_⟩
  constructor <;> grind [isEnding, holder, Function.update_apply]

theorem Fits.finish (h : st.Fits b phase) (ht : phase t = [.start, .lookup]) :
    st = .taken t ∧ (told t).Fits b (Function.update phase t [.start, .lookup, .finish]) := by
  obtain ⟨begins, begun, past, ending, finished, unfinished⟩ := h
  have htaken : st = .taken t := by cases st <;> grind [isEnding, holder, present]
  refine ⟨htaken, ?_⟩
  constructor <;> grind [isEnding, holder, Function.update_apply]

theorem Fits.finishEarly (h : st.Fits b phase) (ht : phase t = [.begin]) :
    st = .idle ∧ over.Fits b (Function.update phase t [.begin, .finish]) := by
  obtain ⟨begins, begun, past, ending, finished, unfinished⟩ := h
  have hidle : st = .idle := by grind
  refine ⟨hidle, ?_⟩
  constructor <;> grind [isEnding, holder, Function.update_apply]

theorem Fits.finishBegin (h : st.Fits b phase) (ht : phase t = [.begin, .save])
    (hpresent : st.present = true) (hfree : ∀ t, ¬isEnding (phase t)) :
    st = .live ∧ (told t).Fits b (Function.update phase t [.begin, .save, .finish]) := by
  obtain ⟨begins, begun, past, ending, finished, unfinished⟩ := h
  have hlive : st = .live := by cases st <;> grind [isEnding, holder, present]
  refine ⟨hlive, ?_⟩
  constructor <;> grind [isEnding, holder, Function.update_apply]

theorem Fits.delete (h : st.Fits b phase)
    (ht : phase t = [.start, .lookup, .finish] ∨ phase t = [.begin, .save, .finish]) :
    st = .told t ∧ over.Fits b (Function.update phase t (phase t ++ [EndMark.delete])) := by
  obtain ⟨begins, begun, past, ending, finished, unfinished⟩ := h
  have htold : st = .told t := by cases st <;> grind [isEnding, holder, present]
  refine ⟨htold, ?_⟩
  constructor <;> grind [isEnding, holder, Function.update_apply]

/-- A call that only reports progress looks the callback up and keeps it. -/
theorem Fits.report (h : st.Fits b phase) (ht : phase t = []) :
    st.Fits b (Function.update phase t [.lookup]) := by
  obtain ⟨begins, begun, past, ending, finished, unfinished⟩ := h
  constructor <;> grind [isEnding, holder, Function.update_apply]

end EndState

end UserIam.CoAuth
