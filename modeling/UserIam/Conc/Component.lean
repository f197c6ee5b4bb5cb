import Mathlib.Tactic.Common

/-!
# Components

A component answers calls and keeps a state that nobody else sees.  One component refines another
when no sequence of calls tells them apart.
-/

namespace Conc

/-- What a call returns, and the state that it leaves. -/
structure Component (Call Out State : Type) where
  initial : State
  apply : Call → State → Out × State

namespace Component

variable {Call Out State State' : Type}

/-- The answers to a sequence of calls. -/
def answers (c : Component Call Out State) : List Call → State → List Out
  | [], _ => []
  | call :: calls, s => (c.apply call s).1 :: c.answers calls (c.apply call s).2

/-- The state after a sequence of calls. -/
def after (c : Component Call Out State) : List Call → State → State
  | [], s => s
  | call :: calls, s => c.after calls (c.apply call s).2

/-- A relation between the states that every call keeps, and under which the answers are the
same. -/
structure Simulates (c : Component Call Out State) (spec : Component Call Out State')
    (Rel : State → State' → Prop) : Prop where
  initial : Rel c.initial spec.initial
  answer : ∀ call {s t}, Rel s t → (c.apply call s).1 = (spec.apply call t).1
  step : ∀ call {s t}, Rel s t → Rel (c.apply call s).2 (spec.apply call t).2

variable {c : Component Call Out State} {spec : Component Call Out State'}
  {Rel : State → State' → Prop}

/-- **Data refinement.**  A simulation gives the same answers to every sequence of calls. -/
theorem Simulates.answers_eq (h : c.Simulates spec Rel) (calls : List Call) :
    c.answers calls c.initial = spec.answers calls spec.initial := by
  suffices hfrom : ∀ s t, Rel s t → c.answers calls s = spec.answers calls t from
    hfrom _ _ h.initial
  induction calls with
  | nil => exact fun _ _ _ => rfl
  | cons call calls ih =>
    intro s t hrel
    rw [answers, answers, h.answer call hrel, ih _ _ (h.step call hrel)]

theorem Simulates.rel_after (h : c.Simulates spec Rel) (calls : List Call) :
    Rel (c.after calls c.initial) (spec.after calls spec.initial) := by
  suffices hfrom : ∀ s t, Rel s t → Rel (c.after calls s) (spec.after calls t) from
    hfrom _ _ h.initial
  induction calls with
  | nil => exact fun _ _ hrel => hrel
  | cons call calls ih => exact fun s t hrel => ih _ _ (h.step call hrel)

end Component

end Conc
