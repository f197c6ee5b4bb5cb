import UserIam.Conc.Alone

/-!
# Traces of a program

The operations that a program performs, with the answers that it gets.  Nothing is said about where
the answers come from, so what holds of every trace holds however other programs interfere.
-/

namespace Conc

namespace Prog

variable {Op : Type} {Res : Op → Type} {α β : Type}

/-- The program stops with a value after these operations. -/
inductive Trace {Op : Type} {Res : Op → Type} :
    {α : Type} → Prog Op Res α → α → List ((o : Op) × Res o) → Prop where
  | ret {α : Type} (a : α) : Trace (.ret a) a []
  | call {α : Type} {o : Op} {k : Res o → Prog Op Res α} {a : α} {es : List ((o : Op) × Res o)}
      (r : Res o) (hk : Trace (k r) a es) : Trace (.call o k) a (⟨o, r⟩ :: es)

variable {es : List ((o : Op) × Res o)}

theorem trace_ret {a b : α} : Trace (.ret a : Prog Op Res α) b es ↔ b = a ∧ es = [] := by
  constructor
  · rintro ⟨⟩
    exact ⟨rfl, rfl⟩
  · rintro ⟨rfl, rfl⟩
    exact .ret _

theorem trace_call {o : Op} {k : Res o → Prog Op Res α} {a : α} :
    Trace (.call o k) a es ↔ ∃ r es', Trace (k r) a es' ∧ es = ⟨o, r⟩ :: es' := by
  constructor
  · intro h
    cases h with
    | call r hk => exact ⟨r, _, hk, rfl⟩
  · rintro ⟨r, es', hk, rfl⟩
    exact .call r hk

theorem trace_op_bind {o : Op} {f : Res o → Prog Op Res α} {a : α} :
    Trace (Prog.op o >>= f) a es ↔ ∃ r es', Trace (f r) a es' ∧ es = ⟨o, r⟩ :: es' :=
  trace_call

/-- Sequencing: first the trace of one program, then that of the other. -/
theorem trace_bind {p : Prog Op Res α} {f : α → Prog Op Res β} {b : β} :
    Trace (p >>= f) b es ↔
      ∃ a es₁ es₂, Trace p a es₁ ∧ Trace (f a) b es₂ ∧ es = es₁ ++ es₂ := by
  induction p generalizing es with
  | ret a =>
    constructor
    · intro h
      exact ⟨a, [], es, .ret a, h, rfl⟩
    · rintro ⟨a', es₁, es₂, hp, hf, rfl⟩
      obtain ⟨rfl, rfl⟩ := trace_ret.mp hp
      exact hf
  | call o k ih =>
    rw [call_bind]
    constructor
    · intro h
      obtain ⟨r, es', hk, rfl⟩ := trace_call.mp h
      obtain ⟨a, es₁, es₂, hp, hf, rfl⟩ := (ih r).mp hk
      exact ⟨a, _, es₂, .call r hp, hf, rfl⟩
    · rintro ⟨a, es₁, es₂, hp, hf, rfl⟩
      obtain ⟨r, es', hk, rfl⟩ := trace_call.mp hp
      exact .call r ((ih r).mpr ⟨a, es', es₂, hk, hf, rfl⟩)

theorem Trace.returns {Q : α → Prop} {p : Prog Op Res α} {a : α} (hp : p.Returns Q)
    (h : Trace p a es) : Q a := by
  induction h with
  | ret a => exact hp
  | call r _ ih => exact ih (hp r)

/-- A program performs its own operations only. -/
theorem Trace.ops {P : Op → Prop} {p : Prog Op Res α} {a : α} (hp : p.All P) (h : Trace p a es)
    {e : (o : Op) × Res o} (he : e ∈ es) : P e.1 := by
  induction h with
  | ret => cases he
  | call r _ ih =>
    rcases List.mem_cons.mp he with rfl | he
    · exact hp.1
    · exact ih (hp.2 _) he

/-! ## Courses -/

/-- The operations are those of the course, up to where they stop, and every answer but the last one
is that of the course. -/
structure InCourse (course es : List ((o : Op) × Res o)) : Prop where
  ops : es.map Sigma.fst <+: course.map Sigma.fst
  answers : es.dropLast <+: course

variable {course : List ((o : Op) × Res o)}

theorem inCourse_nil : InCourse course [] := ⟨List.nil_prefix, List.nil_prefix⟩

/-- A program that stops at an answer of its own. -/
theorem inCourse_stop {o : Op} (r r' : Res o) : InCourse (⟨o, r⟩ :: course) [⟨o, r'⟩] :=
  ⟨by simp, List.nil_prefix⟩

theorem InCourse.cons (h : InCourse course es) (e : (o : Op) × Res o) :
    InCourse (e :: course) (e :: es) := by
  refine ⟨List.cons_prefix_cons.mpr ⟨rfl, h.ops⟩, ?_⟩
  cases es with
  | nil => exact List.nil_prefix
  | cons d es =>
    rw [List.dropLast_cons_cons]
    exact List.cons_prefix_cons.mpr ⟨rfl, h.answers⟩

/-- An operation that goes on after one answer only; the course may depend on the answers that come
after it. -/
theorem Trace.inCourse_exists (ι : Type) [Nonempty ι] {course : ι → List ((o : Op) × Res o)}
    {o : Op} {k : Res o → Prog Op Res α} {a : α} (r₀ : Res o) (h : Trace (.call o k) a es)
    (hgo : ∀ es', Trace (k r₀) a es' → ∃ i, InCourse (course i) es')
    (hstop : ∀ r, r ≠ r₀ → ∃ b, k r = .ret b) : ∃ i, InCourse (⟨o, r₀⟩ :: course i) es := by
  obtain ⟨r, es', hk, rfl⟩ := trace_call.mp h
  by_cases hr : r = r₀
  · subst hr
    obtain ⟨i, hi⟩ := hgo es' hk
    exact ⟨i, hi.cons _⟩
  · obtain ⟨b, hb⟩ := hstop r hr
    rw [hb] at hk
    rw [(trace_ret.mp hk).2]
    exact ⟨Classical.arbitrary ι, inCourse_stop _ _⟩

theorem Trace.inCourse {o : Op} {k : Res o → Prog Op Res α} {a : α} (r₀ : Res o)
    (h : Trace (.call o k) a es) (hgo : ∀ es', Trace (k r₀) a es' → InCourse course es')
    (hstop : ∀ r, r ≠ r₀ → ∃ b, k r = .ret b) : InCourse (⟨o, r₀⟩ :: course) es := by
  have hexists : ∃ _ : Unit, InCourse (⟨o, r₀⟩ :: course) es :=
    h.inCourse_exists Unit r₀ (fun es' hk => ⟨(), hgo es' hk⟩) hstop
  obtain ⟨_, hcourse⟩ := hexists
  exact hcourse

end Prog

namespace Machine

variable {Op : Type} {Res : Op → Type} {Env State Call α : Type}
  {m : Machine Op Res Env State Call} {tid : Nat}

def eventStep : Event Op Res Call → Option ((o : Op) × Res o)
  | .op _ o r => some ⟨o, r⟩
  | .spawn .. => none

/-- The operations of a history. -/
def steps (es : List (Event Op Res Call)) : List ((o : Op) × Res o) :=
  es.filterMap eventStep

@[simp] theorem steps_cons (t : Nat) (o : Op) (r : Res o) (es : List (Event Op Res Call)) :
    steps (.op t o r :: es) = ⟨o, r⟩ :: steps es := rfl

@[simp] theorem steps_nil : steps ([] : List (Event Op Res Call)) = [] := rfl

theorem steps_append (es es' : List (Event Op Res Call)) :
    steps (es ++ es') = steps es ++ steps es' :=
  List.filterMap_append

/-- What a program does alone is one of its traces. -/
theorem Alone.trace {p : Prog Op Res α} {s s' : State} {a : α} {es : List (Event Op Res Call)}
    (h : m.Alone tid p s a es s') : p.Trace a (steps es) := by
  induction h with
  | ret a => exact .ret a
  | call env _ _ ih => exact .call _ ih

end Machine

end Conc
