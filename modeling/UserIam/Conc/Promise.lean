import UserIam.Conc.Trace

/-!
# Programs under a promise

What a program does when its operations are answered as promised.  It comes to an end whatever the
promised answers are, and a statement about its value and its trace holds there.
-/

namespace Conc.Prog

variable {Op : Type} {Res : Op → Type} {α β : Type}

/-- Every operation that the program comes to has a promised answer, and whatever the promised
answers are, `post` holds of the value and the trace with which it stops. -/
def Meets (promise : (o : Op) → Res o → Prop) :
    Prog Op Res α → (α → List ((o : Op) × Res o) → Prop) → Prop
  | .ret a, post => post a []
  | .call o k, post => (∃ r, promise o r) ∧
      ∀ r, promise o r → Meets promise (k r) fun a es => post a (⟨o, r⟩ :: es)

variable {promise : (o : Op) → Res o → Prop} {p : Prog Op Res α}
  {post post' : α → List ((o : Op) × Res o) → Prop}

@[simp] theorem meets_ret {a : α} : (ret a : Prog Op Res α).Meets promise post ↔ post a [] :=
  Iff.rfl

theorem meets_call {o : Op} {k : Res o → Prog Op Res α} :
    (call o k).Meets promise post ↔ (∃ r, promise o r) ∧
      ∀ r, promise o r → (k r).Meets promise fun a es => post a (⟨o, r⟩ :: es) :=
  Iff.rfl

theorem meets_op_bind {o : Op} {f : Res o → Prog Op Res α} :
    (op o >>= f).Meets promise post ↔ (∃ r, promise o r) ∧
      ∀ r, promise o r → (f r).Meets promise fun a es => post a (⟨o, r⟩ :: es) :=
  Iff.rfl

theorem Meets.mono (h : p.Meets promise post) (hpost : ∀ a es, post a es → post' a es) :
    p.Meets promise post' := by
  induction p generalizing post post' with
  | ret a => exact hpost a [] h
  | call o k ih => exact ⟨h.1, fun r hr => ih r (h.2 r hr) fun a es => hpost a _⟩

theorem Meets.and (h : p.Meets promise post) (h' : p.Meets promise post') :
    p.Meets promise fun a es => post a es ∧ post' a es := by
  induction p generalizing post post' with
  | ret a => exact ⟨h, h'⟩
  | call o k ih => exact ⟨h.1, fun r hr => ih r (h.2 r hr) (h'.2 r hr)⟩

/-- A promise can be kept up to the end of the program. -/
theorem Meets.exists (h : p.Meets promise post) : ∃ a es, p.Trace a es ∧
    (∀ e ∈ es, promise e.1 e.2) ∧ post a es := by
  induction p generalizing post with
  | ret a => exact ⟨a, [], .ret a, fun e he => absurd he List.not_mem_nil, h⟩
  | call o k ih =>
    obtain ⟨⟨r, hr⟩, hk⟩ := h
    obtain ⟨a, es, htrace, hes, hpost⟩ := ih r (hk r hr)
    exact ⟨a, _, .call r htrace, List.forall_mem_cons.mpr ⟨hr, hes⟩, hpost⟩

/-- An operation whose answer is promised to be `r₀`, at the head of a trace that is fixed by the
promise. -/
theorem Meets.call_eq {o : Op} {k : Res o → Prog Op Res α} {course : List ((o : Op) × Res o)}
    {r₀ : Res o} (hpromise : ∀ r, promise o r ↔ r = r₀)
    (h : (k r₀).Meets promise fun _ es => es = course) :
    (call o k).Meets promise fun _ es => es = ⟨o, r₀⟩ :: course := by
  refine meets_call.mpr ⟨⟨r₀, (hpromise r₀).mpr rfl⟩, fun r hr => ?_⟩
  obtain rfl := (hpromise r).mp hr
  exact h.mono fun _ es hes => congrArg _ hes

/-- Sequencing: the trace of the second program comes after that of the first. -/
theorem meets_bind {f : α → Prog Op Res β} {post : β → List ((o : Op) × Res o) → Prop} :
    (p >>= f).Meets promise post ↔
      p.Meets promise fun a es => (f a).Meets promise fun b es' => post b (es ++ es') := by
  induction p generalizing post with
  | ret a => exact Iff.rfl
  | call o k ih =>
    rw [call_bind, meets_call, meets_call]
    exact and_congr_right fun _ => forall₂_congr fun r _ => ih r

theorem Meets.bind {f : α → Prog Op Res β} {post' : β → List ((o : Op) × Res o) → Prop}
    (h : p.Meets promise post)
    (hf : ∀ a es, post a es → (f a).Meets promise fun b es' => post' b (es ++ es')) :
    (p >>= f).Meets promise post' :=
  meets_bind.mpr (h.mono hf)

/-- What a program performs whatever the answers are, it performs under any promise. -/
theorem All.meets {P : Op → Prop} (hp : p.All P) (hP : ∀ o, P o → ∃ r, promise o r) :
    p.Meets promise fun _ es => ∀ e ∈ es, P e.1 := by
  induction p with
  | ret a => exact fun e he => absurd he List.not_mem_nil
  | call o k ih =>
    refine ⟨hP o hp.1, fun r _ => (ih r (hp.2 r)).mono fun _ es hes => ?_⟩
    exact List.forall_mem_cons.mpr ⟨hp.1, hes⟩

/-- A trace with promised answers is one of those that have been spoken for. -/
theorem Meets.of_trace {a : α} {es : List ((o : Op) × Res o)} (h : p.Meets promise post)
    (htrace : p.Trace a es) (hes : ∀ e ∈ es, promise e.1 e.2) : post a es := by
  induction p generalizing post es with
  | ret b =>
    obtain ⟨rfl, rfl⟩ := trace_ret.mp htrace
    exact h
  | call o k ih =>
    obtain ⟨r, es', hk, rfl⟩ := trace_call.mp htrace
    rw [List.forall_mem_cons] at hes
    have hpost := ih r (h.2 r hes.1) hk hes.2
    exact hpost

/-! ## Programs that run inside others -/

section Embed

variable {Op' : Type} {Res' : Op' → Type} {emb : Op → Op'}

/-- A step of a program as a step of the program that it runs inside of. -/
def embStep (emb : Op → Op') (e : (o : Op) × Res' (emb o)) : (o : Op') × Res' o := ⟨emb e.1, e.2⟩

/-- A program over some of the operations of another one. -/
theorem Meets.embed {promise : (o : Op') → Res' o → Prop}
    {p : Prog Op (fun o => Res' (emb o)) α}
    {post : α → List ((o : Op) × Res' (emb o)) → Prop}
    (h : p.Meets (fun o r => promise (emb o) r) post) :
    (p.interp fun o => (op (emb o) : Prog Op' Res' (Res' (emb o)))).Meets promise
      fun a es => ∃ es', es = es'.map (embStep emb) ∧ post a es' := by
  induction p generalizing post with
  | ret a => exact ⟨[], rfl, h⟩
  | call o k ih =>
    refine ⟨h.1, fun r hr => (ih r (h.2 r hr)).mono ?_⟩
    rintro a es ⟨es', rfl, hes'⟩
    exact ⟨⟨o, r⟩ :: es', rfl, hes'⟩

end Embed

end Conc.Prog
