import UserIam.Conc.Machine

/-!
# Typestates

What one thread knows of the shared state, and how its own operations change that.  A program is
checked against the typestate by itself, with only the answers that its own knowledge leaves
possible; that the knowledge is true, and stays true while other threads run, is shown once for the
operations of the machine.
-/

namespace Conc

/-- `may` says when a thread may perform an operation, `next` what it knows after the answer (`none`
for an answer that cannot come), `fact` what holds of everything a thread comes to know, and `ends`
when it may stop. -/
structure Typestate (Op : Type) (Res : Op → Type) (V : Type) where
  may : V → Op → Prop
  next : V → (o : Op) → Res o → Option V
  fact : V → Prop
  ends : V → Prop

namespace Typestate

variable {Op : Type} {Res : Op → Type} {Env State Call : Type} {V : Type} {α β : Type}

/-! ## 1. Programs -/

/-- From the knowledge `v`, the program only does what it may and stops with a value and knowledge
that satisfy `Q`. -/
def Follows (ts : Typestate Op Res V) (Q : α → V → Prop) : V → Prog Op Res α → Prop
  | v, .ret a => Q a v
  | v, .call o k =>
    ts.may v o ∧ ∀ r v', ts.next v o r = some v' → ts.fact v' ∧ Follows ts Q v' (k r)

variable {ts : Typestate Op Res V} {Q : α → V → Prop} {v : V}

theorem Follows.mono {Q' : α → V → Prop} {p : Prog Op Res α} (hp : ts.Follows Q v p)
    (hQ : ∀ a v, Q a v → Q' a v) : ts.Follows Q' v p := by
  induction p generalizing v with
  | ret a => exact hQ a v hp
  | call o k ih =>
    refine ⟨hp.1, fun r v' hv' => ?_⟩
    obtain ⟨hfact, hk⟩ := hp.2 r v' hv'
    exact ⟨hfact, ih r hk⟩

/-- Sequencing: the second program starts with what the thread knows when the first one stops. -/
theorem Follows.bind {p : Prog Op Res α} {f : α → Prog Op Res β} {Q' : β → V → Prop}
    (hv : ts.fact v) (hp : ts.Follows Q v p)
    (hf : ∀ a v, ts.fact v → Q a v → ts.Follows Q' v (f a)) : ts.Follows Q' v (p >>= f) := by
  induction p generalizing v with
  | ret a => exact hf a v hv hp
  | call o k ih =>
    refine ⟨hp.1, fun r v' hv' => ?_⟩
    obtain ⟨hfact, hk⟩ := hp.2 r v' hv'
    exact ⟨hfact, ih r hfact hk⟩

/-- An operation that teaches nothing. -/
theorem Follows.skip {o : Op} {k : Res o → Prog Op Res α} (hmay : ts.may v o)
    (hnext : ∀ r v', ts.next v o r = some v' → v' = v) (hv : ts.fact v)
    (hk : ∀ r, ts.Follows Q v (k r)) : ts.Follows Q v (.call o k) := by
  refine ⟨hmay, fun r v' hv' => ?_⟩
  cases hnext r v' hv'
  exact ⟨hv, hk r⟩

/-- A program that teaches nothing. -/
theorem follows_of_all {p : Prog Op Res α} (hv : ts.fact v)
    (hp : p.All fun o => ts.may v o ∧ ∀ r v', ts.next v o r = some v' → v' = v) :
    ts.Follows (fun _ v' => v' = v) v p := by
  induction p with
  | ret a => rfl
  | call o k ih => exact .skip hp.1.1 hp.1.2 hv fun r => ih r (hp.2 r)

/-! ## 2. Runs -/

variable {m : Machine Op Res Env State Call}
  {ok : World Op Res State Call → Move Op Env Call → Prop} {inv : World Op Res State Call → Prop}
  {link : World Op Res State Call → Nat → V → Prop}

/-- The knowledge of a thread is true when it starts, it stays true while the thread performs what
it may, and while other threads do; so does an invariant of the whole machine. -/
structure Sound (ts : Typestate Op Res V) (m : Machine Op Res Env State Call)
    (ok : World Op Res State Call → Move Op Env Call → Prop) (inv : World Op Res State Call → Prop)
    (link : World Op Res State Call → Nat → V → Prop) : Prop where
  start : ∀ {w tid call s}, inv w → w.Fresh tid → ok w (.spawn tid call) →
    m.accept call w.state = some s → inv (w.push s (.spawn tid call)) ∧
      ∃ v, link (w.push s (.spawn tid call)) tid v ∧ ts.fact v ∧
        ts.Follows (fun _ => ts.ends) v (m.body call)
  spawn : ∀ {w t v tid call s}, link w t v → t ≠ tid → m.accept call w.state = some s →
    link (w.push s (.spawn tid call)) t v
  own : ∀ {w tid v o env}, inv w → link w tid v → ts.fact v → ts.may v o →
    m.enabled tid o env w.state = true → ok w (.op tid o env) →
      inv (m.perform w tid o env) ∧
        ∃ v', ts.next v o (m.answer w tid o env) = some v' ∧ link (m.perform w tid o env) tid v'
  other : ∀ {w t u tid v o env}, t ≠ tid → link w t u → link w tid v → ts.fact u → ts.fact v →
    ts.may v o → m.enabled tid o env w.state = true → link (m.perform w tid o env) t u

/-- **The rule for typestates.**  Every thread of a run has knowledge that is true, and what it
still has to do follows the typestate from there. -/
theorem Sound.reachable (h : ts.Sound m ok inv link) {s₀ : State} (hinit : inv ⟨s₀, []⟩)
    {c : Config Op Res State Call} (hc : m.Reachable ok s₀ c) :
    inv c.world ∧ ∀ tid p, c.threads[tid]? = some p →
      ∃ v, link c.world tid v ∧ ts.fact v ∧ ts.Follows (fun _ => ts.ends) v p := by
  induction hc with
  | init => exact ⟨hinit, by simp⟩
  | @spawn c call s hc hok hs ih =>
    obtain ⟨hinv, hthreads⟩ := ih
    obtain ⟨hinv', hstart⟩ := h.start hinv hc.fresh hok hs
    refine ⟨hinv', fun tid p hp => ?_⟩
    rcases Nat.lt_trichotomy tid c.threads.length with hlt | rfl | hgt
    · rw [List.getElem?_append_left hlt] at hp
      obtain ⟨v, hlink, hfact, hfollows⟩ := hthreads tid p hp
      exact ⟨v, h.spawn hlink (Nat.ne_of_lt hlt) hs, hfact, hfollows⟩
    · simp only [List.getElem?_concat_length, Option.some.injEq] at hp
      exact hp ▸ hstart
    · have := (List.getElem?_eq_some_iff.mp hp).1
      simp only [List.length_append, List.length_singleton] at this
      omega
  | @run c t o k env hc hok ht hen ih =>
    obtain ⟨hinv, hthreads⟩ := ih
    obtain ⟨v, hlink, hfact, hmay, hnext⟩ := hthreads t _ ht
    obtain ⟨hinv', v', hv', hlink'⟩ := h.own hinv hlink hfact hmay hen hok
    refine ⟨hinv', fun tid p hp => ?_⟩
    by_cases htid : tid = t
    · subst htid
      rw [List.getElem?_set_self (List.getElem?_eq_some_iff.mp ht).1] at hp
      cases hp
      exact ⟨v', hlink', hnext _ v' hv'⟩
    · rw [List.getElem?_set_ne (Ne.symm htid)] at hp
      obtain ⟨u, hu, hfactu, hfollows⟩ := hthreads tid p hp
      exact ⟨u, h.other htid hu hlink hfactu hfact hmay hen, hfactu, hfollows⟩

/-- The same for the thread of an event. -/
theorem Sound.of_mem (h : ts.Sound m ok inv link) {s₀ : State} (hinit : inv ⟨s₀, []⟩)
    {c : Config Op Res State Call} (hc : m.Reachable ok s₀ c) {e : Event Op Res Call}
    (he : e ∈ c.world.trace) : ∃ v, link c.world e.tid v ∧ ts.fact v := by
  have hlt := hc.fresh e he
  obtain ⟨v, hlink, hfact, -⟩ :=
    (h.reachable hinit hc).2 e.tid _ (List.getElem?_eq_getElem hlt)
  exact ⟨v, hlink, hfact⟩

end Typestate

end Conc
