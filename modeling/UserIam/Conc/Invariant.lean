import UserIam.Conc.Machine

/-!
# Invariants of interleavings

`Keeps` is a weakest precondition on a thread's own history: it says that every operation of the
program preserves the invariant when it is performed in a world where the thread's own events are
the ones listed.  Programs are verified one at a time; `reachable_keeps` puts them together.
-/

namespace Conc.Machine

variable {Op : Type} {Res : Op → Type} {Env State Call : Type} {α β : Type}

section Keeps

variable (m : Machine Op Res Env State Call)
  (ok : World Op Res State Call → Move Op Env Call → Prop)
  (inv : World Op Res State Call → Prop) (tid : Nat)

/-- From its own events `h`, thread `tid` keeps `inv` while it runs the program and stops with a
value and own events that satisfy `Q`. -/
def Keeps : Prog Op Res α → (α → List (Event Op Res Call) → Prop) → List (Event Op Res Call) → Prop
  | .ret a, Q, h => Q a h
  | .call o k, Q, h => ∀ w env, inv w → w.own tid = h → m.enabled tid o env w.state = true →
      ok w (.op tid o env) →
      inv (m.perform w tid o env) ∧
        Keeps (k (m.answer w tid o env)) Q (h ++ [.op tid o (m.answer w tid o env)])

variable {m ok inv tid}

@[simp] theorem keeps_ret {a : α} {Q : α → List (Event Op Res Call) → Prop}
    {h : List (Event Op Res Call)} : m.Keeps ok inv tid (.ret a) Q h ↔ Q a h := Iff.rfl

theorem keeps_call {o : Op} {k : Res o → Prog Op Res α} {Q : α → List (Event Op Res Call) → Prop}
    {h : List (Event Op Res Call)} :
    m.Keeps ok inv tid (.call o k) Q h ↔
      ∀ w env, inv w → w.own tid = h → m.enabled tid o env w.state = true → ok w (.op tid o env) →
        inv (m.perform w tid o env) ∧
          m.Keeps ok inv tid (k (m.answer w tid o env)) Q
            (h ++ [Event.op tid o (m.answer w tid o env)]) := Iff.rfl

theorem Keeps.mono {p : Prog Op Res α} {Q Q' : α → List (Event Op Res Call) → Prop}
    {h : List (Event Op Res Call)} (hp : m.Keeps ok inv tid p Q h)
    (hQ : ∀ a h', Q a h' → Q' a h') : m.Keeps ok inv tid p Q' h := by
  induction p generalizing h with
  | ret a => exact hQ a h hp
  | call o k ih =>
    intro w env hw hown hen hok
    exact ⟨(hp w env hw hown hen hok).1, ih _ (hp w env hw hown hen hok).2⟩

/-- Sequencing: what the first program stops with is what the second one starts from. -/
theorem keeps_bind {p : Prog Op Res α} {f : α → Prog Op Res β}
    {Q : β → List (Event Op Res Call) → Prop} {h : List (Event Op Res Call)} :
    m.Keeps ok inv tid (p >>= f) Q h ↔
      m.Keeps ok inv tid p (fun a h' => m.Keeps ok inv tid (f a) Q h') h := by
  induction p generalizing h with
  | ret a => exact Iff.rfl
  | call o k ih =>
    simp only [Prog.call_bind, keeps_call, ih]

theorem Keeps.bind {p : Prog Op Res α} {f : α → Prog Op Res β}
    {Q : α → List (Event Op Res Call) → Prop} {Q' : β → List (Event Op Res Call) → Prop}
    {h : List (Event Op Res Call)} (hp : m.Keeps ok inv tid p Q h)
    (hf : ∀ a h', Q a h' → m.Keeps ok inv tid (f a) Q' h') :
    m.Keeps ok inv tid (p >>= f) Q' h :=
  keeps_bind.mpr (hp.mono hf)

/-- A program whose operations all belong to a class that keeps the invariant and a property of the
thread's history keeps both. -/
theorem Keeps.of_all {P : Op → Prop} {R : List (Event Op Res Call) → Prop}
    (hstep : ∀ w env o, P o → inv w → R (w.own tid) → m.enabled tid o env w.state = true →
      ok w (.op tid o env) →
      inv (m.perform w tid o env) ∧ R (w.own tid ++ [Event.op tid o (m.answer w tid o env)]))
    {p : Prog Op Res α} (hp : p.All P) {h : List (Event Op Res Call)} (hR : R h) :
    m.Keeps ok inv tid p (fun _ => R) h := by
  induction p generalizing h with
  | ret a => exact hR
  | call o k ih =>
    rintro w env hw rfl hen hok
    obtain ⟨hw', hR'⟩ := hstep w env o hp.1 hw hR hen hok
    exact ⟨hw', ih _ (hp.2 _) hR'⟩

end Keeps

/-- **The rule for interleavings.**  An invariant of the initial state that every call keeps when it
starts and while its program runs holds in every reachable world, and every thread still keeps it
from its own history. -/
theorem reachable_keeps {m : Machine Op Res Env State Call}
    {ok : World Op Res State Call → Move Op Env Call → Prop}
    {inv : World Op Res State Call → Prop} {Q : List (Event Op Res Call) → Prop} {s₀ : State}
    (hinit : inv ⟨s₀, []⟩)
    (hspawn : ∀ w tid call s, inv w → w.Fresh tid → ok w (.spawn tid call) →
      m.accept call w.state = some s →
      inv (w.push s (.spawn tid call)) ∧
        m.Keeps ok inv tid (m.body call) (fun _ => Q) [.spawn tid call])
    {c : Config Op Res State Call} (hc : m.Reachable ok s₀ c) :
    inv c.world ∧ ∀ tid p, c.threads[tid]? = some p →
      m.Keeps ok inv tid p (fun _ => Q) (c.world.own tid) := by
  induction hc with
  | init => exact ⟨hinit, by simp⟩
  | @spawn c call s hc hok hs ih =>
    obtain ⟨hinv, hthreads⟩ := ih
    have hfresh := hc.fresh
    obtain ⟨hinv', hbody⟩ := hspawn _ _ call s hinv hfresh hok hs
    refine ⟨hinv', fun tid p hp => ?_⟩
    -- the new thread, which has performed nothing
    by_cases ht : c.threads.length = tid
    · subst ht
      have hown := World.own_push_self c.world s (.spawn c.threads.length call)
      simp only [Event.tid_spawn, hfresh.own_eq_nil, List.nil_append] at hown
      rw [List.getElem?_append_right (Nat.le_refl _), Nat.sub_self] at hp
      cases hp
      rwa [hown]
    · have hlt : tid < c.threads.length := by
        have := (List.getElem?_eq_some_iff.mp hp).1
        simp only [List.length_append, List.length_singleton] at this
        omega
      rw [List.getElem?_append_left hlt] at hp
      rw [World.own_push_of_ne _ _ (by simpa using ht)]
      exact hthreads tid p hp
  | @run c tid o k env hc hok ht hen ih =>
    obtain ⟨hinv, hthreads⟩ := ih
    obtain ⟨hinv', hk⟩ := hthreads tid _ ht c.world env hinv rfl hen hok
    refine ⟨hinv', fun t p hp => ?_⟩
    -- the thread that has stepped
    by_cases htt : tid = t
    · subst htt
      rw [List.getElem?_set_self (List.getElem?_eq_some_iff.mp ht).1] at hp
      cases hp
      rwa [own_perform_self]
    · rw [List.getElem?_set_ne htt] at hp
      rw [own_perform_of_ne _ _ _ _ htt]
      exact hthreads t p hp

/-- A thread that has returned has a history its call may stop with. -/
theorem Keeps.of_returned {m : Machine Op Res Env State Call}
    {ok : World Op Res State Call → Move Op Env Call → Prop}
    {inv : World Op Res State Call → Prop} {tid : Nat} {p : Prog Op Res Unit}
    {Q : List (Event Op Res Call) → Prop} {h : List (Event Op Res Call)}
    (hk : m.Keeps ok inv tid p (fun _ => Q) h) (hp : p = .ret ()) : Q h := by
  subst hp
  exact hk

/-- What a call performs are operations of its program. -/
theorem Reachable.all_ops {m : Machine Op Res Env State Call}
    {ok : World Op Res State Call → Move Op Env Call → Prop} {s₀ : State} {P : Call → Op → Prop}
    {c : Config Op Res State Call} (hc : m.Reachable ok s₀ c) {tid : Nat} {call : Call}
    (hcall : .spawn tid call ∈ c.world.trace) (hP : (m.body call).All (P call)) :
    (∀ o r, .op tid o r ∈ c.world.trace → P call o) ∧
      ∀ p, c.threads[tid]? = some p → p.All (P call) := by
  induction hc with
  | init => cases hcall
  | @spawn c call' s hc _ _ ih =>
    have hfresh := hc.fresh
    rw [World.push_trace, List.mem_append, List.mem_singleton] at hcall
    -- the call has started before, or starts now
    rcases hcall with hcall | hcall
    · obtain ⟨hops, hthreads⟩ := ih hcall
      have hlt : tid < c.threads.length := hfresh _ hcall
      refine ⟨fun o r hop => hops o r (by simpa using hop), fun p hp => hthreads p ?_⟩
      rwa [List.getElem?_append_left hlt] at hp
    · cases hcall
      refine ⟨fun o r hop => ?_, fun p hp => ?_⟩
      · have hlt := hfresh (.op c.threads.length o r) (by simpa using hop)
        exact absurd hlt (Nat.lt_irrefl _)
      · rw [List.getElem?_append_right (Nat.le_refl _), Nat.sub_self] at hp
        cases hp
        exact hP
  | @run c t o k env _ _ ht _ ih =>
    obtain ⟨hops, hthreads⟩ := ih (by simpa [perform] using hcall)
    refine ⟨fun o' r hop => ?_, fun p hp => ?_⟩
    · simp only [perform, World.push_trace, List.mem_append, List.mem_singleton] at hop
      rcases hop with hop | hop
      · exact hops o' r hop
      · cases hop
        exact (hthreads _ ht).1
    · by_cases htid : t = tid
      · subst htid
        rw [List.getElem?_set_self (List.getElem?_eq_some_iff.mp ht).1] at hp
        cases hp
        exact (hthreads _ ht).2 _
      · rw [List.getElem?_set_ne htid] at hp
        exact hthreads p hp

/-! ## What one thread does by itself -/

section Along

variable {Mark : Type} {mark : Event Op Res Call → Option Mark} {tid : Nat} {S : List Mark → Prop}

/-- From the marks `l`, the thread's marks satisfy `S` whenever the program has performed an
operation, and `Q` when it stops, whatever the answers are. -/
def Along (mark : Event Op Res Call → Option Mark) (tid : Nat) (S : List Mark → Prop) :
    Prog Op Res α → (α → List Mark → Prop) → List Mark → Prop
  | .ret a, Q, l => Q a l
  | .call o k, Q, l => ∀ r, S (l ++ (mark (.op tid o r)).toList) ∧
      Along mark tid S (k r) Q (l ++ (mark (.op tid o r)).toList)

theorem Along.mono {p : Prog Op Res α} {Q Q' : α → List Mark → Prop} {l : List Mark}
    (hp : Along mark tid S p Q l) (hQ : ∀ a l, Q a l → Q' a l) : Along mark tid S p Q' l := by
  induction p generalizing l with
  | ret a => exact hQ a l hp
  | call o k ih => exact fun r => ⟨(hp r).1, ih r (hp r).2⟩

theorem Along.bind {p : Prog Op Res α} {f : α → Prog Op Res β} {Q : α → List Mark → Prop}
    {Q' : β → List Mark → Prop} {l : List Mark} (hp : Along mark tid S p Q l)
    (hf : ∀ a l, Q a l → Along mark tid S (f a) Q' l) : Along mark tid S (p >>= f) Q' l := by
  induction p generalizing l with
  | ret a => exact hf a l hp
  | call o k ih => exact fun r => ⟨(hp r).1, ih r (hp r).2⟩

/-- An operation without a mark. -/
theorem Along.skip {o : Op} {k : Res o → Prog Op Res α} {Q : α → List Mark → Prop} {l : List Mark}
    (hl : S l) (ho : ∀ r, mark (.op tid o r) = none) (hk : ∀ r, Along mark tid S (k r) Q l) :
    Along mark tid S (.call o k) Q l := by
  intro r
  rw [ho r, Option.toList_none, List.append_nil]
  exact ⟨hl, hk r⟩

/-- A program without marks. -/
theorem Along.of_all {p : Prog Op Res α} {l : List Mark} (hl : S l)
    (hp : p.All fun o => ∀ r, mark (.op tid o r) = none) :
    Along mark tid S p (fun _ l' => l' = l) l := by
  induction p with
  | ret a => rfl
  | call o k ih => exact .skip hl hp.1 fun r => ih r (hp.2 r)

/-- A program over some of the operations of another one. -/
theorem Along.embed {Op' : Type} {Res' : Op' → Type} {emb : Op → Op'}
    {mark' : Event Op' Res' Call → Option Mark}
    {mark : Event Op (fun o => Res' (emb o)) Call → Option Mark}
    {p : Prog Op (fun o => Res' (emb o)) α} {Q : α → List Mark → Prop} {l : List Mark}
    (hmark : ∀ o r, mark' (.op tid (emb o) r) = mark (.op tid o r))
    (hp : Along mark tid S p Q l) :
    Along mark' tid S (p.interp fun o => (Prog.op (emb o) : Prog Op' Res' (Res' (emb o)))) Q l := by
  induction p generalizing l with
  | ret a => exact hp
  | call o k ih =>
    intro r
    rw [hmark o r]
    exact ⟨(hp r).1, ih r (hp r).2⟩

/-- What holds along the program of every call holds of the marks of every thread. -/
theorem reachable_along {m : Machine Op Res Env State Call}
    {ok : World Op Res State Call → Move Op Env Call → Prop} {s₀ : State} {Q : List Mark → Prop}
    (hnil : S [])
    (hcall : ∀ tid call, S (mark (.spawn tid call)).toList ∧
      Along mark tid S (m.body call) (fun _ => Q) (mark (.spawn tid call)).toList)
    {c : Config Op Res State Call} (hc : m.Reachable ok s₀ c) (tid : Nat) :
    S (c.world.marks mark tid) ∧
      (c.threads[tid]? = some (.ret ()) → Q (c.world.marks mark tid)) := by
  let inv (w : World Op Res State Call) : Prop := ∀ t, S (w.marks mark t)
  have hpush {w : World Op Res State Call} {s : State} {e : Event Op Res Call} (hw : inv w)
      (he : S (w.marks mark e.tid ++ (mark e).toList)) : inv (w.push s e) := by
    intro t
    rw [World.marks_push]
    by_cases ht : t = e.tid
    · subst ht
      rwa [Function.update_self]
    · rw [Function.update_of_ne ht]
      exact hw t
  -- The marks of a thread are what its own events show, so its own history is enough.
  have hkeeps {t : Nat} {p : Prog Op Res Unit} {l : List Mark}
      (hp : Along mark t S p (fun _ => Q) l) {h : List (Event Op Res Call)}
      (hh : h.filterMap mark = l) :
      m.Keeps ok inv t p (fun _ h => Q (h.filterMap mark)) h := by
    induction p generalizing l h with
    | ret a =>
      subst hh
      exact hp
    | call o k ih =>
      intro w env hw hown _ _
      obtain ⟨hS, hk⟩ := hp (m.answer w t o env)
      refine ⟨hpush hw ?_, ih _ hk (World.filterMap_concat mark hh _)⟩
      rwa [Event.tid_op, World.marks, hown, hh]
  obtain ⟨hinv, hthreads⟩ := reachable_keeps (show inv ⟨s₀, []⟩ from fun _ => hnil)
    (fun w t call s hw hfresh _ _ => by
      obtain ⟨hS, hbody⟩ := hcall t call
      refine ⟨hpush hw ?_, hkeeps hbody ?_⟩
      · rwa [World.marks, Event.tid_spawn, hfresh.own_eq_nil]
      · cases hm : mark (.spawn t call) <;> simp [hm]) hc
  exact ⟨hinv tid, fun hret => hthreads tid _ hret⟩

end Along

end Conc.Machine
