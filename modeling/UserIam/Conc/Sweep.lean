import UserIam.Conc.Machine

/-!
# Sweeps

A thread goes through the parts of a system one after the other, while other threads go on working.
A part may change again behind it.  What can be said when the thread is through is that whatever a
part then holds is newer than the sweep.
-/

namespace Conc.Machine

variable {Op : Type} {Res : Op → Type} {Env State Call : Type} {α β : Type} {Part Item : Type}

/-! ## 1. Programs -/

section Programs

/-- From the parts `todo` that are still to be visited, the program stops with a value and parts
that satisfy `Q`.  An answer may say of a part that no visit is needed any more. -/
def Covers (clears : (o : Op) → Res o → Part → Prop) (Q : α → (Part → Prop) → Prop) :
    (Part → Prop) → Prog Op Res α → Prop
  | todo, .ret a => Q a todo
  | todo, .call o k => ∀ r, Covers clears Q (fun d => todo d ∧ ¬clears o r d) (k r)

variable {clears : (o : Op) → Res o → Part → Prop} {Q : α → (Part → Prop) → Prop}
  {todo : Part → Prop}

theorem Covers.bind {p : Prog Op Res α} {f : α → Prog Op Res β} {Q' : β → (Part → Prop) → Prop}
    (hp : Covers clears Q todo p) (hf : ∀ a todo, Q a todo → Covers clears Q' todo (f a)) :
    Covers clears Q' todo (p >>= f) := by
  induction p generalizing todo with
  | ret a => exact hf a todo hp
  | call o k ih => exact fun r => ih r (hp r)

/-- Visits these parts in their order. -/
def visitEach (visit : Part → Op) : List Part → Prog Op Res Unit
  | [] => .ret ()
  | d :: ds => .call (visit d) fun _ => visitEach visit ds

/-- When the parts that are left are on the list, none is left behind it. -/
theorem covers_visitEach {visit : Part → Op} (hvisit : ∀ d r, clears (visit d) r d)
    {ds : List Part} (htodo : ∀ d, todo d → d ∈ ds) :
    Covers clears (fun _ todo => ∀ d, ¬todo d) todo
      (visitEach visit ds : Prog Op Res Unit) := by
  induction ds generalizing todo with
  | nil => exact fun d hd => List.not_mem_nil (htodo d hd)
  | cons d₀ ds ih =>
    refine fun r => ih fun d hd => ?_
    obtain ⟨hd, hclears⟩ := hd
    rcases List.mem_cons.mp (htodo d hd) with rfl | hmem
    · exact absurd (hvisit d r) hclears
    · exact hmem

end Programs

/-! ## 2. Runs -/

variable {m : Machine Op Res Env State Call}
  {ok : World Op Res State Call → Move Op Env Call → Prop}

/-- `holds` says what a part holds, and `renews` which of it is new with an event.  A part comes to
hold something by an event that renews it, and after an answer that clears a part all that it holds
is new. -/
structure Sweeping (m : Machine Op Res Env State Call)
    (ok : World Op Res State Call → Move Op Env Call → Prop) (holds : State → Part → Item → Prop)
    (renews : Event Op Res Call → Part → Item → Prop) (clears : (o : Op) → Res o → Part → Prop) :
    Prop where
  accept : ∀ {call s s' d x}, m.accept call s = some s' → holds s' d x → holds s d x
  grows : ∀ {w tid o env d x}, ok w (.op tid o env) → holds (m.perform w tid o env).state d x →
    holds w.state d x ∨ renews (.op tid o (m.answer w tid o env)) d x
  visits : ∀ {w tid o env d x}, ok w (.op tid o env) → clears o (m.answer w tid o env) d →
    holds (m.perform w tid o env).state d x → renews (.op tid o (m.answer w tid o env)) d x

variable {holds : State → Part → Item → Prop} {renews : Event Op Res Call → Part → Item → Prop}
  {clears : (o : Op) → Res o → Part → Prop}

/-- Whatever the part holds is new with one of the events. -/
def Renewed (holds : State → Part → Item → Prop) (renews : Event Op Res Call → Part → Item → Prop)
    (s : State) (es : List (Event Op Res Call)) (d : Part) : Prop :=
  ∀ x, holds s d x → ∃ e ∈ es, renews e d x

theorem Renewed.accept (h : Sweeping m ok holds renews clears) {call : Call} {s s' : State}
    {es : List (Event Op Res Call)} {d : Part} (hd : Renewed holds renews s es d)
    (hs : m.accept call s = some s') (e : Event Op Res Call) :
    Renewed holds renews s' (es ++ [e]) d := by
  intro x hx
  obtain ⟨e', he', hrenews⟩ := hd x (h.accept hs hx)
  exact ⟨e', List.mem_append_left _ he', hrenews⟩

theorem Renewed.perform (h : Sweeping m ok holds renews clears) {w : World Op Res State Call}
    {tid : Nat} {o : Op} {env : Env} {es : List (Event Op Res Call)} {d : Part}
    (hok : ok w (.op tid o env))
    (hd : Renewed holds renews w.state es d ∨ clears o (m.answer w tid o env) d) :
    Renewed holds renews (m.perform w tid o env).state
      (es ++ [.op tid o (m.answer w tid o env)]) d := by
  intro x hx
  have hlast (hrenews : renews (.op tid o (m.answer w tid o env)) d x) :
      ∃ e ∈ es ++ [.op tid o (m.answer w tid o env)], renews e d x :=
    ⟨_, List.mem_append_right _ (List.mem_singleton_self _), hrenews⟩
  rcases hd with hd | hclears
  · rcases h.grows hok hx with hx | hrenews
    · obtain ⟨e, he, hrenews⟩ := hd x hx
      exact ⟨e, List.mem_append_left _ he, hrenews⟩
    · exact hlast hrenews
  · exact hlast (h.visits hok hclears hx)

/-- The events behind one event of a list that has grown. -/
theorem split_behind {ε : Type} {es pre post : List ε} {last e : ε}
    (h : es ++ [last] = pre ++ e :: post) :
    (es = pre ∧ last = e ∧ post = []) ∨
      ∃ post', es = pre ++ e :: post' ∧ post = post' ++ [last] := by
  rcases List.eq_nil_or_concat post with rfl | ⟨post', last', rfl⟩
  · obtain ⟨hes, hlast⟩ := List.append_inj' h rfl
    exact .inl ⟨hes, List.singleton_injective hlast, rfl⟩
  · rw [List.concat_eq_append, ← List.cons_append, ← List.append_assoc] at h
    obtain ⟨hes, hlast⟩ := List.append_inj' h rfl
    exact .inr ⟨post', hes, by rw [List.concat_eq_append, List.singleton_injective hlast]⟩

/-- While a thread is under way, all parts but those that it still has to visit are new since it was
started. -/
theorem Sweeping.reachable (h : Sweeping m ok holds renews clears) {s₀ : State}
    {c : Config Op Res State Call} (hc : m.Reachable ok s₀ c) {tid : Nat} {call : Call}
    (hcovers : Covers clears (fun _ todo => ∀ d, ¬todo d) (fun _ => True) (m.body call))
    {pre post : List (Event Op Res Call)} (hsplit : c.world.trace = pre ++ .spawn tid call :: post)
    {p : Prog Op Res Unit} (hp : c.threads[tid]? = some p) :
    ∃ todo : Part → Prop, Covers clears (fun _ todo => ∀ d, ¬todo d) todo p ∧
      ∀ d, ¬todo d → Renewed holds renews c.world.state post d := by
  induction hc generalizing post p with
  | init => cases List.append_ne_nil_of_right_ne_nil pre (List.cons_ne_nil _ post) hsplit.symm
  | @spawn c call' s hc _ hs ih =>
    rcases split_behind hsplit with ⟨-, hlast, rfl⟩ | ⟨post', htrace, rfl⟩
    · cases hlast
      rw [List.getElem?_concat_length, Option.some.injEq] at hp
      subst hp
      exact ⟨fun _ => True, hcovers, fun d hd => absurd trivial hd⟩
    · have hlt : tid < c.threads.length := hc.fresh (.spawn tid call) (by rw [htrace]; simp)
      rw [List.getElem?_append_left hlt] at hp
      obtain ⟨todo, htodo, hdone⟩ := ih htrace hp
      exact ⟨todo, htodo, fun d hd => (hdone d hd).accept h hs _⟩
  | @run c t o k env _ hok ht _ ih =>
    rcases split_behind hsplit with ⟨-, hlast, -⟩ | ⟨post', htrace, rfl⟩
    · cases hlast
    by_cases htid : t = tid
    · subst htid
      rw [List.getElem?_set_self (List.getElem?_eq_some_iff.mp ht).1] at hp
      cases hp
      obtain ⟨todo, htodo, hdone⟩ := ih htrace ht
      refine ⟨_, htodo _, fun d hd => Renewed.perform h hok ?_⟩
      by_cases hclears : clears o (m.answer c.world t o env) d
      · exact .inr hclears
      · exact .inl (hdone d fun htodo => hd ⟨htodo, hclears⟩)
    -- another thread has taken a step
    · rw [List.getElem?_set_ne htid] at hp
      obtain ⟨todo, htodo, hdone⟩ := ih htrace hp
      exact ⟨todo, htodo, fun d hd => Renewed.perform h hok (.inl (hdone d hd))⟩

/-- **Sweeps.**  When a call that visits all parts has returned, whatever a part holds is new since
the call was started. -/
theorem Sweeping.renewed (h : Sweeping m ok holds renews clears) {s₀ : State}
    {c : Config Op Res State Call} (hc : m.Reachable ok s₀ c) {tid : Nat} {call : Call}
    (hcovers : Covers clears (fun _ todo => ∀ d, ¬todo d) (fun _ => True) (m.body call))
    {pre post : List (Event Op Res Call)} (hsplit : c.world.trace = pre ++ .spawn tid call :: post)
    (hret : c.threads[tid]? = some (.ret ())) (d : Part) :
    Renewed holds renews c.world.state post d := by
  obtain ⟨todo, htodo, hdone⟩ := h.reachable hc hcovers hsplit hret
  exact hdone d (htodo d)

end Conc.Machine
