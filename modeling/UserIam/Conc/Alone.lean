import UserIam.Conc.Invariant

/-!
# A program that runs alone

What a thread does when no other thread takes a step between its first and its last operation: a
big-step semantics of programs over the operations of a machine.
-/

namespace Conc.Machine

variable {Op : Type} {Res : Op → Type} {Env State Call : Type} {α β : Type}

/-- From a state, the program stops with a value, a history and a state. -/
inductive Alone (m : Machine Op Res Env State Call) (tid : Nat) :
    {α : Type} → Prog Op Res α → State → α → List (Event Op Res Call) → State → Prop where
  | ret {α : Type} (a : α) (s : State) : Alone m tid (.ret a) s a [] s
  | call {α : Type} {o : Op} {k : Res o → Prog Op Res α} {s s' : State} {a : α}
      {es : List (Event Op Res Call)} (env : Env) (hen : m.enabled tid o env s = true)
      (hk : Alone m tid (k (m.handle tid o env s).1) (m.handle tid o env s).2 a es s') :
      Alone m tid (.call o k) s a (.op tid o (m.handle tid o env s).1 :: es) s'

/-- The same for given choices of the environment. -/
def alone (m : Machine Op Res Env State Call) (tid : Nat) :
    Prog Op Res α → State → List Env → Option (α × List (Event Op Res Call) × State)
  | .ret a, s, [] => some (a, [], s)
  | .call o k, s, env :: envs =>
    if m.enabled tid o env s then
      (alone m tid (k (m.handle tid o env s).1) (m.handle tid o env s).2 envs).map fun r =>
        (r.1, .op tid o (m.handle tid o env s).1 :: r.2.1, r.2.2)
    else none
  | _, _, _ => none

variable {m : Machine Op Res Env State Call} {tid : Nat} {s s' : State}
  {es : List (Event Op Res Call)}

theorem Alone.of_alone {p : Prog Op Res α} {a : α} {envs : List Env}
    (h : m.alone tid p s envs = some (a, es, s')) : m.Alone tid p s a es s' := by
  induction p generalizing s envs es with
  | ret b =>
    cases envs with
    | nil =>
      cases h
      exact .ret _ _
    | cons => cases h
  | call o k ih =>
    cases envs with
    | nil => cases h
    | cons env envs =>
      rw [alone] at h
      split at h
      · next hen =>
        obtain ⟨⟨b, es', s''⟩, hr, heq⟩ := Option.map_eq_some_iff.mp h
        cases heq
        exact .call env hen (ih _ hr)
      · cases h

theorem alone_ret {a b : α} :
    m.Alone tid (.ret a) s b es s' ↔ b = a ∧ es = [] ∧ s' = s := by
  constructor
  · rintro ⟨⟩
    exact ⟨rfl, rfl, rfl⟩
  · rintro ⟨rfl, rfl, rfl⟩
    exact .ret _ _

theorem alone_call {o : Op} {k : Res o → Prog Op Res α} {a : α} :
    m.Alone tid (.call o k) s a es s' ↔ ∃ env es', m.enabled tid o env s = true ∧
      m.Alone tid (k (m.handle tid o env s).1) (m.handle tid o env s).2 a es' s' ∧
        es = .op tid o (m.handle tid o env s).1 :: es' := by
  constructor
  · intro h
    cases h with
    | call env hen hk => exact ⟨env, _, hen, hk, rfl⟩
  · rintro ⟨env, es', hen, hk, rfl⟩
    exact .call env hen hk

/-- An operation that brings the machine into this state, whatever it answers. -/
theorem Alone.call_state {o : Op} {k : Res o → Prog Op Res α} {a : α} (s₁ : State)
    (hstate : ∀ env, (m.handle tid o env s).2 = s₁) (h : m.Alone tid (.call o k) s a es s') :
    ∃ r es', m.Alone tid (k r) s₁ a es' s' ∧ es = .op tid o r :: es' := by
  obtain ⟨env, es', -, hk, rfl⟩ := alone_call.mp h
  rw [hstate env] at hk
  exact ⟨_, es', hk, rfl⟩

/-- An operation whose answer the state decides. -/
theorem Alone.call_eq {o : Op} {k : Res o → Prog Op Res α} {a : α} (r : Res o) (s₁ : State)
    (heq : ∀ env, m.handle tid o env s = (r, s₁)) (h : m.Alone tid (.call o k) s a es s') :
    ∃ es', m.Alone tid (k r) s₁ a es' s' ∧ es = .op tid o r :: es' := by
  obtain ⟨env, es', -, hk, rfl⟩ := alone_call.mp h
  rw [heq env] at hk ⊢
  exact ⟨es', hk, rfl⟩

theorem alone_op_bind {o : Op} {f : Res o → Prog Op Res α} {a : α} :
    m.Alone tid (Prog.op o >>= f) s a es s' ↔ ∃ env es', m.enabled tid o env s = true ∧
      m.Alone tid (f (m.handle tid o env s).1) (m.handle tid o env s).2 a es' s' ∧
        es = .op tid o (m.handle tid o env s).1 :: es' :=
  alone_call

/-- Sequencing: the second program runs from where the first one stops. -/
theorem alone_bind {p : Prog Op Res α} {f : α → Prog Op Res β} {b : β} :
    m.Alone tid (p >>= f) s b es s' ↔ ∃ a s₁ es₁ es₂, m.Alone tid p s a es₁ s₁ ∧
      m.Alone tid (f a) s₁ b es₂ s' ∧ es = es₁ ++ es₂ := by
  induction p generalizing s es with
  | ret a =>
    constructor
    · intro h
      exact ⟨a, s, [], es, .ret a s, h, rfl⟩
    · rintro ⟨a', s₁, es₁, es₂, hp, hf, rfl⟩
      obtain ⟨rfl, rfl, rfl⟩ := alone_ret.mp hp
      exact hf
  | call o k ih =>
    rw [Prog.call_bind]
    constructor
    · intro h
      obtain ⟨env, es', hen, hk, rfl⟩ := alone_call.mp h
      obtain ⟨a, s₁, es₁, es₂, hp, hf, rfl⟩ := (ih _).mp hk
      exact ⟨a, s₁, _, es₂, .call env hen hp, hf, rfl⟩
    · rintro ⟨a, s₁, es₁, es₂, hp, hf, rfl⟩
      obtain ⟨env, es', hen, hk, rfl⟩ := alone_call.mp hp
      exact .call env hen ((ih _).mpr ⟨a, s₁, es', es₂, hk, hf, rfl⟩)

/-- What every operation of a class keeps is kept by a program of such operations. -/
theorem Alone.of_all {P : Op → Prop} {R : State → Prop}
    (hstep : ∀ o env s, P o → R s → R (m.handle tid o env s).2) {p : Prog Op Res α} {a : α}
    (hp : p.All P) (h : m.Alone tid p s a es s') (hR : R s) : R s' := by
  induction h with
  | ret => exact hR
  | call env _ _ ih => exact ih (hp.2 _) (hstep _ env _ hp.1 hR)

/-- The same for what is said about the state and the history that led to it. -/
theorem Alone.of_all_history {P : Op → Prop} {R : State → List (Event Op Res Call) → Prop}
    (hstep : ∀ o env s h, P o → R s h →
      R (m.handle tid o env s).2 (h ++ [Event.op tid o (m.handle tid o env s).1]))
    {p : Prog Op Res α} {a : α} (hp : p.All P) (h : m.Alone tid p s a es s')
    {es₀ : List (Event Op Res Call)} (hR : R s es₀) : R s' (es₀ ++ es) := by
  induction h generalizing es₀ with
  | ret =>
    rw [List.append_nil]
    exact hR
  | call env _ _ ih =>
    have hrest := ih (hp.2 _) (hstep _ env _ es₀ hp.1 hR)
    rw [List.append_assoc] at hrest
    exact hrest

/-- Where nothing ever waits, every program runs to its end. -/
theorem Alone.exists_of_enabled [Inhabited Env] (hen : ∀ o env s, m.enabled tid o env s = true)
    (p : Prog Op Res α) (s : State) :
    ∃ (a : α) (es : List (Event Op Res Call)) (s' : State), m.Alone tid p s a es s' := by
  induction p generalizing s with
  | ret a => exact ⟨a, [], s, .ret a s⟩
  | call o k ih =>
    obtain ⟨a, es, s', h⟩ := ih (m.handle tid o default s).1 (m.handle tid o default s).2
    exact ⟨a, _, s', .call default (hen o default s) h⟩

/-- A program performs its own operations only. -/
theorem Alone.ops {P : Op → Prop} {p : Prog Op Res α} {a : α} (hp : p.All P)
    (h : m.Alone tid p s a es s') {t : Nat} {o : Op} {r : Res o} (hop : .op t o r ∈ es) : P o := by
  induction h with
  | ret => cases hop
  | call env _ _ ih =>
    rcases List.mem_cons.mp hop with heq | hop
    · cases heq
      exact hp.1
    · exact ih (hp.2 _) hop

end Conc.Machine
