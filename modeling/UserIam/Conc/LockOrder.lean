import Mathlib.Logic.Relation
import UserIam.Conc.Mutex

/-!
# Lock order

A discipline says which mutex an operation takes or gives back, which one it has to be performed
under, and which mutexes a thread may take next.  Programs that follow it own what they work on;
programs that take mutexes in ascending order never wait for each other in a circle.
-/

namespace Conc.Machine

variable {Op : Type} {Res : Op → Type} {Env State Call : Type} {Id : Type} [DecidableEq Id]
  {α β : Type}

/-! ## 1. Programs -/

/-- `takes held id` lets a thread take `id` while it holds `held`; a program has to follow the
discipline only as long as every answer it gets is an `allowed` one. -/
structure LockDiscipline (Op : Type) (Res : Op → Type) (Id : Type) where
  kind : Op → Option (Id × Bool)
  guard : Op → Option Id
  takes : List Id → Id → Prop
  allowed : (o : Op) → Res o → Prop

/-- From the mutexes `held`, the program follows the discipline and stops with a value and mutexes
that satisfy `Q`. -/
def Locks (d : LockDiscipline Op Res Id) (Q : α → List Id → Prop) :
    List Id → Prog Op Res α → Prop
  | held, .ret a => Q a held
  | held, .call o k =>
    match d.kind o with
    | none => (∀ id, d.guard o = some id → id ∈ held) ∧
        ∀ r, d.allowed o r → Locks d Q held (k r)
    | some (id, true) => d.takes held id ∧ ∀ r, Locks d Q (id :: held) (k r)
    | some (id, false) => id ∈ held ∧ ∀ r, Locks d Q (held.erase id) (k r)

variable {d : LockDiscipline Op Res Id} {Q : α → List Id → Prop} {held : List Id} {o : Op}
  {k : Res o → Prog Op Res α} {id : Id}

theorem locks_call_of_none (ho : d.kind o = none) :
    Locks d Q held (.call o k) ↔ (∀ id, d.guard o = some id → id ∈ held) ∧
      ∀ r, d.allowed o r → Locks d Q held (k r) := by
  rw [Locks, ho]

theorem locks_call_lock (ho : d.kind o = some (id, true)) :
    Locks d Q held (.call o k) ↔ d.takes held id ∧ ∀ r, Locks d Q (id :: held) (k r) := by
  rw [Locks, ho]

theorem locks_call_unlock (ho : d.kind o = some (id, false)) :
    Locks d Q held (.call o k) ↔ id ∈ held ∧ ∀ r, Locks d Q (held.erase id) (k r) := by
  rw [Locks, ho]

/-- Sequencing: the second program starts with the mutexes that the first one leaves. -/
theorem Locks.bind {p : Prog Op Res α} {f : α → Prog Op Res β} {Q' : β → List Id → Prop}
    (hp : Locks d Q held p) (hf : ∀ a held, Q a held → Locks d Q' held (f a)) :
    Locks d Q' held (p >>= f) := by
  induction p generalizing held with
  | ret a => exact hf a held hp
  | call o k ih =>
    rw [Prog.call_bind]
    rcases ho : d.kind o with _ | ⟨id, _ | _⟩
    · rw [locks_call_of_none ho] at hp ⊢
      exact ⟨hp.1, fun r hr => ih r (hp.2 r hr)⟩
    · rw [locks_call_unlock ho] at hp ⊢
      exact ⟨hp.1, fun r => ih r (hp.2 r)⟩
    · rw [locks_call_lock ho] at hp ⊢
      exact ⟨hp.1, fun r => ih r (hp.2 r)⟩

/-- The operation neither takes nor gives back a mutex, and `held` is enough to perform it. -/
def LockDiscipline.Under (d : LockDiscipline Op Res Id) (held : List Id) (o : Op) : Prop :=
  d.kind o = none ∧ ∀ id, d.guard o = some id → id ∈ held

/-- A program that works with the mutexes it has. -/
theorem locks_of_all {p : Prog Op Res α} (hp : p.All (d.Under held)) :
    Locks d (fun _ held' => held' = held) held p := by
  induction p with
  | ret a => rfl
  | call o k ih =>
    rw [locks_call_of_none hp.1.1]
    exact ⟨hp.1.2, fun r _ => ih r (hp.2 r)⟩

/-! ## 2. Threads -/

variable {m : Machine Op Res Env State Call} {owner : State → Id → Option Nat} {s₀ : State}
  {ok : World Op Res State Call → Move Op Env Call → Prop} {c : Config Op Res State Call}

/-- The mutexes of a thread. -/
structure Held (owner : State → Id → Option Nat) (s : State) (tid : Nat) (held : List Id) :
    Prop where
  nodup : held.Nodup
  mem_iff : ∀ id, id ∈ held ↔ owner s id = some tid

/-- What a thread still has to do follows the discipline from the mutexes that it owns; before its
start and after its end it owns none. -/
def LockInv (d : LockDiscipline Op Res Id) (owner : State → Id → Option Nat)
    (c : Config Op Res State Call) : Prop :=
  ∀ tid, ∃ held, Held owner c.world.state tid held ∧
    (c.threads[tid]? = none → held = []) ∧
    ∀ p, c.threads[tid]? = some p → Locks d (fun _ held => held = []) held p

section Frame

omit [DecidableEq Id]

theorem Held.frame {s s' : State} {tid : Nat} (h : Held owner s tid held)
    (howner : ∀ id, owner s' id = some tid ↔ owner s id = some tid) : Held owner s' tid held :=
  ⟨h.nodup, fun id => (h.mem_iff id).trans (howner id).symm⟩

end Frame

theorem Held.lock {s s' : State} {tid : Nat} (h : Held owner s tid held)
    (hfree : owner s id = none) (howner : owner s' = Function.update (owner s) id (some tid)) :
    Held owner s' tid (id :: held) := by
  have hnot : id ∉ held := fun hmem => by
    have := (h.mem_iff id).mp hmem
    simp [hfree] at this
  refine ⟨List.nodup_cons.mpr ⟨hnot, h.nodup⟩, fun id' => ?_⟩
  rw [howner, List.mem_cons, h.mem_iff]
  by_cases hid : id' = id
  · subst hid
    simp
  · rw [Function.update_of_ne hid]
    simp [hid]

theorem Held.unlock {s s' : State} {tid : Nat} (h : Held owner s tid held)
    (howner : owner s' = Function.update (owner s) id none) :
    Held owner s' tid (held.erase id) := by
  refine ⟨h.nodup.erase id, fun id' => ?_⟩
  rw [howner, h.nodup.mem_erase_iff, h.mem_iff]
  by_cases hid : id' = id
  · subst hid
    simp
  · rw [Function.update_of_ne hid]
    simp [hid]

theorem lockInv_init (hfree : ∀ id, owner s₀ id = none) :
    LockInv d owner (⟨⟨s₀, []⟩, []⟩ : Config Op Res State Call) :=
  fun tid => ⟨[], ⟨List.nodup_nil, by simp [hfree]⟩, fun _ => rfl, by simp⟩

theorem LockInv.spawn (hm : m.Mutex d.kind owner) {call : Call} {s : State}
    (hbody : Locks d (fun _ held => held = []) [] (m.body call)) (hc : LockInv d owner c)
    (hs : m.accept call c.world.state = some s) :
    LockInv d owner
      ⟨c.world.push s (.spawn c.threads.length call), c.threads ++ [m.body call]⟩ := by
  intro tid
  obtain ⟨held, hheld, hnone, hsome⟩ := hc tid
  have hframe : Held owner s tid held := hheld.frame fun id => by rw [hm.accept hs]
  refine ⟨held, hframe, fun h => hnone ?_, fun p hp => ?_⟩
  · rw [List.getElem?_eq_none_iff] at h ⊢
    rw [List.length_append] at h
    omega
  · rcases Nat.lt_trichotomy tid c.threads.length with hlt | rfl | hgt
    · rw [List.getElem?_append_left hlt] at hp
      exact hsome p hp
    · rw [hnone (by simp)]
      simp only [List.getElem?_concat_length, Option.some.injEq] at hp
      exact hp ▸ hbody
    · have := (List.getElem?_eq_some_iff.mp hp).1
      simp at this
      omega

/-- One operation: its thread follows the discipline with the mutexes it owns afterwards, and the
others keep theirs. -/
theorem LockInv.run (hm : m.Mutex d.kind owner) {t : Nat} {o : Op} {k : Res o → Prog Op Res Unit}
    {env : Env} (hc : LockInv d owner c) (hallowed : d.allowed o (m.answer c.world t o env))
    (ht : c.threads[t]? = some (.call o k)) (hen : m.enabled t o env c.world.state = true) :
    LockInv d owner
      ⟨m.perform c.world t o env, c.threads.set t (k (m.answer c.world t o env))⟩ := by
  have hlt := (List.getElem?_eq_some_iff.mp ht).1
  obtain ⟨held, hheld, -, hsome⟩ := hc t
  have hlocks := hsome _ ht
  -- the thread itself, and which mutexes change hands
  have hown : ∃ held', Held owner (m.handle t o env c.world.state).2 t held' ∧
      Locks d (fun _ held => held = []) held' (k (m.answer c.world t o env)) ∧
      ∀ tid ≠ t, ∀ id, owner (m.handle t o env c.world.state).2 id = some tid ↔
        owner c.world.state id = some tid := by
    rcases ho : d.kind o with _ | ⟨id, _ | _⟩
    · rw [locks_call_of_none ho] at hlocks
      have hother : owner (m.handle t o env c.world.state).2 = _ := hm.other ho
      exact ⟨held, hheld.frame fun id => by rw [hother], hlocks.2 _ hallowed,
        fun tid _ id => by rw [hother]⟩
    · rw [locks_call_unlock ho] at hlocks
      have hunlocks : owner (m.handle t o env c.world.state).2 = _ := hm.unlocks ho
      refine ⟨held.erase id, hheld.unlock hunlocks, hlocks.2 _, fun tid htid id' => ?_⟩
      rw [hunlocks]
      by_cases hid : id' = id
      · subst hid
        rw [Function.update_self, (hheld.mem_iff id').mp hlocks.1]
        simp [Ne.symm htid]
      · rw [Function.update_of_ne hid]
    · rw [locks_call_lock ho] at hlocks
      have hlock : owner (m.handle t o env c.world.state).2 = _ := hm.locks ho
      have hfree := hm.free ho hen
      refine ⟨id :: held, hheld.lock hfree hlock, hlocks.2 _, fun tid htid id' => ?_⟩
      rw [hlock]
      by_cases hid : id' = id
      · subst hid
        rw [Function.update_self, hfree]
        simp [Ne.symm htid]
      · rw [Function.update_of_ne hid]
  obtain ⟨held', hheld', hlocks', hothers⟩ := hown
  intro tid
  by_cases htid : tid = t
  · subst htid
    refine ⟨held', hheld', fun h => ?_, fun p hp => ?_⟩
    · simp [hlt] at h
    · rw [List.getElem?_set_self hlt] at hp
      cases hp
      exact hlocks'
  · obtain ⟨held, hheld, hnone, hsome⟩ := hc tid
    refine ⟨held, hheld.frame (hothers tid htid), fun h => hnone ?_, fun p hp => hsome p ?_⟩
    · rwa [List.getElem?_set_ne (Ne.symm htid)] at h
    · rwa [List.getElem?_set_ne (Ne.symm htid)] at hp

/-- **The rule for lock disciplines.**  When the program of every call follows the discipline, every
thread of a run does. -/
theorem reachable_lockInv (hm : m.Mutex d.kind owner) (hfree : ∀ id, owner s₀ id = none)
    (hbody : ∀ call, Locks d (fun _ held => held = []) [] (m.body call))
    (hallowed : ∀ w tid o env, ok w (.op tid o env) → d.allowed o (m.answer w tid o env))
    (hc : m.Reachable ok s₀ c) : LockInv d owner c := by
  induction hc with
  | init => exact lockInv_init hfree
  | spawn _ _ hs ih => exact ih.spawn hm (hbody _) hs
  | run _ hok ht hen ih => exact ih.run hm (hallowed _ _ _ _ hok) ht hen

/-! ## 3. Guarded operations -/

/-- A thread that performs a guarded operation, or gives a mutex back, owns the mutex. -/
def Guards (d : LockDiscipline Op Res Id) (owner : State → Id → Option Nat)
    (w : World Op Res State Call) : Move Op Env Call → Prop
  | .spawn .. => True
  | .op tid o _ => (d.kind o = none → ∀ id, d.guard o = some id → owner w.state id = some tid) ∧
      ∀ id, d.kind o = some (id, false) → owner w.state id = some tid

theorem LockInv.guards {tid : Nat} {o : Op} {k : Res o → Prog Op Res Unit} (hc : LockInv d owner c)
    (ht : c.threads[tid]? = some (.call o k)) (env : Env) :
    Guards d owner c.world (.op tid o env : Move Op Env Call) := by
  obtain ⟨held, hheld, -, hsome⟩ := hc tid
  have hlocks := hsome _ ht
  constructor
  · intro ho id hid
    rw [locks_call_of_none ho] at hlocks
    exact (hheld.mem_iff id).mp (hlocks.1 id hid)
  · intro id ho
    rw [locks_call_unlock ho] at hlocks
    exact (hheld.mem_iff id).mp hlocks.1

/-- In a run of programs that follow the discipline every step does. -/
theorem Reachable.guarded (hm : m.Mutex d.kind owner) (hfree : ∀ id, owner s₀ id = none)
    (hbody : ∀ call, Locks d (fun _ held => held = []) [] (m.body call))
    (hallowed : ∀ w tid o env, ok w (.op tid o env) → d.allowed o (m.answer w tid o env))
    (hc : m.Reachable ok s₀ c) :
    m.Reachable (fun w mv => ok w mv ∧ Guards d owner w mv) s₀ c := by
  induction hc with
  | init => exact .init
  | spawn _ hok hs ih => exact .spawn ih ⟨hok, trivial⟩ hs
  | @run c t o k env hc hok ht hen ih =>
    have hinv := reachable_lockInv hm hfree hbody hallowed hc
    exact .run ih ⟨hok, hinv.guards ht env⟩ ht hen

/-! ## 4. Waiting -/

/-- Thread `t` is about to take a mutex that `t'` owns. -/
def WaitsFor (kind : Op → Option (Id × Bool)) (owner : State → Id → Option Nat)
    (c : Config Op Res State Call) (t t' : Nat) : Prop :=
  ∃ o k id, c.threads[t]? = some (.call o k) ∧ kind o = some (id, true) ∧
    owner c.world.state id = some t'

/-- The discipline lets a thread take only mutexes above those it holds. -/
def LockDiscipline.Ascending (d : LockDiscipline Op Res Id) (rank : Id → Nat) : Prop :=
  ∀ held id, d.takes held id → ∀ id' ∈ held, rank id' < rank id

/-- A thread waits for a mutex of this rank. -/
def Awaits (kind : Op → Option (Id × Bool)) (rank : Id → Nat) (c : Config Op Res State Call)
    (t n : Nat) : Prop :=
  ∃ o k id, c.threads[t]? = some (.call o k) ∧ kind o = some (id, true) ∧ rank id = n

variable {rank : Id → Nat} {t t' n : Nat}

omit [DecidableEq Id] in
theorem Awaits.unique {kind : Op → Option (Id × Bool)} {n' : Nat} (h : Awaits kind rank c t n)
    (h' : Awaits kind rank c t n') : n = n' := by
  obtain ⟨o, k, id, ht, ho, rfl⟩ := h
  obtain ⟨o', k', id', ht', ho', rfl⟩ := h'
  cases ht.symm.trans ht'
  cases ho.symm.trans ho'
  rfl

omit [DecidableEq Id] in
theorem WaitsFor.awaits {kind : Op → Option (Id × Bool)} (h : WaitsFor kind owner c t t')
    (rank : Id → Nat) : ∃ n, Awaits kind rank c t n := by
  obtain ⟨o, k, id, ht, ho, -⟩ := h
  exact ⟨_, o, k, id, ht, ho, rfl⟩

/-- Whoever is waited for waits for a mutex of higher rank, if at all. -/
theorem LockInv.awaits_lt (hd : d.Ascending rank) (hc : LockInv d owner c) {n' : Nat}
    (hwait : WaitsFor d.kind owner c t t') (h : Awaits d.kind rank c t n)
    (h' : Awaits d.kind rank c t' n') : n < n' := by
  obtain ⟨o, k, id, ht, ho, howner⟩ := hwait
  obtain ⟨o', k', id', ht', ho', rfl⟩ := h'
  have hn : rank id = n := Awaits.unique ⟨o, k, id, ht, ho, rfl⟩ h
  obtain ⟨held, hheld, -, hsome⟩ := hc t'
  have hlocks := hsome _ ht'
  rw [locks_call_lock ho'] at hlocks
  rw [← hn]
  exact hd held id' hlocks.1 id ((hheld.mem_iff id).mpr howner)

theorem LockInv.awaits_lt_of_transGen (hd : d.Ascending rank) (hc : LockInv d owner c) {n' : Nat}
    (hwait : Relation.TransGen (WaitsFor d.kind owner c) t t') (h : Awaits d.kind rank c t n)
    (h' : Awaits d.kind rank c t' n') : n < n' := by
  induction hwait generalizing n' with
  | single hwait => exact hc.awaits_lt hd hwait h h'
  | tail _ hwait ih =>
    obtain ⟨n'', hn''⟩ := hwait.awaits rank
    exact Nat.lt_trans (ih hn'') (hc.awaits_lt hd hwait hn'' h')

/-- **No circular waiting.**  In particular no thread waits for itself, and no two threads wait for
each other. -/
theorem LockInv.acyclic (hd : d.Ascending rank) (hc : LockInv d owner c) (t : Nat) :
    ¬Relation.TransGen (WaitsFor d.kind owner c) t t := by
  intro h
  obtain ⟨t', hwait, -⟩ := Relation.TransGen.head'_iff.mp h
  obtain ⟨n, hn⟩ := hwait.awaits rank
  exact Nat.lt_irrefl n (hc.awaits_lt_of_transGen hd h hn hn)

/-- A thread can perform its next operation. -/
def CanStep (m : Machine Op Res Env State Call) (c : Config Op Res State Call) (t : Nat) : Prop :=
  ∃ o k env, c.threads[t]? = some (.call o k) ∧ m.enabled t o env c.world.state = true

/-- Whoever owns a mutex has not returned. -/
theorem LockInv.owner_runs (hc : LockInv d owner c) (howner : owner c.world.state id = some t) :
    ∃ o k, c.threads[t]? = some (.call o k) := by
  obtain ⟨held, hheld, hnone, hsome⟩ := hc t
  have hmem := (hheld.mem_iff id).mpr howner
  rcases ht : c.threads[t]? with _ | p
  · simp [hnone ht] at hmem
  · cases p with
    | ret a =>
      have hnil : held = [] := hsome _ ht
      simp [hnil] at hmem
    | call o k => exact ⟨o, k, rfl⟩

/-- **Progress.**  A thread that has not returned can go on, or waits, over several others perhaps,
for one that can. -/
theorem LockInv.progress {bound : Nat} (hd : d.Ascending rank) (hc : LockInv d owner c)
    (hbound : ∀ id, rank id ≤ bound)
    (hlock : ∀ t o id, d.kind o = some (id, true) → owner c.world.state id = none →
      ∃ env, m.enabled t o env c.world.state = true)
    (hother : ∀ t o, (∀ id, d.kind o ≠ some (id, true)) →
      ∃ env, m.enabled t o env c.world.state = true)
    {p : Prog Op Res Unit} (ht : c.threads[t]? = some p) (hp : p ≠ .ret ()) :
    ∃ t', Relation.ReflTransGen (WaitsFor d.kind owner c) t t' ∧ CanStep m c t' := by
  -- by induction on how far the mutex it waits for is below the highest one
  have hgen : ∀ gap t o k, c.threads[t]? = some (.call o k) →
      (∀ id, d.kind o = some (id, true) → bound + 1 - rank id ≤ gap) →
      ∃ t', Relation.ReflTransGen (WaitsFor d.kind owner c) t t' ∧ CanStep m c t' := by
    intro gap
    induction gap with
    | zero =>
      intro t o k ht hgap
      obtain ⟨env, hen⟩ := hother t o fun id ho => by
        have := hgap id ho
        have := hbound id
        omega
      exact ⟨t, .refl, o, k, env, ht, hen⟩
    | succ gap ih =>
      intro t o k ht hgap
      -- A thread that takes no mutex can step; the owner of the mutex has a smaller gap.
      by_cases hkind : ∃ id, d.kind o = some (id, true)
      · obtain ⟨id, ho⟩ := hkind
        rcases howner : owner c.world.state id with _ | t'
        · obtain ⟨env, hen⟩ := hlock t o id ho howner
          exact ⟨t, .refl, o, k, env, ht, hen⟩
        · have hwait : WaitsFor d.kind owner c t t' := ⟨o, k, id, ht, ho, howner⟩
          obtain ⟨o', k', ht'⟩ := hc.owner_runs howner
          obtain ⟨t'', hwaits, hstep⟩ := ih t' o' k' ht' fun id' ho' => by
            have hlt := hc.awaits_lt hd hwait ⟨o, k, id, ht, ho, rfl⟩ ⟨o', k', id', ht', ho', rfl⟩
            have := hgap id ho
            omega
          exact ⟨t'', .head hwait hwaits, hstep⟩
      · obtain ⟨env, hen⟩ := hother t o fun id ho => hkind ⟨id, ho⟩
        exact ⟨t, .refl, o, k, env, ht, hen⟩
  cases p with
  | ret a => exact absurd rfl hp
  | call o k => exact hgen (bound + 1) t o k ht fun id _ => Nat.sub_le _ _

end Conc.Machine
