import Mathlib.Data.List.Basic
import Mathlib.Data.List.Induction
import Mathlib.Data.List.Nodup
import Mathlib.Logic.Function.Basic
import UserIam.Conc.Prog

/-!
# Interleavings of programs

A machine runs any number of threads over one shared state.  A thread is a program; each of its
operations is one atomic step, and the environment may answer it in many ways.  The machine keeps
the history of all steps, so that a statement about a run can speak of what happened before.

The proof rule is history based: a thread's program point is the list of its own events, and an
invariant speaks about the shared state and about the events of all threads.
-/

namespace Conc

/-- What happened: thread `tid` was started for a call, or performed an operation. -/
inductive Event (Op : Type) (Res : Op → Type) (Call : Type) where
  | spawn (tid : Nat) (c : Call)
  | op (tid : Nat) (o : Op) (r : Res o)

/-- What is about to happen, before the answer is known. -/
inductive Move (Op Env Call : Type) where
  | spawn (tid : Nat) (c : Call)
  | op (tid : Nat) (o : Op) (env : Env)

/-- The shared state together with the history that led to it, oldest event first. -/
structure World (Op : Type) (Res : Op → Type) (State Call : Type) where
  state : State
  trace : List (Event Op Res Call)

/-- What the operations do.  `enabled` lets an operation wait (a lock) and rules out what the
environment cannot choose, `handle` computes the answer and the effect from the environment's
choice, `accept` starts a call and `body` is its program. -/
structure Machine (Op : Type) (Res : Op → Type) (Env State Call : Type) where
  enabled : Nat → Op → Env → State → Bool
  handle : Nat → (o : Op) → Env → State → Res o × State
  accept : Call → State → Option State
  body : Call → Prog Op Res Unit

/-- A machine in the middle of a run: thread `i` still has to run `threads[i]`. -/
structure Config (Op : Type) (Res : Op → Type) (State Call : Type) where
  world : World Op Res State Call
  threads : List (Prog Op Res Unit)

variable {Op : Type} {Res : Op → Type} {Env State Call : Type}

def Event.tid : Event Op Res Call → Nat
  | .spawn tid _ => tid
  | .op tid _ _ => tid

@[simp] theorem Event.tid_spawn (tid : Nat) (c : Call) :
    (Event.spawn tid c : Event Op Res Call).tid = tid := rfl

@[simp] theorem Event.tid_op (tid : Nat) (o : Op) (r : Res o) :
    (Event.op tid o r : Event Op Res Call).tid = tid := rfl

/-! ## Histories -/

namespace World

/-- The events of one thread. -/
def own (w : World Op Res State Call) (tid : Nat) : List (Event Op Res Call) :=
  w.trace.filter fun e => e.tid == tid

/-- An event of a sublist splits the whole list where the sublist is split. -/
theorem split_of_filter {α : Type} {p : α → Bool} {l h₁ h₂ : List α} {e : α}
    (h : l.filter p = h₁ ++ e :: h₂) :
    ∃ pre post, l = pre ++ e :: post ∧ pre.filter p = h₁ ∧ post.filter p = h₂ := by
  obtain ⟨pre, rest, rfl, hpre, hrest⟩ := List.filter_eq_append_iff.mp h
  obtain ⟨skip, post, rfl, hskip, -, hpost⟩ := List.filter_eq_cons_iff.mp hrest
  refine ⟨pre ++ skip, post, by simp, ?_, hpost⟩
  rw [List.filter_append, hpre, List.filter_eq_nil_iff.mpr hskip, List.append_nil]

/-- The history grows by one event and the state becomes `s`. -/
def push (w : World Op Res State Call) (s : State) (e : Event Op Res Call) :
    World Op Res State Call :=
  ⟨s, w.trace ++ [e]⟩

@[simp] theorem push_state (w : World Op Res State Call) (s : State) (e : Event Op Res Call) :
    (w.push s e).state = s := rfl

@[simp] theorem push_trace (w : World Op Res State Call) (s : State) (e : Event Op Res Call) :
    (w.push s e).trace = w.trace ++ [e] := rfl

theorem own_push_self (w : World Op Res State Call) (s : State) (e : Event Op Res Call) :
    (w.push s e).own e.tid = w.own e.tid ++ [e] := by
  simp [own, List.filter_append]

theorem own_push_of_ne (w : World Op Res State Call) (s : State) {e : Event Op Res Call} {tid : Nat}
    (h : e.tid ≠ tid) : (w.push s e).own tid = w.own tid := by
  simp [own, List.filter_append, h]

theorem mem_own {w : World Op Res State Call} {tid : Nat} {e : Event Op Res Call} :
    e ∈ w.own tid ↔ e ∈ w.trace ∧ e.tid = tid := by
  simp [own]

/-- An event belongs to the history of its own thread. -/
theorem mem_own_tid {w : World Op Res State Call} {e : Event Op Res Call} (h : e ∈ w.trace) :
    e ∈ w.own e.tid :=
  mem_own.mpr ⟨h, rfl⟩

/-! ### Marks -/

section Marks

variable {Mark : Type} (mark : Event Op Res Call → Option Mark)

theorem filterMap_concat {h : List (Event Op Res Call)} {marks : List Mark}
    (hh : h.filterMap mark = marks) (e : Event Op Res Call) :
    (h ++ [e]).filterMap mark = marks ++ (mark e).toList := by
  rw [List.filterMap_append, hh]
  cases hm : mark e <;> simp [hm]

/-- What a classification of the events keeps of one thread's history. -/
def marks (w : World Op Res State Call) (tid : Nat) : List Mark :=
  (w.own tid).filterMap mark

theorem marks_push (w : World Op Res State Call) (s : State) (e : Event Op Res Call) :
    (w.push s e).marks mark =
      Function.update (w.marks mark) e.tid (w.marks mark e.tid ++ (mark e).toList) := by
  funext tid
  by_cases h : tid = e.tid
  · subst h
    rw [Function.update_self, marks, own_push_self, filterMap_concat mark rfl, marks]
  · rw [Function.update_of_ne h, marks, own_push_of_ne _ _ (Ne.symm h), marks]

theorem mem_marks {w : World Op Res State Call} {tid : Nat} {k : Mark} :
    k ∈ w.marks mark tid ↔ ∃ e ∈ w.trace, e.tid = tid ∧ mark e = some k := by
  simp only [marks, List.mem_filterMap, mem_own, and_assoc]

theorem count_marks [DecidableEq Mark] (w : World Op Res State Call) (tid : Nat) (k : Mark) :
    (w.marks mark tid).count k = w.trace.countP fun e => mark e == some k && e.tid == tid := by
  rw [marks, own, List.count_filterMap, List.countP_filter]

end Marks

/-! ### Events and their past -/

/-- Every event of the history satisfies `P` together with the events before it. -/
def Each (P : List (Event Op Res Call) → Event Op Res Call → Prop) (w : World Op Res State Call) :
    Prop :=
  ∀ pre e post, w.trace = pre ++ e :: post → P pre e

/-- An event of a list that has grown by one is the new one, or was there before. -/
theorem split_concat {α : Type} {es pre post : List α} {last e : α}
    (h : es ++ [last] = pre ++ e :: post) :
    (es = pre ∧ last = e) ∨ ∃ post', es = pre ++ e :: post' := by
  rcases List.eq_nil_or_concat post with rfl | ⟨post', last', rfl⟩
  · obtain ⟨hes, hlast⟩ := List.append_inj' h rfl
    exact .inl ⟨hes, List.singleton_injective hlast⟩
  · rw [List.concat_eq_append, ← List.cons_append, ← List.append_assoc] at h
    exact .inr ⟨post', (List.append_inj' h rfl).1⟩

theorem each_push {P : List (Event Op Res Call) → Event Op Res Call → Prop}
    {w : World Op Res State Call} {s : State} {e : Event Op Res Call} :
    (w.push s e).Each P ↔ w.Each P ∧ P w.trace e := by
  constructor
  · intro h
    exact ⟨fun pre d post hd => h pre d (post ++ [e]) (by simp [hd]), h w.trace e [] rfl⟩
  · rintro ⟨h, he⟩ pre d post hd
    rcases split_concat hd with ⟨rfl, rfl⟩ | ⟨post', hpost⟩
    · exact he
    · exact h pre d post' hpost

/-- An event that has no other of its kind before it happens at most once. -/
theorem Each.countP_le_one {p : Event Op Res Call → Bool} {w : World Op Res State Call}
    (h : w.Each fun pre e => p e = true → pre.any p = false) : w.trace.countP p ≤ 1 := by
  obtain ⟨s, trace⟩ := w
  -- on the events from the last one
  induction trace using List.reverseRecOn with
  | nil => exact Nat.zero_le 1
  | append_singleton trace e ih =>
    obtain ⟨hbefore, he⟩ := (each_push (w := ⟨s, trace⟩) (s := s)).mp h
    show (trace ++ [e]).countP p ≤ 1
    rw [List.countP_append, List.countP_singleton]
    split
    · next hp =>
      have hnone : trace.countP p = 0 :=
        List.countP_eq_zero.mpr (List.any_eq_false.mp (he hp))
      omega
    · exact ih hbefore

/-- No event of the history belongs to `tid` or to a later thread. -/
def Fresh (w : World Op Res State Call) (tid : Nat) : Prop :=
  ∀ e ∈ w.trace, e.tid < tid

theorem Fresh.own_eq_nil {w : World Op Res State Call} {tid : Nat} (h : w.Fresh tid) :
    w.own tid = [] := by
  rw [own, List.filter_eq_nil_iff]
  intro e he
  have := h e he
  simp only [beq_iff_eq]
  omega

/-! ### Calls -/

/-- The threads that were started for a call of a kind. -/
def spawned (p : Call → Bool) (w : World Op Res State Call) : List Nat :=
  w.trace.filterMap fun
    | .spawn tid c => if p c then some tid else none
    | .op .. => none

theorem mem_spawned {p : Call → Bool} {w : World Op Res State Call} {tid : Nat} :
    tid ∈ w.spawned p ↔ ∃ c, .spawn tid c ∈ w.trace ∧ p c = true := by
  rw [spawned, List.mem_filterMap]
  constructor
  · rintro ⟨e, he, h⟩
    cases e with
    | spawn t c =>
      simp only [Option.ite_none_right_eq_some, Option.some.injEq] at h
      obtain ⟨hp, rfl⟩ := h
      exact ⟨c, he, hp⟩
    | op => cases h
  · rintro ⟨c, hc, hp⟩
    exact ⟨_, hc, if_pos hp⟩

theorem spawned_push {p : Call → Bool} {w : World Op Res State Call} {s : State} {tid : Nat}
    {c : Call} : (w.push s (.spawn tid c)).spawned p =
      w.spawned p ++ if p c then [tid] else [] := by
  rw [spawned, push_trace, List.filterMap_append, spawned]
  cases h : p c <;> simp [h]

theorem spawned_push_op {p : Call → Bool} {w : World Op Res State Call} {s : State} {tid : Nat}
    {o : Op} {r : Res o} : (w.push s (.op tid o r)).spawned p = w.spawned p := by
  rw [spawned, push_trace, List.filterMap_append, spawned]
  simp

end World

namespace Machine

variable (m : Machine Op Res Env State Call)

/-- The answer to an operation that thread `tid` performs. -/
def answer (w : World Op Res State Call) (tid : Nat) (o : Op) (env : Env) : Res o :=
  (m.handle tid o env w.state).1

/-- The world after thread `tid` has performed an operation. -/
def perform (w : World Op Res State Call) (tid : Nat) (o : Op) (env : Env) :
    World Op Res State Call :=
  w.push (m.handle tid o env w.state).2 (.op tid o (m.answer w tid o env))

theorem own_perform_self (w : World Op Res State Call) (tid : Nat) (o : Op) (env : Env) :
    (m.perform w tid o env).own tid = w.own tid ++ [Event.op tid o (m.answer w tid o env)] :=
  World.own_push_self _ _ (.op tid o _)

theorem own_perform_of_ne (w : World Op Res State Call) {tid t : Nat} (o : Op) (env : Env)
    (h : tid ≠ t) : (m.perform w tid o env).own t = w.own t :=
  World.own_push_of_ne _ _ h

section Marks

variable {Mark : Type} (mark : Event Op Res Call → Option Mark)

theorem marks_perform_self (w : World Op Res State Call) (tid : Nat) (o : Op) (env : Env) :
    (m.perform w tid o env).marks mark tid =
      w.marks mark tid ++ (mark (.op tid o (m.answer w tid o env))).toList := by
  rw [World.marks, own_perform_self, World.filterMap_concat mark rfl, World.marks]

theorem marks_perform_of_ne (w : World Op Res State Call) {tid t : Nat} (o : Op) (env : Env)
    (h : tid ≠ t) : (m.perform w tid o env).marks mark t = w.marks mark t := by
  rw [World.marks, own_perform_of_ne _ _ _ _ h, World.marks]

theorem marks_perform_of_none (w : World Op Res State Call) {tid : Nat} {o : Op} {env : Env}
    (h : mark (.op tid o (m.answer w tid o env)) = none) (t : Nat) :
    (m.perform w tid o env).marks mark t = w.marks mark t := by
  by_cases ht : tid = t
  · subst ht
    rw [marks_perform_self, h, Option.toList_none, List.append_nil]
  · exact marks_perform_of_ne _ _ _ _ _ ht

end Marks

/-! ## Runs -/

/-- A run whose steps all satisfy `ok`, a condition on the world before the step. -/
inductive Reachable (ok : World Op Res State Call → Move Op Env Call → Prop) (s₀ : State) :
    Config Op Res State Call → Prop where
  | init : Reachable ok s₀ ⟨⟨s₀, []⟩, []⟩
  | spawn {c : Config Op Res State Call} {call : Call} {s : State} (hc : Reachable ok s₀ c)
      (hok : ok c.world (.spawn c.threads.length call))
      (hs : m.accept call c.world.state = some s) :
      Reachable ok s₀
        ⟨c.world.push s (.spawn c.threads.length call), c.threads ++ [m.body call]⟩
  | run {c : Config Op Res State Call} {tid : Nat} {o : Op} {k : Res o → Prog Op Res Unit}
      {env : Env} (hc : Reachable ok s₀ c) (hok : ok c.world (.op tid o env))
      (ht : c.threads[tid]? = some (.call o k)) (hen : m.enabled tid o env c.world.state = true) :
      Reachable ok s₀
        ⟨m.perform c.world tid o env, c.threads.set tid (k (m.answer c.world tid o env))⟩

/-- The condition that every step satisfies. -/
def anyMove : World Op Res State Call → Move Op Env Call → Prop := fun _ _ => True

instance (w : World Op Res State Call) (mv : Move Op Env Call) : Decidable (anyMove w mv) :=
  isTrue trivial

/-- The scheduler's next choice: start a call, or let a thread perform its next operation. -/
inductive Label (Env Call : Type) where
  | spawn (c : Call)
  | run (tid : Nat) (env : Env)

/-- One step of a configuration, when the scheduler's choice is possible and satisfies `ok`. -/
def step (ok : World Op Res State Call → Move Op Env Call → Prop) [∀ w mv, Decidable (ok w mv)]
    (c : Config Op Res State Call) : Label Env Call → Option (Config Op Res State Call)
  | .spawn call =>
    if ok c.world (.spawn c.threads.length call) then
      (m.accept call c.world.state).map fun s =>
        ⟨c.world.push s (.spawn c.threads.length call), c.threads ++ [m.body call]⟩
    else none
  | .run tid env =>
    match c.threads[tid]? with
    | some (.call o k) =>
      if ok c.world (.op tid o env) ∧ m.enabled tid o env c.world.state = true then
        some ⟨m.perform c.world tid o env, c.threads.set tid (k (m.answer c.world tid o env))⟩
      else none
    | _ => none

/-- The configuration that a list of scheduler choices leads to. -/
def exec (ok : World Op Res State Call → Move Op Env Call → Prop) [∀ w mv, Decidable (ok w mv)] :
    Config Op Res State Call → List (Label Env Call) → Option (Config Op Res State Call)
  | c, [] => some c
  | c, l :: ls => (m.step ok c l).bind fun c' => exec ok c' ls

variable {m} {ok : World Op Res State Call → Move Op Env Call → Prop}

theorem Reachable.step [∀ w mv, Decidable (ok w mv)] {s₀ : State} {c c' : Config Op Res State Call}
    {l : Label Env Call} (hc : m.Reachable ok s₀ c) (h : m.step ok c l = some c') :
    m.Reachable ok s₀ c' := by
  cases l with
  | spawn call =>
    simp only [Machine.step] at h
    split at h
    · next hok =>
      obtain ⟨s, hs, rfl⟩ := Option.map_eq_some_iff.mp h
      exact .spawn hc hok hs
    · cases h
  | run tid env =>
    simp only [Machine.step] at h
    split at h
    · next o k ht =>
      split at h
      · next hok =>
        cases h
        exact .run hc hok.1 ht hok.2
      · cases h
    · cases h

/-- What the scheduler's choices lead to is reachable. -/
theorem Reachable.exec [∀ w mv, Decidable (ok w mv)] {s₀ : State} {c c' : Config Op Res State Call}
    {ls : List (Label Env Call)} (hc : m.Reachable ok s₀ c) (h : m.exec ok c ls = some c') :
    m.Reachable ok s₀ c' := by
  induction ls generalizing c with
  | nil =>
    cases h
    exact hc
  | cons l ls ih =>
    obtain ⟨d, hd, h⟩ := Option.bind_eq_some_iff.mp h
    exact ih (hc.step hd) h

/-- What holds in every reachable world may be used as a condition on the steps. -/
theorem Reachable.strengthen {s₀ : State} {P : World Op Res State Call → Prop}
    (hP : ∀ c, m.Reachable ok s₀ c → P c.world) {c : Config Op Res State Call}
    (h : m.Reachable ok s₀ c) : m.Reachable (fun w mv => ok w mv ∧ P w) s₀ c := by
  induction h with
  | init => exact .init
  | spawn hc hok hs ih => exact .spawn ih ⟨hok, hP _ hc⟩ hs
  | run hc hok ht hen ih => exact .run ih ⟨hok, hP _ hc⟩ ht hen

theorem Reachable.mono {ok' : World Op Res State Call → Move Op Env Call → Prop}
    (hok : ∀ w mv, ok w mv → ok' w mv) {s₀ : State} {c : Config Op Res State Call}
    (h : m.Reachable ok s₀ c) : m.Reachable ok' s₀ c := by
  induction h with
  | init => exact .init
  | spawn _ hmove hs ih => exact .spawn ih (hok _ _ hmove) hs
  | run _ hmove ht hen ih => exact .run ih (hok _ _ hmove) ht hen

theorem getElem?_of_returned {c : Config Op Res State Call} {bs : List Bool}
    (h : c.threads.map Prog.returned = bs) {tid : Nat} (ht : bs[tid]? = some true) :
    c.threads[tid]? = some (.ret ()) := by
  rw [← h, List.getElem?_map, Option.map_eq_some_iff] at ht
  obtain ⟨p, hp, hreturned⟩ := ht
  rw [hp, Prog.eq_ret_of_returned hreturned]

/-- Every event of a run is the last one of a shorter run. -/
theorem Reachable.cut {s₀ : State} {c : Config Op Res State Call} (h : m.Reachable ok s₀ c)
    {pre post : List (Event Op Res Call)} {e : Event Op Res Call}
    (hsplit : c.world.trace = pre ++ e :: post) :
    ∃ c', m.Reachable ok s₀ c' ∧ c'.world.trace = pre ++ [e] := by
  induction h generalizing post with
  | init => cases List.append_ne_nil_of_right_ne_nil pre (List.cons_ne_nil e post) hsplit.symm
  | spawn hc hok hs ih =>
    rcases World.split_concat hsplit with ⟨rfl, rfl⟩ | ⟨post', hpost⟩
    · exact ⟨_, .spawn hc hok hs, rfl⟩
    · exact ih hpost
  | run hc hok ht hen ih =>
    rcases World.split_concat hsplit with ⟨rfl, rfl⟩ | ⟨post', hpost⟩
    · exact ⟨_, .run hc hok ht hen, rfl⟩
    · exact ih hpost

/-- A prefix of a run is a run. -/
theorem Reachable.exists_prefix {s₀ : State} {c : Config Op Res State Call}
    (h : m.Reachable ok s₀ c) {pre : List (Event Op Res Call)} (hpre : pre <+: c.world.trace) :
    ∃ c', m.Reachable ok s₀ c' ∧ c'.world.trace = pre := by
  obtain ⟨post, hpost⟩ := hpre
  rcases List.eq_nil_or_concat pre with rfl | ⟨pre, e, rfl⟩
  · exact ⟨_, .init, rfl⟩
  · rw [List.concat_eq_append] at hpost ⊢
    have hsplit : c.world.trace = pre ++ e :: post := by
      rw [← hpost]
      simp
    exact h.cut hsplit

/-- Every event of a run belongs to a thread that has been started. -/
theorem Reachable.fresh {s₀ : State} {c : Config Op Res State Call} (h : m.Reachable ok s₀ c) :
    c.world.Fresh c.threads.length := by
  induction h with
  | init => simp [World.Fresh]
  | spawn _ _ _ ih =>
    intro e he
    simp only [World.push_trace, List.mem_append, List.mem_singleton, List.length_append,
      List.length_singleton] at he ⊢
    rcases he with he | rfl
    · exact Nat.lt_succ_of_lt (ih e he)
    · exact Nat.lt_succ_self _
  | @run c tid o k env _ _ ht _ ih =>
    intro e he
    simp only [perform, World.push_trace, List.mem_append, List.mem_singleton,
      List.length_set] at he ⊢
    rcases he with he | rfl
    · exact ih e he
    · exact (List.getElem?_eq_some_iff.mp ht).1

/-- A thread is started once. -/
theorem Reachable.spawned_nodup {s₀ : State} {c : Config Op Res State Call}
    (h : m.Reachable ok s₀ c) (p : Call → Bool) : (c.world.spawned p).Nodup := by
  induction h with
  | init => exact List.nodup_nil
  | @spawn c call s hc _ _ ih =>
    rw [World.spawned_push]
    refine List.Nodup.append ih (by split <;> simp) fun t ht ht' => ?_
    obtain ⟨call', hmem, -⟩ := World.mem_spawned.mp ht
    have hlt := hc.fresh _ hmem
    split at ht'
    · rw [List.mem_singleton] at ht'
      simp only [Event.tid_spawn] at hlt
      omega
    · cases ht'
  | run _ _ _ _ ih =>
    rw [perform, World.spawned_push_op]
    exact ih

/-- A thread was started for a call. -/
theorem Reachable.exists_spawn {s₀ : State} {c : Config Op Res State Call}
    (h : m.Reachable ok s₀ c) {tid : Nat} {p : Prog Op Res Unit} (hp : c.threads[tid]? = some p) :
    ∃ call, .spawn tid call ∈ c.world.trace := by
  induction h generalizing p with
  | init => simp at hp
  | @spawn c call s _ _ _ ih =>
    by_cases htid : tid < c.threads.length
    · rw [List.getElem?_append_left htid] at hp
      obtain ⟨call', hcall'⟩ := ih hp
      exact ⟨call', List.mem_append_left _ hcall'⟩
    · have hlt := (List.getElem?_eq_some_iff.mp hp).1
      have heq : tid = c.threads.length := by
        simp only [List.length_append, List.length_singleton] at hlt
        omega
      subst heq
      exact ⟨call, List.mem_append_right _ (List.mem_singleton_self _)⟩
  | @run c t o k env _ _ ht _ ih =>
    have hlt := (List.getElem?_eq_some_iff.mp hp).1
    rw [List.length_set] at hlt
    obtain ⟨call, hcall⟩ := ih (List.getElem?_eq_getElem hlt)
    exact ⟨call, List.mem_append_left _ hcall⟩

/-- The history of a thread begins with its call. -/
theorem Reachable.own_head {s₀ : State} {c : Config Op Res State Call} (h : m.Reachable ok s₀ c)
    {tid : Nat} {call : Call} (hcall : .spawn tid call ∈ c.world.trace) :
    (c.world.own tid).head? = some (.spawn tid call) := by
  induction h with
  | init => cases hcall
  | @spawn c call' s hc _ _ ih =>
    rw [World.push_trace, List.mem_append, List.mem_singleton] at hcall
    have hfresh := hc.fresh
    rcases hcall with hcall | hcall
    · have hlt := hfresh _ hcall
      rw [World.own_push_of_ne]
      · exact ih hcall
      · simp only [Event.tid_spawn] at hlt ⊢
        omega
    · cases hcall
      have hown := World.own_push_self c.world s (.spawn c.threads.length call)
      simp only [Event.tid_spawn, hfresh.own_eq_nil] at hown
      rw [hown]
      rfl
  | @run c t o k env _ _ _ _ ih =>
    have hmem : .spawn tid call ∈ c.world.trace := by simpa [perform] using hcall
    by_cases ht : t = tid
    · subst ht
      rw [own_perform_self, List.head?_append, ih hmem]
      rfl
    · rw [own_perform_of_ne _ _ _ _ ht]
      exact ih hmem

/-- A thread is started before it performs anything. -/
theorem Reachable.spawn_before {s₀ : State} {c : Config Op Res State Call}
    (h : m.Reachable ok s₀ c) {tid : Nat} {call : Call} (hcall : .spawn tid call ∈ c.world.trace)
    {pre post : List (Event Op Res Call)} {o : Op} {r : Res o}
    (hsplit : c.world.trace = pre ++ .op tid o r :: post) : .spawn tid call ∈ pre := by
  have hhead := h.own_head hcall
  rw [World.own, hsplit, List.filter_append, List.filter_cons_of_pos (by simp)] at hhead
  cases hpre : pre.filter fun e => e.tid == tid with
  | nil =>
    rw [hpre] at hhead
    cases hhead
  | cons e rest =>
    rw [hpre] at hhead
    cases hhead
    have hmem : .spawn tid call ∈ pre.filter fun e => e.tid == tid := by simp [hpre]
    exact (List.mem_filter.mp hmem).1

end Machine

end Conc
