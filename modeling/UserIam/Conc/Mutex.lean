import UserIam.Conc.Invariant

/-!
# Mutexes

Some operations of a machine lock or unlock one of several mutexes; the state knows who owns which.
When every program works inside one lock and unlock, or without any, the owner of a mutex is the
thread that has locked it and has not unlocked it yet.
-/

namespace Conc.Machine

variable {Op : Type} {Res : Op → Type} {Env State Call : Type} {Id : Type} [DecidableEq Id]

/-- `kind` says which operations lock (`true`) and unlock (`false`) which mutex. -/
structure Mutex (m : Machine Op Res Env State Call) (kind : Op → Option (Id × Bool))
    (owner : State → Id → Option Nat) : Prop where
  free : ∀ {tid o env s id}, kind o = some (id, true) → m.enabled tid o env s = true →
    owner s id = none
  locks : ∀ {tid o env s id}, kind o = some (id, true) →
    owner (m.handle tid o env s).2 = Function.update (owner s) id (some tid)
  unlocks : ∀ {tid o env s id}, kind o = some (id, false) →
    owner (m.handle tid o env s).2 = Function.update (owner s) id none
  other : ∀ {tid o env s}, kind o = none → owner (m.handle tid o env s).2 = owner s
  accept : ∀ {call s s'}, m.accept call s = some s' → owner s' = owner s

section Marks

variable (kind : Op → Option (Id × Bool)) (id : Id)

/-- What a thread does to one mutex. -/
def lockMark : Event Op Res Call → Option Bool
  | .spawn .. => none
  | .op _ o _ =>
    match kind o with
    | none => none
    | some (id', b) => if id' = id then some b else none

variable {kind id}

theorem lockMark_of_none {o : Op} (ho : kind o = none) (tid : Nat) (r : Res o) :
    lockMark kind id (.op tid o r : Event Op Res Call) = none := by
  simp [lockMark, ho]

theorem lockMark_of_some {o : Op} {id' : Id} {b : Bool} (ho : kind o = some (id', b)) (tid : Nat)
    (r : Res o) :
    lockMark kind id (.op tid o r : Event Op Res Call) = if id' = id then some b else none := by
  simp [lockMark, ho]

/-- The program locks one mutex, works, unlocks it and goes on without any, or touches no mutex. -/
def Brackets (kind : Op → Option (Id × Bool)) (p : Prog Op Res Unit) : Prop :=
  p.All (kind · = none) ∨
    ∃ (id : Id) (l u : Op) (q rest : Prog Op Res Unit), kind l = some (id, true) ∧
      kind u = some (id, false) ∧ q.All (kind · = none) ∧ rest.All (kind · = none) ∧
      p = .call l fun _ => q >>= fun _ => .call u fun _ => rest

end Marks

variable {m : Machine Op Res Env State Call} {kind : Op → Option (Id × Bool)}
  {owner : State → Id → Option Nat}

/-- Whoever has locked a mutex and not unlocked it is its owner. -/
def Owned (kind : Op → Option (Id × Bool)) (owner : State → Id → Option Nat)
    (w : World Op Res State Call) : Prop :=
  ∀ tid id, w.marks (lockMark kind id) tid = [true] → owner w.state id = some tid

theorem Owned.push_unmarked {w : World Op Res State Call} {s : State} {e : Event Op Res Call}
    (hw : Owned kind owner w) (he : ∀ id, lockMark kind id e = none)
    (hs : owner s = owner w.state) : Owned kind owner (w.push s e) := by
  intro tid id h
  rw [World.marks_push, he, Option.toList_none, List.append_nil, Function.update_eq_self] at h
  rw [World.push_state, hs]
  exact hw tid id h

theorem Owned.perform_lock (hm : m.Mutex kind owner) {w : World Op Res State Call} {tid : Nat}
    {o : Op} {env : Env} {id : Id} (hw : Owned kind owner w) (ho : kind o = some (id, true))
    (hen : m.enabled tid o env w.state = true) : Owned kind owner (m.perform w tid o env) := by
  intro t id' h
  rw [perform, World.marks_push, lockMark_of_some ho] at h
  rw [perform, World.push_state, hm.locks ho]
  by_cases hid : id = id'
  · subst hid
    rw [Function.update_self]
    by_cases ht : t = tid
    · rw [ht]
    · rw [Event.tid_op, Function.update_of_ne ht] at h
      exact absurd (hw t id h) (by simp [hm.free ho hen])
  · rw [if_neg hid, Option.toList_none, List.append_nil, Function.update_eq_self] at h
    rw [Function.update_of_ne (Ne.symm hid)]
    exact hw t id' h

theorem Owned.perform_unlock (hm : m.Mutex kind owner) {w : World Op Res State Call} {tid : Nat}
    {o : Op} {env : Env} {id : Id} (hw : Owned kind owner w) (ho : kind o = some (id, false))
    (hown : w.marks (lockMark kind id) tid = [true]) :
    Owned kind owner (m.perform w tid o env) := by
  intro t id' h
  rw [perform, World.marks_push, lockMark_of_some ho] at h
  rw [perform, World.push_state, hm.unlocks ho]
  by_cases hid : id = id'
  · subst hid
    by_cases ht : t = tid
    · subst ht
      simp [hown] at h
    · rw [Event.tid_op, Function.update_of_ne ht] at h
      exact absurd (Option.some.inj ((hw t id h).symm.trans (hw tid id hown))) ht
  · rw [if_neg hid, Option.toList_none, List.append_nil, Function.update_eq_self] at h
    rw [Function.update_of_ne (Ne.symm hid)]
    exact hw t id' h

/-- Work without mutexes keeps the owners and the thread's marks. -/
theorem keeps_owned {ok : World Op Res State Call → Move Op Env Call → Prop}
    (hm : m.Mutex kind owner) {tid : Nat} {p : Prog Op Res Unit} (hp : p.All (kind · = none))
    {marks : Id → List Bool} {h : List (Event Op Res Call)}
    (hh : ∀ id, h.filterMap (lockMark kind id) = marks id) :
    m.Keeps ok (Owned kind owner) tid p
      (fun _ h => ∀ id, h.filterMap (lockMark kind id) = marks id) h := by
  refine Keeps.of_all (fun w env o ho hw hR _ _ => ⟨?_, fun id => ?_⟩) hp hh
  · exact hw.push_unmarked (fun id => lockMark_of_none ho _ _) (hm.other ho)
  · rw [World.filterMap_concat _ (hR id), lockMark_of_none ho, Option.toList_none, List.append_nil]

theorem keeps_brackets {ok : World Op Res State Call → Move Op Env Call → Prop}
    (hm : m.Mutex kind owner) {tid : Nat} {p : Prog Op Res Unit} (hp : Brackets kind p)
    {h : List (Event Op Res Call)} (hh : ∀ id, h.filterMap (lockMark kind id) = []) :
    m.Keeps ok (Owned kind owner) tid p (fun _ _ => True) h := by
  rcases hp with hp | ⟨id, l, u, q, rest, hl, hu, hq, hrest, rfl⟩
  · exact (keeps_owned hm hp hh).mono fun _ _ _ => trivial
  · intro w env hw hown hen _
    refine ⟨hw.perform_lock hm hl hen, keeps_bind.mpr ?_⟩
    have hlocked : ∀ id', (h ++ [Event.op tid l (m.answer w tid l env)]).filterMap
        (lockMark kind id') = if id = id' then [true] else [] := by
      intro id'
      rw [World.filterMap_concat _ (hh id'), lockMark_of_some hl]
      split <;> rfl
    refine (keeps_owned hm hq hlocked).mono fun _ h' hh' => ?_
    intro w' env' hw' hown' _ _
    refine ⟨hw'.perform_unlock hm hu ?_, ?_⟩
    rotate_left
    · exact (keeps_owned hm hrest fun _ => rfl).mono fun _ _ _ => trivial
    rw [World.marks, hown', hh' id, if_pos rfl]

/-- **Ownership.**  When every program of a machine works inside one lock and unlock or without any,
whoever has locked a mutex and not unlocked it is its owner. -/
theorem reachable_owned {ok : World Op Res State Call → Move Op Env Call → Prop} {s₀ : State}
    (hm : m.Mutex kind owner) (hbody : ∀ call, Brackets kind (m.body call))
    {c : Config Op Res State Call} (hc : m.Reachable ok s₀ c) : Owned kind owner c.world := by
  have hinit : Owned kind owner (⟨s₀, []⟩ : World Op Res State Call) := fun _ _ h => by cases h
  refine (reachable_keeps (Q := fun _ => True) hinit (fun w tid call s hw _ _ hs => ?_) hc).1
  refine ⟨hw.push_unmarked (fun _ => rfl) (hm.accept hs), ?_⟩
  exact keeps_brackets hm (hbody call) fun _ => rfl

end Conc.Machine
