import UserIam.Conc.Typestate
import UserIam.UserAuth.NoSilence

/-!
# No progress after the verdict

A handle shows progress under the mutex of its callback, after it has found the done flag unset.
Whoever tells the client a result without that mutex was refused the thread of the context, and the
handle that has released the thread still holds the mutex or has set the flag.
-/

namespace UserIam.UserAuth

open Conc Common Machine

/-! ## 1. Progress -/

/-- What the client is shown on behalf of the `i`-th callback. -/
def progress (i : Nat) (w : UserAuthWorld) : List UserAuthEvent :=
  w.trace.filter fun
    | .op t (.onAcquireInfo ..) _ => speaksFor i w t
    | _ => false

def UserAuthTask.worksFor (X : UInt64) (i : Nat) : UserAuthTask → Bool
  | .onFinishHandle j self .. => j = i && self.callbackContextId = X
  | .onAcquireInfoHandle j self _ => j = i && self.callbackContextId = X

/-- The call is made on the `i`-th callback, whose context is `X`. -/
def UserAuthCall.worksFor (X : UInt64) (i : Nat) : UserAuthCall → Bool
  | .onFinish j self .. => j = i && self.callbackContextId = X
  | .onAcquireInfo j self .. => j = i && self.callbackContextId = X
  | .task _ (.run posted) => posted.worksFor X i
  | _ => false

def Works (X : UInt64) (i : Nat) (es : List UserAuthEvent) (t : Nat) : Prop :=
  ∃ call, .spawn t call ∈ es ∧ call.worksFor X i = true

/-- The operation tells a result, or releases a thread. -/
def UserAuthOp.concludes : UserAuthOp → Bool
  | .onResult .. => true
  | .deleteCoAuthCallback _ => true
  | _ => false

/-- A call on the callback has told the client, or released the thread of the context. -/
def Concluding (X : UInt64) (i : Nat) (es : List UserAuthEvent) : Prop :=
  ∃ pre t o r post, es = pre ++ .op t o r :: post ∧ o.concludes = true ∧ Works X i pre t

variable {kit : AccessTokenKit} {X : UInt64} {i t t' : Nat} {self : UserAuthCallbackImplCoAuth}
  {c : UserAuthConfig} {w : UserAuthWorld} {s : UserAuthState} {env : UserAuthEnv}
  {o : UserAuthOp} {es : List UserAuthEvent} {ok : UserAuthWorld → UserAuthMove → Prop} {α β : Type}

theorem UserAuthCall.worksFor_iff {call : UserAuthCall} :
    call.worksFor X i = true ↔ ∃ self, call.about i self ∧ self.callbackContextId = X := by
  have hboth {j : Nat} {self : UserAuthCallbackImplCoAuth} :
      (j = i && self.callbackContextId = X : Bool) = true ↔
        ∃ self', (j = i ∧ self = self') ∧ self'.callbackContextId = X := by
    rw [Bool.and_eq_true, decide_eq_true_eq, decide_eq_true_eq]
    constructor
    · rintro ⟨rfl, rfl⟩
      exact ⟨self, ⟨rfl, rfl⟩, rfl⟩
    · rintro ⟨self', ⟨rfl, rfl⟩, rfl⟩
      exact ⟨rfl, rfl⟩
  cases call with
  | auth | authUser | cancelAuth => simp [UserAuthCall.worksFor, UserAuthCall.about]
  | onFinish | onAcquireInfo => exact hboth
  | task p posted =>
    cases posted with
    | ensureTransaction => simp [UserAuthCall.worksFor, UserAuthCall.about]
    | run handle => cases handle <;> exact hboth

theorem works_push_op {r : UserAuthRes o} :
    Works X i (es ++ [Event.op t' o r]) t ↔ Works X i es t := by
  simp [Works]

theorem works_push_spawn {call : UserAuthCall} (hne : t ≠ t') :
    Works X i (es ++ [Event.spawn t' call]) t ↔ Works X i es t := by
  simp [Works, hne]

theorem Concluding.mono {e : UserAuthEvent} (h : Concluding X i es) :
    Concluding X i (es ++ [e]) := by
  obtain ⟨pre, t, o, r, post, rfl, ho, hworks⟩ := h
  exact ⟨pre, t, o, r, post ++ [e], by simp, ho, hworks⟩

theorem concluding_push {e : UserAuthEvent} (h : Concluding X i (es ++ [e])) :
    Concluding X i es ∨ ∃ t o r, e = .op t o r ∧ o.concludes = true ∧ Works X i es t := by
  obtain ⟨pre, t, o, r, post, hsplit, ho, hworks⟩ := h
  rcases World.split_concat hsplit with ⟨rfl, rfl⟩ | ⟨post', hpost⟩
  · exact .inr ⟨t, o, r, rfl, ho, hworks⟩
  · exact .inl ⟨pre, t, o, r, post', hpost, ho, hworks⟩

theorem concluding_push_op {r : UserAuthRes o} :
    Concluding X i (es ++ [Event.op t o r]) ↔
      Concluding X i es ∨ (o.concludes = true ∧ Works X i es t) := by
  constructor
  · intro h
    rcases concluding_push h with h | ⟨t', o', r', heq, ho, hworks⟩
    · exact .inl h
    · cases heq
      exact .inr ⟨ho, hworks⟩
  · rintro (h | ⟨ho, hworks⟩)
    · exact h.mono
    · exact ⟨es, t, o, r, [], rfl, ho, hworks⟩

theorem concluding_push_spawn {call : UserAuthCall} :
    Concluding X i (es ++ [Event.spawn t call]) ↔ Concluding X i es := by
  refine ⟨fun h => ?_, Concluding.mono⟩
  rcases concluding_push h with h | ⟨t', o, r, heq, -⟩
  · exact h
  · cases heq

/-- An operation of a thread that works for the callback. -/
theorem concluding_of_mem (hc : (userAuth kit).Reachable ok .initial c) {r : UserAuthRes o}
    {pre post : List UserAuthEvent} (hsplit : c.world.trace = pre ++ post) (hop : .op t o r ∈ pre)
    (ho : o.concludes = true) (hworks : Works X i c.world.trace t) : Concluding X i pre := by
  obtain ⟨before, after, rfl⟩ := List.append_of_mem hop
  obtain ⟨call, hcall, hworks⟩ := hworks
  rw [List.append_assoc, List.cons_append] at hsplit
  exact ⟨before, t, o, r, after, rfl, ho, call, hc.spawn_before hcall hsplit, hworks⟩

/-- While the thread of the context is not retained, a call on the callback has released it. -/
theorem concluding_of_not_retained (hc : (userAuth kit).Reachable (drawnOnce X) .initial c)
    (hworks : Works X i c.world.trace t) (h : retainedFor X c.world.state = false) :
    Concluding X i c.world.trace := by
  have hgenuine := genuine_reachable hc
  have hsaved : SavedAs X i c.world := by
    obtain ⟨call, hcall, hworks⟩ := hworks
    obtain ⟨self, habout, rfl⟩ := UserAuthCall.worksFor_iff.mp hworks
    exact (hgenuine.calls t call hcall i self habout).saved
  have hreleased : Released X c.world := by
    by_contra hnot
    rw [((life_reachable hc).held i hsaved hnot).2] at h
    cases h
  obtain ⟨t', r, hop⟩ := hreleased
  obtain ⟨call, hcall⟩ := hc.exists_spawn (List.getElem?_eq_getElem (hc.fresh _ hop))
  obtain ⟨j, self, habout, hX⟩ :=
    (hc.all_ops (P := permits) hcall (userAuthBody_permits kit call)).1 _ _ hop
  -- the callback of the context is unique
  obtain rfl : j = i := by
    refine savedAs_unique hc ?_ hsaved
    rw [hX]
    exact (hgenuine.calls t' call hcall j self habout).saved
  exact concluding_of_mem hc (List.append_nil _).symm hop rfl
    ⟨call, hcall, UserAuthCall.worksFor_iff.mpr ⟨self, habout, hX.symm⟩⟩

/-! ## 2. What a thread knows of the callback -/

/-- How far a thread has come with the callback's mutex: it does not hold it, holds it, has found
the flag unset, has begun to conclude, or knows that the flag is set; or it has been refused the
thread of the context. -/
inductive HandlePhase where
  | outside
  | inside
  | opened
  | closing
  | closed
  | refused
  deriving DecidableEq

def HandlePhase.holds : HandlePhase → Bool
  | .outside => false
  | .refused => false
  | _ => true

/-- `works` says that the thread works for the callback. -/
structure HandleView where
  works : Bool
  phase : HandlePhase := .outside

def HandleView.next (i : Nat) (v : HandleView) : (o : UserAuthOp) → UserAuthRes o → HandlePhase
  | .lock j, _ => if j = i then .inside else v.phase
  | .unlock j, _ => if j = i then .outside else v.phase
  | .isResultDone j, done => if j = i then if done then .closed else .opened else v.phase
  -- the flag is also set by who has been refused the thread and does not hold the mutex
  | .setResultDone j, _ => if j = i ∧ v.phase.holds then .closed else v.phase
  | .onResult .., _ => if v.phase = .opened then .closing else v.phase
  | .deleteCoAuthCallback _, _ => if v.phase = .opened then .closing else v.phase
  | .postTask .., ret => if v.works ∧ !ret then .refused else v.phase
  | _, _ => v.phase

def HandleView.step (i : Nat) (v : HandleView) (o : UserAuthOp) (r : UserAuthRes o) : HandleView :=
  ⟨v.works, v.next i o r⟩

/-- The flag is read under the mutex; progress is shown by who has found it unset, and the client is
told a result by who has found it unset or was refused the thread. -/
def HandleView.may (X : UInt64) (i : Nat) (v : HandleView) : UserAuthOp → Prop
  | .unlock j => j = i → v.phase = .opened ∨ v.phase = .closed
  | .isResultDone j => j = i → v.phase = .inside
  | .onAcquireInfo .. => v.works = true → v.phase = .opened
  | .onResult .. => v.works = true → v.phase = .opened ∨ v.phase = .closing ∨ v.phase = .refused
  | .deleteCoAuthCallback _ => v.works = true → v.phase = .opened ∨ v.phase = .closing
  | .postTask contextId _ => v.works = true → contextId = X ∧ v.phase = .outside
  | _ => True

abbrev handleTypestate (X : UInt64) (i : Nat) : Typestate UserAuthOp UserAuthRes HandleView :=
  ⟨HandleView.may X i, fun v o r => some (v.step i o r), fun _ => True, fun _ => True⟩

/-- What a thread knows is true. -/
structure HandleLink (X : UInt64) (i : Nat) (w : UserAuthWorld) (t : Nat) (v : HandleView) :
    Prop where
  works : v.works = true ↔ Works X i w.trace t
  owner : v.phase.holds = true → w.state.owner i = some t
  inside : v.phase = .inside → Concluding X i w.trace → w.state.isResultDone i = true
  opened : v.phase = .opened → ¬Concluding X i w.trace
  closed : v.phase = .closed → w.state.isResultDone i = true
  refused : v.phase = .refused → v.works = true → Concluding X i w.trace

/-- The event shows progress on behalf of the callback. -/
def Shows (X : UInt64) (i : Nat) (pre : List UserAuthEvent) : UserAuthEvent → Prop
  | .op t (.onAcquireInfo ..) _ => Works X i pre t
  | _ => False

/-- Whoever has concluded has set the flag or still holds the mutex, and no progress is shown after
a conclusion. -/
structure ProgressInv (X : UInt64) (i : Nat) (w : UserAuthWorld) : Prop where
  settled : Concluding X i w.trace →
    w.state.isResultDone i = true ∨ (w.state.owner i).isSome = true
  silent : w.Each fun pre e => Shows X i pre e → ¬Concluding X i pre

/-- The condition together with what holds in every reachable world. -/
def drawnOnceHeld (X : UInt64) (i : Nat) (w : UserAuthWorld) (mv : UserAuthMove) : Prop :=
  drawnOnce X w mv ∧ w.state.groups.NonNull ∧
    ∀ t, Works X i w.trace t → retainedFor X w.state = false → Concluding X i w.trace

/-! ## 3. Knowledge is true -/

section Sound

variable {u v : HandleView} {r : UserAuthRes o}

theorem owner_perform (hlock : o ≠ .lock i) (hunlock : o ≠ .unlock i) :
    ((userAuth kit).perform w t o env).state.owner i = w.state.owner i := by
  have hother (ho : o.lockKind = none) :
      (userAuthHandle t env w.state o).2.owner = w.state.owner := (userAuth_mutex kit).other ho
  show (userAuthHandle t env w.state o).2.owner i = w.state.owner i
  cases o with
  | lock j =>
    refine Function.update_of_ne (fun h => hlock ?_) _ _
    rw [h]
  | unlock j =>
    refine Function.update_of_ne (fun h => hunlock ?_) _ _
    rw [h]
  | _ => exact congrFun (hother rfl) i

/-- A thread that begins to conclude, and may, holds the mutex or comes after a conclusion. -/
theorem HandleLink.holds_of_concludes (hv : HandleLink X i w t v) (hmay : v.may X i o)
    (ho : o.concludes = true) (hworks : Works X i w.trace t) :
    w.state.owner i = some t ∧ v.phase ≠ .inside ∨ Concluding X i w.trace := by
  have hon : v.works = true := hv.works.mpr hworks
  have hheld (hphase : v.phase = .opened ∨ v.phase = .closing) :
      w.state.owner i = some t ∧ v.phase ≠ .inside := by
    rcases hphase with hphase | hphase <;>
      exact ⟨hv.owner (by rw [hphase]; rfl), by rw [hphase]; decide⟩
  cases o with
  | onResult =>
    rcases hmay hon with hphase | hphase | hphase
    · exact .inl (hheld (.inl hphase))
    · exact .inl (hheld (.inr hphase))
    · exact .inr (hv.refused hphase hon)
  | deleteCoAuthCallback => exact .inl (hheld (hmay hon))
  | _ => cases ho

/-- While another thread holds the mutex, nobody concludes for the first time. -/
theorem HandleLink.concluding_other (ht : t ≠ t') (hv : HandleLink X i w t' v)
    (hmay : v.may X i o) (howner : w.state.owner i = some t)
    (h : Concluding X i (w.trace ++ [Event.op t' o r])) : Concluding X i w.trace := by
  rcases concluding_push_op.mp h with h | ⟨ho, hworks⟩
  · exact h
  · rcases hv.holds_of_concludes hmay ho hworks with ⟨howner', -⟩ | h
    · exact absurd (Option.some.inj (howner.symm.trans howner')) ht
    · exact h

theorem HandleLink.other (ht : t ≠ t') (hu : HandleLink X i w t u) (hv : HandleLink X i w t' v)
    (hmay : v.may X i o) (hen : (userAuth kit).enabled t' o env w.state = true) :
    HandleLink X i ((userAuth kit).perform w t' o env) t u := by
  constructor
  · exact hu.works.trans works_push_op.symm
  · intro hholds
    have howner := hu.owner hholds
    rw [owner_perform, howner]
    -- the mutex is neither free nor the other thread's
    · rintro rfl
      have hfree : (w.state.owner i).isNone = true := hen
      rw [howner] at hfree
      cases hfree
    · rintro rfl
      have howner' : w.state.owner i = some t' := by
        rcases hmay rfl with hphase | hphase <;> exact hv.owner (by rw [hphase]; rfl)
      exact ht (Option.some.inj (howner.symm.trans howner'))
  · intro hphase h
    have howner := hu.owner (by rw [hphase]; rfl)
    exact isResultDone_mono t' env o
      (hu.inside hphase (hv.concluding_other ht hmay howner h))
  · intro hphase h
    have howner := hu.owner (by rw [hphase]; rfl)
    exact hu.opened hphase (hv.concluding_other ht hmay howner h)
  · exact fun hphase => isResultDone_mono t' env o (hu.closed hphase)
  · exact fun hphase hworks => (hu.refused hphase hworks).mono

theorem ProgressInv.perform (hw : ProgressInv X i w) (hv : HandleLink X i w t v)
    (hmay : v.may X i o) : ProgressInv X i ((userAuth kit).perform w t o env) := by
  constructor
  · intro h
    -- who locks owns the mutex then; who unlocks has concluded nothing or has set the flag
    by_cases hlock : o = .lock i
    · subst hlock
      have howner : ((userAuth kit).perform w t (.lock i) env).state.owner i = some t :=
        Function.update_self ..
      exact .inr (Option.isSome_of_eq_some howner)
    by_cases hunlock : o = .unlock i
    · subst hunlock
      have h : Concluding X i w.trace := by
        rcases concluding_push_op.mp h with h | ⟨ho, -⟩
        · exact h
        · cases ho
      rcases hmay rfl with hphase | hphase
      · exact absurd h (hv.opened hphase)
      · exact .inl (hv.closed hphase)
    rw [owner_perform hlock hunlock]
    have hbefore (h : Concluding X i w.trace) :
        ((userAuth kit).perform w t o env).state.isResultDone i = true ∨
          (w.state.owner i).isSome = true :=
      (hw.settled h).imp_left (isResultDone_mono t env o)
    rcases concluding_push_op.mp h with h | ⟨ho, hworks⟩
    · exact hbefore h
    · rcases hv.holds_of_concludes hmay ho hworks with ⟨howner, -⟩ | h
      · exact .inr (Option.isSome_of_eq_some howner)
      · exact hbefore h
  · rw [Machine.perform, World.each_push]
    refine ⟨hw.silent, fun hshows => ?_⟩
    cases o with
    | onAcquireInfo => exact hv.opened (hmay (hv.works.mpr hshows))
    | _ => cases hshows

/-- The thread keeps its phase. -/
theorem HandleLink.same (hv : HandleLink X i w t v) (hlock : o ≠ .lock i) (hunlock : o ≠ .unlock i)
    (ho : o.concludes = true → v.works = true → v.phase ≠ .inside ∧ v.phase ≠ .opened) :
    HandleLink X i ((userAuth kit).perform w t o env) t v := by
  have hbefore (hphase : v.phase = .inside ∨ v.phase = .opened)
      (h : Concluding X i ((userAuth kit).perform w t o env).trace) : Concluding X i w.trace := by
    rcases concluding_push_op.mp h with h | ⟨hconcludes, hworks⟩
    · exact h
    · obtain ⟨hinside, hopened⟩ := ho hconcludes (hv.works.mpr hworks)
      exact absurd hphase (not_or.mpr ⟨hinside, hopened⟩)
  constructor
  · exact hv.works.trans works_push_op.symm
  · intro hholds
    rw [owner_perform hlock hunlock]
    exact hv.owner hholds
  · exact fun hphase h => isResultDone_mono t env o (hv.inside hphase (hbefore (.inl hphase) h))
  · exact fun hphase h => hv.opened hphase (hbefore (.inr hphase) h)
  · exact fun hphase => isResultDone_mono t env o (hv.closed hphase)
  · exact fun hphase hworks => (hv.refused hphase hworks).mono

/-- The thread begins to conclude. -/
theorem HandleLink.concludes (hv : HandleLink X i w t v) (ho : o.concludes = true)
    (hmay : v.works = true → v.phase = .opened ∨ v.phase = .closing ∨ v.phase = .refused) :
    HandleLink X i ((userAuth kit).perform w t o env) t
      ⟨v.works, if v.phase = .opened then .closing else v.phase⟩ := by
  have hlock : o ≠ .lock i := by
    rintro rfl
    cases ho
  have hunlock : o ≠ .unlock i := by
    rintro rfl
    cases ho
  split
  · next hphase =>
    have howner := hv.owner (by rw [hphase]; rfl)
    refine ⟨hv.works.trans works_push_op.symm, fun _ => ?_, nofun, nofun, nofun, nofun⟩
    rw [owner_perform hlock hunlock, howner]
  · next hphase =>
    refine hv.same hlock hunlock fun _ hworks => ⟨?_, hphase⟩
    rcases hmay hworks with h | h | h <;> rw [h] <;> decide

/-- What a thread learns from its own operations is true. -/
theorem HandleLink.own (hw : ProgressInv X i w) (hv : HandleLink X i w t v)
    (hmay : v.may X i o) (hen : (userAuth kit).enabled t o env w.state = true)
    (hok : drawnOnceHeld X i w (.op t o env)) :
    HandleLink X i ((userAuth kit).perform w t o env) t
      (v.step i o ((userAuth kit).answer w t o env)) := by
  have hworks : v.works = true ↔ Works X i ((userAuth kit).perform w t o env).trace t :=
    hv.works.trans works_push_op.symm
  cases o with
  | lock j =>
    show HandleLink X i _ t ⟨v.works, if j = i then .inside else v.phase⟩
    split
    · next hj =>
      subst hj
      refine ⟨hworks, fun _ => Function.update_self .., fun _ h => ?_, nofun, nofun, nofun⟩
      -- the mutex was free, so that whoever has concluded has set the flag
      have hfree : (w.state.owner j).isNone = true := hen
      rcases concluding_push_op.mp h with h | ⟨ho, -⟩
      · rcases hw.settled h with hdone | hheld
        · exact hdone
        · rw [Option.isNone_iff_eq_none.mp hfree] at hheld
          cases hheld
      · cases ho
    · next hj => exact hv.same (by simpa using hj) (by simp) fun ho => by cases ho
  | unlock j =>
    show HandleLink X i _ t ⟨v.works, if j = i then .outside else v.phase⟩
    split
    · exact ⟨hworks, nofun, nofun, nofun, nofun, nofun⟩
    · next hj => exact hv.same (by simp) (by simpa using hj) fun ho => by cases ho
  | isResultDone j =>
    show HandleLink X i _ t ⟨v.works, if j = i then
      if w.state.isResultDone j then .closed else .opened else v.phase⟩
    split
    · next hj =>
      subst hj
      have hphase : v.phase = .inside := hmay rfl
      have howner := hv.owner (by rw [hphase]; rfl)
      cases hdone : w.state.isResultDone j with
      | true => exact ⟨hworks, fun _ => howner, nofun, nofun, fun _ => hdone, nofun⟩
      -- a flag that is unset under the mutex says that nobody has concluded
      | false =>
        refine ⟨hworks, fun _ => howner, nofun, fun _ h => ?_, nofun, nofun⟩
        rcases concluding_push_op.mp h with h | ⟨ho, -⟩
        · rw [hv.inside hphase h] at hdone
          cases hdone
        · cases ho
    · exact hv.same (by simp) (by simp) fun ho => by cases ho
  | setResultDone j =>
    show HandleLink X i _ t ⟨v.works, if j = i ∧ v.phase.holds then .closed else v.phase⟩
    split
    · next hj =>
      obtain ⟨rfl, hholds⟩ := hj
      have hset : ((userAuth kit).perform w t (.setResultDone j) env).state.isResultDone j = true :=
        Function.update_self ..
      exact ⟨hworks, fun _ => hv.owner hholds, nofun, nofun, fun _ => hset, nofun⟩
    · exact hv.same (by simp) (by simp) fun ho => by cases ho
  | onResult => exact hv.concludes rfl hmay
  | deleteCoAuthCallback =>
    exact hv.concludes rfl fun hon => (hmay hon).imp_right .inl
  | postTask contextId task =>
    show HandleLink X i _ t ⟨v.works, if v.works ∧ !((w.state.groups.postTask _ _ _).1) then
      .refused else v.phase⟩
    split
    · next hrefused =>
      -- the context has no thread any more: a conclusion has released it
      obtain ⟨hon, hret⟩ := hrefused
      obtain ⟨rfl, -⟩ := hmay hon
      obtain ⟨-, hnull, hgone⟩ := hok
      obtain ⟨ptr, hpost⟩ := ThreadGroups.postTask_eq hnull groupAuth contextId task
      have hret : retainedFor contextId w.state = false := by
        rw [hpost] at hret
        simpa using hret
      refine ⟨hworks, nofun, nofun, nofun, nofun, fun _ _ => ?_⟩
      exact (hgone t (hv.works.mp hon) hret).mono
    · exact hv.same (by simp) (by simp) fun ho => by cases ho
  | _ => exact hv.same (by simp) (by simp) fun ho => by cases ho

end Sound

/-! ## 4. Programs -/

section Programs

variable {v : HandleView} {works : Bool} {phase : HandlePhase}

/-- An operation that leaves the mutex, the flag, the client and its thread alone. -/
def ProgressFree : UserAuthOp → Bool
  | .lock _ | .unlock _ | .isResultDone _ | .setResultDone _ => false
  | .onResult .. | .onAcquireInfo .. | .deleteCoAuthCallback _ | .postTask .. => false
  | _ => true

theorem progressFree_of_neutral (ho : o.neutral = true) : ProgressFree o = true := by
  cases o <;> first | rfl | cases ho

theorem ProgressFree.may (ho : ProgressFree o = true) : v.may X i o := by
  cases o <;> trivial

theorem ProgressFree.next (ho : ProgressFree o = true) (r : UserAuthRes o) :
    v.step i o r = v := by
  cases o <;> first | rfl | cases ho

theorem follows_free {p : UserAuthProg α} (hp : p.All (ProgressFree · = true)) :
    (handleTypestate X i).Follows (fun _ v' => v' = v) v p := by
  refine Typestate.follows_of_all trivial (hp.mono fun o ho => ⟨ProgressFree.may ho, ?_⟩)
  intro r v' hv'
  rw [← Option.some.inj hv', ProgressFree.next ho]

/-- The next step of a program. -/
theorem follows_step {k : UserAuthRes o → UserAuthProg α} {Q : α → HandleView → Prop}
    (hmay : v.may X i o) (hk : ∀ r, (handleTypestate X i).Follows Q (v.step i o r) (k r)) :
    (handleTypestate X i).Follows Q v (.call o k) := by
  refine ⟨hmay, fun r v' hv' => ⟨trivial, ?_⟩⟩
  rw [← Option.some.inj hv']
  exact hk r

theorem follows_skip {k : UserAuthRes o → UserAuthProg α} {Q : α → HandleView → Prop}
    (ho : ProgressFree o = true) (hk : ∀ r, (handleTypestate X i).Follows Q v (k r)) :
    (handleTypestate X i).Follows Q v (.call o k) := by
  refine follows_step (ProgressFree.may ho) fun r => ?_
  rw [ProgressFree.next ho]
  exact hk r

theorem follows_free_bind {p : UserAuthProg α} {f : α → UserAuthProg β}
    {Q : β → HandleView → Prop} (hp : p.All (ProgressFree · = true))
    (hf : ∀ a, (handleTypestate X i).Follows Q v (f a)) :
    (handleTypestate X i).Follows Q v (p >>= f) := by
  refine Typestate.Follows.bind (p := p) trivial (follows_free hp) fun a v' _ hv' => ?_
  rw [hv']
  exact hf a

/-- The mutex may be unlocked. -/
def Leaves (works : Bool) (v : HandleView) : Prop :=
  v = ⟨works, .opened⟩ ∨ v = ⟨works, .closed⟩

theorem follows_setResultDone (hphase : phase.holds = true) :
    (handleTypestate X i).Follows (fun _ => Leaves works) ⟨works, phase⟩
      (.call (.setResultDone i) .ret) := by
  refine follows_step trivial fun _ => .inr ?_
  show (⟨works, if i = i ∧ phase.holds then .closed else phase⟩ : HandleView) = _
  rw [if_pos ⟨rfl, hphase⟩]

theorem follows_dealUndone :
    (handleTypestate X i).Follows (fun _ => Leaves works) ⟨works, .opened⟩
      (dealUndone i self) := by
  refine follows_skip rfl fun _ => ?_
  refine follows_step (fun _ => .inl rfl) fun _ => ?_
  refine follows_step (v := ⟨works, .closing⟩) (fun _ => .inr (.inl rfl)) fun _ => ?_
  exact follows_setResultDone rfl

theorem follows_dealVerdict {resultCode : UInt32} {ret : ResultCode} {authToken : List UInt8} :
    (handleTypestate X i).Follows (fun _ => Leaves works) ⟨works, .opened⟩
      (dealVerdict i self resultCode ret authToken) := by
  obtain ⟨q, hq, heq⟩ := dealVerdict_eq i self resultCode ret authToken
  obtain ⟨q', hq', heq'⟩ := dealFinishData_eq i self
  rw [heq, heq']
  refine follows_free_bind (hq.mono fun _ => progressFree_of_neutral) fun r => ?_
  refine follows_step (fun _ => .inl rfl) fun _ => ?_
  -- the client has been told, the flag is not set yet
  refine follows_free_bind (v := ⟨works, .closing⟩) (hq'.mono fun _ => progressFree_of_neutral)
    fun _ => ?_
  refine follows_skip rfl fun _ => ?_
  refine follows_step (v := ⟨works, .closing⟩) (fun _ => .inr rfl) fun _ => ?_
  exact follows_setResultDone rfl

theorem follows_isResultDone {k : Bool → UserAuthProg Unit}
    (hset : (handleTypestate X i).Follows (fun _ => Leaves works) ⟨works, .closed⟩ (k true))
    (hunset : (handleTypestate X i).Follows (fun _ => Leaves works) ⟨works, .opened⟩ (k false)) :
    (handleTypestate X i).Follows (fun _ => Leaves works) ⟨works, .inside⟩
      (.call (.isResultDone i) k) := by
  refine follows_step (fun _ => rfl) fun done => ?_
  show (handleTypestate X i).Follows _
    ⟨works, if i = i then if done then .closed else .opened else .inside⟩ _
  rw [if_pos rfl]
  cases done with
  | true => exact hset
  | false => exact hunset

theorem follows_onFinishHandle {resultCode : UInt32} {scheduleToken : List UInt8} :
    (handleTypestate X i).Follows (fun _ => Leaves works) ⟨works, .inside⟩
      (onFinishHandleLocked i self resultCode scheduleToken) := by
  refine follows_skip rfl fun callbackNowCount => ?_
  have hverdict : (verdict self resultCode scheduleToken).All (ProgressFree · = true) :=
    verdict_all (P := (ProgressFree · = true)) rfl rfl resultCode
  refine follows_isResultDone (.inr rfl) ?_
  show (handleTypestate X i).Follows _ _ (verdict self resultCode scheduleToken >>= fun v =>
    if v.1 = .eRetUndone then if callbackNowCount = self.callbackCount then dealUndone i self
      else .ret () else dealVerdict i self resultCode v.1 v.2)
  refine follows_free_bind hverdict fun v => ?_
  split
  · split
    · exact follows_dealUndone
    · exact .inl rfl
  · exact follows_dealVerdict

theorem follows_onAcquireInfoHandle {acquire : UInt32} :
    (handleTypestate X i).Follows (fun _ => Leaves works) ⟨works, .inside⟩
      (onAcquireInfoHandleLocked i self acquire) :=
  follows_isResultDone (.inr rfl) (follows_step (fun _ => rfl) fun _ => .inl rfl)

/-- A handle, followed by the end of its task. -/
theorem follows_underLock {q : UserAuthProg Unit} {p : Nat}
    (hq : (handleTypestate X i).Follows (fun _ => Leaves works) ⟨works, .inside⟩ q) :
    (handleTypestate X i).Follows (fun _ _ => True) ⟨works, .outside⟩
      (underLock i q >>= fun _ => atomic (.endTask p)) := by
  rw [underLock_bind]
  refine follows_step trivial fun _ => ?_
  show (handleTypestate X i).Follows _ ⟨works, if i = i then .inside else .outside⟩ _
  rw [if_pos rfl]
  refine Typestate.Follows.bind (p := q) trivial hq fun _ v' _ hv' => ?_
  refine follows_step (fun _ => ?_) fun _ => follows_skip rfl fun _ => trivial
  rcases hv' with rfl | rfl
  · exact .inl rfl
  · exact .inr rfl

theorem follows_onFinish {resultCode : UInt32} {scheduleToken : List UInt8}
    (hX : works = true → self.callbackContextId = X) :
    (handleTypestate X i).Follows (fun _ _ => True) ⟨works, .outside⟩
      (onFinish i self resultCode scheduleToken) := by
  refine follows_step (fun hworks => ⟨hX hworks, rfl⟩) fun ret => ?_
  cases ret with
  | true => trivial
  -- a finish that finds no thread comes after a conclusion
  | false =>
    refine follows_step (fun hworks => .inr (.inr ?_)) fun _ =>
      follows_step trivial fun _ => trivial
    have hworks : works = true := hworks
    subst hworks
    rfl

theorem follows_onAcquireInfo {acquire : UInt32}
    (hX : works = true → self.callbackContextId = X) :
    (handleTypestate X i).Follows (fun _ _ => True) ⟨works, .outside⟩
      (onAcquireInfo i self acquire) := by
  refine follows_step (fun hworks => ⟨hX hworks, rfl⟩) fun ret => ?_
  cases ret with
  | true => trivial
  | false => exact follows_step trivial fun _ => trivial

/-- A thread that does not work for the callback may do everything, and learns nothing. -/
theorem Away.view (ho : Away i o) :
    (⟨false, .outside⟩ : HandleView).may X i o ∧
      ∀ r, (⟨false, .outside⟩ : HandleView).step i o r = ⟨false, .outside⟩ := by
  obtain ⟨hmark, hlock⟩ := ho
  cases o with
  | lock j =>
    have hne : j ≠ i := by simpa [lockMark, UserAuthOp.lockKind] using hlock 0 ()
    exact ⟨trivial, fun _ => by simp [HandleView.step, HandleView.next, hne]⟩
  | unlock j =>
    have hne : j ≠ i := by simpa [lockMark, UserAuthOp.lockKind] using hlock 0 ()
    exact ⟨fun hj => absurd hj hne, fun _ => by simp [HandleView.step, HandleView.next, hne]⟩
  | isResultDone j =>
    have hne : j ≠ i := by simpa [resultMark] using (hmark 0 false)
    exact ⟨fun hj => absurd hj hne, fun _ => by simp [HandleView.step, HandleView.next, hne]⟩
  | _ => exact ⟨by simp [HandleView.may], fun _ => by
      simp [HandleView.step, HandleView.next, HandlePhase.holds]⟩

theorem follows_away {p : UserAuthProg Unit} (hp : p.All (Away i)) :
    (handleTypestate X i).Follows (fun _ _ => True) ⟨false, .outside⟩ p := by
  have hfree : p.All fun o => (⟨false, .outside⟩ : HandleView).may X i o ∧
      ∀ r v', some ((⟨false, .outside⟩ : HandleView).step i o r) = some v' →
        v' = ⟨false, .outside⟩ := by
    refine hp.mono fun o ho => ⟨(Away.view ho).1, fun r v' hv' => ?_⟩
    rw [← Option.some.inj hv', (Away.view (X := X) ho).2 r]
  exact (Typestate.follows_of_all trivial hfree).mono fun _ _ _ => trivial

end Programs

/-! ## 5. All runs -/

/-- What a call does, from the start. -/
theorem follows_body (kit : AccessTokenKit) (X : UInt64) (i : Nat) (call : UserAuthCall) :
    (handleTypestate X i).Follows (fun _ _ => True) ⟨call.worksFor X i, .outside⟩
      (userAuthBody kit call) := by
  have haway (hserves : call.serves i = false) (hworks : call.worksFor X i = false) :
      (handleTypestate X i).Follows (fun _ _ => True) ⟨call.worksFor X i, .outside⟩
        (userAuthBody kit call) := by
    rw [hworks]
    exact follows_away (userAuthBody_away kit hserves)
  have hother {j : Nat} (hne : j ≠ i) (self : UserAuthCallbackImplCoAuth) :
      (j = i : Bool) = false ∧ (j = i && self.callbackContextId = X : Bool) = false := by
    simp [hne]
  have hX {j : Nat} {self : UserAuthCallbackImplCoAuth}
      (hworks : (j = i && self.callbackContextId = X : Bool) = true) :
      self.callbackContextId = X := by
    simpa using (Bool.and_eq_true_iff.mp hworks).2
  cases call with
  | auth | authUser | cancelAuth => exact haway rfl rfl
  | onFinish j self scheduleId resultCode scheduleToken =>
    by_cases hj : j = i
    · subst hj
      exact follows_onFinish hX
    · exact haway (hother hj self).1 (hother hj self).2
  | onAcquireInfo j self scheduleId acquire =>
    by_cases hj : j = i
    · subst hj
      exact follows_onAcquireInfo hX
    · exact haway (hother hj self).1 (hother hj self).2
  | task p posted =>
    cases posted with
    | ensureTransaction => exact haway rfl rfl
    | run handle =>
      cases handle with
      | onFinishHandle j self resultCode scheduleToken =>
        by_cases hj : j = i
        · subst hj
          exact follows_underLock follows_onFinishHandle
        · exact haway (hother hj self).1 (hother hj self).2
      | onAcquireInfoHandle j self acquire =>
        by_cases hj : j = i
        · subst hj
          exact follows_underLock follows_onAcquireInfoHandle
        · exact haway (hother hj self).1 (hother hj self).2

theorem works_spawned {call : UserAuthCall} (hfresh : w.Fresh t) :
    call.worksFor X i = true ↔ Works X i (w.trace ++ [Event.spawn t call]) t := by
  constructor
  · exact fun hworks => ⟨call, List.mem_append_right _ (List.mem_singleton_self _), hworks⟩
  · rintro ⟨call', hcall', hworks⟩
    rcases List.mem_append.mp hcall' with hcall' | hcall'
    · exact absurd (hfresh _ hcall') (Nat.lt_irrefl _)
    · cases List.mem_singleton.mp hcall'
      exact hworks

theorem handleTypestate_sound (kit : AccessTokenKit) (X : UInt64) (i : Nat) :
    (handleTypestate X i).Sound (userAuth kit) (drawnOnceHeld X i) (ProgressInv X i)
      (HandleLink X i) where
  start {w tid call s} hw hfresh _ hs := by
    have hsame : s.isResultDone = w.state.isResultDone ∧ s.owner = w.state.owner :=
      ⟨isResultDone_of_accept hs, (userAuth_mutex kit).accept hs⟩
    refine ⟨⟨fun h => ?_, ?_⟩, ⟨call.worksFor X i, .outside⟩, ?_, trivial,
      follows_body kit X i call⟩
    · rw [World.push_state, hsame.1, hsame.2]
      exact hw.settled (concluding_push_spawn.mp h)
    · rw [World.each_push]
      exact ⟨hw.silent, fun h => by cases h⟩
    · exact ⟨works_spawned hfresh, nofun, nofun, nofun, nofun, nofun⟩
  spawn {w t v tid call s} hv hne hs := by
    have hdone : s.isResultDone = w.state.isResultDone := isResultDone_of_accept hs
    have howner : s.owner = w.state.owner := (userAuth_mutex kit).accept hs
    constructor
    · exact hv.works.trans (works_push_spawn hne).symm
    · rw [World.push_state, howner]
      exact hv.owner
    · rw [World.push_state, hdone, World.push_trace, concluding_push_spawn]
      exact hv.inside
    · rw [World.push_trace, concluding_push_spawn]
      exact hv.opened
    · rw [World.push_state, hdone]
      exact hv.closed
    · exact fun hphase hworks => (hv.refused hphase hworks).mono
  own {w tid v o env} hw hv _ hmay hen hok :=
    ⟨hw.perform hv hmay, _, rfl, hv.own hw hmay hen hok⟩
  other hne hu hv _ _ hmay hen := hu.other hne hv hmay hen

theorem progressInv_reachable (hc : (userAuth kit).Reachable (drawnOnce X) .initial c) (i : Nat) :
    ProgressInv X i c.world := by
  -- that a lost thread was released is proved before, for all runs
  have hc' := hc.strengthen (P := fun w => w.state.groups.NonNull ∧
    ∀ t, Works X i w.trace t → retainedFor X w.state = false → Concluding X i w.trace)
    fun c hc => ⟨userAuth_nonNull kit hc, fun t => concluding_of_not_retained hc⟩
  refine ((handleTypestate_sound kit X i).reachable ⟨fun h => ?_, fun pre e post h => ?_⟩ hc').1
  · obtain ⟨pre, t, o, r, post, h, -⟩ := h
    cases List.append_ne_nil_of_right_ne_nil pre (List.cons_ne_nil _ post) h.symm
  · cases List.append_ne_nil_of_right_ne_nil pre (List.cons_ne_nil _ post) h.symm

/-! ### The client -/

/-- Progress is shown by calls on a callback, and a callback is saved by none of them. -/
def showsFor (call : UserAuthCall) : UserAuthOp → Prop
  | .onAcquireInfo .. => ∃ j self, call.about j self
  | .saveCoAuthCallback .. => ∀ j self, ¬call.about j self
  | _ => True

theorem showsFor_of_neutral {call : UserAuthCall} (ho : o.neutral = true) : showsFor call o := by
  cases o <;> trivial

theorem userAuthBody_showsFor (kit : AccessTokenKit) (call : UserAuthCall) :
    (userAuthBody kit call).All (showsFor call) := by
  have hrequest (hcall : ∀ j self, ¬call.about j self) (o : UserAuthOp)
      (ho : o.prepares = true) : showsFor call o := by
    cases o <;> trivial
  have hresult (callback : ClientCallback) (result : ResultCode) (_ : result ≠ .success) :
      showsFor call (.onResult callback result {}) := trivial
  cases call with
  | auth => exact (auth_all _ _ (hrequest fun _ _ => id) hresult _ _ _ _).discard
  | authUser => exact (authUser_all _ _ (hrequest fun _ _ => id) hresult _ _ _ _ _).discard
  | cancelAuth =>
    refine ((cancelAuth_quiet _ _ _).mono fun _ ho => ?_).discard
    exact hrequest (fun _ _ => id) _ (UserAuthOp.prepares_of_quiet ho)
  | onFinish =>
    refine ⟨trivial, fun ret => Prog.all_ite.mpr ⟨fun _ => ?_, fun _ => trivial⟩⟩
    exact ⟨trivial, fun _ => ⟨trivial, fun _ => trivial⟩⟩
  | onAcquireInfo =>
    refine ⟨trivial, fun ret => Prog.all_ite.mpr ⟨fun _ => ?_, fun _ => trivial⟩⟩
    exact ⟨trivial, fun _ => trivial⟩
  | task p posted =>
    cases posted with
    | ensureTransaction => exact ⟨trivial, fun _ => trivial⟩
    | run handle =>
      cases handle with
      | onFinishHandle j self resultCode scheduleToken =>
        show (underLock j (onFinishHandleLocked j self resultCode scheduleToken) >>=
          fun _ => _).All _
        rw [underLock_bind]
        refine ⟨trivial, fun _ => Prog.All.bind ?_ fun _ =>
          ⟨trivial, fun _ => ⟨trivial, fun _ => trivial⟩⟩⟩
        exact onFinishHandleLocked_all (fun _ => showsFor_of_neutral) trivial trivial trivial
          trivial trivial trivial trivial (fun _ _ => trivial) resultCode
      | onAcquireInfoHandle j self acquire =>
        show (underLock j (onAcquireInfoHandleLocked j self acquire) >>= fun _ => _).All _
        rw [underLock_bind]
        refine ⟨trivial, fun _ => Prog.All.bind ⟨trivial, fun done => ?_⟩ fun _ =>
          ⟨trivial, fun _ => ⟨trivial, fun _ => trivial⟩⟩⟩
        refine Prog.all_ite.mpr ⟨fun _ => trivial, fun _ => ⟨?_, fun _ => trivial⟩⟩
        exact ⟨j, self, rfl, rfl⟩

/-- Whoever serves the callback of a context works for both. -/
theorem works_of_spawned (hc : (userAuth kit).Reachable ok .initial c)
    (hsaved : SavedAs X i c.world) (h : t ∈ c.world.spawned (UserAuthCall.serves i)) :
    Works X i c.world.trace t := by
  obtain ⟨call, hcall, hserves⟩ := World.mem_spawned.mp h
  have habout : ∃ self, call.about i self := by
    cases call with
    | auth | authUser | cancelAuth => cases hserves
    | onFinish | onAcquireInfo => exact ⟨_, of_decide_eq_true hserves, rfl⟩
    | task p posted =>
      cases posted with
      | ensureTransaction => cases hserves
      | run handle => cases handle <;> exact ⟨_, of_decide_eq_true hserves, rfl⟩
  obtain ⟨self, habout⟩ := habout
  have hknown := (genuine_reachable hc).calls t call hcall i self habout
  exact ⟨call, hcall, UserAuthCall.worksFor_iff.mpr
    ⟨self, habout, context_of_known hc hsaved hknown⟩⟩

/-- Progress is shown by a thread that works for the callback. -/
theorem shows_of_mem_progress (hc : (userAuth kit).Reachable ok .initial c)
    (hsaved : SavedAs X i c.world) {e : UserAuthEvent} {pre post : List UserAuthEvent}
    (hsplit : c.world.trace = pre ++ e :: post) (he : e ∈ progress i c.world) :
    Shows X i pre e := by
  obtain ⟨hmem, hspeaks⟩ := List.mem_filter.mp he
  cases e with
  | spawn => cases hspeaks
  | op t o r =>
    cases o with
    | onAcquireInfo callback acquireModule acquireInfo extraInfo =>
      have hserves : t ∈ c.world.spawned (UserAuthCall.serves i) := by
        rcases Bool.or_eq_true_iff.mp hspeaks with hspawned | hsaver
        · exact List.contains_iff_mem.mp hspawned
        · -- the request that has saved the callback shows nothing
          obtain ⟨k, hk, hsaver⟩ := List.any_eq_true.mp hsaver
          cases k with
          | saved contextId j ret =>
            obtain ⟨d, hd, rfl, hmark⟩ := (World.mem_marks _).mp hk
            obtain ⟨call, hcall⟩ := hc.exists_spawn (List.getElem?_eq_getElem (hc.fresh _ hmem))
            have hshows := (hc.all_ops hcall (userAuthBody_showsFor kit call)).1
            obtain ⟨j', self, habout⟩ := hshows _ _ hmem
            cases d with
            | spawn => cases hmark
            | op t' o' r' =>
              cases o' with
              | saveCoAuthCallback => exact absurd habout (hshows _ _ hd j' self)
              | _ => cases hmark
          | _ => cases hsaver
      obtain ⟨call, hcall, hworks⟩ := works_of_spawned hc hsaved hserves
      exact ⟨call, hc.spawn_before hcall hsplit, hworks⟩
    | _ => cases hspeaks

/-- **No progress after the verdict.**  Once the client of an accepted request has heard a result,
it is shown no progress any more. -/
theorem no_progress_after_result (kit : AccessTokenKit) (X : UInt64) (i : Nat) {c : UserAuthConfig}
    (hc : (userAuth kit).Reachable (drawnOnce X) .initial c) (hsaved : SavedAs X i c.world)
    {pre post : List UserAuthEvent} {e : UserAuthEvent}
    (hsplit : c.world.trace = pre ++ e :: post) (he : e ∈ progress i c.world) :
    ∀ d ∈ pre, d ∉ results i c.world := by
  intro d hd hresult
  have hshows := shows_of_mem_progress hc hsaved hsplit he
  have hnone := (progressInv_reachable hc i).silent pre e post hsplit hshows
  obtain ⟨⟨hspawned, -⟩, hmark⟩ := tells_of_mem_results kit hc hresult
  have hworks := works_of_spawned hc hsaved hspawned
  -- the result that was heard is itself a conclusion
  apply hnone
  cases d with
  | spawn => cases hmark
  | op t o r =>
    cases o with
    | onResult => exact concluding_of_mem hc hsplit hd rfl hworks
    | _ => cases hmark

/-! ### A piece of information and a finish -/

/-- Schedule 7 acquires something and succeeds; the information that comes last finds no thread. -/
def progressRun : List (Machine.Label UserAuthEnv UserAuthCall) :=
  scenarioAuth [7] ++ [.spawn (.onAcquireInfo 0 scenarioCallback 7 5), .run 2 {}] ++
    [.spawn (.task 0 (.run (.onAcquireInfoHandle 0 scenarioCallback 5)))] ++ scenarioRun 3 5 ++
    scenarioFinish 4 7 0 ++ scenarioVerdict 5 0 {} ++ scenarioRun 5 9 ++
    [.spawn (.onAcquireInfo 0 scenarioCallback 7 6), .run 6 {}, .run 6 {}]

theorem no_progress_after_result_example :
    ∃ c, (userAuth scenarioKit).Reachable (drawnOnce 1) .initial c ∧ SavedAs 1 0 c.world ∧
      progress 0 c.world ≠ [] ∧ results 0 c.world ≠ [] ∧
      ∀ pre e post, c.world.trace = pre ++ e :: post → e ∈ progress 0 c.world →
        ∀ d ∈ pre, d ∉ results 0 c.world := by
  have hrun : ((userAuth scenarioKit).exec (drawnOnce 1) ⟨⟨.initial, []⟩, []⟩ progressRun).map
      (fun c => (decide (.saved 1 0 .success ∈ c.world.marks lifeMark 0),
        (progress 0 c.world).isEmpty, (results 0 c.world).isEmpty)) =
      some (true, false, false) := by decide +kernel
  obtain ⟨c, hc, hchecks⟩ := Option.map_eq_some_iff.mp hrun
  simp only [Prod.mk.injEq] at hchecks
  obtain ⟨hsaved, hprogress, hresults⟩ := hchecks
  have hreach : (userAuth scenarioKit).Reachable (drawnOnce 1) .initial c := .exec .init hc
  have hsaved : SavedAs 1 0 c.world := ⟨0, of_decide_eq_true hsaved⟩
  refine ⟨c, hreach, hsaved, List.isEmpty_eq_false_iff.mp hprogress,
    List.isEmpty_eq_false_iff.mp hresults, fun pre e post hsplit he => ?_⟩
  exact no_progress_after_result scenarioKit 1 0 hreach hsaved hsplit he

end UserIam.UserAuth
