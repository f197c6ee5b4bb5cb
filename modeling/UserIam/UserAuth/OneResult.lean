import UserIam.UserAuth.RequestShape

/-!
# At most one result

A handle looks at the done flag and tells the client under the mutex of its callback.  `OnFinish`
tells the client `BUSY`, without either, when the thread of the context has been released.
-/

namespace UserIam.UserAuth

open Conc Common Machine

/-! ## 1. Results -/

def UserAuthTask.serves (i : Nat) : UserAuthTask → Bool
  | .onFinishHandle j .. | .onAcquireInfoHandle j .. => j = i

/-- The calls on behalf of the `i`-th callback. -/
def UserAuthCall.serves (i : Nat) : UserAuthCall → Bool
  | .onFinish j .. | .onAcquireInfo j .. => j = i
  | .task _ (.run posted) => posted.serves i
  | _ => false

/-- The thread works for the `i`-th callback, or is the request that saved it. -/
def speaksFor (i : Nat) (w : UserAuthWorld) (t : Nat) : Bool :=
  (w.spawned (UserAuthCall.serves i)).contains t ||
    (w.marks lifeMark t).any fun
      | .saved _ j ret => j = i && ret = .success
      | _ => false

/-- What the client hears on behalf of the `i`-th callback. -/
def results (i : Nat) (w : UserAuthWorld) : List UserAuthEvent :=
  w.trace.filter fun
    | .op t (.onResult ..) _ => speaksFor i w t
    | _ => false

inductive ResultMark where
  | opened
  | told
  | done
  deriving DecidableEq

def resultMark (i : Nat) : UserAuthEvent → Option ResultMark
  | .op _ (.isResultDone j) done => if j = i ∧ !done then some .opened else none
  | .op _ (.onResult ..) _ => some .told
  | .op _ (.setResultDone j) _ => if j = i then some .done else none
  | _ => none

attribute [local simp] resultMark

variable {kit : AccessTokenKit} {i t t' : Nat} {w : UserAuthWorld} {s : UserAuthState}
  {e : UserAuthEvent} {env : UserAuthEnv} {α : Type}

def Holds (i : Nat) (w : UserAuthWorld) (t : Nat) : Prop :=
  w.marks (lockMark UserAuthOp.lockKind i) t = [true]

def Tells (i : Nat) (w : UserAuthWorld) (t : Nat) : Prop :=
  t ∈ w.spawned (UserAuthCall.serves i) ∧ .told ∈ w.marks (resultMark i) t

/-- Who has told the client holds the mutex until the done flag is set, and who holds the mutex and
has found the flag unset is the only one who tells. -/
structure OneInv (i : Nat) (w : UserAuthWorld) : Prop where
  settled : ∀ t, Tells i w t → .done ∈ w.marks (resultMark i) t ∨ Holds i w t
  flag : ∀ t, .done ∈ w.marks (resultMark i) t → w.state.isResultDone i = true
  alone : ∀ t, Holds i w t → .opened ∈ w.marks (resultMark i) t → ∀ t' ≠ t, ¬Tells i w t'
  unique : ∀ t, Tells i w t → ∀ t' ≠ t, ¬Tells i w t'

theorem Holds.eq (hw : Owned UserAuthOp.lockKind UserAuthState.owner w) (ht : Holds i w t)
    (ht' : Holds i w t') : t = t' :=
  Option.some.inj ((hw t i ht).symm.trans (hw t' i ht'))

/-! ## 2. Steps -/

/-- An event that tells nobody and leaves the mutex alone. -/
theorem OneInv.push (hw : OneInv i w)
    (hspawned : ∀ t', t' ∈ (w.push s e).spawned (UserAuthCall.serves i) →
      .told ∈ w.marks (resultMark i) t' → t' ∈ w.spawned (UserAuthCall.serves i))
    (hmark : resultMark i e = none) (hlock : lockMark UserAuthOp.lockKind i e = none)
    (hflag : w.state.isResultDone i = true → s.isResultDone i = true) : OneInv i (w.push s e) := by
  have hmarks : (w.push s e).marks (resultMark i) = w.marks (resultMark i) := by
    rw [World.marks_push, hmark, Option.toList_none, List.append_nil, Function.update_eq_self]
  have hlocks : (w.push s e).marks (lockMark UserAuthOp.lockKind i) =
      w.marks (lockMark UserAuthOp.lockKind i) := by
    rw [World.marks_push, hlock, Option.toList_none, List.append_nil, Function.update_eq_self]
  have htells {t' : Nat} (ht' : Tells i (w.push s e) t') : Tells i w t' := by
    obtain ⟨hserves, htold⟩ := ht'
    rw [hmarks] at htold
    exact ⟨hspawned t' hserves htold, htold⟩
  constructor
  · intro t ht
    simp only [Holds, hmarks, hlocks]
    exact hw.settled t (htells ht)
  · intro t ht
    rw [hmarks] at ht
    exact hflag (hw.flag t ht)
  · intro t hheld hopened t' hne ht'
    simp only [Holds, hlocks] at hheld
    rw [hmarks] at hopened
    exact hw.alone t hheld hopened t' hne (htells ht')
  · intro t ht t' hne ht'
    exact hw.unique t (htells ht) t' hne (htells ht')

theorem isResultDone_mono (t : Nat) (env : UserAuthEnv) (o : UserAuthOp)
    (h : s.isResultDone i = true) : (userAuthHandle t env s o).2.isResultDone i = true := by
  cases o with
  | addContextId | deleteContextId | setScheduleIds =>
    simp only [userAuthHandle]
    split <;> exact h
  | saveCoAuthCallback contextId j =>
    simp only [userAuthHandle, UserAuth.saveCoAuthCallback]
    split
    · exact h
    · split <;> exact h
  | setResultDone j =>
    simp only [userAuthHandle, Function.update_apply]
    split
    · rfl
    · exact h
  | _ => exact h

abbrev performed (kit : AccessTokenKit) (w : UserAuthWorld) (t : Nat) (o : UserAuthOp)
    (env : UserAuthEnv) : UserAuthWorld :=
  (userAuth kit).perform w t o env

theorem spawned_performed {o : UserAuthOp} (p : UserAuthCall → Bool) :
    (performed kit w t o env).spawned p = w.spawned p :=
  World.spawned_push_op

/-- A step of thread `t` changes what is known of `t` only. -/
theorem OneInv.perform {o : UserAuthOp} (hw : OneInv i w)
    (hsettled : Tells i (performed kit w t o env) t →
      .done ∈ (performed kit w t o env).marks (resultMark i) t ∨
        Holds i (performed kit w t o env) t)
    (hflag : .done ∈ (performed kit w t o env).marks (resultMark i) t →
      (performed kit w t o env).state.isResultDone i = true)
    (halone : Holds i (performed kit w t o env) t →
      .opened ∈ (performed kit w t o env).marks (resultMark i) t → ∀ t' ≠ t, ¬Tells i w t')
    (htold : Tells i (performed kit w t o env) t → Tells i w t ∨ ∀ t' ≠ t, ¬Tells i w t' ∧
      (Holds i w t' → .opened ∉ w.marks (resultMark i) t')) :
    OneInv i (performed kit w t o env) := by
  -- Nothing changes for the other threads.
  have hmarks {t' : Nat} (ht' : t' ≠ t) :
      (performed kit w t o env).marks (resultMark i) t' = w.marks (resultMark i) t' :=
    marks_perform_of_ne _ _ _ _ _ ht'.symm
  have htells {t' : Nat} (ht' : t' ≠ t) :
      Tells i (performed kit w t o env) t' ↔ Tells i w t' := by
    simp only [Tells, spawned_performed, hmarks ht']
  have hholds {t' : Nat} (ht' : t' ≠ t) :
      Holds i (performed kit w t o env) t' ↔ Holds i w t' := by
    simp only [Holds, performed, marks_perform_of_ne _ _ _ _ _ ht'.symm]
  constructor
  · intro t' ht'
    by_cases hne : t' = t
    · subst hne
      exact hsettled ht'
    · rw [hmarks hne, hholds hne]
      exact hw.settled t' ((htells hne).mp ht')
  · intro t' ht'
    by_cases hne : t' = t
    · subst hne
      exact hflag ht'
    · rw [hmarks hne] at ht'
      exact isResultDone_mono t env o (hw.flag t' ht')
  -- by which of the two threads is the one that has stepped
  · intro t' hheld hopened t'' hne' ht''
    by_cases hne : t' = t
    · subst hne
      exact halone hheld hopened t'' hne' ((htells hne').mp ht'')
    · rw [hholds hne] at hheld
      rw [hmarks hne] at hopened
      by_cases hne'' : t'' = t
      · subst hne''
        rcases htold ht'' with hbefore | hothers
        · exact hw.alone t' hheld hopened t'' hne' hbefore
        · exact (hothers t' hne).2 hheld hopened
      · exact hw.alone t' hheld hopened t'' hne' ((htells hne'').mp ht'')
  · intro t' ht' t'' hne' ht''
    by_cases hne : t' = t
    · subst hne
      have ht'' := (htells hne').mp ht''
      rcases htold ht' with hbefore | hothers
      · exact hw.unique t' hbefore t'' hne' ht''
      · exact (hothers t'' hne').1 ht''
    · have hold := (htells hne).mp ht'
      by_cases hne'' : t'' = t
      · subst hne''
        rcases htold ht'' with hbefore | hothers
        · exact hw.unique t' hold t'' hne' hbefore
        · exact (hothers t' hne).1 hold
      · exact hw.unique t' hold t'' hne' ((htells hne'').mp ht'')

/-- What a thread knows of its own marks. -/
def Own (i : Nat) (l : List ResultMark) (b : List Bool) (h : List UserAuthEvent) : Prop :=
  h.filterMap (resultMark i) = l ∧ h.filterMap (lockMark UserAuthOp.lockKind i) = b

/-- The marks of the thread after its step. -/
theorem own_performed (kit : AccessTokenKit) (env : UserAuthEnv) {l : List ResultMark}
    {b : List Bool} (o : UserAuthOp) (hown : Own i l b (w.own t)) :
    (performed kit w t o env).marks (resultMark i) t =
        l ++ (resultMark i (.op t o ((userAuth kit).answer w t o env))).toList ∧
      (performed kit w t o env).marks (lockMark UserAuthOp.lockKind i) t =
        b ++ (lockMark UserAuthOp.lockKind i
          (.op t o ((userAuth kit).answer w t o env) : UserAuthEvent)).toList := by
  rw [performed, marks_perform_self, marks_perform_self, World.marks, World.marks, hown.1, hown.2]
  exact ⟨rfl, rfl⟩

/-- The thread that locks the mutex has not looked at the flag. -/
theorem OneInv.lock (hw : OneInv i w) (hown : Own i [] [] (w.own t)) :
    OneInv i (performed kit w t (.lock i) env) := by
  obtain ⟨hmarks, -⟩ := own_performed kit env (.lock i) hown
  have hnil : (performed kit w t (.lock i) env).marks (resultMark i) t = [] := hmarks
  refine hw.perform ?_ ?_ ?_ ?_
  · rintro ⟨-, htold⟩
    simp [hnil] at htold
  · intro hdone
    simp [hnil] at hdone
  · intro _ hopened
    simp [hnil] at hopened
  · rintro ⟨-, htold⟩
    simp [hnil] at htold

/-- Whoever finds the flag unset while it holds the mutex is the first. -/
theorem OneInv.opened (hw : OneInv i w)
    (howned : Owned UserAuthOp.lockKind UserAuthState.owner w) (hown : Own i [] [true] (w.own t))
    (hflag : w.state.isResultDone i = false) :
    OneInv i (performed kit w t (.isResultDone i) env) := by
  obtain ⟨hmarks, hlocks⟩ := own_performed kit env (.isResultDone i) hown
  have hheld : Holds i w t := hown.2
  have hanswer : (userAuth kit).answer w t (.isResultDone i) env = false := hflag
  have hopened : (performed kit w t (.isResultDone i) env).marks (resultMark i) t = [.opened] := by
    rw [hmarks, hanswer]
    simp
  refine hw.perform ?_ ?_ ?_ ?_
  · rintro ⟨-, htold⟩
    simp [hopened] at htold
  · intro hdone
    simp [hopened] at hdone
  · intro _ _ t' hne ht'
    rcases hw.settled t' ht' with hdone | hheld'
    · rw [hw.flag t' hdone] at hflag
      cases hflag
    · exact hne (hheld'.eq howned hheld)
  · rintro ⟨-, htold⟩
    simp [hopened] at htold

/-- The thread that tells the client holds the mutex and has found the flag unset. -/
theorem OneInv.told (hw : OneInv i w)
    (howned : Owned UserAuthOp.lockKind UserAuthState.owner w)
    (hown : Own i [.opened] [true] (w.own t)) {callback : ClientCallback} {result : ResultCode}
    {extraInfo : AuthResult} :
    OneInv i (performed kit w t (.onResult callback result extraInfo) env) := by
  obtain ⟨hmarks, hlocks⟩ :=
    own_performed kit env (.onResult callback result extraInfo) hown
  have hheld : Holds i w t := hown.2
  have hopened : .opened ∈ w.marks (resultMark i) t := by
    rw [World.marks, hown.1]
    exact List.mem_singleton_self _
  refine hw.perform (fun _ => .inr hlocks) ?_ (fun _ _ => hw.alone t hheld hopened) ?_
  · intro hdone
    rw [hmarks] at hdone
    simp at hdone
  · refine fun _ => .inr fun t' hne => ⟨hw.alone t hheld hopened t' hne, fun hheld' => ?_⟩
    exact absurd (hheld'.eq howned hheld) hne

/-- Setting the flag settles the result. -/
theorem OneInv.done (hw : OneInv i w) {l : List ResultMark} {b : List Bool}
    (hown : Own i l b (w.own t)) (hopened : .opened ∈ l → b = [true]) :
    OneInv i (performed kit w t (.setResultDone i) env) := by
  obtain ⟨hmarks, hlocks⟩ := own_performed kit env (.setResultDone i) hown
  have hdone : (performed kit w t (.setResultDone i) env).marks (resultMark i) t =
      l ++ [ResultMark.done] := by
    rw [hmarks]
    simp
  have hbefore : w.marks (resultMark i) t = l := hown.1
  refine hw.perform (fun _ => .inl ?_) (fun _ => ?_) ?_ ?_
  · rw [hdone]
    exact List.mem_append_right _ (List.mem_singleton_self _)
  · exact Function.update_self ..
  · intro _ hmem
    rw [hdone] at hmem
    have hmem : .opened ∈ l := by simpa using hmem
    refine hw.alone t ?_ (hbefore ▸ hmem)
    exact hown.2.trans (hopened hmem)
  · rintro ⟨hspawned, htold⟩
    rw [hdone] at htold
    rw [spawned_performed] at hspawned
    exact .inl ⟨hspawned, hbefore ▸ (by simpa using htold : .told ∈ l)⟩

/-- The mutex is unlocked by a thread that has set the flag if it has told the client. -/
theorem OneInv.unlock (hw : OneInv i w) {l : List ResultMark} (hown : Own i l [true] (w.own t))
    (hdone : .told ∈ l → .done ∈ l) : OneInv i (performed kit w t (.unlock i) env) := by
  obtain ⟨hmarks, hlocks⟩ := own_performed kit env (.unlock i) hown
  have hsame : (performed kit w t (.unlock i) env).marks (resultMark i) t = l := by
    rw [hmarks]
    simp
  have hbefore : w.marks (resultMark i) t = l := hown.1
  refine hw.perform ?_ ?_ ?_ ?_
  · rintro ⟨-, htold⟩
    rw [hsame] at htold ⊢
    exact .inl (hdone htold)
  · intro hmem
    rw [hsame, ← hbefore] at hmem
    exact hw.flag t hmem
  · intro hheld
    rw [Holds, hlocks] at hheld
    simp [lockMark, UserAuthOp.lockKind] at hheld
  · rintro ⟨hspawned, htold⟩
    rw [hsame, ← hbefore] at htold
    rw [spawned_performed] at hspawned
    exact .inl ⟨hspawned, htold⟩

/-! ## 3. The condition -/

/-- When `OnFinish` of the callback posts its task, the thread of the context is still retained. -/
def postsRetained (i : Nat) (w : UserAuthWorld) : UserAuthMove → Prop
  | .op _ (.postTask contextId (.onFinishHandle j ..)) _ =>
    j = i → w.state.groups.retained groupAuth contextId = true
  | _ => True

instance (i : Nat) (w : UserAuthWorld) (mv : UserAuthMove) : Decidable (postsRetained i w mv) := by
  unfold postsRetained
  split <;> infer_instance

/-- The condition together with what holds in every reachable world. -/
def postsRetainedOwned (i : Nat) (w : UserAuthWorld) (mv : UserAuthMove) : Prop :=
  postsRetained i w mv ∧ Owned UserAuthOp.lockKind UserAuthState.owner w ∧
    w.state.groups.NonNull

/-! ## 4. Programs -/

abbrev KeepsOne (kit : AccessTokenKit) (i t : Nat) (p : UserAuthProg α)
    (Q : α → List UserAuthEvent → Prop) (h : List UserAuthEvent) : Prop :=
  (userAuth kit).Keeps (postsRetainedOwned i) (OneInv i) t p Q h

variable {l : List ResultMark} {b : List Bool} {h : List UserAuthEvent} {o : UserAuthOp}

/-- An operation without any mark. -/
def Calm (i : Nat) (o : UserAuthOp) : Prop :=
  (∀ t r, resultMark i (.op t o r) = none) ∧
    ∀ t r, lockMark UserAuthOp.lockKind i (.op t o r : UserAuthEvent) = none

theorem calm_of_quiet (ho : o.quiet = true) : Calm i o := by
  constructor <;> intro t r <;> cases o <;> first | rfl | cases ho

theorem calm_of_neutral (ho : o.neutral = true) : Calm i o :=
  calm_of_quiet (UserAuthOp.quiet_of_neutral ho)

theorem OneInv.calm (hw : OneInv i w) (ho : Calm i o) : OneInv i (performed kit w t o env) := by
  refine hw.push (fun t' ht' _ => ?_) (ho.1 _ _) (ho.2 _ _) (isResultDone_mono t env o)
  rwa [World.spawned_push_op] at ht'

theorem Own.calm (hh : Own i l b h) (ho : Calm i o) (r : UserAuthRes o) :
    Own i l b (h ++ [Event.op t o r]) := by
  constructor
  · rw [World.filterMap_concat _ hh.1, ho.1, Option.toList_none, List.append_nil]
  · rw [World.filterMap_concat _ hh.2, ho.2, Option.toList_none, List.append_nil]

theorem keepsOne_calm {p : UserAuthProg α} (hp : p.All (Calm i)) (hh : Own i l b h) :
    KeepsOne kit i t p (fun _ => Own i l b) h :=
  Keeps.of_all (fun _ _ _ ho hw hR _ _ => ⟨hw.calm ho, hR.calm ho _⟩) hp hh

theorem keepsOne_skip {k : UserAuthRes o → UserAuthProg α} {Q : α → List UserAuthEvent → Prop}
    (ho : Calm i o) (hh : Own i l b h)
    (hk : ∀ r h', Own i l b h' → KeepsOne kit i t (k r) Q h') :
    KeepsOne kit i t (.call o k) Q h :=
  fun _ _ hw _ _ _ => ⟨hw.calm ho, hk _ _ (hh.calm ho _)⟩

/-- The one place where a handle tells the client. -/
theorem keepsOne_told {callback : ClientCallback} {result : ResultCode} {extraInfo : AuthResult}
    {k : Unit → UserAuthProg α} {Q : α → List UserAuthEvent → Prop}
    (hh : Own i [.opened] [true] h)
    (hk : ∀ h', Own i [.opened, .told] [true] h' → KeepsOne kit i t (k ()) Q h') :
    KeepsOne kit i t (.call (.onResult callback result extraInfo) k) Q h := by
  rintro w env hw rfl - hok
  refine ⟨hw.told hok.2.1 hh, hk _ ⟨?_, ?_⟩⟩
  · rw [World.filterMap_concat _ hh.1]
    rfl
  · rw [World.filterMap_concat _ hh.2]
    rfl

theorem keepsOne_done {k : Unit → UserAuthProg α} {Q : α → List UserAuthEvent → Prop}
    (hh : Own i l b h) (hopened : .opened ∈ l → b = [true])
    (hk : ∀ h', Own i (l ++ [ResultMark.done]) b h' → KeepsOne kit i t (k ()) Q h') :
    KeepsOne kit i t (.call (.setResultDone i) k) Q h := by
  rintro w env hw rfl - -
  refine ⟨hw.done hh hopened, hk _ ⟨?_, ?_⟩⟩
  · rw [World.filterMap_concat _ hh.1]
    simp
  · rw [World.filterMap_concat _ hh.2]
    exact List.append_nil b

/-- What a thread has done when it unlocks the mutex. -/
def Answered (i : Nat) (h : List UserAuthEvent) : Prop :=
  ∃ l, Own i l [true] h ∧ (.told ∈ l → .done ∈ l)

theorem keepsOne_dealUndone {self : UserAuthCallbackImplCoAuth} (hh : Own i [.opened] [true] h) :
    KeepsOne kit i t (dealUndone i self) (fun _ => Answered i) h := by
  refine keepsOne_skip (calm_of_quiet rfl) hh fun _ h hh => ?_
  refine keepsOne_skip ⟨fun _ _ => rfl, fun _ _ => rfl⟩ hh fun _ h hh => ?_
  refine keepsOne_told hh fun h hh => keepsOne_done hh (fun _ => rfl) fun h hh => ?_
  exact ⟨_, hh, fun _ => by simp⟩

theorem keepsOne_dealVerdict {self : UserAuthCallbackImplCoAuth} {resultCode : UInt32}
    {ret : ResultCode} {authToken : List UInt8} (hh : Own i [.opened] [true] h) :
    KeepsOne kit i t (dealVerdict i self resultCode ret authToken) (fun _ => Answered i) h := by
  obtain ⟨q, hq, heq⟩ := dealVerdict_eq i self resultCode ret authToken
  obtain ⟨q', hq', heq'⟩ := dealFinishData_eq i self
  rw [heq]
  refine (keepsOne_calm (hq.mono fun _ => calm_of_neutral) hh).bind fun r h hh => ?_
  refine keepsOne_told hh fun h hh => ?_
  rw [heq']
  refine (keepsOne_calm (hq'.mono fun _ => calm_of_neutral) hh).bind fun r h hh => ?_
  refine keepsOne_skip (calm_of_quiet rfl) hh fun _ h hh => ?_
  refine keepsOne_skip ⟨fun _ _ => rfl, fun _ _ => rfl⟩ hh fun _ h hh => ?_
  exact keepsOne_done hh (fun _ => rfl) fun h hh => ⟨_, hh, fun _ => by simp⟩

/-- Looking at the flag while holding the mutex. -/
theorem keepsOne_flag {k : Bool → UserAuthProg α} {Q : α → List UserAuthEvent → Prop}
    (hh : Own i [] [true] h)
    (hset : ∀ h', Own i [] [true] h' → KeepsOne kit i t (k true) Q h')
    (hunset : ∀ h', Own i [.opened] [true] h' → KeepsOne kit i t (k false) Q h') :
    KeepsOne kit i t (.call (.isResultDone i) k) Q h := by
  rintro w env hw rfl - hok
  have hlock (r : Bool) :
      (w.own t ++ [(.op t (.isResultDone i) r : UserAuthEvent)]).filterMap
        (lockMark UserAuthOp.lockKind i) = [true] := by
    rw [World.filterMap_concat _ hh.2]
    rfl
  cases hflag : w.state.isResultDone i with
  | true =>
    have hanswer : (userAuth kit).answer w t (.isResultDone i) env = true := hflag
    have hmark : resultMark i (.op t (.isResultDone i) true) = none := by simp
    rw [hanswer]
    refine ⟨hw.push (fun t' ht' _ => ?_) ?_ rfl id, hset _ ⟨?_, hlock true⟩⟩
    · rwa [World.spawned_push_op] at ht'
    · rw [hanswer]
      exact hmark
    · rw [World.filterMap_concat _ hh.1, hmark]
      rfl
  | false =>
    have hanswer : (userAuth kit).answer w t (.isResultDone i) env = false := hflag
    rw [hanswer]
    refine ⟨hw.opened hok.2.1 hh hflag, hunset _ ⟨?_, hlock false⟩⟩
    rw [World.filterMap_concat _ hh.1]
    simp

theorem verdict_calm (self : UserAuthCallbackImplCoAuth) (resultCode : UInt32)
    (scheduleToken : List UInt8) : (verdict self resultCode scheduleToken).All (Calm i) :=
  verdict_all (calm_of_quiet rfl) ⟨fun _ _ => rfl, fun _ _ => rfl⟩ resultCode

theorem keepsOne_handleLocked {self : UserAuthCallbackImplCoAuth} {resultCode : UInt32}
    {scheduleToken : List UInt8} (hh : Own i [] [true] h) :
    KeepsOne kit i t (onFinishHandleLocked i self resultCode scheduleToken)
      (fun _ => Answered i) h := by
  refine keepsOne_skip ⟨fun _ _ => rfl, fun _ _ => rfl⟩ hh fun callbackNowCount h hh => ?_
  refine keepsOne_flag hh (fun h hh => ⟨_, hh, fun htold => by cases htold⟩) fun h hh => ?_
  refine (keepsOne_calm (verdict_calm self resultCode scheduleToken) hh).bind fun v h hh => ?_
  show KeepsOne kit i t (if v.1 = .eRetUndone then _ else _) _ _
  split
  · split
    · exact keepsOne_dealUndone hh
    · exact ⟨_, hh, fun htold => by simp at htold⟩
  · exact keepsOne_dealVerdict hh

theorem keepsOne_acquireLocked {self : UserAuthCallbackImplCoAuth} {acquire : UInt32}
    (hh : Own i [] [true] h) :
    KeepsOne kit i t (onAcquireInfoHandleLocked i self acquire) (fun _ => Answered i) h := by
  refine keepsOne_flag hh (fun h hh => ⟨_, hh, fun htold => by cases htold⟩) fun h hh => ?_
  refine keepsOne_skip ⟨fun _ _ => rfl, fun _ _ => rfl⟩ hh fun _ h hh => ?_
  exact ⟨_, hh, fun htold => by simp at htold⟩

/-- What runs under the mutex of the callback, and is followed by the end of the task. -/
theorem keepsOne_underLock {q : UserAuthProg Unit} {p : Nat} (hh : Own i [] [] h)
    (hq : ∀ h', Own i [] [true] h' → KeepsOne kit i t q (fun _ => Answered i) h') :
    KeepsOne kit i t (underLock i q >>= fun _ => atomic (.endTask p)) (fun _ _ => True) h := by
  rw [underLock_bind]
  rintro w env hw rfl - -
  have hlocked : Own i [] [true] (w.own t ++ [(.op t (.lock i) () : UserAuthEvent)]) := by
    constructor
    · rw [World.filterMap_concat _ hh.1]
      rfl
    · rw [World.filterMap_concat _ hh.2]
      simp [lockMark, UserAuthOp.lockKind]
  refine ⟨hw.lock hh, (hq _ hlocked).bind fun _ h hh => ?_⟩
  rintro w env hw rfl - -
  obtain ⟨l, hown, hdone⟩ := hh
  refine ⟨hw.unlock hown hdone, fun w env hw _ _ _ => ⟨hw.calm ⟨?_, ?_⟩, trivial⟩⟩
  · exact fun _ _ => rfl
  · exact fun _ _ => rfl

/-! ### Other threads -/

/-- An operation that at most tells a client. -/
def Away (i : Nat) (o : UserAuthOp) : Prop :=
  (∀ t r, resultMark i (.op t o r) = none ∨ resultMark i (.op t o r) = some .told) ∧
    ∀ t r, lockMark UserAuthOp.lockKind i (.op t o r : UserAuthEvent) = none

theorem away_of_calm (ho : Calm i o) : Away i o := ⟨fun t r => .inl (ho.1 t r), ho.2⟩

/-- The thread does not work for the callback. -/
def Stranger (i : Nat) (h : List UserAuthEvent) : Prop :=
  ∀ t call, .spawn t call ∈ h → call.serves i = false

theorem OneInv.away (hw : OneInv i w) (ho : Away i o) (hstranger : Stranger i (w.own t)) :
    OneInv i (performed kit w t o env) := by
  have hmem {k : ResultMark} (hk : k ≠ .told)
      (hk' : k ∈ (performed kit w t o env).marks (resultMark i) t) :
      k ∈ w.marks (resultMark i) t := by
    rw [performed, marks_perform_self, List.mem_append] at hk'
    apply hk'.resolve_right
    rcases ho.1 t ((userAuth kit).answer w t o env) with hmark | hmark
    · rw [hmark]
      exact List.not_mem_nil
    · rw [hmark]
      simp [hk]
  have hholds : Holds i (performed kit w t o env) t → Holds i w t := by
    intro hheld
    rwa [Holds, performed, marks_perform_of_none _ _ _ (ho.2 _ _)] at hheld
  have hsilent : ¬Tells i (performed kit w t o env) t := by
    rintro ⟨hspawned, -⟩
    rw [spawned_performed] at hspawned
    obtain ⟨call, hcall, hserves⟩ := World.mem_spawned.mp hspawned
    rw [hstranger t call (World.mem_own.mpr ⟨hcall, rfl⟩)] at hserves
    cases hserves
  refine hw.perform (fun h => absurd h hsilent) ?_ ?_ fun h => absurd h hsilent
  · exact fun hdone => isResultDone_mono t env o (hw.flag t (hmem (by decide) hdone))
  · exact fun hheld hopened => hw.alone t (hholds hheld) (hmem (by decide) hopened)

theorem keepsOne_stranger {p : UserAuthProg Unit} (hp : p.All (Away i)) (hh : Stranger i h) :
    KeepsOne kit i t p (fun _ _ => True) h := by
  refine (Keeps.of_all (R := Stranger i) (fun w env o ho hw hR _ _ => ?_) hp hh).mono
    fun _ _ _ => trivial
  refine ⟨hw.away ho hR, fun t' call hcall => hR t' call ?_⟩
  simpa using hcall

/-! ## 5. All runs -/

theorem calm_of_prepares (ho : o.prepares = true) : Calm i o := by
  constructor <;> intro t r <;> cases o <;> first | rfl | cases ho

theorem away_lock {j : Nat} (hne : j ≠ i) : Away i (.lock j) ∧ Away i (.unlock j) :=
  ⟨⟨fun _ _ => .inl rfl, fun _ _ => if_neg hne⟩, ⟨fun _ _ => .inl rfl, fun _ _ => if_neg hne⟩⟩

theorem away_flag {j : Nat} (hne : j ≠ i) : Away i (.isResultDone j) ∧ Away i (.setResultDone j) :=
  ⟨⟨fun _ _ => .inl (if_neg fun h => hne h.1), fun _ _ => rfl⟩,
    ⟨fun _ _ => .inl (if_neg hne), fun _ _ => rfl⟩⟩

theorem away_result {callback : ClientCallback} {result : ResultCode} {extraInfo : AuthResult} :
    Away i (.onResult callback result extraInfo) :=
  ⟨fun _ _ => .inr rfl, fun _ _ => rfl⟩

theorem away_plain (hmark : ∀ t r, resultMark i (.op t o r) = none)
    (hlock : o.lockKind = none) : Away i o :=
  ⟨fun t r => .inl (hmark t r), fun t r => lockMark_of_none hlock t r⟩

theorem onFinishHandleLocked_away {j : Nat} (self : UserAuthCallbackImplCoAuth)
    (resultCode : UInt32) (scheduleToken : List UInt8) (hne : j ≠ i) :
    (onFinishHandleLocked j self resultCode scheduleToken).All (Away i) :=
  onFinishHandleLocked_all (fun _ ho => away_of_calm (calm_of_neutral ho))
    (away_of_calm (calm_of_quiet rfl)) (away_plain (fun _ _ => rfl) rfl)
    (away_plain (fun _ _ => rfl) rfl) (away_flag hne).1 (away_of_calm (calm_of_quiet rfl))
    (away_plain (fun _ _ => rfl) rfl) (away_flag hne).2 (fun _ _ => away_result) resultCode

theorem userAuthBody_away (kit : AccessTokenKit) {call : UserAuthCall}
    (hserves : call.serves i = false) : (userAuthBody kit call).All (Away i) := by
  have hprepares (o : UserAuthOp) (ho : o.prepares = true) : Away i o :=
    away_of_calm (calm_of_prepares ho)
  have hresult (callback : ClientCallback) (result : ResultCode) (_ : result ≠ .success) :
      Away i (.onResult callback result {}) := away_result
  cases call with
  | auth => exact (auth_all _ _ hprepares hresult _ _ _ _).discard
  | authUser => exact (authUser_all _ _ hprepares hresult _ _ _ _ _).discard
  | cancelAuth =>
    exact ((cancelAuth_quiet _ _ _).mono fun _ ho => away_of_calm (calm_of_quiet ho)).discard
  -- a report for another callback object
  | onFinish j self scheduleId resultCode scheduleToken =>
    have hne : j ≠ i := of_decide_eq_false hserves
    refine ⟨away_plain (fun _ _ => rfl) rfl, fun ret => ?_⟩
    refine Prog.all_ite.mpr ⟨fun _ => ⟨away_result, fun _ => ?_⟩, fun _ => trivial⟩
    exact ⟨(away_flag hne).2, fun _ => trivial⟩
  | onAcquireInfo j self scheduleId acquire =>
    have hne : j ≠ i := of_decide_eq_false hserves
    refine ⟨away_plain (fun _ _ => rfl) rfl, fun ret => ?_⟩
    exact Prog.all_ite.mpr ⟨fun _ => ⟨(away_flag hne).2, fun _ => trivial⟩, fun _ => trivial⟩
  | task p task =>
    have hend : (atomic (.endTask p)).All (Away i) :=
      ⟨away_plain (fun _ _ => rfl) rfl, fun _ => trivial⟩
    cases task with
    | ensureTransaction => exact hend
    | run task =>
      cases task with
      | onFinishHandle j self resultCode scheduleToken =>
        have hne : j ≠ i := of_decide_eq_false hserves
        show (underLock j (onFinishHandleLocked j self resultCode scheduleToken) >>=
          fun _ => _).All _
        rw [underLock_bind]
        refine ⟨(away_lock hne).1, fun _ => ?_⟩
        refine (onFinishHandleLocked_away self resultCode scheduleToken hne).bind fun _ => ?_
        exact ⟨(away_lock hne).2, fun _ => hend⟩
      | onAcquireInfoHandle j self acquire =>
        have hne : j ≠ i := of_decide_eq_false hserves
        show (underLock j (onAcquireInfoHandleLocked j self acquire) >>= fun _ => _).All _
        rw [underLock_bind]
        refine ⟨(away_lock hne).1, fun _ => ?_⟩
        refine Prog.All.bind ⟨(away_flag hne).1, fun done => ?_⟩ fun _ =>
          ⟨(away_lock hne).2, fun _ => hend⟩
        refine Prog.all_ite.mpr ⟨fun _ => trivial, fun _ => ?_⟩
        exact ⟨away_plain (fun _ _ => rfl) rfl, fun _ => trivial⟩

theorem own_spawn (i t : Nat) (call : UserAuthCall) : Own i [] [] [.spawn t call] := ⟨rfl, rfl⟩

theorem keepsOne_body (kit : AccessTokenKit) (i t : Nat) (call : UserAuthCall) :
    KeepsOne kit i t (userAuthBody kit call) (fun _ _ => True) [.spawn t call] := by
  have hown := own_spawn i t call
  cases hserves : call.serves i with
  | false =>
    refine keepsOne_stranger (userAuthBody_away kit hserves) fun t' call' hcall => ?_
    obtain ⟨-, rfl⟩ : t' = t ∧ call' = call := by simpa using hcall
    exact hserves
  | true =>
    cases call with
    -- a request serves no callback object
    | auth | authUser | cancelAuth => cases hserves
    | onFinish j self scheduleId resultCode scheduleToken =>
      obtain rfl : j = i := of_decide_eq_true hserves
      rintro w env hw - - ⟨hretained, howned, hnull⟩
      refine ⟨hw.calm ⟨fun _ _ => rfl, fun _ _ => rfl⟩, ?_⟩
      -- the post succeeds, because the thread is retained
      obtain ⟨ptr, hpost⟩ := ThreadGroups.postTask_eq hnull groupAuth
        self.callbackContextId (.onFinishHandle j self resultCode scheduleToken)
      have hanswer : (userAuth kit).answer w t (.postTask self.callbackContextId
          (.onFinishHandle j self resultCode scheduleToken)) env = true := by
        show (w.state.groups.postTask _ _ _).1 = true
        rw [hpost]
        exact hretained rfl
      rw [hanswer]
      trivial
    | onAcquireInfo j self scheduleId acquire =>
      obtain rfl : j = i := of_decide_eq_true hserves
      refine keepsOne_skip ⟨fun _ _ => rfl, fun _ _ => rfl⟩ hown fun ret h hh => ?_
      cases ret with
      | true => trivial
      | false => exact keepsOne_done hh (fun hopened => by cases hopened) fun _ _ => trivial
    | task p task =>
      cases task with
      | ensureTransaction => cases hserves
      | run task =>
        cases task with
        | onFinishHandle j self resultCode scheduleToken =>
          obtain rfl : j = i := of_decide_eq_true hserves
          exact keepsOne_underLock hown fun h hh => keepsOne_handleLocked hh
        | onAcquireInfoHandle j self acquire =>
          obtain rfl : j = i := of_decide_eq_true hserves
          exact keepsOne_underLock hown fun h hh => keepsOne_acquireLocked hh

theorem isResultDone_of_accept {s' : UserAuthState} {call : UserAuthCall}
    (hs : userAuthAccept s call = some s') : s'.isResultDone = s.isResultDone := by
  rcases userAuthAccept_cases hs with ⟨rfl, -⟩ | ⟨p, task, groups, -, -, rfl⟩ <;> rfl

theorem OneInv.spawn (hw : OneInv i w) (hfresh : w.Fresh t) {call : UserAuthCall}
    (hs : userAuthAccept w.state call = some s) : OneInv i (w.push s (.spawn t call)) := by
  refine hw.push (fun t' ht' htold => ?_) rfl rfl (fun hflag => ?_)
  · rw [World.spawned_push, List.mem_append] at ht'
    apply ht'.resolve_right
    intro hmem
    obtain rfl : t' = t := by
      split at hmem
      · exact List.mem_singleton.mp hmem
      · cases hmem
    rw [World.marks, hfresh.own_eq_nil] at htold
    cases htold
  · rw [isResultDone_of_accept hs]
    exact hflag

theorem oneInv_reachable (kit : AccessTokenKit) {c : UserAuthConfig}
    (hc : (userAuth kit).Reachable (postsRetained i) .initial c) : OneInv i c.world := by
  have hc' : (userAuth kit).Reachable (postsRetainedOwned i) .initial c :=
    hc.strengthen fun c hc => ⟨userAuth_owned kit hc, userAuth_nonNull kit hc⟩
  have hinit : OneInv i ⟨.initial, []⟩ := by
    constructor
    · rintro t ⟨ht, -⟩
      cases ht
    · intro t ht
      cases ht
    · intro t ht
      cases ht
    · rintro t ⟨ht, -⟩
      cases ht
  exact (reachable_keeps (Q := fun _ => True) hinit
    (fun w t call s hw hfresh _ hs => ⟨hw.spawn hfresh hs, keepsOne_body kit i t call⟩) hc').1

/-- The request that has saved the callback does not tell its client, so whoever does works for the
callback. -/
theorem tells_of_mem_results (kit : AccessTokenKit) {c : UserAuthConfig}
    {ok : UserAuthWorld → UserAuthMove → Prop} (hc : (userAuth kit).Reachable ok .initial c)
    (he : e ∈ results i c.world) : Tells i c.world e.tid ∧ lifeMark e = some .told := by
  obtain ⟨hmem, hspeaks⟩ := List.mem_filter.mp he
  cases e with
  | spawn => cases hspeaks
  | op t o r =>
    cases o with
    | onResult callback result extraInfo =>
      have hlife : .told ∈ c.world.marks lifeMark t := (World.mem_marks _).mpr ⟨_, hmem, rfl, rfl⟩
      have htold : .told ∈ c.world.marks (resultMark i) t :=
        (World.mem_marks _).mpr ⟨_, hmem, rfl, rfl⟩
      refine ⟨⟨?_, htold⟩, rfl⟩
      rcases Bool.or_eq_true_iff.mp hspeaks with hspawned | hsaved
      · exact List.contains_iff_mem.mp hspawned
      · obtain ⟨k, hk, hsaved⟩ := List.any_eq_true.mp hsaved
        cases k with
        | saved contextId j ret =>
          have hret : ret = .success := of_decide_eq_true (Bool.and_eq_true_iff.mp hsaved).2
          subst hret
          exact absurd hlife ((lifeShape kit hc t).told_notMem hk)
        | _ => cases hsaved
    | _ => cases hspeaks

/-- **At most one result.**  In every run in which `OnFinish` of a callback finds the thread of its
context retained, the client hears at most one result on its behalf. -/
theorem results_length_le_one (kit : AccessTokenKit) (i : Nat) {c : UserAuthConfig}
    (hc : (userAuth kit).Reachable (postsRetained i) .initial c) :
    (results i c.world).length ≤ 1 := by
  have hinv := oneInv_reachable kit hc
  cases hresults : results i c.world with
  | nil => exact Nat.zero_le 1
  | cons e rest =>
    have he : e ∈ results i c.world := hresults ▸ List.mem_cons_self
    have htells := (tells_of_mem_results kit hc he).1
    -- all results are told by one thread, and a thread tells once
    have hcount : (results i c.world).length ≤ (c.world.marks lifeMark e.tid).count .told := by
      rw [World.count_marks, results, ← List.countP_eq_length_filter]
      refine List.countP_mono_left fun d hd hspeaks => ?_
      obtain ⟨htells', hmark⟩ := tells_of_mem_results kit hc (List.mem_filter.mpr ⟨hd, hspeaks⟩)
      have htid : d.tid = e.tid := by
        by_contra hne
        exact hinv.unique e.tid htells d.tid hne htells'
      simp [hmark, htid]
    rw [← hresults]
    exact hcount.trans (lifeShape kit hc e.tid).count_told_le_one

/-! ### A finish that comes late -/

/-- Schedule 7 succeeds; the handle cancels schedule 8, whose finish is then reported. -/
def lateRun : List (Machine.Label UserAuthEnv UserAuthCall) :=
  scenarioAuth [7, 8] ++ scenarioFinish 2 7 0 ++ scenarioVerdict 3 0 {} ++ scenarioRun 3 10 ++
    scenarioFinish 4 8 3 ++ scenarioRun 4 2

/-- The client of two schedules hears `SUCCESS` and then `BUSY`. -/
theorem results_late :
    ¬∀ (kit : AccessTokenKit) (i : Nat) (c : UserAuthConfig),
      (userAuth kit).Reachable Machine.anyMove .initial c → (results i c.world).length ≤ 1 := by
  intro h
  have hrun : ((userAuth scenarioKit).exec Machine.anyMove ⟨⟨.initial, []⟩, []⟩ lateRun).map
      (fun c => (results 0 c.world).length) = some 2 := by decide +kernel
  obtain ⟨c, hc, hlength⟩ := Option.map_eq_some_iff.mp hrun
  have hle := h scenarioKit 0 c (.exec .init hc)
  rw [hlength] at hle
  exact absurd hle (by decide)

/-- Two schedules that both finish before the first is handled: one result. -/
theorem results_length_le_one_example :
    ∃ c, (userAuth scenarioKit).Reachable (postsRetained 0) .initial c ∧
      results 0 c.world ≠ [] ∧ (results 0 c.world).length ≤ 1 := by
  have hrun : ((userAuth scenarioKit).exec (postsRetained 0) ⟨⟨.initial, []⟩, []⟩
      (scenarioAuth [7, 8] ++ scenarioFinish 2 7 0 ++ scenarioFinish 3 8 3 ++
        scenarioVerdict 4 0 {} ++ scenarioRun 4 10)).map
        (fun c => (results 0 c.world).isEmpty) = some false := by decide +kernel
  obtain ⟨c, hc, hempty⟩ := Option.map_eq_some_iff.mp hrun
  have hreach : (userAuth scenarioKit).Reachable (postsRetained 0) .initial c := .exec .init hc
  exact ⟨c, hreach, List.isEmpty_eq_false_iff.mp hempty, results_length_le_one scenarioKit 0 hreach⟩

end UserIam.UserAuth
