import UserIam.UserAuth.RequestShape

/-!
# The life of a context

As long as the id of a context is drawn once, the request that has drawn it is the only one to add
it and to save a callback for it.  From then on its thread stays retained and its callback stays
saved until a handle of that callback releases them, and then they are gone for good.
-/

namespace UserIam.UserAuth

open Conc Common Machine

variable {kit : AccessTokenKit} {X : UInt64} {i t : Nat} {self : UserAuthCallbackImplCoAuth}
  {c : UserAuthConfig} {w : UserAuthWorld} {ok : UserAuthWorld → UserAuthMove → Prop}

/-! ## 1. A context id is drawn once -/

/-- The random number is not `X` a second time. -/
def drawnOnce (X : UInt64) (w : UserAuthWorld) : UserAuthMove → Prop
  | .op _ .generateContextId env =>
    env.contextId = X → ∀ e ∈ w.trace, lifeMark e ≠ some (.drew X)
  | _ => True

instance (X : UInt64) (w : UserAuthWorld) (mv : UserAuthMove) : Decidable (drawnOnce X w mv) := by
  cases mv with
  | spawn t call => exact isTrue trivial
  | op t o env =>
    cases o with
    | generateContextId =>
      exact inferInstanceAs
        (Decidable (env.contextId = X → ∀ e ∈ w.trace, lifeMark e ≠ some (.drew X)))
    | _ => exact isTrue trivial

/-- The callback has been saved for the context. -/
def SavedAs (X : UInt64) (i : Nat) (w : UserAuthWorld) : Prop :=
  ∃ t, .saved X i .success ∈ w.marks lifeMark t

theorem mem_marks_push {Mark : Type} {mark : UserAuthEvent → Option Mark} {k : Mark}
    {s : UserAuthState} {e : UserAuthEvent} (h : k ∈ w.marks mark t) :
    k ∈ (w.push s e).marks mark t := by
  obtain ⟨d, hd, htid, hmark⟩ := (World.mem_marks mark).mp h
  exact (World.mem_marks mark).mpr ⟨d, List.mem_append_left _ hd, htid, hmark⟩

/-- A mark after a step was there before, or is that of the step. -/
theorem mem_marks_performed {Mark : Type} {mark : UserAuthEvent → Option Mark} {k : Mark}
    {o : UserAuthOp} {env : UserAuthEnv} {t' : Nat}
    (h : k ∈ ((userAuth kit).perform w t o env).marks mark t') :
    k ∈ w.marks mark t' ∨ (t' = t ∧ mark (.op t o ((userAuth kit).answer w t o env)) = some k) := by
  obtain ⟨d, hd, htid, hmark⟩ := (World.mem_marks mark).mp h
  rcases List.mem_append.mp hd with hd | hd
  · exact .inl ((World.mem_marks mark).mpr ⟨d, hd, htid, hmark⟩)
  · rw [List.mem_singleton] at hd
    subst hd
    exact .inr ⟨htid.symm, hmark⟩

theorem SavedAs.push {s : UserAuthState} {e : UserAuthEvent} (h : SavedAs X i w) :
    SavedAs X i (w.push s e) := by
  obtain ⟨t, ht⟩ := h
  exact ⟨t, mem_marks_push ht⟩

theorem marks_spawn {s : UserAuthState} {call : UserAuthCall} :
    (w.push s (.spawn t call)).marks lifeMark = w.marks lifeMark := by
  rw [World.marks_push]
  have hnone : lifeMark (.spawn t call) = none := rfl
  rw [hnone, Option.toList_none, List.append_nil, Function.update_eq_self]

/-- The mark of a step, after which the thread still has the shape of a thread. -/
theorem lifeShape_run {o : UserAuthOp} {k : UserAuthRes o → UserAuthProg Unit} {env : UserAuthEnv}
    {mk : LifeMark} (hc : (userAuth kit).Reachable ok .initial c)
    (hok : ok c.world (.op t o env)) (ht : c.threads[t]? = some (.call o k))
    (hen : (userAuth kit).enabled t o env c.world.state = true)
    (hmark : lifeMark (.op t o ((userAuth kit).answer c.world t o env)) = some mk) :
    LifeShape (c.world.marks lifeMark t ++ [mk]) := by
  have hshape := lifeShape kit (.run hc hok ht hen) t
  rwa [marks_perform_self, hmark] at hshape

theorem drew_unique (hc : (userAuth kit).Reachable (drawnOnce X) .initial c) {t t' : Nat}
    (ht : .drew X ∈ c.world.marks lifeMark t) (ht' : .drew X ∈ c.world.marks lifeMark t') :
    t = t' := by
  induction hc with
  | init => cases ht
  | spawn _ _ _ ih =>
    rw [marks_spawn] at ht ht'
    exact ih ht ht'
  | @run c tid o k env hc hok _ _ ih =>
    have hdrawn {d : Nat} (hd : .drew X ∈ c.world.marks lifeMark d)
        (hmark : lifeMark (.op tid o ((userAuth kit).answer c.world tid o env)) =
          some (.drew X)) : False := by
      obtain ⟨e, he, -, he'⟩ := (World.mem_marks _).mp hd
      cases o with
      | generateContextId => exact hok (LifeMark.drew.inj (Option.some.inj hmark)) e he he'
      | _ => cases hmark
    rcases mem_marks_performed ht with hold | ⟨htid, hmark⟩
    · rcases mem_marks_performed ht' with hold' | ⟨htid', hmark'⟩
      · exact ih hold hold'
      · exact absurd hmark' (hdrawn hold)
    · rcases mem_marks_performed ht' with hold' | ⟨htid', hmark'⟩
      · exact absurd hmark (hdrawn hold')
      · rw [htid, htid']

/-- The mark is one of the steps that lead to a callback for the context. -/
def LifeMark.concerns (X : UInt64) : LifeMark → Prop
  | .drew contextId | .added contextId | .saved contextId .. => contextId = X
  | .made _ self => self.callbackContextId = X
  | .begun _ | .told => False

/-- Once a callback is saved for the context, nobody takes such a step again. -/
theorem not_concerns {o : UserAuthOp} {k : UserAuthRes o → UserAuthProg Unit} {env : UserAuthEnv}
    {mk : LifeMark} (hc : (userAuth kit).Reachable (drawnOnce X) .initial c)
    (hsaved : SavedAs X i c.world) (hok : drawnOnce X c.world (.op t o env))
    (ht : c.threads[t]? = some (.call o k))
    (hen : (userAuth kit).enabled t o env c.world.state = true)
    (hmark : lifeMark (.op t o ((userAuth kit).answer c.world t o env)) = some mk) :
    ¬mk.concerns X := by
  intro hconcerns
  obtain ⟨t₀, ht₀⟩ := hsaved
  have hdrew₀ := (lifeShape kit hc t₀).drew_mem (.inr (.inr ⟨i, _, ht₀⟩))
  have hshape := lifeShape_run hc hok ht hen hmark
  -- Whatever concerns the context comes from the thread that has drawn its id.
  have hdrew : .drew X ∈ c.world.marks lifeMark t ++ [mk] := by
    cases mk with
    | drew contextId =>
      obtain rfl : contextId = X := hconcerns
      exact List.mem_append_right _ (List.mem_singleton_self _)
    | added contextId =>
      obtain rfl : contextId = X := hconcerns
      exact hshape.drew_mem (.inl (by simp))
    | made j self => exact hshape.drew_mem (.inr (.inl ⟨j, self, by simp, hconcerns.symm⟩))
    | saved contextId j ret =>
      obtain rfl : contextId = X := hconcerns
      exact hshape.drew_mem (.inr (.inr ⟨j, ret, by simp⟩))
    | begun | told => cases hconcerns
  rcases List.mem_append.mp hdrew with hdrew | hdrew
  · -- the thread has drawn the id, so it is the one that has saved the callback
    obtain rfl := drew_unique hc hdrew hdrew₀
    rw [hshape.eq_begun ht₀] at hconcerns
    exact hconcerns
  · have hmk : mk = .drew X := (List.mem_singleton.mp hdrew).symm
    subst hmk
    obtain ⟨e, he, -, he'⟩ := (World.mem_marks _).mp hdrew₀
    cases o with
    | generateContextId => exact hok (LifeMark.drew.inj (Option.some.inj hmark)) e he he'
    | _ => cases hmark

/-- The callback of a context is unique. -/
theorem savedAs_unique (hc : (userAuth kit).Reachable (drawnOnce X) .initial c) {i j : Nat}
    (hi : SavedAs X i c.world) (hj : SavedAs X j c.world) : i = j := by
  obtain ⟨t, ht⟩ := hi
  obtain ⟨t', ht'⟩ := hj
  have hdrew := (lifeShape kit hc t).drew_mem (.inr (.inr ⟨i, _, ht⟩))
  have hdrew' := (lifeShape kit hc t').drew_mem (.inr (.inr ⟨j, _, ht'⟩))
  obtain rfl := drew_unique hc hdrew hdrew'
  obtain ⟨self, n, -, -, heq⟩ := (lifeShape kit hc t).eq_of_saved ht
  rw [heq] at ht'
  have hji : X = self.callbackContextId ∧ j = i := by simpa [acceptance] using ht'
  exact hji.2.symm

/-! ## 2. Callbacks -/

def UserAuthTask.about (i : Nat) (self : UserAuthCallbackImplCoAuth) : UserAuthTask → Prop
  | .onFinishHandle j self' .. | .onAcquireInfoHandle j self' .. => j = i ∧ self' = self

/-- The call is made on the `i`-th callback, whose members are these. -/
def UserAuthCall.about (i : Nat) (self : UserAuthCallbackImplCoAuth) : UserAuthCall → Prop
  | .onFinish j self' .. | .onAcquireInfo j self' .. => j = i ∧ self' = self
  | .task _ (.run posted) => posted.about i self
  | _ => False

/-- The `i`-th callback has these members and has been saved for its context. -/
structure Known (i : Nat) (impl : UserAuthCallbackImplCoAuth) (w : UserAuthWorld) : Prop where
  count : impl.callbackCount = 0
  callback : w.state.callbacks[i]? = some impl
  saved : SavedAs impl.callbackContextId i w

/-- What a call may do, as far as callbacks are concerned. -/
def permits (call : UserAuthCall) : UserAuthOp → Prop
  | .postTask contextId task =>
    ∃ i self, call.about i self ∧ contextId = self.callbackContextId ∧ task.about i self
  | .deleteCoAuthCallback contextId =>
    ∃ i self, call.about i self ∧ contextId = self.callbackContextId
  | .setResultDone i => ∃ self, call.about i self
  | .incCallbackNowCount i => ∃ self, call.about i self
  | _ => True

theorem permits_of_prepares {call : UserAuthCall} {o : UserAuthOp} (ho : o.prepares = true) :
    permits call o := by
  cases o <;> trivial

theorem permits_of_neutral {call : UserAuthCall} {o : UserAuthOp} (ho : o.neutral = true) :
    permits call o :=
  permits_of_prepares (UserAuthOp.prepares_of_quiet (UserAuthOp.quiet_of_neutral ho))

theorem onFinishHandleLocked_permits {call : UserAuthCall} (habout : call.about i self)
    (resultCode : UInt32) (scheduleToken : List UInt8) :
    (onFinishHandleLocked i self resultCode scheduleToken).All (permits call) := by
  have hcallback : permits call (.deleteCoAuthCallback self.callbackContextId) :=
    ⟨i, self, habout, rfl⟩
  exact onFinishHandleLocked_all (fun _ => permits_of_neutral) trivial trivial ⟨self, habout⟩
    trivial trivial hcallback ⟨self, habout⟩ (fun _ _ => trivial) resultCode

theorem userAuthBody_permits (kit : AccessTokenKit) (call : UserAuthCall) :
    (userAuthBody kit call).All (permits call) := by
  have hprepares (o : UserAuthOp) (ho : o.prepares = true) : permits call o :=
    permits_of_prepares ho
  have hresult (callback : ClientCallback) (result : ResultCode) (_ : result ≠ .success) :
      permits call (.onResult callback result {}) := trivial
  cases call with
  | auth => exact (auth_all _ _ hprepares hresult _ _ _ _).discard
  | authUser => exact (authUser_all _ _ hprepares hresult _ _ _ _ _).discard
  | cancelAuth =>
    refine ((cancelAuth_quiet _ _ _).mono fun _ ho => ?_).discard
    exact permits_of_prepares (UserAuthOp.prepares_of_quiet ho)
  | onFinish i self scheduleId resultCode scheduleToken =>
    refine ⟨⟨i, self, ⟨rfl, rfl⟩, rfl, ⟨rfl, rfl⟩⟩, fun ret => ?_⟩
    refine Prog.all_ite.mpr ⟨fun _ => ⟨trivial, fun _ => ?_⟩, fun _ => trivial⟩
    exact ⟨⟨self, rfl, rfl⟩, fun _ => trivial⟩
  | onAcquireInfo i self scheduleId acquire =>
    refine ⟨⟨i, self, ⟨rfl, rfl⟩, rfl, ⟨rfl, rfl⟩⟩, fun ret => ?_⟩
    exact Prog.all_ite.mpr ⟨fun _ => ⟨⟨self, rfl, rfl⟩, fun _ => trivial⟩, fun _ => trivial⟩
  | task p task =>
    cases task with
    | ensureTransaction => exact ⟨trivial, fun _ => trivial⟩
    | run task =>
      cases task with
      | onFinishHandle i self resultCode scheduleToken =>
        have habout : UserAuthCall.about i self
            (.task p (.run (.onFinishHandle i self resultCode scheduleToken))) := ⟨rfl, rfl⟩
        show (underLock i (onFinishHandleLocked i self resultCode scheduleToken) >>=
          fun _ => _).All _
        rw [underLock_bind]
        refine ⟨trivial, fun _ => ?_⟩
        refine (onFinishHandleLocked_permits habout resultCode scheduleToken).bind fun _ => ?_
        exact ⟨trivial, fun _ => ⟨trivial, fun _ => trivial⟩⟩
      | onAcquireInfoHandle i self acquire =>
        show (underLock i (onAcquireInfoHandleLocked i self acquire) >>= fun _ => _).All _
        rw [underLock_bind]
        refine ⟨trivial, fun _ => ?_⟩
        refine Prog.All.bind ⟨trivial, fun done => ?_⟩ fun _ =>
          ⟨trivial, fun _ => ⟨trivial, fun _ => trivial⟩⟩
        exact Prog.all_ite.mpr ⟨fun _ => trivial, fun _ => ⟨trivial, fun _ => trivial⟩⟩

/-- What a thread performs is permitted to its call. -/
theorem permits_run {o : UserAuthOp} {k : UserAuthRes o → UserAuthProg Unit}
    (hc : (userAuth kit).Reachable ok .initial c) (ht : c.threads[t]? = some (.call o k)) :
    ∃ call, .spawn t call ∈ c.world.trace ∧ permits call o := by
  obtain ⟨call, hcall⟩ := hc.exists_spawn ht
  have hall := hc.all_ops (P := permits) hcall (userAuthBody_permits kit call)
  exact ⟨call, hcall, (hall.2 _ ht).1⟩

/-! ### What the callbacks of a run are -/

theorem callbacks_mono {s : UserAuthState} (t : Nat) (env : UserAuthEnv) (o : UserAuthOp)
    (h : s.callbacks[i]? = some self) :
    (userAuthHandle t env s o).2.callbacks[i]? = some self := by
  cases o with
  | addContextId | deleteContextId | setScheduleIds =>
    simp only [userAuthHandle]
    split <;> exact h
  | saveCoAuthCallback contextId j =>
    simp only [userAuthHandle, UserAuth.saveCoAuthCallback]
    split
    · exact h
    · split <;> exact h
  | makeCoAuthCallback self' =>
    have hlt := (List.getElem?_eq_some_iff.mp h).1
    show (s.callbacks ++ [self'])[i]? = some self
    rw [List.getElem?_append_left hlt]
    exact h
  | _ => exact h

theorem mem_begun_handle {s : UserAuthState} {t : Nat} {env : UserAuthEnv} {o : UserAuthOp}
    {b : UInt64 × Nat} (h : b ∈ (userAuthHandle t env s o).2.begun) :
    b ∈ s.begun ∨ ∃ info authInfo, o = .beginSchedule info authInfo b.2 := by
  cases o with
  | addContextId | deleteContextId | setScheduleIds =>
    simp only [userAuthHandle] at h
    split at h <;> exact .inl h
  | saveCoAuthCallback contextId j =>
    simp only [userAuthHandle, UserAuth.saveCoAuthCallback] at h
    split at h
    · exact .inl h
    · split at h <;> exact .inl h
  | beginSchedule info authInfo j =>
    rcases List.mem_append.mp h with h | h
    · exact .inl h
    · rw [List.mem_singleton.mp h]
      exact .inr ⟨info, authInfo, rfl⟩
  | _ => exact .inl h

theorem allTasks_handle {s : UserAuthState} {P : UserAuthTask → Prop} (t : Nat)
    (env : UserAuthEnv) (o : UserAuthOp) (h : s.groups.AllTasks P)
    (hpost : ∀ contextId task, o = .postTask contextId task → P task) :
    (userAuthHandle t env s o).2.groups.AllTasks P := by
  cases o with
  | addContextId | deleteContextId | setScheduleIds =>
    simp only [userAuthHandle]
    split <;> exact h
  | saveCoAuthCallback contextId j =>
    have hgroups := h.retainTaskThread groupAuth contextId
    simp only [userAuthHandle, UserAuth.saveCoAuthCallback]
    split
    · exact hgroups
    · split <;> exact hgroups
  | deleteCoAuthCallback contextId => exact h.releaseTaskThread groupAuth contextId
  | postTask contextId task => exact h.postTask groupAuth contextId (hpost contextId task rfl)
  | endTask p => exact h.endTask p
  | _ => exact h

/-- Every call and every task is made on a callback that is known, and every schedule is begun with
one. -/
structure Genuine (w : UserAuthWorld) : Prop where
  made : ∀ t i self, .made i self ∈ w.marks lifeMark t → w.state.callbacks[i]? = some self
  begun : ∀ b ∈ w.state.begun, ∃ self, Known b.2 self w
  tasks : w.state.groups.AllTasks fun task => ∀ i self, task.about i self → Known i self w
  calls : ∀ t call, .spawn t call ∈ w.trace → ∀ i self, call.about i self → Known i self w

theorem Known.push {s : UserAuthState} {e : UserAuthEvent} (h : Known i self w)
    (hs : s.callbacks[i]? = some self) : Known i self (w.push s e) :=
  ⟨h.count, hs, h.saved.push⟩

theorem Genuine.spawn {call : UserAuthCall} {s : UserAuthState} (hw : Genuine w)
    (hs : userAuthAccept w.state call = some s) : Genuine (w.push s (.spawn t call)) := by
  have hsame : s.callbacks = w.state.callbacks ∧ s.begun = w.state.begun := by
    rcases userAuthAccept_cases hs with ⟨rfl, -⟩ | ⟨p, task, groups, -, -, rfl⟩ <;> exact ⟨rfl, rfl⟩
  have hknown {i : Nat} {self : UserAuthCallbackImplCoAuth} (h : Known i self w) :
      Known i self (w.push s (.spawn t call)) := h.push (hsame.1 ▸ h.callback)
  -- CoAuth reports only what has been begun, and that has been made and saved.
  have hreport {i : Nat} {self : UserAuthCallbackImplCoAuth} {scheduleId : UInt64}
      (h : w.state.callbacks[i]? = some self ∧ (scheduleId, i) ∈ w.state.begun) :
      Known i self w := by
    obtain ⟨self', hself'⟩ := hw.begun _ h.2
    obtain rfl : self = self' := Option.some.inj (h.1.symm.trans hself'.callback)
    exact hself'
  have hcall : ∀ i self, call.about i self → Known i self w := by
    intro i self habout
    cases call with
    | auth | authUser | cancelAuth => cases habout
    | onFinish j self' scheduleId resultCode scheduleToken =>
      obtain ⟨rfl, rfl⟩ := habout
      simp only [userAuthAccept, Option.ite_none_right_eq_some] at hs
      exact hreport hs.1
    | onAcquireInfo j self' scheduleId acquire =>
      obtain ⟨rfl, rfl⟩ := habout
      simp only [userAuthAccept, Option.ite_none_right_eq_some] at hs
      exact hreport hs.1
    | task p task =>
      rcases userAuthAccept_cases hs with ⟨-, hne⟩ | ⟨p', task', groups, heq, hstart, -⟩
      · exact absurd rfl (hne p task)
      · cases heq
        cases task with
        | ensureTransaction => cases habout
        | run posted => exact (hw.tasks.startTask hstart).2 posted rfl i self habout
  constructor
  · intro t' i self hmade
    rw [marks_spawn] at hmade
    exact (hsame.1 ▸ hw.made t' i self hmade : s.callbacks[i]? = some self)
  · intro b hb
    obtain ⟨self, hself⟩ := hw.begun b (hsame.2 ▸ hb)
    exact ⟨self, hknown hself⟩
  · have htasks : s.groups.AllTasks fun task => ∀ i self, task.about i self → Known i self w := by
      rcases userAuthAccept_cases hs with ⟨rfl, -⟩ | ⟨p, task, groups, -, hstart, rfl⟩
      · exact hw.tasks
      · exact (hw.tasks.startTask hstart).1
    exact htasks.mono fun task htask i self habout => hknown (htask i self habout)
  · intro t' call' hcall' i self habout
    rcases List.mem_append.mp hcall' with hcall' | hcall'
    · exact hknown (hw.calls t' call' hcall' i self habout)
    · cases List.mem_singleton.mp hcall'
      exact hknown (hcall i self habout)

theorem Genuine.run {o : UserAuthOp} {k : UserAuthRes o → UserAuthProg Unit} {env : UserAuthEnv}
    (hw : Genuine c.world) (hc : (userAuth kit).Reachable ok .initial c)
    (hok : ok c.world (.op t o env)) (ht : c.threads[t]? = some (.call o k))
    (hen : (userAuth kit).enabled t o env c.world.state = true) :
    Genuine ((userAuth kit).perform c.world t o env) := by
  have hknown {i : Nat} {self : UserAuthCallbackImplCoAuth} (h : Known i self c.world) :
      Known i self ((userAuth kit).perform c.world t o env) :=
    h.push (callbacks_mono t env o h.callback)
  constructor
  · intro t' i self hmade
    rcases mem_marks_performed hmade with hmade | ⟨rfl, hmark⟩
    · exact callbacks_mono t env o (hw.made t' i self hmade)
    · cases o with
      | makeCoAuthCallback self' =>
        obtain ⟨rfl, rfl⟩ := LifeMark.made.inj (Option.some.inj hmark)
        exact List.getElem?_concat_length
      | _ => cases hmark
  · intro b hb
    rcases mem_begun_handle hb with hb | ⟨info, authInfo, rfl⟩
    · obtain ⟨self, hself⟩ := hw.begun b hb
      exact ⟨self, hknown hself⟩
    · -- what is begun has been made and saved by the same thread
      have hshape : LifeShape (c.world.marks lifeMark t ++ [LifeMark.begun b.2]) :=
        lifeShape_run hc hok ht hen rfl
      obtain ⟨self, hcount, hmade, hsaved⟩ := hshape.saved_of_begun (i := b.2) (by simp)
      have hmade : .made b.2 self ∈ c.world.marks lifeMark t := by simpa using hmade
      have hsaved : .saved self.callbackContextId b.2 .success ∈ c.world.marks lifeMark t := by
        simpa using hsaved
      exact ⟨self, hknown ⟨hcount, hw.made t b.2 self hmade, t, hsaved⟩⟩
  -- A task is posted by a report, about the callback object of that report.
  · have htasks := allTasks_handle t env o hw.tasks fun contextId task heq => by
      subst heq
      obtain ⟨call, hcall, i, self, habout, -, htask⟩ := permits_run hc ht
      intro j self' habout'
      have hsame : j = i ∧ self' = self := by
        cases task with
        | onFinishHandle | onAcquireInfoHandle =>
          obtain ⟨rfl, rfl⟩ := htask
          obtain ⟨rfl, rfl⟩ := habout'
          exact ⟨rfl, rfl⟩
      obtain ⟨rfl, rfl⟩ := hsame
      exact hw.calls t call hcall j self' habout
    exact htasks.mono fun task htask i self habout => hknown (htask i self habout)
  · intro t' call hcall i self habout
    have hcall : .spawn t' call ∈ c.world.trace := by simpa [Machine.perform] using hcall
    exact hknown (hw.calls t' call hcall i self habout)

theorem genuine_reachable (hc : (userAuth kit).Reachable ok .initial c) : Genuine c.world := by
  induction hc with
  | init =>
    constructor
    · intro t i self h
      cases h
    · intro b hb
      cases hb
    · intro thread hthread
      cases hthread
    · intro t call h
      cases h
  | spawn _ _ hs ih => exact ih.spawn hs
  | run hc hok ht hen ih => exact ih.run hc hok ht hen

/-! ## 3. Held and gone -/

def Released (X : UInt64) (w : UserAuthWorld) : Prop :=
  ∃ t r, .op t (.deleteCoAuthCallback X) r ∈ w.trace

/-- A post was refused, because the thread of the context is not retained. -/
def Refused (X : UInt64) (w : UserAuthWorld) : Prop :=
  ∃ t task, .op t (.postTask X task) false ∈ w.trace

/-- A call on a callback of the context has deleted the context. -/
def Dropped (X : UInt64) (w : UserAuthWorld) : Prop :=
  ∃ t call i self r, .spawn t call ∈ w.trace ∧ call.about i self ∧ self.callbackContextId = X ∧
    .op t (.deleteContextId X) r ∈ w.trace

abbrev retainedFor (X : UInt64) (s : UserAuthState) : Bool := s.groups.retained groupAuth X

structure Life (X : UInt64) (w : UserAuthWorld) : Prop where
  nonzero : ∀ i, SavedAs X i w → X ≠ 0
  held : ∀ i, SavedAs X i w → ¬Released X w →
    w.state.saveCoAuthCallback X = some i ∧ retainedFor X w.state = true
  released : Released X w → w.state.saveCoAuthCallback X = none ∧ retainedFor X w.state = false
  refused : Refused X w → retainedFor X w.state = false
  dropped : Dropped X w → w.state.contexts X = none

/-- Only calls on a saved callback release, are refused or drop. -/
theorem savedAs_of_event (hc : (userAuth kit).Reachable ok .initial c)
    (h : Released X c.world ∨ Refused X c.world ∨ Dropped X c.world) :
    ∃ i, SavedAs X i c.world := by
  have hgenuine := genuine_reachable hc
  have hknown {t : Nat} {o : UserAuthOp} {r : UserAuthRes o} (hop : .op t o r ∈ c.world.trace) :
      ∃ call, .spawn t call ∈ c.world.trace ∧ permits call o := by
    have hlt := hc.fresh _ hop
    obtain ⟨call, hcall⟩ := hc.exists_spawn (List.getElem?_eq_getElem hlt)
    exact ⟨call, hcall,
      (hc.all_ops (P := permits) hcall (userAuthBody_permits kit call)).1 o r hop⟩
  rcases h with ⟨t, r, hop⟩ | ⟨t, task, hop⟩ | ⟨t, call, i, self, r, hcall, habout, rfl, -⟩
  · obtain ⟨call, hcall, i, self, habout, rfl⟩ := hknown hop
    exact ⟨i, (hgenuine.calls t call hcall i self habout).saved⟩
  · obtain ⟨call, hcall, i, self, habout, rfl, -⟩ := hknown hop
    exact ⟨i, (hgenuine.calls t call hcall i self habout).saved⟩
  · exact ⟨i, (hgenuine.calls t call hcall i self habout).saved⟩

/-! ### Frames -/

theorem callback_frame {s : UserAuthState} {t : Nat} {env : UserAuthEnv} {o : UserAuthOp}
    (hsave : ∀ i, o ≠ .saveCoAuthCallback X i) (hdelete : o ≠ .deleteCoAuthCallback X) :
    (userAuthHandle t env s o).2.saveCoAuthCallback X = s.saveCoAuthCallback X := by
  cases o with
  | addContextId | deleteContextId | setScheduleIds =>
    simp only [userAuthHandle]
    split <;> rfl
  | saveCoAuthCallback Y i =>
    have hne : X ≠ Y := by
      rintro rfl
      exact hsave i rfl
    simp only [userAuthHandle, UserAuth.saveCoAuthCallback]
    split
    · rfl
    · split
      · rfl
      · exact Function.update_of_ne hne _ _
  | deleteCoAuthCallback Y =>
    have hne : X ≠ Y := by
      rintro rfl
      exact hdelete rfl
    exact Function.update_of_ne hne _ _
  | _ => rfl

theorem held_frame {s : UserAuthState} (t : Nat) (env : UserAuthEnv) {o : UserAuthOp}
    (hnull : s.groups.NonNull) (hsave : ∀ i, o ≠ .saveCoAuthCallback X i)
    (hdelete : o ≠ .deleteCoAuthCallback X) :
    (userAuthHandle t env s o).2.saveCoAuthCallback X = s.saveCoAuthCallback X ∧
      retainedFor X (userAuthHandle t env s o).2 = retainedFor X s := by
  refine ⟨callback_frame hsave hdelete, ?_⟩
  cases o with
  | addContextId | deleteContextId | setScheduleIds =>
    simp only [userAuthHandle]
    split <;> rfl
  | saveCoAuthCallback Y i =>
    have hne : X ≠ Y := by
      rintro rfl
      exact hsave i rfl
    have hretained : (s.groups.retainTaskThread groupAuth Y).2.retained groupAuth X =
        retainedFor X s := by
      rw [ThreadGroups.retained_retainTaskThread]
      simp [hne]
    simp only [userAuthHandle, UserAuth.saveCoAuthCallback]
    split
    · exact hretained
    · split <;> exact hretained
  | deleteCoAuthCallback Y =>
    have hne : X ≠ Y := by
      rintro rfl
      exact hdelete rfl
    exact ThreadGroups.retained_releaseTaskThread_of_ne hne
  | postTask Y task =>
    obtain ⟨ptr, hpost⟩ := ThreadGroups.postTask_eq hnull groupAuth Y task
    simp only [userAuthHandle, hpost, retainedFor, ThreadGroups.retained_addTask]
  | _ => rfl

theorem contexts_frame {s : UserAuthState} {t : Nat} {env : UserAuthEnv} {o : UserAuthOp}
    (hadd : o ≠ .addContextId X) (h : s.contexts X = none) :
    (userAuthHandle t env s o).2.contexts X = none := by
  cases o with
  | addContextId Y =>
    have hne : X ≠ Y := by
      rintro rfl
      exact hadd rfl
    simp only [userAuthHandle]
    split
    · exact h
    · exact (Function.update_of_ne hne _ _).trans h
  | deleteContextId Y =>
    simp only [userAuthHandle]
    split
    · show Function.update s.contexts Y none X = none
      rw [Function.update_apply, h, ite_self]
    · exact h
  | setScheduleIds Y scheduleIds =>
    simp only [userAuthHandle]
    split
    · next hsome =>
      have hne : X ≠ Y := by
        rintro rfl
        rw [h] at hsome
        cases hsome
      exact (Function.update_of_ne hne _ _).trans h
    · exact h
  -- it writes the other map
  | saveCoAuthCallback Y i =>
    simp only [userAuthHandle, UserAuth.saveCoAuthCallback]
    split
    · exact h
    · split <;> exact h
  | _ => exact h

theorem contexts_deleteContextId {s : UserAuthState} {t : Nat} {env : UserAuthEnv} :
    (userAuthHandle t env s (.deleteContextId X)).2.contexts X = none := by
  simp only [userAuthHandle]
  split
  · exact Function.update_self ..
  · next hnone => exact Option.not_isSome_iff_eq_none.mp hnone

/-! ### Steps -/

theorem Released.performed {o : UserAuthOp} {env : UserAuthEnv}
    (h : Released X ((userAuth kit).perform w t o env)) :
    Released X w ∨ o = .deleteCoAuthCallback X := by
  obtain ⟨t', r, hop⟩ := h
  rcases List.mem_append.mp hop with hop | hop
  · exact .inl ⟨t', r, hop⟩
  · cases List.mem_singleton.mp hop
    exact .inr rfl

theorem Refused.performed {o : UserAuthOp} {env : UserAuthEnv}
    (h : Refused X ((userAuth kit).perform w t o env)) :
    Refused X w ∨ ∃ task, o = .postTask X task ∧
      (w.state.groups.postTask groupAuth X task).1 = false := by
  obtain ⟨t', task, hop⟩ := h
  rcases List.mem_append.mp hop with hop | hop
  · exact .inl ⟨t', task, hop⟩
  · rw [List.mem_singleton] at hop
    injection hop with _ ho hr
    subst ho
    exact .inr ⟨task, rfl, (eq_of_heq hr).symm⟩

theorem Dropped.performed {o : UserAuthOp} {env : UserAuthEnv}
    (h : Dropped X ((userAuth kit).perform w t o env)) :
    Dropped X w ∨ o = .deleteContextId X := by
  obtain ⟨t', call, i, self, r, hcall, habout, hX, hop⟩ := h
  have hcall : .spawn t' call ∈ w.trace := by simpa [Machine.perform] using hcall
  rcases List.mem_append.mp hop with hop | hop
  · exact .inl ⟨t', call, i, self, r, hcall, habout, hX, hop⟩
  · cases List.mem_singleton.mp hop
    exact .inr rfl

theorem SavedAs.performed {o : UserAuthOp} {env : UserAuthEnv}
    (h : SavedAs X i ((userAuth kit).perform w t o env)) :
    SavedAs X i w ∨ (o = .saveCoAuthCallback X i ∧
      (saveCoAuthCallback X i w.state).1 = .success) := by
  obtain ⟨t', hsaved⟩ := h
  rcases mem_marks_performed hsaved with hsaved | ⟨-, hmark⟩
  · exact .inl ⟨t', hsaved⟩
  · cases o with
    | saveCoAuthCallback Y j =>
      obtain ⟨rfl, rfl, hret⟩ := LifeMark.saved.inj (Option.some.inj hmark)
      exact .inr ⟨rfl, hret⟩
    | _ => cases hmark

/-- What `SaveCoAuthCallback` has done when it succeeds. -/
theorem saveCoAuthCallback_success {s : UserAuthState}
    (h : (saveCoAuthCallback X i s).1 = .success) :
    X ≠ 0 ∧ (saveCoAuthCallback X i s).2.saveCoAuthCallback X = some i ∧
      retainedFor X (saveCoAuthCallback X i s).2 = true := by
  have hfail : ResultCode.fail ≠ .success := by decide
  unfold UserAuth.saveCoAuthCallback at h ⊢
  dsimp only at h ⊢
  split at h
  · exact absurd h hfail
  · next hretain =>
    rw [if_neg hretain]
    have hretain : (s.groups.retainTaskThread groupAuth X).1 = true := by simpa using hretain
    split at h
    · exact absurd h hfail
    · next hsome =>
      rw [if_neg hsome]
      refine ⟨ThreadGroups.ne_zero_of_retainTaskThread hretain, Function.update_self .., ?_⟩
      show (s.groups.retainTaskThread groupAuth X).2.retained groupAuth X = true
      rw [ThreadGroups.retained_retainTaskThread, hretain]
      simp

section Run

variable {o : UserAuthOp} {k : UserAuthRes o → UserAuthProg Unit} {env : UserAuthEnv}

theorem SavedAs.of_performed {j : Nat} (hsave : ∀ i, o ≠ .saveCoAuthCallback X i)
    (hj : SavedAs X j ((userAuth kit).perform c.world t o env)) : SavedAs X j c.world := by
  rcases hj.performed with hj | ⟨heq, -⟩
  · exact hj
  · exact absurd heq (hsave j)

theorem none_of_unsaved (hc : (userAuth kit).Reachable ok .initial c)
    (h : ∀ i, ¬SavedAs X i c.world) :
    ¬Released X c.world ∧ ¬Refused X c.world ∧ ¬Dropped X c.world := by
  refine ⟨fun hr => ?_, fun hr => ?_, fun hr => ?_⟩
  · exact (savedAs_of_event hc (.inl hr)).elim h
  · exact (savedAs_of_event hc (.inr (.inl hr))).elim h
  · exact (savedAs_of_event hc (.inr (.inr hr))).elim h

/-- Nothing more happens to the context once a callback is saved for it. -/
theorem unsaved_of_concerns (hc : (userAuth kit).Reachable (drawnOnce X) .initial c)
    (hok : drawnOnce X c.world (.op t o env)) (ht : c.threads[t]? = some (.call o k))
    (hen : (userAuth kit).enabled t o env c.world.state = true) {mk : LifeMark}
    (hconcerns : mk.concerns X)
    (hmark : lifeMark (.op t o ((userAuth kit).answer c.world t o env)) = some mk) (i : Nat) :
    ¬SavedAs X i c.world :=
  fun hsaved => not_concerns hc hsaved hok ht hen hmark hconcerns

theorem Life.run_save {i : Nat} {k : UserAuthRes (.saveCoAuthCallback X i) → UserAuthProg Unit}
    (hc : (userAuth kit).Reachable (drawnOnce X) .initial c)
    (hok : drawnOnce X c.world (.op t (.saveCoAuthCallback X i) env))
    (ht : c.threads[t]? = some (.call (.saveCoAuthCallback X i) k))
    (hen : (userAuth kit).enabled t (.saveCoAuthCallback X i) env c.world.state = true) :
    Life X ((userAuth kit).perform c.world t (.saveCoAuthCallback X i) env) := by
  have hconcerns : (LifeMark.saved X i (saveCoAuthCallback X i c.world.state).1).concerns X := rfl
  -- The context has not been saved before, so the other facts are about nothing yet.
  have hfresh := unsaved_of_concerns hc hok ht hen hconcerns rfl
  obtain ⟨hreleased, hrefused, hdropped⟩ := none_of_unsaved hc hfresh
  have hsaved {j : Nat}
      (hj : SavedAs X j ((userAuth kit).perform c.world t (.saveCoAuthCallback X i) env)) :
      i = j ∧ (saveCoAuthCallback X i c.world.state).1 = .success := by
    rcases hj.performed with hj | ⟨heq, hret⟩
    · exact absurd hj (hfresh j)
    · cases heq
      exact ⟨rfl, hret⟩
  constructor
  · intro j hj
    exact (saveCoAuthCallback_success (hsaved hj).2).1
  · intro j hj _
    obtain ⟨rfl, hret⟩ := hsaved hj
    exact (saveCoAuthCallback_success hret).2
  · intro h
    rcases h.performed with h | h
    · exact absurd h hreleased
    · cases h
  · intro h
    rcases h.performed with h | ⟨task, h, -⟩
    · exact absurd h hrefused
    · cases h
  · intro h
    rcases h.performed with h | h
    · exact absurd h hdropped
    · cases h

/-- A context that a call on its callback has deleted stays deleted. -/
theorem Life.run_dropped (hw : Life X c.world)
    (hc : (userAuth kit).Reachable (drawnOnce X) .initial c)
    (hok : drawnOnce X c.world (.op t o env)) (ht : c.threads[t]? = some (.call o k))
    (hen : (userAuth kit).enabled t o env c.world.state = true)
    (h : Dropped X ((userAuth kit).perform c.world t o env)) :
    ((userAuth kit).perform c.world t o env).state.contexts X = none := by
  rcases h.performed with hbefore | rfl
  · have hadd : o ≠ .addContextId X := by
      rintro rfl
      have hconcerns : (LifeMark.added X).concerns X := rfl
      have hfresh := unsaved_of_concerns hc hok ht hen hconcerns rfl
      exact (none_of_unsaved hc hfresh).2.2 hbefore
    exact contexts_frame hadd (hw.dropped hbefore)
  · exact contexts_deleteContextId

/-- The call releases the context of a callback that it knows to be saved. -/
theorem Life.run_delete {k : UserAuthRes (.deleteCoAuthCallback X) → UserAuthProg Unit}
    (hw : Life X c.world) (hc : (userAuth kit).Reachable (drawnOnce X) .initial c)
    (hok : drawnOnce X c.world (.op t (.deleteCoAuthCallback X) env))
    (ht : c.threads[t]? = some (.call (.deleteCoAuthCallback X) k))
    (hen : (userAuth kit).enabled t (.deleteCoAuthCallback X) env c.world.state = true) :
    Life X ((userAuth kit).perform c.world t (.deleteCoAuthCallback X) env) := by
  have hsave (i : Nat) : UserAuthOp.deleteCoAuthCallback X ≠ .saveCoAuthCallback X i :=
    fun h => by cases h
  have hgone : retainedFor X
      ((userAuth kit).perform c.world t (.deleteCoAuthCallback X) env).state = false := by
    obtain ⟨call, hcall, i, self, habout, rfl⟩ := permits_run hc ht
    have hsaved := ((genuine_reachable hc).calls t call hcall i self habout).saved
    show (c.world.state.groups.releaseTaskThread groupAuth _).2.retained groupAuth _ = false
    rw [ThreadGroups.retained_releaseTaskThread (hw.nonzero i hsaved)]
    simp
  constructor
  · exact fun j hj => hw.nonzero j (hj.of_performed hsave)
  · intro j _ hnot
    exact absurd ⟨t, _, List.mem_append_right _ (List.mem_singleton_self _)⟩ hnot
  · exact fun _ => ⟨Function.update_self .., hgone⟩
  · exact fun _ => hgone
  · exact hw.run_dropped hc hok ht hen

theorem Life.run_other (hw : Life X c.world)
    (hc : (userAuth kit).Reachable (drawnOnce X) .initial c)
    (hok : drawnOnce X c.world (.op t o env)) (ht : c.threads[t]? = some (.call o k))
    (hen : (userAuth kit).enabled t o env c.world.state = true)
    (hsave : ∀ i, o ≠ .saveCoAuthCallback X i) (hdelete : o ≠ .deleteCoAuthCallback X) :
    Life X ((userAuth kit).perform c.world t o env) := by
  have hnull := userAuth_nonNull kit hc
  obtain ⟨hcallback, hretained⟩ := held_frame t env hnull hsave hdelete
  constructor
  · exact fun j hj => hw.nonzero j (hj.of_performed hsave)
  · intro j hj hnot
    obtain ⟨hheld, hheld'⟩ := hw.held j (hj.of_performed hsave) fun ⟨t', r, hop⟩ =>
      hnot ⟨t', r, List.mem_append_left _ hop⟩
    exact ⟨hcallback.trans hheld, hretained.trans hheld'⟩
  · intro h
    obtain ⟨hgone, hgone'⟩ := hw.released (h.performed.resolve_right hdelete)
    exact ⟨hcallback.trans hgone, hretained.trans hgone'⟩
  · intro h
    rcases h.performed with h | ⟨task, rfl, hpost⟩
    · exact hretained.trans (hw.refused h)
    · obtain ⟨ptr, heq⟩ := ThreadGroups.postTask_eq hnull groupAuth X task
      rw [heq] at hpost
      exact hretained.trans hpost
  · exact hw.run_dropped hc hok ht hen

theorem Life.run (hw : Life X c.world) (hc : (userAuth kit).Reachable (drawnOnce X) .initial c)
    (hok : drawnOnce X c.world (.op t o env)) (ht : c.threads[t]? = some (.call o k))
    (hen : (userAuth kit).enabled t o env c.world.state = true) :
    Life X ((userAuth kit).perform c.world t o env) := by
  by_cases hsave : ∃ i, o = .saveCoAuthCallback X i
  · obtain ⟨i, rfl⟩ := hsave
    exact Life.run_save hc hok ht hen
  · by_cases hdelete : o = .deleteCoAuthCallback X
    · subst hdelete
      exact hw.run_delete hc hok ht hen
    · exact hw.run_other hc hok ht hen (fun i h => hsave ⟨i, h⟩) hdelete

end Run

/-- **The life of a context** whose id is drawn once. -/
theorem life_reachable (hc : (userAuth kit).Reachable (drawnOnce X) .initial c) :
    Life X c.world := by
  induction hc with
  | init =>
    constructor
    · rintro i ⟨t, h⟩
      cases h
    · rintro i ⟨t, h⟩
      cases h
    · rintro ⟨t, r, h⟩
      cases h
    · rintro ⟨t, task, h⟩
      cases h
    · rintro ⟨t, call, i, self, r, h, -⟩
      cases h
  | @spawn c call s hc _ hs ih =>
    have hsame : s.saveCoAuthCallback = c.world.state.saveCoAuthCallback ∧
        s.contexts = c.world.state.contexts ∧ retainedFor X s = retainedFor X c.world.state := by
      rcases userAuthAccept_cases hs with ⟨rfl, -⟩ | ⟨p, task, groups, -, hstart, rfl⟩
      · exact ⟨rfl, rfl, rfl⟩
      · exact ⟨rfl, rfl, ThreadGroups.retained_startTask hstart⟩
    have hfresh := hc.fresh
    -- A call that starts has saved nothing.
    have hold {i : Nat} (h : SavedAs X i (c.world.push s (.spawn c.threads.length call))) :
        SavedAs X i c.world := by
      obtain ⟨t, ht⟩ := h
      rw [marks_spawn] at ht
      exact ⟨t, ht⟩
    constructor
    · exact fun i hi => ih.nonzero i (hold hi)
    · intro i hi hnot
      simp only [World.push_state, hsame]
      refine ih.held i (hold hi) fun ⟨t, r, hop⟩ => hnot ⟨t, r, List.mem_append_left _ hop⟩
    · rintro ⟨t, r, hop⟩
      simp only [World.push_state, hsame]
      exact ih.released ⟨t, r, by simpa using hop⟩
    · rintro ⟨t, task, hop⟩
      simp only [World.push_state, hsame]
      exact ih.refused ⟨t, task, by simpa using hop⟩
    · rintro ⟨t, call', i, self, r, hcall, habout, hX, hop⟩
      simp only [World.push_state, hsame]
      have hop : .op t (.deleteContextId X) r ∈ c.world.trace := by simpa using hop
      rcases List.mem_append.mp hcall with hcall | hcall
      · exact ih.dropped ⟨t, call', i, self, r, hcall, habout, hX, hop⟩
      · cases List.mem_singleton.mp hcall
        exact absurd (hfresh _ hop) (Nat.lt_irrefl _)
  | run hc hok ht hen ih => exact ih.run hc hok ht hen

end UserIam.UserAuth
