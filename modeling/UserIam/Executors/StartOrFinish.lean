import UserIam.Executors.CommandView

/-!
# A command starts or finishes

The path that starts a command and the paths that answer it share `isFinished_` only, and a start
that fails does not set it.  What keeps a command from failing and finishing both is the driver: it
answers no command whose request it refuses.
-/

namespace UserIam.Executors

open Conc CoAuth

/-! ## 1. Programs -/

section Programs

variable {c c' : AsyncCommand} {v : CommandView} {α : Type}

theorem follows_call {Q : α → CommandView → Prop} {o : ExecutorOp}
    {k : ExecutorRes o → ExecutorProg α} (hmay : v.may c o)
    (hk : ∀ r, v.possible o r = true →
      (v.step c o r).Fact ∧ (commandTypestate c).Follows Q (v.step c o r) (k r)) :
    (commandTypestate c).Follows Q v (.call o k) := by
  refine ⟨hmay, fun r v' hnext => ?_⟩
  have hif : (if v.possible o r then some (v.step c o r) else none) = some v' := hnext
  split at hif
  · next hpossible =>
    cases hif
    exact hk r hpossible
  · cases hif

/-- An operation that is not about the command. -/
theorem follows_neutral {Q : α → CommandView → Prop} {o : ExecutorOp}
    {k : ExecutorRes o → ExecutorProg α} (hv : v.Fact) (hmay : v.may c o)
    (hstep : ∀ r, v.step c o r = v) (hk : ∀ r, (commandTypestate c).Follows Q v (k r)) :
    (commandTypestate c).Follows Q v (.call o k) := by
  refine follows_call hmay fun r _ => ?_
  rw [hstep r]
  exact ⟨hv, hk r⟩

theorem CommandView.Fact.withReferences (hv : v.Fact) (references : Nat) :
    ({ v with references } : CommandView).Fact :=
  ⟨hv.found, hv.finished, hv.failed⟩

theorem CommandView.Fact.not_found (hv : v.Fact) (hholds : v.holds = false) : v.found = false := by
  cases hfound : v.found with
  | false => rfl
  | true => exact absurd (hv.found hfound) (by simp [hholds])

theorem commandExecutorHdi_follows (hv : v.Fact) :
    (commandTypestate c).Follows (fun _ v' => v' = v) v commandExecutorHdi := by
  refine follows_call trivial fun executor _ => ?_
  cases executor with
  | false => exact ⟨hv, rfl⟩
  | true =>
    have hborrow := hv.withReferences (v.references + 1)
    refine ⟨hborrow, follows_neutral hborrow trivial (fun _ => rfl) fun hdi => ?_⟩
    exact follows_call trivial fun _ _ => ⟨hv, rfl⟩

/-- Without the mutex the thread has seen nothing in the set. -/
theorem CommandView.Fact.lock (hv : v.Fact) (hholds : v.holds = false) (holds : Bool) :
    ({ v with holds } : CommandView).Fact where
  found h := by simp [hv.not_found hholds] at h
  finished := hv.finished
  failed := hv.failed

theorem CommandView.Fact.erase (hv : v.Fact) (hfinished : v.finished = true → v.role = .answerer)
    (found : Bool) {erased : Bool} (hfound : found = true → v.holds = true)
    (herase : v.erased = true → erased = true) :
    ({ v with found, erased } : CommandView).Fact where
  found := hfound
  finished h := .inl (hfinished h)
  failed h := by
    obtain ⟨hrole, herased, hrefused⟩ := hv.failed h
    exact ⟨hrole, fun hinserted => herase (herased hinserted), hrefused⟩

theorem CommandView.Fact.answerer (hv : v.Fact) (hholds : v.holds = false)
    (h : v.finished = true) : v.role = .answerer := by
  rcases hv.finished h with hrole | ⟨-, hfound⟩
  · exact hrole
  · simp [hv.not_found hholds] at hfound

theorem CommandView.unlocked (hholds : v.holds = false) (hfound : v.found = false)
    (erased : Bool) :
    ({ v with holds := false, found := false, erased } : CommandView) = { v with erased } := by
  cases v
  subst hholds hfound
  rfl

/-- The end of a command, by a thread that does not own `Executor::mutex_`. -/
theorem endProcess_follows (hv : v.Fact) (hholds : v.holds = false) :
    (commandTypestate c).Follows
      (fun _ v' => v.references = 0 ∧ v' = v ∨
        v' = { v with erased := if c' = c then true else v.erased })
      v (endProcess c') := by
  have hanswerer := hv.answerer hholds
  have hfound := hv.not_found hholds
  refine follows_call trivial fun executor hpossible => ?_
  cases executor with
  | false => exact ⟨hv, .inl ⟨by simpa [CommandView.possible] using hpossible, rfl⟩⟩
  | true =>
    have hborrow := hv.withReferences (v.references + 1)
    have hlock := hborrow.lock hholds true
    refine ⟨hborrow, follows_call trivial fun _ _ => ⟨hlock, ?_⟩⟩
    have herased : v.erased = true → (if c' = c then true else v.erased) = true := by
      intro h
      rw [h, ite_self]
    have herase := hlock.erase hanswerer (if c' = c then false else v.found) (fun _ => rfl) herased
    refine follows_call rfl fun _ _ => ⟨herase, ?_⟩
    have hunlock := (hborrow.lock hholds false).erase hanswerer false nofun herased
    refine follows_call rfl fun _ _ => ⟨hunlock, ?_⟩
    refine follows_call trivial fun _ _ => ⟨hunlock.withReferences v.references, .inr ?_⟩
    exact CommandView.unlocked hholds hfound _

/-- A thread that owns the mutex does not come to the end of a command. -/
theorem endProcess_follows_of_holds (hv : v.Fact) (hholds : v.holds = true)
    (hreferences : v.references ≠ 0) :
    (commandTypestate c).Follows (fun _ _ => False) v (endProcess c') := by
  refine follows_call trivial fun executor hpossible => ?_
  cases executor with
  | false => simp [CommandView.possible, hreferences] at hpossible
  | true =>
    refine ⟨hv.withReferences _, follows_call trivial fun _ hlock => ?_⟩
    have hfree : (!v.holds) = true := hlock
    simp [hholds] at hfree

theorem onResultInner_follows (hv : v.Fact)
    (hfinish : c' = c → v.role = .answerer ∨ v.role = .disconnecter ∧ v.found = true)
    (result : ResultCode) (extraInfo : List UInt8) :
    (commandTypestate c).Follows
      (fun _ v' => ∃ finished, v' = { v with finished }) v (onResultInner c' result extraInfo) := by
  have hfinished :
      ({ v with finished := if c' = c then true else v.finished } : CommandView).Fact := by
    refine ⟨hv.found, fun h => ?_, hv.failed⟩
    by_cases hc : c' = c
    · exact hfinish hc
    · exact hv.finished (by simpa [hc] using h)
  have hschedule : (commandTypestate c).Follows
      (fun _ v' => ∃ finished, v' = { v with finished }) v
      (finishSchedule c' result extraInfo) := by
    refine follows_neutral hv trivial (fun _ => rfl) fun authAttributes => ?_
    cases authAttributes with
    | false => exact ⟨_, rfl⟩
    | true =>
      refine follows_neutral hv trivial (fun _ => rfl) fun messenger => ?_
      cases messenger with
      | false => exact ⟨_, rfl⟩
      | true =>
        refine follows_call trivial fun _ _ => ⟨hfinished, ?_⟩
        exact follows_neutral hfinished trivial (fun _ => rfl) fun _ => ⟨_, rfl⟩
  unfold onResultInner
  cases c'.type with
  | custom => exact follows_neutral hv trivial (fun _ => rfl) fun _ => ⟨_, rfl⟩
  | _ => exact hschedule

/-- The thread that answers a command, and does not own `Executor::mutex_`. -/
theorem onResult_follows (hv : v.Fact) (hholds : v.holds = false)
    (hfinish : c' = c → v.role = .answerer) (result : ResultCode) (extraInfo : List UInt8) :
    (commandTypestate c).Follows (fun _ v' => v'.Fact ∧ v'.holds = false ∧ v'.role = v.role) v
      (onResult c' result extraInfo) := by
  refine follows_neutral hv trivial (fun _ => rfl) fun _ => ?_
  refine follows_neutral hv trivial (fun _ => rfl) fun finished => ?_
  cases finished with
  | true => exact follows_neutral hv trivial (fun _ => rfl) fun _ => ⟨hv, hholds, rfl⟩
  | false =>
    refine follows_neutral hv trivial (fun _ => rfl) fun _ => ?_
    refine Typestate.Follows.bind (p := onResultInner c' result extraInfo) hv
      (onResultInner_follows hv (fun hc => .inl (hfinish hc)) result extraInfo) ?_
    rintro _ _ hv₁ ⟨finished, rfl⟩
    refine Typestate.Follows.bind (p := endProcess c') hv₁ (endProcess_follows hv₁ hholds) ?_
    intro _ v₂ hv₂ hend
    refine follows_neutral hv₂ trivial (fun _ => rfl) fun _ => ⟨hv₂, ?_⟩
    rcases hend with ⟨-, rfl⟩ | rfl
    · exact ⟨hholds, rfl⟩
    · exact ⟨hholds, rfl⟩

/-- The loop of a disconnect gets past the commands that are finished only. -/
theorem onResult_follows_of_holds (hv : v.Fact) (hholds : v.holds = true)
    (hreferences : v.references ≠ 0)
    (hfinish : c' = c → v.role = .disconnecter ∧ v.found = true) (result : ResultCode)
    (extraInfo : List UInt8) :
    (commandTypestate c).Follows (fun _ v' => v' = v) v (onResult c' result extraInfo) := by
  refine follows_neutral hv trivial (fun _ => rfl) fun _ => ?_
  refine follows_neutral hv trivial (fun _ => rfl) fun finished => ?_
  cases finished with
  | true => exact follows_neutral hv trivial (fun _ => rfl) fun _ => rfl
  | false =>
    refine follows_neutral hv trivial (fun _ => rfl) fun _ => ?_
    refine Typestate.Follows.bind (p := onResultInner c' result extraInfo) hv
      (onResultInner_follows hv (fun hc => .inr (hfinish hc)) result extraInfo) ?_
    rintro _ _ hv₁ ⟨finished, rfl⟩
    exact (endProcess_follows_of_holds hv₁ hholds hreferences).bind hv₁ fun _ _ _ h => h.elim

theorem respondEach_follows (hv : v.Fact) (hholds : v.holds = true) (hreferences : v.references ≠ 0)
    (hrole : v.role = .disconnecter) (commands : List AsyncCommand)
    (hfound : c ∈ commands → v.found = true) :
    (commandTypestate c).Follows (fun _ v' => v' = v) v (respondEach commands) := by
  induction commands with
  | nil => rfl
  | cons c' commands ih =>
    refine (onResult_follows_of_holds hv hholds hreferences (fun hc => ⟨hrole, ?_⟩) _ _).bind hv ?_
    · exact hfound (by rw [hc]; exact List.mem_cons_self)
    · rintro _ _ - rfl
      exact ih fun hmem => hfound (List.mem_cons_of_mem _ hmem)

/-- What a disconnect knows while it has its reference. -/
theorem fact_disconnecter (references : Nat) (holds found : Bool)
    (h : found = true → holds = true) :
    ({ role := .disconnecter, references, holds, found } : CommandView).Fact :=
  ⟨h, nofun, nofun⟩

theorem respondCallbackOnDisconnect_follows :
    (commandTypestate c).Follows (fun _ v' => v' = { role := .disconnecter, references := 1 })
      { role := .disconnecter, references := 1 } respondCallbackOnDisconnect := by
  refine follows_call trivial fun _ _ => ⟨fact_disconnecter 1 true false nofun, ?_⟩
  have hfound (commands : List AsyncCommand) := fact_disconnecter 1 true (decide (c ∈ commands))
    fun _ => rfl
  refine follows_call rfl fun commands _ => ⟨hfound commands, ?_⟩
  refine Typestate.Follows.bind (p := respondEach commands) (hfound commands)
    (respondEach_follows (hfound commands) rfl Nat.one_ne_zero rfl commands decide_eq_true) ?_
  rintro _ _ - rfl
  refine follows_call rfl fun _ _ => ⟨fact_disconnecter 1 true false nofun, ?_⟩
  exact follows_call rfl fun _ _ => ⟨fact_disconnecter 1 false false nofun, rfl⟩

theorem driverOnHdiDisconnect_follows :
    (commandTypestate c).Follows (fun _ _ => True) { role := .disconnecter }
      driverOnHdiDisconnect := by
  have hfact := fact_disconnecter 1 false false nofun
  refine follows_call trivial fun executor _ => ?_
  cases executor with
  | false => exact ⟨fact_disconnecter 0 false false nofun, trivial⟩
  | true =>
    refine ⟨hfact, ?_⟩
    refine Typestate.Follows.bind (p := onHdiDisconnect) hfact (follows_neutral hfact trivial
      (fun _ => rfl) fun _ => respondCallbackOnDisconnect_follows) ?_
    rintro _ _ - rfl
    exact follows_call trivial fun _ _ => ⟨fact_disconnecter 0 false false nofun, trivial⟩

theorem onAcquireInfo_follows (hv : v.Fact) (extraInfo : List UInt8) :
    (commandTypestate c).Follows (fun _ v' => v' = v) v (onAcquireInfo c' extraInfo) := by
  have hsend : (commandTypestate c).Follows (fun _ v' => v' = v) v
      (sendAcquireInfo c' extraInfo) := by
    refine follows_neutral hv trivial (fun _ => rfl) fun msg => ?_
    cases msg with
    | false => rfl
    | true =>
      refine follows_neutral hv trivial (fun _ => rfl) fun transNum => ?_
      refine follows_neutral hv trivial (fun _ => rfl) fun messenger => ?_
      cases messenger with
      | false => exact follows_neutral hv trivial (fun _ => rfl) fun _ => rfl
      | true =>
        refine follows_neutral hv trivial (fun _ => rfl) fun _ => ?_
        exact follows_neutral hv trivial (fun _ => rfl) fun _ => rfl
  refine follows_neutral hv trivial (fun _ => rfl) fun _ => ?_
  refine follows_neutral hv trivial (fun _ => rfl) fun finished => ?_
  cases finished with
  | true => exact follows_neutral hv trivial (fun _ => rfl) fun _ => rfl
  | false =>
    refine Typestate.Follows.bind (p := onAcquireInfoInner c' extraInfo)
      (Q := fun _ v' => v' = v) hv ?_ ?_
    · unfold onAcquireInfoInner
      cases c'.type with
      | custom => rfl
      | _ => exact hsend
    · rintro _ _ - rfl
      exact follows_neutral hv trivial (fun _ => rfl) fun _ => rfl

/-! ### The threads that start commands -/

/-- `AddCommand`, by a thread that does not own the mutex. -/
theorem addCommand_follows (hv : v.Fact) (hholds : v.holds = false) (hfailed : v.failed = false)
    (hinsert : c' = c → v.role = .starter ∧ v.erased = false) :
    (commandTypestate c).Follows
      (fun _ v' => v' = { v with inserted := if c' = c then true else v.inserted }) v
      (addCommand c') := by
  have hfound := hv.not_found hholds
  have hinserted (holds found : Bool) (h : found = true → holds = true) : ({ v with
      holds, found, inserted := if c' = c then true else v.inserted } : CommandView).Fact :=
    ⟨h, fun h => .inl (hv.answerer hholds h), fun h => by simp [hfailed] at h⟩
  refine follows_call trivial fun _ _ => ⟨hv.lock hholds true, ?_⟩
  refine follows_call hinsert fun _ _ => ⟨hinserted true v.found fun _ => rfl, ?_⟩
  refine follows_call rfl fun _ _ => ⟨hinserted false false nofun, ?_⟩
  let inserted := if c' = c then true else v.inserted
  exact CommandView.unlocked (v := { v with inserted }) hholds hfound v.erased

/-- The request of a command other than a custom one: the driver is handed the command, and a code
other than `SUCCESS` after that is the driver's refusal. -/
theorem hdiRequest_follows (hv : v.Fact) (hholds : v.holds = false) (hfailed : v.failed = false)
    (hrole : v.role = .starter) (request : HdiRequest) :
    (commandTypestate c).Follows
      (fun ret v' => ∃ called refused, v' = { v with called, refused } ∧
        (ret ≠ .success → called = true → refused = true)) v (hdiRequest c request) := by
  have hcalled (called refused : Bool) : ({ v with called, refused } : CommandView).Fact :=
    ⟨hv.found, fun h => .inl (hv.answerer hholds h), fun h => by simp [hfailed] at h⟩
  refine follows_call (fun _ => hrole) fun _ _ => ⟨hcalled _ _, ?_⟩
  refine follows_call trivial fun ret _ => ⟨hcalled _ _, _, _, rfl, fun hret _ => ?_⟩
  exact if_pos ⟨rfl, hret⟩

theorem sendRequest_follows (hv : v.Fact) (hholds : v.holds = false) (hfailed : v.failed = false)
    (hrole : v.role = .starter) (hcalled : v.called = false) (htype : c.type ≠ .custom)
    (attributes : Option AuthAttributes) :
    (commandTypestate c).Follows
      (fun ret v' => ∃ called refused, v' = { v with called, refused } ∧
        (ret ≠ .success → called = true → refused = true)) v (sendRequest c attributes) := by
  have hnot : ∃ called refused, v = { v with called, refused } ∧
      (ResultCode.generalError ≠ .success → called = true → refused = true) :=
    ⟨v.called, v.refused, rfl, fun _ h => by simp [hcalled] at h⟩
  cases attributes with
  | none => exact hnot
  | some attributes =>
    refine Typestate.Follows.bind (p := commandExecutorHdi) hv (commandExecutorHdi_follows hv) ?_
    rintro hdi v - rfl
    cases hdi with
    | false => exact hnot
    | true =>
      simp only [Bool.not_true, Bool.false_eq_true, if_false]
      cases hc : c.type with
      | custom => exact absurd hc htype
      | _ =>
        refine follows_neutral hv trivial (fun _ => rfl) fun callerUid => ?_
        exact hdiRequest_follows hv hholds hfailed hrole _

/-- What a thread that starts the command knows when `StartProcess` ends with a code. -/
def StartEnds (ret : ResultCode) (v : CommandView) : Prop :=
  v.role = .starter ∧ v.holds = false ∧ v.failed = false ∧
    (ret ≠ .success → (v.inserted = true → v.erased = true) ∧
      (v.called = true → v.refused = true))

/-- The thread's own reference keeps the executor, so a command that fails leaves the set. -/
theorem startProcess_end (hv : v.Fact) (hrole : v.role = .starter) (hholds : v.holds = false)
    (hfailed : v.failed = false) (hreferences : v.references ≠ 0) {ret : ResultCode}
    (hrefused : ret ≠ .success → v.called = true → v.refused = true) :
    (commandTypestate c).Follows StartEnds v
      (if ret ≠ .success then do
        endProcess c
        let _ ← atomic .releaseExecutor
        pure ret
      else do
        let _ ← atomic .releaseExecutor
        pure .success) := by
  split
  · next hret =>
    refine Typestate.Follows.bind (p := endProcess c) hv (endProcess_follows hv hholds) ?_
    rintro _ v₁ hv₁ (⟨hzero, -⟩ | rfl)
    · exact absurd hzero hreferences
    · refine follows_call trivial fun _ _ => ⟨hv₁.withReferences _, hrole, hholds, hfailed, ?_⟩
      exact fun _ => ⟨fun _ => if_pos rfl, hrefused hret⟩
  · refine follows_call trivial fun _ _ => ⟨hv.withReferences _, hrole, hholds, hfailed, ?_⟩
    exact fun h => absurd rfl h

theorem startProcess_rest (hv : v.Fact) (hrole : v.role = .starter) (hholds : v.holds = false)
    (hfailed : v.failed = false) (hreferences : v.references ≠ 0) (herased : v.erased = false)
    (hcalled : v.called = false) (htype : c.type ≠ .custom) (attributes : Option AuthAttributes) :
    (commandTypestate c).Follows StartEnds v (do
      addCommand c
      let ret ← sendRequest c attributes
      if ret ≠ .success then
        endProcess c
        let _ ← atomic .releaseExecutor
        pure ret
      else
        let _ ← atomic .releaseExecutor
        pure .success) := by
  refine Typestate.Follows.bind (p := addCommand c) hv
    (addCommand_follows hv hholds hfailed fun _ => ⟨hrole, herased⟩) ?_
  rintro _ _ hadded rfl
  refine Typestate.Follows.bind (p := sendRequest c attributes) hadded
    (sendRequest_follows hadded hholds hfailed hrole hcalled htype attributes) ?_
  rintro ret _ hsent ⟨called, refused, rfl, hrefused⟩
  exact startProcess_end hsent hrole hholds hfailed hreferences hrefused

/-- **The thread that starts a command.**  When it fails it has taken the command out of the set
again, and the driver has not got the command or has refused it. -/
theorem startProcess_follows (htype : c.type ≠ .custom) (attributes : Option AuthAttributes) :
    (commandTypestate c).Follows StartEnds { role := .starter } (startProcess c attributes) := by
  refine follows_call trivial fun executor _ => ?_
  cases executor with
  | false => exact ⟨⟨nofun, nofun, nofun⟩, rfl, rfl, rfl, fun _ => ⟨nofun, nofun⟩⟩
  | true =>
    have hborrow : ({ role := .starter, references := 1 } : CommandView).Fact :=
      ⟨nofun, nofun, nofun⟩
    exact ⟨hborrow, startProcess_rest hborrow rfl rfl rfl Nat.one_ne_zero rfl rfl htype attributes⟩

theorem processCommand_follows (htype : c.type ≠ .custom) (attributes : Option AuthAttributes) :
    (commandTypestate c).Follows (fun _ _ => True) { role := .starter }
      (processCommand c attributes) := by
  refine Typestate.Follows.bind (p := startProcess c attributes) ⟨nofun, nofun, nofun⟩
    (startProcess_follows htype attributes) ?_
  rintro ret v hv ⟨hrole, hholds, hfailed, hret⟩
  refine follows_call trivial fun _ _ => ⟨?_, ?_⟩
  · refine ⟨hv.found, hv.finished, fun h => ⟨hrole, ?_⟩⟩
    by_cases hsuccess : ret = .success
    · have hcases : (if c = c ∧ ret ≠ .success then true else v.failed) = true := h
      rw [if_neg (by simp [hsuccess]), hfailed] at hcases
      cases hcases
    · exact hret hsuccess
  · cases hc : c.type with
    | custom => exact absurd hc htype
    | _ => trivial

/-! ### The threads that start other commands -/

/-- What a thread that starts another command knows between two operations. -/
def StartsOther (v : CommandView) : Prop := v.role = .other ∧ v.holds = false

section Other

variable (hne : c' ≠ c)
include hne

theorem hdiRequest_follows_other (hv : v.Fact) (hother : StartsOther v) (request : HdiRequest) :
    (commandTypestate c).Follows (fun _ v' => StartsOther v') v (hdiRequest c' request) := by
  refine follows_neutral hv (fun h => absurd h hne) (fun _ => ?_) fun _ => ?_
  · simp [CommandView.step, hne]
  · refine follows_neutral hv trivial (fun _ => ?_) fun _ => hother
    simp [CommandView.step, hne]

theorem customSendRequest_follows_other (hv : v.Fact) (hother : StartsOther v)
    (attributes : AuthAttributes) :
    (commandTypestate c).Follows (fun _ v' => StartsOther v') v
      (customSendRequest c' attributes) := by
  refine follows_neutral hv trivial (fun _ => rfl) fun _ => ?_
  dsimp only [Prog.bind]
  split
  · exact hother
  · refine Typestate.Follows.bind (p := hdiRequest c' _) hv
      (hdiRequest_follows_other hne hv hother _) ?_
    intro ret v₁ hv₁ hother₁
    split
    · refine Typestate.Follows.bind (p := onResult c' ret []) hv₁
        (onResult_follows hv₁ hother₁.2 (fun h => absurd h hne) ret []) ?_
      rintro _ v₂ - ⟨-, hholds, hrole⟩
      exact ⟨hrole.trans hother₁.1, hholds⟩
    · exact hother₁

theorem sendRequest_follows_other (hv : v.Fact) (hother : StartsOther v)
    (attributes : Option AuthAttributes) :
    (commandTypestate c).Follows (fun _ v' => StartsOther v') v (sendRequest c' attributes) := by
  cases attributes with
  | none => exact hother
  | some attributes =>
    refine Typestate.Follows.bind (p := commandExecutorHdi) hv (commandExecutorHdi_follows hv) ?_
    rintro hdi v - rfl
    cases hdi with
    | false => exact hother
    | true =>
      simp only [Bool.not_true, Bool.false_eq_true, if_false]
      cases c'.type with
      | custom => exact customSendRequest_follows_other hne hv hother attributes
      | _ =>
        refine follows_neutral hv trivial (fun _ => rfl) fun callerUid => ?_
        exact hdiRequest_follows_other hne hv hother _

theorem startProcess_follows_other (hv : v.Fact) (hother : StartsOther v)
    (attributes : Option AuthAttributes) :
    (commandTypestate c).Follows (fun _ v' => StartsOther v') v (startProcess c' attributes) := by
  refine follows_call trivial fun executor _ => ?_
  cases executor with
  | false => exact ⟨hv, hother⟩
  | true =>
    have hborrow := hv.withReferences (v.references + 1)
    have hfailed : v.failed = false := by
      cases hfailed : v.failed with
      | false => rfl
      | true => cases hother.1.symm.trans (hv.failed hfailed).1
    refine ⟨hborrow, ?_⟩
    refine Typestate.Follows.bind (p := addCommand c') hborrow
      (addCommand_follows hborrow hother.2 hfailed fun h => absurd h hne) ?_
    rintro _ _ hadded rfl
    refine Typestate.Follows.bind (p := sendRequest c' attributes) hadded
      (sendRequest_follows_other hne hadded hother attributes) ?_
    intro ret v₁ hv₁ hother₁
    split
    · refine Typestate.Follows.bind (p := endProcess c') hv₁ (endProcess_follows hv₁ hother₁.2) ?_
      rintro _ v₂ hv₂ (⟨-, rfl⟩ | rfl)
      · exact follows_call trivial fun _ _ => ⟨hv₂.withReferences _, hother₁⟩
      · exact follows_call trivial fun _ _ => ⟨hv₂.withReferences _, hother₁⟩
    · exact follows_call trivial fun _ _ => ⟨hv₁.withReferences _, hother₁⟩

theorem processCommand_follows_other (attributes : Option AuthAttributes) :
    (commandTypestate c).Follows (fun _ _ => True) { role := .other }
      (processCommand c' attributes) := by
  have hstart : ({ role := .other } : CommandView).Fact := ⟨nofun, nofun, nofun⟩
  refine Typestate.Follows.bind (p := startProcess c' attributes) hstart
    (startProcess_follows_other hne hstart ⟨rfl, rfl⟩ attributes) ?_
  intro ret v hv _
  refine follows_neutral hv trivial (fun _ => by simp [CommandView.step, hne]) fun _ => ?_
  cases c'.type with
  | custom =>
    dsimp only
    split
    · trivial
    · refine follows_neutral hv trivial (fun _ => rfl) fun valid => ?_
      cases valid with
      | false => trivial
      | true => exact follows_neutral hv trivial (fun _ => rfl) fun _ => trivial
  | _ => trivial

end Other

end Programs

/-! ## 2. Every run -/

/-- The driver refuses a request only while it has not answered the command, and answers no command
whose request it has refused. -/
def AnswersAccepted (c : AsyncCommand) (w : ExecutorWorld) : ExecutorMove → Prop
  | .spawn _ (.onResult c' _ _) => c' = c → w.trace.any (refuses c) = false
  | .op _ (.returnHdi c') env =>
    c' = c → env.resultCode ≠ ResultCode.success → w.trace.any (answers c) = false
  | _ => True

instance (c : AsyncCommand) (w : ExecutorWorld) (mv : ExecutorMove) :
    Decidable (AnswersAccepted c w mv) := by
  unfold AnswersAccepted
  split <;> infer_instance

/-- Before the command is made nobody starts it, and the driver does not both refuse and answer
it. -/
structure CommandInv (c : AsyncCommand) (w : ExecutorWorld) : Prop where
  fresh : w.state.command c = none →
    w.spawned (starts c) = [] ∧ c ∉ w.state.command2Respond
  one : w.trace.any (refuses c) = true → w.trace.any (answers c) = false

section Run

variable {c : AsyncCommand} {w : ExecutorWorld} {tid t : Nat} {v : CommandView}
  {call : ExecutorCall} {s s' : ExecutorState}

def roleOf (c : AsyncCommand) : ExecutorCall → CommandRole
  | .start c' _ _ => if c' = c then .starter else .other
  | .onResult c' _ _ => if c' = c then .answerer else .other
  | .onAcquireInfo _ _ _ => .other
  | .onHdiDisconnect => .disconnecter
  | .release => .other

theorem executorBody_follows (htype : c.type ≠ .custom) (call : ExecutorCall) :
    (commandTypestate c).Follows (fun _ _ => True) { role := roleOf c call }
      (executorBody call) := by
  have hstart (role : CommandRole) : ({ role } : CommandView).Fact := ⟨nofun, nofun, nofun⟩
  cases call with
  | start c' attributes executorMessenger =>
    have hprocess : (commandTypestate c).Follows (fun _ _ => True)
        { role := if c' = c then .starter else .other } (processCommand c' attributes) := by
      by_cases hc : c' = c
      · subst hc
        rw [if_pos rfl]
        exact processCommand_follows htype attributes
      · rw [if_neg hc]
        exact processCommand_follows_other hc attributes
    exact hprocess.bind (hstart _) fun _ _ _ _ => trivial
  | onResult c' result extraInfo =>
    have hrole := hstart (if c' = c then .answerer else .other)
    apply (onResult_follows hrole rfl (fun hc => if_pos hc) result extraInfo).mono
    exact fun _ _ _ => trivial
  | onAcquireInfo c' acquire extraInfo =>
    exact (onAcquireInfo_follows (hstart .other) extraInfo).mono fun _ _ _ => trivial
  | onHdiDisconnect => exact driverOnHdiDisconnect_follows
  | release => trivial

theorem executorAccept_holders (h : executorAccept s call = some s') : s'.holders = s.holders :=
  (executorAccept_frame h).2.2

theorem executorAccept_starts (h : executorAccept s call = some s')
    (hstarts : starts c call = true) : s.command c = none ∧ s'.command c ≠ none := by
  cases call with
  | start c' attributes executorMessenger =>
    have hc : c' = c := by simpa [starts] using hstarts
    subst hc
    simp only [executorAccept] at h
    split at h
    · cases h
    · next hnone =>
      cases h
      refine ⟨hnone, ?_⟩
      show Function.update s.command c' _ c' ≠ none
      rw [Function.update_self]
      simp
  | _ => cases hstarts

theorem executorAccept_command (h : executorAccept s call = some s')
    (hstarts : starts c call = false) : s'.command c = s.command c := by
  cases call with
  | start c' attributes executorMessenger =>
    have hc : c ≠ c' := by
      rintro rfl
      simp [starts] at hstarts
    simp only [executorAccept] at h
    split at h <;> cases h
    exact Function.update_of_ne hc _ _
  | onHdiDisconnect | release =>
    cases h
    rfl
  | _ =>
    simp only [executorAccept] at h
    split at h <;> cases h
    rfl

/-- Another thread starts. -/
theorem CommandLink.spawn (h : CommandLink c w t v) (ht : t ≠ tid)
    (hs : executorAccept w.state call = some s) :
    CommandLink c (w.push s (.spawn tid call)) t v := by
  have hkept (hcommand : w.state.command c ≠ none) : s.command c = w.state.command c := by
    refine executorAccept_command hs ?_
    cases hstarts : starts c call with
    | false => rfl
    | true => exact absurd (executorAccept_starts hs hstarts).1 hcommand
  refine h.frame ?_ (fun hholds => ?_) (fun hfound => ?_) (fun _ hmem => ?_) (fun hrole hc => ?_)
    (fun hc => ?_) (fun hcommand => ?_) (fun hrole => ?_) (Ne.symm ht)
  · rw [executorAccept_holders hs]
  · rw [executorAccept_owner hs]
    exact h.holds hholds
  · rw [executorAccept_command2Respond hs]
    exact h.found hfound
  · rwa [executorAccept_command2Respond hs] at hmem
  · unfold ExecutorState.handed at hc ⊢
    rwa [hkept (h.starter hrole).2] at hc
  · unfold ExecutorState.handed at hc ⊢
    rwa [hkept fun hnone => by simp [hnone] at hc]
  · rwa [hkept hcommand]
  · have hstarts : starts c call = false := by
      cases hstarts : starts c call with
      | false => rfl
      | true => exact absurd (executorAccept_starts hs hstarts).1 (h.starter hrole).2
    rw [World.spawned_push, hstarts]
    simp

/-- The thread that starts. -/
theorem commandLink_start (hinv : CommandInv c w) (hfresh : w.Fresh tid)
    (hs : executorAccept w.state call = some s) :
    CommandLink c (w.push s (.spawn tid call)) tid { role := roleOf c call } := by
  -- A new thread has no events but its start.
  have hnot {p : ExecutorEvent → Bool} (hspawn : p (.spawn tid call) = false) :
      ∀ e ∈ (w.push s (.spawn tid call)).trace, e.tid = tid → p e = true → False := by
    intro e he htid hp
    rw [World.push_trace, List.mem_append, List.mem_singleton] at he
    rcases he with he | rfl
    · have := hfresh e he
      omega
    · simp [hspawn] at hp
  have hstarter (hrole : roleOf c call = .starter) : starts c call = true := by
    cases call with
    | start c' => simpa [roleOf, starts] using hrole
    | onResult c' => by_cases hc : c' = c <;> simp [roleOf, hc] at hrole
    | _ => cases hrole
  have hanswerer (hrole : roleOf c call = .answerer) :
      s.handed c = true ∧ answers c (.spawn tid call) = true := by
    cases call with
    | start c' => by_cases hc : c' = c <;> simp [roleOf, hc] at hrole
    | onResult c' result extraInfo =>
      have hc : c' = c := by simpa [roleOf] using hrole
      subst hc
      simp only [executorAccept] at hs
      split at hs
      · next hhanded =>
        cases hs
        exact ⟨hhanded, by simp [answers]⟩
      · cases hs
    | _ => cases hrole
  constructor
  · exact Nat.zero_le _
  · simp
  · simp
  · simp
  · exact fun e he htid hp => (hnot rfl e he htid hp).elim
  · exact fun e he htid hp => (hnot rfl e he htid hp).elim
  · intro hrole
    have hstarts := hstarter hrole
    obtain ⟨hnone, hsome⟩ := executorAccept_starts hs hstarts
    refine ⟨?_, hsome⟩
    rw [World.spawned_push, hstarts, (hinv.fresh hnone).1]
    rfl
  · intro hrole hmem
    rw [World.push_state, executorAccept_command2Respond hs] at hmem
    obtain ⟨hnone, -⟩ := executorAccept_starts hs (hstarter hrole)
    exact absurd hmem (hinv.fresh hnone).2
  · intro hrole hhanded
    -- a command that has just been made has not been handed out
    have hstarts := hstarter hrole
    cases call with
    | start c' attributes executorMessenger =>
      have hc : c' = c := by simpa [starts] using hstarts
      subst hc
      simp only [executorAccept] at hs
      split at hs <;> cases hs
      simp [ExecutorState.handed] at hhanded
    | _ => cases hstarts
  · intro hrole
    obtain ⟨hhanded, hanswers⟩ := hanswerer hrole
    exact ⟨hhanded, by simp [hanswers]⟩

theorem commandInv_spawn (hinv : CommandInv c w) (hok : AnswersAccepted c w (.spawn tid call))
    (hs : executorAccept w.state call = some s) : CommandInv c (w.push s (.spawn tid call)) where
  fresh hnone := by
    rw [World.push_state] at hnone
    have hstarts : starts c call = false := by
      cases hstarts : starts c call with
      | false => rfl
      | true => exact absurd hnone (executorAccept_starts hs hstarts).2
    rw [executorAccept_command hs hstarts] at hnone
    obtain ⟨hspawned, hmem⟩ := hinv.fresh hnone
    rw [World.spawned_push, hspawned, hstarts, World.push_state,
      executorAccept_command2Respond hs]
    exact ⟨rfl, hmem⟩
  one hrefuses := by
    have hbefore : w.trace.any (refuses c) = true := by simpa [refuses] using hrefuses
    have hanswers := hinv.one hbefore
    rw [World.push_trace, List.any_append, hanswers, Bool.false_or]
    cases call with
    | onResult c' result extraInfo =>
      have hne : c' ≠ c := fun hc => by simp [hok hc] at hbefore
      simp [answers, hne]
    | _ => rfl

theorem commandInv_perform {o : ExecutorOp} {env : ExecutorEnv} (hinv : CommandInv c w)
    (hlink : CommandLink c w tid v) (hmay : v.may c o)
    (hok : AnswersAccepted c w (.op tid o env)) :
    CommandInv c (executor.perform w tid o env) where
  fresh hnone := by
    obtain ⟨hspawned, hmem⟩ := hinv.fresh (executorHandle_command.mp hnone)
    refine ⟨World.spawned_push_op.trans hspawned, fun h => hmem (mem_of_executorHandle h ?_)⟩
    rintro rfl
    exact (hlink.starter (hmay rfl).1).2 (executorHandle_command.mp hnone)
  one hrefuses := by
    rw [Machine.perform, World.push_trace, List.any_append, Bool.or_eq_true] at hrefuses
    rw [Machine.perform, World.push_trace, List.any_append, Bool.or_eq_false_iff]
    refine ⟨?_, rfl⟩
    rcases hrefuses with hrefuses | hrefuses
    · exact hinv.one hrefuses
    · cases o with
      | returnHdi c' =>
        have hrefused : c' = c ∧ executor.answer w tid (.returnHdi c') env ≠ .success := by
          simpa [refuses] using hrefuses
        exact hok hrefused.1 hrefused.2
      | _ => cases hrefuses

theorem commandTypestate_sound (htype : c.type ≠ .custom) :
    (commandTypestate c).Sound executor (AnswersAccepted c) (CommandInv c) (CommandLink c) where
  start hinv hfresh hok hs :=
    ⟨commandInv_spawn hinv hok hs, _, commandLink_start hinv hfresh hs, ⟨nofun, nofun, nofun⟩,
      executorBody_follows htype _⟩
  spawn hlink ht hs := hlink.spawn ht hs
  own hinv hlink _ hmay hen hok := ⟨commandInv_perform hinv hlink hmay hok, hlink.own hmay hen⟩
  other ht hu hv hfactu _ hmay hen := hu.other ht hv hfactu hmay hen

end Run

/-- **Start or finish.**  In every run in which the driver does not both refuse and answer a
command, a command whose start fails never calls `Finish`. -/
theorem startFails_not_finishes (c : AsyncCommand) (htype : c.type ≠ .custom)
    (cfg : ExecutorConfig) (hc : executor.Reachable (AnswersAccepted c) .initial cfg)
    (hfails : cfg.world.trace.any (startFails c) = true) :
    cfg.world.trace.any (finishes c) = false := by
  have hinit : CommandInv c ⟨.initial, []⟩ := ⟨fun _ => ⟨rfl, List.not_mem_nil⟩, nofun⟩
  have hsound := commandTypestate_sound htype
  obtain ⟨e, he, hfails⟩ := List.any_eq_true.mp hfails
  obtain ⟨v, hlink, hfact⟩ := hsound.of_mem hinit hc he
  obtain ⟨hrole, herased, hrefused⟩ := hfact.failed (hlink.failed e he rfl hfails)
  rw [List.any_eq_false]
  intro d hd hfinishes
  obtain ⟨u, hulink, hufact⟩ := hsound.of_mem hinit hc hd
  rcases hufact.finished (hulink.finished d hd rfl hfinishes) with hanswerer | ⟨-, hfound⟩
  · -- the driver has got the command, so it has refused it
    obtain ⟨hhanded, hanswers⟩ := hulink.answerer hanswerer
    have hrefuses := hlink.refused (hrefused (hlink.called hrole hhanded))
    have hnone := ((hsound.reachable hinit hc).1.one hrefuses)
    simp [hanswers] at hnone
  · -- the disconnect still has the command in the set
    obtain ⟨hinserted, hnot⟩ := hlink.unique hrole (hulink.found hfound)
    simp [herased hinserted] at hnot

/-! ### A driver that answers and refuses -/

/-- The driver answers from inside the call and then refuses the request: the command has finished,
and its start fails. -/
theorem startFails_finishes :
    ¬∀ (c : AsyncCommand), c.type ≠ .custom → ∀ cfg : ExecutorConfig,
      executor.Reachable Machine.anyMove .initial cfg →
      cfg.world.trace.any (startFails c) = true → cfg.world.trace.any (finishes c) = false := by
  intro h
  have hrun : ((executor.exec Machine.anyMove ⟨⟨.initial, []⟩, []⟩
      (.spawn (.start authCommand (some .new) true) :: List.replicate 9 (.run 0 {}) ++
        .spawn (.onResult authCommand .success []) :: List.replicate 13 (.run 1 {}) ++
        .run 0 { resultCode := .fail } :: List.replicate 7 (.run 0 {}))).map fun c =>
          (c.world.trace.any (startFails authCommand), c.world.trace.any (finishes authCommand))) =
      some (true, true) := by
    decide +kernel
  obtain ⟨cfg, hc, hboth⟩ := Option.map_eq_some_iff.mp hrun
  obtain ⟨hfails, hfinishes⟩ := Prod.mk.inj hboth
  have hnot := h authCommand (by decide) cfg (Machine.Reachable.init.exec hc) hfails
  rw [hfinishes] at hnot
  cases hnot

/-- The driver refuses the request and does not answer it. -/
theorem startFails_not_finishes_example : ∃ cfg : ExecutorConfig,
    cfg.world.trace.any (startFails authCommand) = true ∧
      cfg.world.trace.any (finishes authCommand) = false := by
  have hrun : ((executor.exec (AnswersAccepted authCommand) ⟨⟨.initial, []⟩, []⟩
      (.spawn (.start authCommand (some .new) true) :: List.replicate 9 (.run 0 {}) ++
        .run 0 { resultCode := .fail } :: List.replicate 7 (.run 0 {}))).map
          (·.world.trace.any (startFails authCommand))) = some true := by
    decide +kernel
  obtain ⟨cfg, hc, hfails⟩ := Option.map_eq_some_iff.mp hrun
  exact ⟨cfg, hfails, startFails_not_finishes authCommand (by decide) cfg
    (Machine.Reachable.init.exec hc) hfails⟩

end UserIam.Executors
