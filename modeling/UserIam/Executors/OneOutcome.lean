import UserIam.Executors.CommandView

/-!
# One outcome for a command

The driver, a disconnect and the command's own start may all report a result.  What keeps a second
one away is the flag of the command, which is read and set under the command's mutex.
-/

namespace UserIam.Executors

open Conc CoAuth

/-! ## 1. Calls on a command -/

/-- Besides what the executor and its driver do, any command that has been made may be called at any
time. -/
inductive CommandCall where
  | executor (call : ExecutorCall)
  | onResult (c : AsyncCommand) (result : ResultCode) (extraInfo : List UInt8)
  | onAcquireInfo (c : AsyncCommand) (acquire : Int32) (extraInfo : List UInt8)
  | onHdiDisconnect (c : AsyncCommand)

def CommandCall.command : CommandCall → Option AsyncCommand
  | .executor _ => none
  | .onResult c _ _ => some c
  | .onAcquireInfo c _ _ => some c
  | .onHdiDisconnect c => some c

def commandAccept (s : ExecutorState) (call : CommandCall) : Option ExecutorState :=
  match call with
  | .executor call => executorAccept s call
  | call => if (call.command.bind s.command).isSome then some s else none

def commandBody : CommandCall → ExecutorProg Unit
  | .executor call => executorBody call
  | .onResult c result extraInfo => onResult c result extraInfo
  | .onAcquireInfo c _ extraInfo => onAcquireInfo c extraInfo
  | .onHdiDisconnect c => commandOnHdiDisconnect c

abbrev CommandWorld := World ExecutorOp ExecutorRes ExecutorState CommandCall
abbrev CommandEvent := Event ExecutorOp ExecutorRes CommandCall
abbrev CommandConfig := Config ExecutorOp ExecutorRes ExecutorState CommandCall

def commandCalls : Machine ExecutorOp ExecutorRes ExecutorEnv ExecutorState CommandCall where
  enabled _ o _ s := executorEnabled o s
  handle tid o env s := executorHandle tid env s o
  accept call s := commandAccept s call
  body := commandBody

/-! ## 2. Outcomes -/

/-- The command calls `Finish` of its messenger, or sets its promise. -/
def outcome (c : AsyncCommand) : CommandEvent → Bool
  | .op _ (.finish c' _ _ _ _) _ => c' = c
  | .op _ (.setResult c' _) _ => c' = c
  | _ => false

def sends (c : AsyncCommand) : CommandEvent → Bool
  | .op _ (.sendData c' _ _ _ _ _) _ => c' = c
  | _ => false

/-- `isFinished_` of the command. -/
def ExecutorState.finished (s : ExecutorState) (c : AsyncCommand) : Bool :=
  (s.command c).any (·.isFinished)

/-- The command that an operation on the mutex, the flag or the messenger is about. -/
def outcomeAbout : ExecutorOp → Option AsyncCommand
  | .lock (.command c) => some c
  | .unlock (.command c) => some c
  | .isFinished c => some c
  | .setFinished c => some c
  | .finish c _ _ _ _ => some c
  | .setResult c _ => some c
  | .sendData c _ _ _ _ _ => some c
  | _ => none

/-! ## 3. What a thread knows of the command -/

/-- How far a thread has come with the command's mutex: it does not own it, owns it, has found the
flag unset, has set it, or has reported the result. -/
inductive OutcomePhase where
  | outside
  | inside
  | unfinished
  | settled
  | concluded
  deriving DecidableEq

/-- `made` says that the command is known to exist. -/
structure OutcomeView where
  made : Bool
  phase : OutcomePhase := .outside

/-- The next phase, for an operation that is about the command. -/
def OutcomePhase.step (phase : OutcomePhase) : (o : ExecutorOp) → ExecutorRes o → OutcomePhase
  | .lock _, _ => .inside
  | .unlock _, _ => .outside
  | .isFinished _, finished => if finished then phase else .unfinished
  | .setFinished _, _ => .settled
  | .finish .., _ => .concluded
  | .setResult .., _ => .concluded
  | _, _ => phase

def OutcomeView.step (c : AsyncCommand) (v : OutcomeView) (o : ExecutorOp) (r : ExecutorRes o) :
    OutcomeView where
  made :=
    match o, r with
    | .listCommands, commands => v.made || decide (c ∈ commands)
    | _, _ => v.made
  phase := if outcomeAbout o = some c then v.phase.step o r else v.phase

/-- The flag is read under the mutex and set when it was unset; the result is reported by the thread
that has set it, and a message is sent while it is unset. -/
def OutcomeView.mayOwn (v : OutcomeView) : ExecutorOp → Prop
  | .unlock _ => v.phase ≠ .outside
  | .isFinished _ => v.phase = .inside
  | .setFinished _ => v.phase = .unfinished ∧ v.made = true
  | .finish .. => v.phase = .settled
  | .setResult .. => v.phase = .settled
  | .sendData .. => v.phase = .unfinished
  | _ => True

def OutcomeView.may (c : AsyncCommand) (v : OutcomeView) (o : ExecutorOp) : Prop :=
  (outcomeAbout o = some c → v.mayOwn o) ∧ (o = .insertCommand c → v.made = true)

abbrev outcomeTypestate (c : AsyncCommand) : Typestate ExecutorOp ExecutorRes OutcomeView :=
  ⟨OutcomeView.may c, fun v o r => some (v.step c o r), fun _ => True, fun _ => True⟩

/-- What the phase of a thread says is true. -/
structure PhaseLink (c : AsyncCommand) (w : CommandWorld) (t : Nat) (phase : OutcomePhase) :
    Prop where
  owner : phase ≠ .outside → w.state.owner (.command c) = some t
  unfinished : phase = .unfinished → w.state.finished c = false
  settled : phase = .settled → w.state.finished c = true ∧ w.trace.any (outcome c) = false

structure OutcomeLink (c : AsyncCommand) (w : CommandWorld) (t : Nat) (v : OutcomeView) : Prop where
  made : v.made = true → w.state.command c ≠ none
  phase : PhaseLink c w t v.phase

/-- The commands of the set have been made, a command with an outcome is finished, and nothing is
sent and no outcome reported after an outcome. -/
structure OutcomeInv (c : AsyncCommand) (w : CommandWorld) : Prop where
  made : c ∈ w.state.command2Respond → w.state.command c ≠ none
  finished : w.trace.any (outcome c) = true → w.state.finished c = true
  once : w.Each fun pre e => (outcome c e || sends c e) = true → pre.any (outcome c) = false

/-! ## 4. Knowledge is true -/

section Handle

variable {c : AsyncCommand} {o : ExecutorOp} {tid : Nat} {env : ExecutorEnv} {s : ExecutorState}

/-- Only an operation on the flag changes it. -/
theorem executorHandle_finished (hset : o ≠ .setFinished c) :
    (executorHandle tid env s o).2.finished c = s.finished c := by
  have hchange (command : CommandState) :
      (o.change c command).isFinished = command.isFinished := by
    cases o with
    | setFinished c' =>
      have hne : c ≠ c' := by
        rintro rfl
        exact hset rfl
      exact congrArg _ (if_neg hne)
    | clearExecutorMessenger | nextTransNum | callHdi | getFuture | setResult =>
      dsimp only [ExecutorOp.change]
      split <;> rfl
    | _ => rfl
  rw [ExecutorState.finished, ExecutorState.finished, executorHandle_change]
  cases s.command c with
  | none => rfl
  | some command => exact hchange command

theorem setFinished_finished (hcommand : s.command c ≠ none) :
    (s.updateCommand c fun command => { command with isFinished := true }).finished c = true := by
  obtain ⟨command, hcommand⟩ := Option.ne_none_iff_exists'.mp hcommand
  show (Function.update s.command c _ c).any _ = true
  rw [Function.update_self, hcommand]
  rfl

theorem executorHandle_owner_command (hlock : o ≠ .lock (.command c))
    (hunlock : o ≠ .unlock (.command c)) :
    (executorHandle tid env s o).2.owner (.command c) = s.owner (.command c) := by
  cases o with
  | lock mutex =>
    refine Function.update_of_ne (fun h => hlock ?_) _ _
    rw [← h]
  | unlock mutex =>
    refine Function.update_of_ne (fun h => hunlock ?_) _ _
    rw [← h]
  | _ => rw [executorHandle_owner_of_none _ _ rfl]

end Handle

section Sound

variable {c : AsyncCommand} {w : CommandWorld} {t tid : Nat} {u v : OutcomeView} {o : ExecutorOp}
  {env : ExecutorEnv} {s : ExecutorState} {call : CommandCall}

/-- While a thread owns the mutex, no other thread does anything that is about the command. -/
theorem OutcomeLink.exclusive (ht : t ≠ tid) (hu : OutcomeLink c w t u) (hv : OutcomeLink c w tid v)
    (hmay : v.may c o) (hen : commandCalls.enabled tid o env w.state = true)
    (hphase : u.phase ≠ .outside) : outcomeAbout o ≠ some c := by
  intro habout
  have howner := hu.phase.owner hphase
  have hother (hinside : v.phase ≠ .outside) : False :=
    ht (Option.some.inj (howner.symm.trans (hv.phase.owner hinside)))
  have hown := hmay.1 habout
  -- the lock is not free, and for everything else the other thread would have to own it
  cases o with
  | lock mutex =>
    cases mutex with
    | executor => cases habout
    | command c' =>
      obtain rfl := Option.some.inj habout
      have hfree : (w.state.owner (.command c')).isNone = true := hen
      rw [howner] at hfree
      cases hfree
  | unlock mutex => exact hother hown
  | isFinished c' => exact hother (by rw [show v.phase = .inside from hown]; decide)
  | setFinished c' => exact hother (by rw [show v.phase = .unfinished from hown.1]; decide)
  | finish => exact hother (by rw [show v.phase = .settled from hown]; decide)
  | setResult => exact hother (by rw [show v.phase = .settled from hown]; decide)
  | sendData => exact hother (by rw [show v.phase = .unfinished from hown]; decide)
  | _ => cases habout

/-- An operation that is not about the command reports nothing of it. -/
theorem outcome_of_not_about (tid : Nat) (r : ExecutorRes o) (ho : outcomeAbout o ≠ some c) :
    outcome c (.op tid o r) = false ∧ sends c (.op tid o r) = false := by
  cases o with
  | finish c' => exact ⟨by simpa [outcome, outcomeAbout] using ho, rfl⟩
  | setResult c' => exact ⟨by simpa [outcome, outcomeAbout] using ho, rfl⟩
  | sendData c' => exact ⟨rfl, by simpa [sends, outcomeAbout] using ho⟩
  | _ => exact ⟨rfl, rfl⟩

/-- What an operation that is not about the command leaves as it is. -/
theorem neutral_state (tid : Nat) (env : ExecutorEnv) (s : ExecutorState)
    (ho : outcomeAbout o ≠ some c) :
    (executorHandle tid env s o).2.finished c = s.finished c ∧
      (executorHandle tid env s o).2.owner (.command c) = s.owner (.command c) := by
  refine ⟨executorHandle_finished ?_, executorHandle_owner_command ?_ ?_⟩
  all_goals
    rintro rfl
    exact ho rfl

theorem PhaseLink.neutral {phase : OutcomePhase} (h : PhaseLink c w t phase)
    (ho : outcomeAbout o ≠ some c) : PhaseLink c (commandCalls.perform w tid o env) t phase := by
  obtain ⟨hfinished, howner⟩ := neutral_state tid env w.state ho
  refine ⟨fun hphase => howner.trans (h.owner hphase),
    fun hphase => hfinished.trans (h.unfinished hphase), fun hphase => ?_⟩
  obtain ⟨hset, hnone⟩ := h.settled hphase
  refine ⟨hfinished.trans hset, ?_⟩
  rw [Machine.perform, World.push_trace, List.any_append, hnone, Bool.false_or]
  simpa using (outcome_of_not_about tid _ ho).1

theorem PhaseLink.outside : PhaseLink c w t .outside :=
  ⟨fun h => absurd rfl h, fun h => (by cases h), fun h => (by cases h)⟩

/-- Of these phases nothing is known but that the mutex is held. -/
theorem PhaseLink.of_owner {phase : OutcomePhase} (howner : w.state.owner (.command c) = some t)
    (hunfinished : phase ≠ .unfinished) (hsettled : phase ≠ .settled) : PhaseLink c w t phase :=
  ⟨fun _ => howner, fun h => absurd h hunfinished, fun h => absurd h hsettled⟩

theorem OutcomeLink.other (ht : t ≠ tid) (hu : OutcomeLink c w t u) (hv : OutcomeLink c w tid v)
    (hmay : v.may c o) (hen : commandCalls.enabled tid o env w.state = true) :
    OutcomeLink c (commandCalls.perform w tid o env) t u := by
  refine ⟨fun hmade hnone => hu.made hmade (executorHandle_command.mp hnone), ?_⟩
  -- outside the mutex a thread knows nothing that could become false
  by_cases hphase : u.phase = .outside
  · rw [hphase]
    exact .outside
  · exact hu.phase.neutral (hu.exclusive ht hv hmay hen hphase)

theorem OutcomeInv.of_unfinished (hinv : OutcomeInv c w) (h : w.state.finished c = false) :
    w.trace.any (outcome c) = false := by
  cases hany : w.trace.any (outcome c) with
  | false => rfl
  | true => simp [hinv.finished hany] at h

/-- What a thread may do comes before every outcome. -/
theorem OutcomeLink.none_before (hinv : OutcomeInv c w) (hv : OutcomeLink c w tid v)
    (hmay : v.may c o) {r : ExecutorRes o}
    (h : (outcome c (.op tid o r) || sends c (.op tid o r)) = true) :
    w.trace.any (outcome c) = false := by
  have habout : outcomeAbout o = some c := by
    by_contra ho
    obtain ⟨hreports, hsends⟩ := outcome_of_not_about tid r ho
    simp [hreports, hsends] at h
  have hown := hmay.1 habout
  cases o with
  | finish => exact (hv.phase.settled hown).2
  | setResult => exact (hv.phase.settled hown).2
  | sendData => exact hinv.of_unfinished (hv.phase.unfinished hown)
  | _ => cases h

theorem finished_of_outcome (hv : OutcomeLink c w tid v) (hmay : v.may c o) {r : ExecutorRes o}
    (h : outcome c (.op tid o r) = true) : w.state.finished c = true := by
  have habout : outcomeAbout o = some c := by
    by_contra ho
    simp [(outcome_of_not_about tid r ho).1] at h
  have hown := hmay.1 habout
  cases o with
  | finish => exact (hv.phase.settled hown).1
  | setResult => exact (hv.phase.settled hown).1
  | _ => cases h

/-- The flag is never taken back. -/
theorem executorHandle_finished_of_finished (h : s.finished c = true) :
    (executorHandle tid env s o).2.finished c = true := by
  by_cases hset : o = .setFinished c
  · subst hset
    refine setFinished_finished fun hnone => ?_
    simp [ExecutorState.finished, hnone] at h
  · rw [executorHandle_finished hset, h]

theorem outcomeInv_perform (hinv : OutcomeInv c w) (hv : OutcomeLink c w tid v)
    (hmay : v.may c o) : OutcomeInv c (commandCalls.perform w tid o env) where
  made hmem hnone := by
    have hbefore : w.state.command c = none := executorHandle_command.mp hnone
    -- only a command that has been made gets into the set
    by_cases hinsert : o = .insertCommand c
    · exact hv.made (hmay.2 hinsert) hbefore
    · exact hinv.made (mem_of_executorHandle hmem hinsert) hbefore
  finished hany := by
    rw [Machine.perform, World.push_trace, List.any_append, Bool.or_eq_true] at hany
    rw [Machine.perform, World.push_state]
    refine executorHandle_finished_of_finished ?_
    rcases hany with hany | hone
    · exact hinv.finished hany
    · exact finished_of_outcome hv hmay (by simpa using hone)
  once := by
    rw [Machine.perform, World.each_push]
    exact ⟨hinv.once, hv.none_before hinv hmay⟩

/-- An operation that is about the command, by a thread that may perform it. -/
theorem OutcomeLink.phase_about (hinv : OutcomeInv c w) (hv : OutcomeLink c w tid v)
    (ho : outcomeAbout o = some c) (hown : v.mayOwn o) :
    PhaseLink c (commandCalls.perform w tid o env) tid
      (v.phase.step o (commandCalls.answer w tid o env)) := by
  cases o with
  | lock mutex =>
    cases mutex with
    | executor => cases ho
    | command c' =>
      cases ho
      show PhaseLink c _ tid .inside
      exact .of_owner (Function.update_self ..) (by decide) (by decide)
  | unlock mutex => exact .outside
  | isFinished c' =>
    cases ho
    have hphase : v.phase = .inside := hown
    have howner := hv.phase.owner (by rw [hphase]; decide)
    show PhaseLink c _ tid (if w.state.finished c then v.phase else .unfinished)
    -- what is read stays true while the mutex is owned
    cases hfinished : w.state.finished c with
    | false => exact ⟨fun _ => howner, fun _ => hfinished, fun h => by cases h⟩
    | true =>
      rw [if_pos rfl, hphase]
      exact .of_owner howner (by decide) (by decide)
  | setFinished c' =>
    cases ho
    obtain ⟨hphase, hmade⟩ := hown
    have howner := hv.phase.owner (by rw [hphase]; decide)
    -- the flag was unset until now, so that there is no outcome yet
    refine ⟨fun _ => howner, fun h => (by cases h),
      fun _ => ⟨setFinished_finished (hv.made hmade), ?_⟩⟩
    rw [Machine.perform, World.push_trace, List.any_append,
      hinv.of_unfinished (hv.phase.unfinished hphase)]
    rfl
  | finish =>
    have hphase : v.phase = .settled := hown
    show PhaseLink c _ tid .concluded
    exact .of_owner (hv.phase.owner (by rw [hphase]; decide)) (by decide) (by decide)
  | setResult =>
    have hphase : v.phase = .settled := hown
    show PhaseLink c _ tid .concluded
    exact .of_owner (hv.phase.owner (by rw [hphase]; decide)) (by decide) (by decide)
  | sendData =>
    have hphase : v.phase = .unfinished := hown
    show PhaseLink c _ tid v.phase
    rw [hphase]
    have howner := hv.phase.owner (by rw [hphase]; decide)
    exact ⟨fun _ => howner, fun _ => hv.phase.unfinished hphase, fun h => by cases h⟩
  | _ => cases ho

theorem OutcomeLink.own (hinv : OutcomeInv c w) (hv : OutcomeLink c w tid v) (hmay : v.may c o) :
    OutcomeLink c (commandCalls.perform w tid o env) tid
      (v.step c o (commandCalls.answer w tid o env)) := by
  have hphase : PhaseLink c (commandCalls.perform w tid o env) tid
      (v.step c o (commandCalls.answer w tid o env)).phase := by
    show PhaseLink c _ tid (if outcomeAbout o = some c then _ else v.phase)
    split
    · next ho => exact hv.phase_about hinv ho (hmay.1 ho)
    · next ho => exact hv.phase.neutral ho
  refine ⟨fun hmade hnone => ?_, hphase⟩
  have hbefore : w.state.command c = none := executorHandle_command.mp hnone
  cases o with
  -- what is found in the set has been made
  | listCommands =>
    have hcases : (v.made || decide (c ∈ w.state.command2Respond)) = true := hmade
    rw [Bool.or_eq_true, decide_eq_true_eq] at hcases
    rcases hcases with hmade | hmem
    · exact hv.made hmade hbefore
    · exact hinv.made hmem hbefore
  | _ => exact hv.made hmade hbefore

end Sound

/-! ## 5. Programs -/

section Programs

variable {c c' : AsyncCommand} {v : OutcomeView} {α β : Type}

/-- An operation that changes nothing of what a thread knows. -/
def OutcomeFree (c : AsyncCommand) (o : ExecutorOp) : Prop :=
  outcomeAbout o ≠ some c ∧ o ≠ .insertCommand c ∧ o ≠ .listCommands

theorem OutcomeFree.step {o : ExecutorOp} (ho : OutcomeFree c o) (r : ExecutorRes o) :
    v.step c o r = v := by
  obtain ⟨habout, -, hlist⟩ := ho
  unfold OutcomeView.step
  rw [if_neg habout]
  cases o with
  | listCommands => exact absurd rfl hlist
  | _ => rfl

theorem outcome_free {p : ExecutorProg α} (hp : p.All (OutcomeFree c)) :
    (outcomeTypestate c).Follows (fun _ v' => v' = v) v p := by
  refine Typestate.follows_of_all trivial (hp.mono fun o ho => ⟨⟨fun h => absurd h ho.1,
    fun h => absurd h ho.2.1⟩, fun r v' hv' => ?_⟩)
  exact (Option.some.inj hv').symm.trans (ho.step r)

theorem outcome_call {Q : α → OutcomeView → Prop} {o : ExecutorOp}
    {k : ExecutorRes o → ExecutorProg α} (hmay : v.may c o)
    (hk : ∀ r, (outcomeTypestate c).Follows Q (v.step c o r) (k r)) :
    (outcomeTypestate c).Follows Q v (.call o k) := by
  refine ⟨hmay, fun r v' hv' => ⟨trivial, ?_⟩⟩
  cases hv'
  exact hk r

theorem outcome_skip {Q : α → OutcomeView → Prop} {o : ExecutorOp}
    {k : ExecutorRes o → ExecutorProg α} (ho : OutcomeFree c o)
    (hk : ∀ r, (outcomeTypestate c).Follows Q v (k r)) :
    (outcomeTypestate c).Follows Q v (.call o k) := by
  refine outcome_call ⟨fun h => absurd h ho.1, fun h => absurd h ho.2.1⟩ fun r => ?_
  rw [ho.step r]
  exact hk r

/-- An operation that is about the command, in a thread that knows of it. -/
theorem outcome_own {Q : α → OutcomeView → Prop} {o : ExecutorOp}
    {k : ExecutorRes o → ExecutorProg α} {phase : OutcomePhase} (ho : outcomeAbout o = some c)
    (hown : (⟨true, phase⟩ : OutcomeView).mayOwn o)
    (hk : ∀ r, (outcomeTypestate c).Follows Q ⟨true, phase.step o r⟩ (k r)) :
    (outcomeTypestate c).Follows Q ⟨true, phase⟩ (.call o k) := by
  refine outcome_call ⟨fun _ => hown, ?_⟩ fun r => ?_
  · rintro rfl
    cases ho
  · have hstep : (⟨true, phase⟩ : OutcomeView).step c o r = ⟨true, phase.step o r⟩ := by
      unfold OutcomeView.step
      rw [if_pos ho]
      cases o with
      | listCommands => cases ho
      | _ => rfl
    rw [hstep]
    exact hk r

theorem outcome_bind {Q : β → OutcomeView → Prop} {p : ExecutorProg α} {f : α → ExecutorProg β}
    (hp : (outcomeTypestate c).Follows (fun _ v' => v' = v) v p)
    (hf : ∀ a, (outcomeTypestate c).Follows Q v (f a)) :
    (outcomeTypestate c).Follows Q v (p >>= f) := by
  refine Typestate.Follows.bind (p := p) trivial hp fun a v' _ hv' => ?_
  subst hv'
  exact hf a

/-! ### Programs that are not about the command -/

/-- An operation that is not about any command. -/
theorem free_of_about {o : ExecutorOp} (h : outcomeAbout o = none)
    (hinsert : ∀ c, o ≠ .insertCommand c) (hlist : o ≠ .listCommands) : OutcomeFree c o :=
  ⟨by simp [h], hinsert c, hlist⟩

theorem endProcess_free : (endProcess c').All (OutcomeFree c) :=
  endProcess_all (free_of_about rfl nofun nofun) (free_of_about rfl nofun nofun)
    (free_of_about rfl nofun nofun) (free_of_about rfl nofun nofun) (free_of_about rfl nofun nofun)

theorem commandExecutorHdi_free : commandExecutorHdi.All (OutcomeFree c) := by
  refine ⟨free_of_about rfl nofun nofun, fun executor => ?_⟩
  cases executor with
  | false => trivial
  | true =>
    refine ⟨free_of_about rfl nofun nofun, fun _ => ?_⟩
    exact ⟨free_of_about rfl nofun nofun, fun _ => trivial⟩

theorem hdiRequest_free (request : HdiRequest) : (hdiRequest c' request).All (OutcomeFree c) :=
  ⟨free_of_about rfl nofun nofun, fun _ => ⟨free_of_about rfl nofun nofun, fun _ => trivial⟩⟩

section Other

variable (hne : c' ≠ c)
include hne

theorem finishSchedule_free (result : ResultCode) (extraInfo : List UInt8) :
    (finishSchedule c' result extraInfo).All (OutcomeFree c) := by
  refine ⟨free_of_about rfl nofun nofun, fun shared => ?_⟩
  cases shared with
  | false => trivial
  | true =>
    refine ⟨free_of_about rfl nofun nofun, fun messenger => ?_⟩
    cases messenger with
    | false => trivial
    | true =>
      refine ⟨⟨by simpa [outcomeAbout] using hne, nofun, nofun⟩, fun _ => ?_⟩
      exact ⟨free_of_about rfl nofun nofun, fun _ => trivial⟩

theorem onResultInner_free (result : ResultCode) (extraInfo : List UInt8) :
    (onResultInner c' result extraInfo).All (OutcomeFree c) := by
  unfold onResultInner
  cases c'.type with
  | custom => exact ⟨⟨by simpa [outcomeAbout] using hne, nofun, nofun⟩, fun _ => trivial⟩
  | _ => exact finishSchedule_free hne result extraInfo

theorem onResult_free (result : ResultCode) (extraInfo : List UInt8) :
    (onResult c' result extraInfo).All (OutcomeFree c) := by
  have hunlock : OutcomeFree c (.unlock (.command c')) :=
    ⟨by simpa [outcomeAbout] using hne, nofun, nofun⟩
  refine ⟨⟨by simpa [outcomeAbout] using hne, nofun, nofun⟩, fun _ => ?_⟩
  refine ⟨⟨by simpa [outcomeAbout] using hne, nofun, nofun⟩, fun finished => ?_⟩
  cases finished with
  | true => exact ⟨hunlock, fun _ => trivial⟩
  | false =>
    refine ⟨⟨by simpa [outcomeAbout] using hne, nofun, nofun⟩, fun _ => ?_⟩
    refine (onResultInner_free hne result extraInfo).bind fun _ => ?_
    exact endProcess_free.bind fun _ => ⟨hunlock, fun _ => trivial⟩

theorem sendAcquireInfo_free (extraInfo : List UInt8) :
    (sendAcquireInfo c' extraInfo).All (OutcomeFree c) := by
  refine ⟨free_of_about rfl nofun nofun, fun msg => ?_⟩
  cases msg with
  | false => trivial
  | true =>
    refine ⟨free_of_about rfl nofun nofun, fun transNum => ?_⟩
    refine ⟨free_of_about rfl nofun nofun, fun messenger => ?_⟩
    cases messenger with
    | false => exact ⟨free_of_about rfl nofun nofun, fun _ => trivial⟩
    | true =>
      refine ⟨⟨by simpa [outcomeAbout] using hne, nofun, nofun⟩, fun _ => ?_⟩
      exact ⟨free_of_about rfl nofun nofun, fun _ => trivial⟩

theorem onAcquireInfo_free (extraInfo : List UInt8) :
    (onAcquireInfo c' extraInfo).All (OutcomeFree c) := by
  have hunlock : OutcomeFree c (.unlock (.command c')) :=
    ⟨by simpa [outcomeAbout] using hne, nofun, nofun⟩
  refine ⟨⟨by simpa [outcomeAbout] using hne, nofun, nofun⟩, fun _ => ?_⟩
  refine ⟨⟨by simpa [outcomeAbout] using hne, nofun, nofun⟩, fun finished => ?_⟩
  cases finished with
  | true => exact ⟨hunlock, fun _ => trivial⟩
  | false =>
    have hinner : (onAcquireInfoInner c' extraInfo).All (OutcomeFree c) := by
      unfold onAcquireInfoInner
      cases c'.type with
      | custom => trivial
      | _ => exact sendAcquireInfo_free hne extraInfo
    exact hinner.bind fun _ => ⟨hunlock, fun _ => trivial⟩

end Other

/-! ### Programs that are -/

/-- What a thread knows of a command when it is not at work on it. -/
def Knows (c c' : AsyncCommand) (v : OutcomeView) : Prop :=
  v.phase = .outside ∧ (c' = c → v.made = true)

theorem Knows.eq (h : Knows c c v) : v = ⟨true, .outside⟩ := by
  obtain ⟨made, phase⟩ := v
  obtain ⟨rfl, hmade⟩ := h
  obtain rfl := hmade rfl
  rfl

/-- The result of a finish, reported by the thread that has set the flag. -/
theorem onResultInner_outcome (result : ResultCode) (extraInfo : List UInt8) :
    (outcomeTypestate c).Follows (fun _ v' => ∃ phase, phase ≠ .outside ∧ v' = ⟨true, phase⟩)
      ⟨true, .settled⟩ (onResultInner c result extraInfo) := by
  have hsettled : ∃ phase, phase ≠ OutcomePhase.outside ∧
      (⟨true, .settled⟩ : OutcomeView) = ⟨true, phase⟩ := ⟨.settled, nofun, rfl⟩
  have hschedule : (outcomeTypestate c).Follows
      (fun _ v' => ∃ phase, phase ≠ .outside ∧ v' = ⟨true, phase⟩) ⟨true, .settled⟩
      (finishSchedule c result extraInfo) := by
    refine outcome_skip (free_of_about rfl nofun nofun) fun shared => ?_
    cases shared with
    | false => exact hsettled
    | true =>
      refine outcome_skip (free_of_about rfl nofun nofun) fun messenger => ?_
      cases messenger with
      | false => exact hsettled
      | true =>
        refine outcome_own rfl rfl fun _ => ?_
        exact outcome_skip (free_of_about rfl nofun nofun) fun _ => ⟨.concluded, nofun, rfl⟩
  unfold onResultInner
  cases c.type with
  | custom => exact outcome_own rfl rfl fun _ => ⟨.concluded, nofun, rfl⟩
  | _ => exact hschedule

theorem onResult_outcome (h : Knows c c' v) (result : ResultCode) (extraInfo : List UInt8) :
    (outcomeTypestate c).Follows (fun _ v' => v' = v) v (onResult c' result extraInfo) := by
  -- a result of another command is no outcome of this one
  by_cases hc : c' = c
  · subst hc
    rw [h.eq]
    refine outcome_own rfl trivial fun _ => outcome_own rfl rfl fun finished => ?_
    cases finished with
    | true => exact outcome_own rfl nofun fun _ => rfl
    | false =>
      refine outcome_own rfl ⟨rfl, rfl⟩ fun _ => ?_
      refine Typestate.Follows.bind (p := onResultInner c' result extraInfo) trivial
        (onResultInner_outcome result extraInfo) ?_
      rintro _ _ - ⟨phase, hphase, rfl⟩
      refine outcome_bind (outcome_free endProcess_free) fun _ => ?_
      exact outcome_own rfl hphase fun _ => rfl
  · exact outcome_free (onResult_free hc result extraInfo)

theorem onAcquireInfo_outcome (h : Knows c c' v) (extraInfo : List UInt8) :
    (outcomeTypestate c).Follows (fun _ v' => v' = v) v (onAcquireInfo c' extraInfo) := by
  by_cases hc : c' = c
  · subst hc
    rw [h.eq]
    refine outcome_own rfl trivial fun _ => outcome_own rfl rfl fun finished => ?_
    cases finished with
    | true => exact outcome_own rfl nofun fun _ => rfl
    | false =>
      have hsend : (outcomeTypestate c').Follows (fun _ v' => v' = ⟨true, .unfinished⟩)
          ⟨true, .unfinished⟩ (sendAcquireInfo c' extraInfo) := by
        refine outcome_skip (free_of_about rfl nofun nofun) fun msg => ?_
        cases msg with
        | false => rfl
        | true =>
          refine outcome_skip (free_of_about rfl nofun nofun) fun transNum => ?_
          refine outcome_skip (free_of_about rfl nofun nofun) fun messenger => ?_
          cases messenger with
          | false => exact outcome_skip (free_of_about rfl nofun nofun) fun _ => rfl
          | true =>
            refine outcome_own rfl rfl fun _ => ?_
            exact outcome_skip (free_of_about rfl nofun nofun) fun _ => rfl
      have hinner : (outcomeTypestate c').Follows (fun _ v' => v' = ⟨true, .unfinished⟩)
          ⟨true, .unfinished⟩ (onAcquireInfoInner c' extraInfo) := by
        unfold onAcquireInfoInner
        cases c'.type with
        | custom => rfl
        | _ => exact hsend
      exact outcome_bind (p := onAcquireInfoInner c' extraInfo) hinner fun _ =>
        outcome_own rfl nofun fun _ => rfl
  · exact outcome_free (onAcquireInfo_free hc extraInfo)

/-- The loop of a disconnect over commands that it has found. -/
theorem respondEach_outcome (commands : List AsyncCommand) (hphase : v.phase = .outside)
    (hmade : c ∈ commands → v.made = true) :
    (outcomeTypestate c).Follows (fun _ v' => v' = v) v (respondEach commands) := by
  induction commands with
  | nil => rfl
  | cons c' commands ih =>
    refine outcome_bind (onResult_outcome ⟨hphase, fun hc => hmade ?_⟩ _ _) fun _ => ?_
    · rw [hc]
      exact List.mem_cons_self
    · exact ih fun hmem => hmade (List.mem_cons_of_mem _ hmem)

theorem respondCallbackOnDisconnect_outcome (hphase : v.phase = .outside) :
    (outcomeTypestate c).Follows (fun _ _ => True) v respondCallbackOnDisconnect := by
  refine outcome_skip (free_of_about rfl nofun nofun) fun _ => ?_
  refine outcome_call ⟨nofun, nofun⟩ fun commands => ?_
  have hlisted : (v.step c .listCommands commands).phase = .outside := hphase
  have hmade (hmem : c ∈ commands) : (v.step c .listCommands commands).made = true := by
    show (v.made || decide (c ∈ commands)) = true
    rw [decide_eq_true hmem, Bool.or_true]
  refine outcome_bind (p := respondEach commands) (respondEach_outcome commands hlisted hmade)
    fun _ => ?_
  refine outcome_skip (free_of_about rfl nofun nofun) fun _ => ?_
  exact outcome_skip (free_of_about rfl nofun nofun) fun _ => trivial

theorem driverOnHdiDisconnect_outcome (hphase : v.phase = .outside) :
    (outcomeTypestate c).Follows (fun _ _ => True) v driverOnHdiDisconnect := by
  refine outcome_skip (free_of_about rfl nofun nofun) fun executor => ?_
  cases executor with
  | false => trivial
  | true =>
    have hdisconnect : (outcomeTypestate c).Follows (fun _ _ => True) v onHdiDisconnect :=
      outcome_skip (free_of_about rfl nofun nofun) fun _ =>
        respondCallbackOnDisconnect_outcome hphase
    refine Typestate.Follows.bind (p := onHdiDisconnect) trivial hdisconnect fun _ _ _ _ => ?_
    exact outcome_skip (free_of_about rfl nofun nofun) fun _ => trivial

theorem customSendRequest_outcome (h : Knows c c' v) (attributes : AuthAttributes) :
    (outcomeTypestate c).Follows (fun _ v' => v' = v) v (customSendRequest c' attributes) := by
  refine outcome_skip (free_of_about rfl nofun nofun) fun _ => ?_
  show (outcomeTypestate c).Follows _ v (if _ then _ else _)
  split
  · rfl
  · refine outcome_bind (p := hdiRequest c' _) (outcome_free (hdiRequest_free _)) fun ret => ?_
    split
    · exact outcome_bind (onResult_outcome h ret []) fun _ => rfl
    · rfl

theorem sendRequest_outcome (h : Knows c c' v) (attributes : Option AuthAttributes) :
    (outcomeTypestate c).Follows (fun _ v' => v' = v) v (sendRequest c' attributes) := by
  cases attributes with
  | none => rfl
  | some attributes =>
    refine outcome_bind (p := commandExecutorHdi) (outcome_free commandExecutorHdi_free)
      fun hdi => ?_
    cases hdi with
    | false => rfl
    | true =>
      simp only [Bool.not_true, Bool.false_eq_true, if_false]
      cases c'.type with
      | custom => exact customSendRequest_outcome h attributes
      | _ =>
        refine outcome_skip (free_of_about rfl nofun nofun) fun callerUid => ?_
        exact outcome_free (hdiRequest_free _)

theorem addCommand_outcome (h : Knows c c' v) :
    (outcomeTypestate c).Follows (fun _ v' => v' = v) v (addCommand c') := by
  refine outcome_skip (free_of_about rfl nofun nofun) fun _ => ?_
  refine outcome_call ⟨nofun, fun hinsert => h.2 (ExecutorOp.insertCommand.inj hinsert)⟩ fun _ => ?_
  exact outcome_skip (free_of_about rfl nofun nofun) fun _ => rfl

theorem startProcess_outcome (h : Knows c c' v) (attributes : Option AuthAttributes) :
    (outcomeTypestate c).Follows (fun _ v' => v' = v) v (startProcess c' attributes) := by
  refine outcome_skip (free_of_about rfl nofun nofun) fun executor => ?_
  cases executor with
  | false => rfl
  | true =>
    refine outcome_bind (p := addCommand c') (addCommand_outcome h) fun _ => ?_
    refine outcome_bind (p := sendRequest c' attributes) (sendRequest_outcome h attributes)
      fun ret => ?_
    split
    · refine outcome_bind (p := endProcess c') (outcome_free endProcess_free) fun _ => ?_
      exact outcome_skip (free_of_about rfl nofun nofun) fun _ => rfl
    · exact outcome_skip (free_of_about rfl nofun nofun) fun _ => rfl

theorem processCommand_outcome (h : Knows c c' v) (attributes : Option AuthAttributes) :
    (outcomeTypestate c).Follows (fun _ _ => True) v (processCommand c' attributes) := by
  refine outcome_bind (p := startProcess c' attributes) (startProcess_outcome h attributes)
    fun ret => ?_
  refine outcome_skip (free_of_about rfl nofun nofun) fun _ => ?_
  cases c'.type with
  | custom =>
    dsimp only
    split
    · trivial
    · refine outcome_skip (free_of_about rfl nofun nofun) fun valid => ?_
      cases valid with
      | false => trivial
      | true => exact outcome_skip (free_of_about rfl nofun nofun) fun _ => trivial
  | _ => trivial

end Programs

/-! ## 6. Runs -/

section Run

variable {c : AsyncCommand} {w : CommandWorld} {t tid : Nat} {v : OutcomeView} {call : CommandCall}
  {s : ExecutorState}

/-- What a call that starts leaves alone; a command that it makes is not finished. -/
theorem commandAccept_frame (c : AsyncCommand) (h : commandAccept w.state call = some s) :
    s.owner = w.state.owner ∧ s.command2Respond = w.state.command2Respond ∧
      s.finished c = w.state.finished c ∧ (w.state.command c ≠ none → s.command c ≠ none) := by
  cases call with
  | executor call =>
    obtain ⟨howner, hset, -⟩ := executorAccept_frame h
    refine ⟨howner, hset, ?_⟩
    cases call with
    | start c' attributes executorMessenger =>
      simp only [commandAccept, executorAccept] at h
      split at h
      · cases h
      · next hnone =>
        cases h
        -- a command that is made replaces none, and its flag is unset
        by_cases hc : c = c'
        · subst hc
          refine ⟨?_, fun hmade => absurd hnone hmade⟩
          show (Function.update w.state.command c _ c).any _ = (w.state.command c).any _
          rw [Function.update_self, hnone]
          rfl
        · show (Function.update w.state.command c' _ c).any _ = _ ∧
            (_ → Function.update w.state.command c' _ c ≠ none)
          rw [Function.update_of_ne hc]
          exact ⟨rfl, id⟩
    | onHdiDisconnect | release =>
      cases h
      exact ⟨rfl, id⟩
    | _ =>
      simp only [commandAccept, executorAccept] at h
      split at h <;> cases h
      exact ⟨rfl, id⟩
  | _ =>
    simp only [commandAccept] at h
    split at h <;> cases h
    exact ⟨rfl, rfl, rfl, id⟩

/-- The command that a call is about. -/
def CommandCall.about : CommandCall → Option AsyncCommand
  | .executor (.start c _ _) => some c
  | .executor (.onResult c _ _) => some c
  | .executor (.onAcquireInfo c _ _) => some c
  | .executor _ => none
  | call => call.command

theorem commandAccept_made (h : commandAccept w.state call = some s)
    (habout : call.about = some c) : s.command c ≠ none := by
  cases call with
  | executor call =>
    cases call with
    | start c' attributes executorMessenger =>
      cases habout
      simp only [commandAccept, executorAccept] at h
      split at h
      · cases h
      · cases h
        show Function.update w.state.command c _ c ≠ none
        rw [Function.update_self]
        exact Option.some_ne_none _
    | onResult | onAcquireInfo =>
      cases habout
      simp only [commandAccept, executorAccept] at h
      split at h
      · next hhanded =>
        cases h
        intro hnone
        simp [hnone] at hhanded
      · cases h
    | _ => cases habout
  | _ =>
    cases habout
    simp only [commandAccept, CommandCall.command, Option.bind_some] at h
    obtain ⟨hmade, hs⟩ := Option.ite_none_right_eq_some.mp h
    cases hs
    exact Option.isSome_iff_ne_none.mp hmade

theorem commandBody_outcome (hphase : v.phase = .outside)
    (hmade : ∀ c', call.about = some c' → c' = c → v.made = true) :
    (outcomeTypestate c).Follows (fun _ _ => True) v (commandBody call) := by
  have hknows {c' : AsyncCommand} (habout : call.about = some c') : Knows c c' v :=
    ⟨hphase, hmade c' habout⟩
  cases call with
  | executor call =>
    cases call with
    | start c' attributes executorMessenger =>
      refine Typestate.Follows.bind (p := processCommand c' attributes) trivial
        (processCommand_outcome (hknows rfl) attributes) fun _ _ _ _ => trivial
    | onResult c' result extraInfo =>
      exact (onResult_outcome (hknows rfl) result extraInfo).mono fun _ _ _ => trivial
    | onAcquireInfo c' acquire extraInfo =>
      exact (onAcquireInfo_outcome (hknows rfl) extraInfo).mono fun _ _ _ => trivial
    | onHdiDisconnect => exact driverOnHdiDisconnect_outcome hphase
    | release => trivial
  | onResult c' result extraInfo =>
    exact (onResult_outcome (hknows rfl) result extraInfo).mono fun _ _ _ => trivial
  | onAcquireInfo c' acquire extraInfo =>
    exact (onAcquireInfo_outcome (hknows rfl) extraInfo).mono fun _ _ _ => trivial
  | onHdiDisconnect c' =>
    exact (onResult_outcome (hknows rfl) _ _).mono fun _ _ _ => trivial

theorem outcomeInv_spawn (hinv : OutcomeInv c w) (h : commandAccept w.state call = some s) :
    OutcomeInv c (w.push s (.spawn tid call)) := by
  obtain ⟨-, hset, hfinished, hkept⟩ := commandAccept_frame c h
  constructor
  · intro hmem
    rw [World.push_state, hset] at hmem
    exact hkept (hinv.made hmem)
  · intro hany
    have hbefore : w.trace.any (outcome c) = true := by simpa [outcome] using hany
    exact hfinished.trans (hinv.finished hbefore)
  · rw [World.each_push]
    exact ⟨hinv.once, nofun⟩

theorem OutcomeLink.spawn (hv : OutcomeLink c w t v) (h : commandAccept w.state call = some s) :
    OutcomeLink c (w.push s (.spawn tid call)) t v := by
  obtain ⟨howner, -, hfinished, hkept⟩ := commandAccept_frame c h
  refine ⟨fun hmade => hkept (hv.made hmade), ?_, ?_, ?_⟩
  · intro hphase
    rw [World.push_state, howner]
    exact hv.phase.owner hphase
  · exact fun hphase => hfinished.trans (hv.phase.unfinished hphase)
  · intro hphase
    obtain ⟨hset, hnone⟩ := hv.phase.settled hphase
    refine ⟨hfinished.trans hset, ?_⟩
    rw [World.push_trace, List.any_append, hnone]
    rfl

theorem outcomeTypestate_sound (c : AsyncCommand) :
    (outcomeTypestate c).Sound commandCalls Machine.anyMove (OutcomeInv c) (OutcomeLink c) where
  start {w tid call s} hinv _ _ hs := by
    refine ⟨outcomeInv_spawn hinv hs, ⟨(s.command c).isSome, .outside⟩, ?_, trivial, ?_⟩
    · exact ⟨Option.isSome_iff_ne_none.mp, .outside⟩
    · refine commandBody_outcome rfl ?_
      rintro c' habout rfl
      exact Option.isSome_iff_ne_none.mpr (commandAccept_made hs habout)
  spawn hv _ hs := hv.spawn hs
  own hinv hv _ hmay _ _ := ⟨outcomeInv_perform hinv hv hmay, _, rfl, hv.own hinv hmay⟩
  other ht hu hv _ _ hmay hen := hu.other ht hv hmay hen

end Run

/-- **One outcome.**  However a command is answered, cut off and started, by any number of threads
in any order, it calls `Finish` at most once and sets its promise at most once, never does both, and
sends nothing afterwards. -/
theorem one_outcome (c : AsyncCommand) (cfg : CommandConfig)
    (hc : commandCalls.Reachable Machine.anyMove .initial cfg) :
    cfg.world.trace.countP (outcome c) ≤ 1 ∧
      ∀ pre e post, cfg.world.trace = pre ++ e :: post → outcome c e = true →
        ∀ d ∈ post, sends c d = false := by
  have hinit : OutcomeInv c ⟨.initial, []⟩ :=
    ⟨fun h => absurd h List.not_mem_nil, nofun, fun pre e post h => by simp at h⟩
  have honce := ((outcomeTypestate_sound c).reachable hinit hc).1.once
  constructor
  · refine World.Each.countP_le_one fun pre e post hsplit he => honce pre e post hsplit ?_
    rw [he, Bool.true_or]
  · intro pre e post hsplit he d hd
    obtain ⟨mid, rest, rfl⟩ := List.append_of_mem hd
    -- the outcome is among the events before the message
    cases hsends : sends c d with
    | false => rfl
    | true =>
      have hnone := honce (pre ++ e :: mid) d rest (by simp [hsplit]) (by rw [hsends, Bool.or_true])
      simp [he] at hnone

def racedCommand : AsyncCommand := ⟨1, .auth, 7⟩

/-- The driver answers twice before its call returns. -/
theorem one_outcome_example : ∃ cfg : CommandConfig,
    cfg.world.trace.any (outcome racedCommand) = true ∧
      cfg.world.trace.countP (outcome racedCommand) ≤ 1 := by
  have hrun : ((commandCalls.exec Machine.anyMove ⟨⟨.initial, []⟩, []⟩
      (.spawn (.executor (.start racedCommand (some .new) true)) ::
        List.replicate 9 (.run 0 {}) ++
        .spawn (.executor (.onResult racedCommand .success [])) ::
        .spawn (.onResult racedCommand .fail []) ::
        List.replicate 13 (.run 1 {}) ++ List.replicate 3 (.run 2 {}))).map fun cfg =>
          (cfg.world.trace.any (outcome racedCommand), cfg.threads[2]?.any (·.returned))) =
      some (true, true) := by
    decide +kernel
  obtain ⟨cfg, hc, hboth⟩ := Option.map_eq_some_iff.mp hrun
  exact ⟨cfg, (Prod.mk.inj hboth).1,
    (one_outcome racedCommand cfg (Machine.Reachable.init.exec hc)).1⟩

end UserIam.Executors
