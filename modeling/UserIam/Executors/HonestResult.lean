import UserIam.Executors.FrameworkExecutorCallback

/-!
# What the driver has done and what the service is told

A call of the service becomes one call of the driver.  A custom command reports what the driver has
reported; a deletion, a cancellation and a query of a template report success whatever the driver
returns.
-/

namespace UserIam.Executors

open Conc CoAuth

/-! ## 1. The process of an executor -/

/-- `reply` marks what a call of the service returns. -/
inductive ReplyOp where
  | framework (o : FrameworkOp)
  | reply (ret : ResultCode)

@[reducible] def ReplyRes : ReplyOp → Type
  | .framework o => FrameworkRes o
  | .reply _ => Unit

abbrev ReplyProg := Prog ReplyOp ReplyRes

/-- `made` lists the commands that have been allocated. -/
structure FrameworkState where
  executor : ExecutorState
  made : List Nat

def FrameworkState.initial : FrameworkState := ⟨.initial, []⟩

/-- Besides what an executor's environment decides: which object a command is, whether the callback
has its messenger, and what the driver knows of a template. -/
structure FrameworkEnv where
  executor : ExecutorEnv := {}
  commandId : Nat := 0
  executorMessenger : Bool := true
  templateInfo : TemplateInfo := ⟨0, 0, 0, []⟩

/-- A command that has been allocated; a custom one has no messenger. -/
def FrameworkState.makeCommand (s : FrameworkState) (env : FrameworkEnv) : FrameworkState where
  executor :=
    { s.executor with
      command := fun c =>
        if c.commandId = env.commandId then
          some { executorMessenger := env.executorMessenger && c.type ≠ .custom }
        else s.executor.command c }
  made := env.commandId :: s.made

def frameworkHandle (tid : Nat) (env : FrameworkEnv) (s : FrameworkState) :
    (o : FrameworkOp) → FrameworkRes o × FrameworkState
  | .command o =>
    let (r, executor) := executorHandle tid env.executor s.executor o
    (r, { s with executor })
  | .makeCommand =>
    if env.executor.allocated then (some env.commandId, s.makeCommand env) else (none, s)
  | .cancel _ => (env.executor.resultCode, s)
  | .delete _ => (env.executor.resultCode, s)
  | .getTemplateInfo _ => ((env.executor.resultCode, env.templateInfo), s)

def replyHandle (tid : Nat) (env : FrameworkEnv) (s : FrameworkState) :
    (o : ReplyOp) → ReplyRes o × FrameworkState
  | .framework o => frameworkHandle tid env s o
  | .reply _ => ((), s)

/-- No object is allocated twice. -/
def replyEnabled (env : FrameworkEnv) (s : FrameworkState) : ReplyOp → Bool
  | .framework (.command o) => executorEnabled o s.executor
  | .framework .makeCommand => env.commandId ∉ s.made
  | _ => true

/-- The calls of the service, and what the driver does by itself. -/
inductive FrameworkCall where
  | onBeginExecute (scheduleId : UInt64) (commandAttrs : Option AuthAttributes)
  | onEndExecute (scheduleId : UInt64) (consumerAttr : Option AuthAttributes)
  | onSetProperty (properties : Option AuthAttributes)
  | onGetProperty (conditions values : Option AuthAttributes)
  | onResult (c : AsyncCommand) (result : ResultCode) (extraInfo : List UInt8)
  | onAcquireInfo (c : AsyncCommand) (acquire : Int32) (extraInfo : List UInt8)
  | onHdiDisconnect
  | release

/-- The driver answers the commands that it has got. -/
def frameworkAccept (s : FrameworkState) : FrameworkCall → Option FrameworkState
  | .onResult c _ _ => if (s.executor.command c).any (·.handed) then some s else none
  | .onAcquireInfo c _ _ => if (s.executor.command c).any (·.handed) then some s else none
  | .release => some { s with executor := { s.executor with executorList := false } }
  | _ => some s

def onFramework {α : Type} (p : FrameworkProg α) : ReplyProg α :=
  p.interp fun o => Prog.op (ReplyOp.framework o)

def frameworkBody : FrameworkCall → ReplyProg Unit
  | .onBeginExecute scheduleId commandAttrs =>
    Prog.discard (onFramework (frameworkOnBeginExecute scheduleId commandAttrs))
  | .onEndExecute scheduleId consumerAttr => do
    let ret ← onFramework (frameworkOnEndExecute scheduleId consumerAttr)
    Prog.op (ReplyOp.reply ret)
  | .onSetProperty properties => do
    let ret ← onFramework (frameworkOnSetProperty properties)
    Prog.op (ReplyOp.reply ret)
  | .onGetProperty conditions values => do
    let (ret, _) ← onFramework (frameworkOnGetProperty conditions values)
    Prog.op (ReplyOp.reply ret)
  | .onResult c result extraInfo => onFramework (onCommands (onResult c result extraInfo))
  | .onAcquireInfo c _ extraInfo => onFramework (onCommands (onAcquireInfo c extraInfo))
  | .onHdiDisconnect => onFramework (onCommands driverOnHdiDisconnect)
  | .release => pure ()

abbrev FrameworkWorld := World ReplyOp ReplyRes FrameworkState FrameworkCall
abbrev FrameworkEvent := Event ReplyOp ReplyRes FrameworkCall
abbrev FrameworkConfig := Config ReplyOp ReplyRes FrameworkState FrameworkCall

def framework : Machine ReplyOp ReplyRes FrameworkEnv FrameworkState FrameworkCall where
  enabled _ o env s := replyEnabled env s o
  handle tid o env s := replyHandle tid env s o
  accept call s := frameworkAccept s call
  body := frameworkBody

/-! ## 2. Honest replies -/

/-- The driver's own functions. -/
def FrameworkOp.direct : (o : FrameworkOp) → FrameworkRes o → Option ResultCode
  | .cancel _, ret => some ret
  | .delete _, ret => some ret
  | .getTemplateInfo _, r => some r.1
  | _, _ => none

/-- The driver has returned a code from one of its own functions to the thread. -/
def Asked (es : List FrameworkEvent) (t : Nat) (code : ResultCode) : Prop :=
  ∃ o r, .op t (.framework o) r ∈ es ∧ o.direct r = some code

/-- The driver has called `OnResult` of the command with a success. -/
def Reported (es : List FrameworkEvent) (c : AsyncCommand) : Prop :=
  ∃ t extraInfo, .spawn t (.onResult c .success extraInfo) ∈ es ∧
    .op t (.framework (.command (.setResult c .success))) () ∈ es

/-- The driver has accepted a command of the thread and has reported a success for it. -/
def Commanded (es : List FrameworkEvent) (t : Nat) : Prop :=
  ∃ c, .op t (.framework (.command (.returnHdi c))) ResultCode.success ∈ es ∧ Reported es c

/-- What a call asks of the driver: one of its own functions, or a custom command. -/
inductive Errand where
  | function (o : FrameworkOp)
  | command

/-- A deletion, a cancellation and a query go to the driver's own functions. -/
def FrameworkCall.errand : FrameworkCall → Option Errand
  | .onEndExecute scheduleId _ => some (.function (.cancel scheduleId))
  | .onSetProperty properties => properties.map fun properties =>
    if (properties.getUint32Value authPropertyMode 0).2 = propermodeDelete then
      .function (.delete [templateOf properties])
    else .command
  | .onGetProperty conditions _ => conditions.map fun conditions =>
    .function (.getTemplateInfo (templateOf conditions))
  | _ => none

/-- The driver has done it for the thread. -/
def Errand.Done (es : List FrameworkEvent) (t : Nat) : Errand → Prop
  | .function o => ∃ r, .op t (.framework o) r ∈ es ∧ o.direct r = some .success
  | .command => Commanded es t

/-- A success is replied only if the driver has done what the call asks of it. -/
def Honest (es : List FrameworkEvent) (t : Nat) (ret : ResultCode) : Prop :=
  ret = .success →
    ∃ call errand, .spawn t call ∈ es ∧ call.errand = some errand ∧ errand.Done es t

/-! ## 3. What a thread does -/

inductive HonestMark where
  | asked (code : ResultCode)
  | sent (c : AsyncCommand) (code : ResultCode)
  | waited (c : AsyncCommand) (code : ResultCode)
  | reply (ret : ResultCode)
  deriving DecidableEq

section Marks

variable {Call : Type}

def commandMark : Event ExecutorOp ExecutorRes Call → Option HonestMark
  | .op _ (.returnHdi c) code => some (.sent c code)
  | .op _ (.waitResult c) code => some (.waited c code)
  | _ => none

def frameworkMark : Event FrameworkOp FrameworkRes Call → Option HonestMark
  | .op t (.command o) r => commandMark (.op t o r : Event ExecutorOp ExecutorRes Call)
  | .op _ o r => (o.direct r).map .asked
  | _ => none

def replyMark : Event ReplyOp ReplyRes Call → Option HonestMark
  | .op t (.framework o) r => frameworkMark (.op t o r : Event FrameworkOp FrameworkRes Call)
  | .op _ (.reply ret) _ => some (.reply ret)
  | _ => none

end Marks

theorem mark_of_direct {Call : Type} {t : Nat} {o : FrameworkOp} {r : FrameworkRes o}
    {code : ResultCode} (h : o.direct r = some code) :
    frameworkMark (.op t o r : Event FrameworkOp FrameworkRes Call) = some (.asked code) := by
  cases o with
  | command | makeCommand => cases h
  | cancel | delete | getTemplateInfo => exact congrArg (Option.map HonestMark.asked) h

/-- What a thread has done when it replies: it has asked the driver for one thing and replies a
success, or it has asked for nothing and replies what its command has led to. -/
def Settled (l : List HonestMark) (ret : ResultCode) : Prop :=
  (∃ code, l = [.asked code] ∧ ret = .success) ∨
    (∀ code, .asked code ∉ l) ∧
      (ret = .success → ∃ c, .sent c .success ∈ l ∧ .waited c .success ∈ l)

def RepliesSettled (l : List HonestMark) : Prop :=
  ∀ l' ret, l = l' ++ [.reply ret] → Settled l' ret

def Silent (l : List HonestMark) : Prop :=
  ∀ ret, .reply ret ∉ l

section Thread

variable {Call : Type} {t : Nat} {l : List HonestMark} {c : AsyncCommand} {α : Type}

/-- The marks of commands. -/
def Plain (l : List HonestMark) : Prop :=
  ∀ mk ∈ l, (∃ c code, mk = .sent c code) ∨ ∃ c code, mk = .waited c code

theorem Silent.settled (hl : Silent l) : RepliesSettled l := by
  rintro l' ret rfl
  exact absurd (List.mem_append_right _ (List.mem_singleton_self _)) (hl ret)

theorem Plain.silent (hl : Plain l) : Silent l := by
  intro ret hmem
  rcases hl _ hmem with ⟨c, code, h⟩ | ⟨c, code, h⟩ <;> cases h

theorem Plain.not_asked (hl : Plain l) (code : ResultCode) : .asked code ∉ l := by
  intro hmem
  rcases hl _ hmem with ⟨c, code', h⟩ | ⟨c, code', h⟩ <;> cases h

theorem Plain.concat (hl : Plain l) {mk : HonestMark}
    (hmk : (∃ c code, mk = .sent c code) ∨ ∃ c code, mk = .waited c code) : Plain (l ++ [mk]) := by
  intro mk' hmem
  rcases List.mem_append.mp hmem with hmem | hmem
  · exact hl mk' hmem
  · rw [List.mem_singleton.mp hmem]
    exact hmk

theorem plain_nil : Plain [] := fun mk hmem => by cases hmem

abbrev AlongCommand (Call : Type) (t : Nat) (p : ExecutorProg α) (Q : α → List HonestMark → Prop)
    (l : List HonestMark) : Prop :=
  Machine.Along (@commandMark Call) t RepliesSettled p Q l

/-- Whatever is done about commands leaves the marks of commands. -/
theorem along_plain (p : ExecutorProg α) (hl : Plain l) :
    AlongCommand Call t p (fun _ => Plain) l := by
  -- every operation leaves a mark of a command or none
  induction p generalizing l with
  | ret a => exact hl
  | call o k ih =>
    intro r
    have hnext : Plain (l ++ (commandMark (.op t o r : Event _ _ Call)).toList) := by
      cases o with
      | returnHdi c => exact hl.concat (.inl ⟨c, r, rfl⟩)
      | waitResult c => exact hl.concat (.inr ⟨c, r, rfl⟩)
      | _ => exact (List.append_nil l).symm ▸ hl
    exact ⟨hnext.silent.settled, ih r hnext⟩

/-- No code of the driver is read. -/
def Unmarked : ExecutorOp → Bool
  | .returnHdi _ => false
  | .waitResult _ => false
  | _ => true

theorem along_unmarked {p : ExecutorProg α} (hl : Plain l) (hp : p.All (Unmarked · = true)) :
    AlongCommand Call t p (fun _ l' => l' = l) l := by
  refine Machine.Along.of_all hl.silent.settled (hp.mono fun o ho r => ?_)
  cases o <;> first | rfl | cases ho

theorem endProcess_unmarked (c : AsyncCommand) : (endProcess c).All (Unmarked · = true) :=
  endProcess_all rfl rfl rfl rfl rfl

theorem onResult_unmarked (hcustom : c.type = .custom) (result : ResultCode)
    (extraInfo : List UInt8) : (onResult c result extraInfo).All (Unmarked · = true) :=
  onResult_custom_all (P := (Unmarked · = true)) hcustom rfl rfl rfl rfl (endProcess_unmarked c) rfl
    extraInfo

/-- A success means that the driver has accepted the command. -/
def Accepted (c : AsyncCommand) (ret : ResultCode) (l : List HonestMark) : Prop :=
  Plain l ∧ (ret = .success → .sent c .success ∈ l)

theorem accepted_failure {ret : ResultCode} (hl : Plain l) (hret : ret ≠ .success) :
    Accepted c ret l :=
  ⟨hl, fun h => absurd h hret⟩

theorem along_customSendRequest (hcustom : c.type = .custom) (attributes : AuthAttributes)
    (hl : Plain l) : AlongCommand Call t (customSendRequest c attributes) (Accepted c) l := by
  unfold customSendRequest
  refine .skip hl.silent.settled (fun _ => rfl) fun _ => ?_
  show AlongCommand Call t (if _ then _ else _) _ _
  split
  · exact accepted_failure hl (by decide)
  · refine .skip hl.silent.settled (fun _ => rfl) fun _ ret => ?_
    have hsent : Plain (l ++ [HonestMark.sent c ret]) := hl.concat (.inl ⟨c, ret, rfl⟩)
    refine ⟨hsent.silent.settled, ?_⟩
    show AlongCommand Call t (if ret ≠ .success then _ else _) _ _
    split
    -- the failure is reported to the one who waits, too
    · next hret =>
      refine (along_unmarked hsent (onResult_unmarked hcustom ret [])).bind fun _ l' hl' => ?_
      subst hl'
      exact accepted_failure hsent hret
    · next hret =>
      obtain rfl : ret = .success := not_not.mp hret
      exact ⟨hsent, fun _ => List.mem_append_right _ (List.mem_singleton_self _)⟩

theorem along_sendRequest (hcustom : c.type = .custom) (attributes : AuthAttributes)
    (hl : Plain l) :
    AlongCommand Call t (sendRequest c (some attributes)) (Accepted c) l := by
  rw [sendRequest_custom hcustom]
  have hhdi : commandExecutorHdi.All (Unmarked · = true) := by
    refine ⟨rfl, fun executor => ?_⟩
    cases executor with
    | false => trivial
    | true => exact ⟨rfl, fun _ => ⟨rfl, fun _ => trivial⟩⟩
  refine (along_unmarked hl hhdi).bind fun hdi l' hl' => ?_
  subst hl'
  cases hdi with
  | false => exact accepted_failure hl (by decide)
  | true => exact along_customSendRequest hcustom attributes hl

theorem along_startProcess (hcustom : c.type = .custom) (attributes : AuthAttributes) :
    AlongCommand Call t (startProcess c (some attributes)) (Accepted c) [] := by
  unfold startProcess
  refine .skip plain_nil.silent.settled (fun _ => rfl) fun executor => ?_
  cases executor with
  | false => exact accepted_failure plain_nil (by decide)
  | true =>
    have hadd : (addCommand c).All (Unmarked · = true) :=
      ⟨rfl, fun _ => ⟨rfl, fun _ => ⟨rfl, fun _ => trivial⟩⟩⟩
    refine (along_unmarked plain_nil hadd).bind fun _ l hl => ?_
    subst hl
    refine (along_sendRequest hcustom attributes plain_nil).bind fun ret l hret => ?_
    show AlongCommand Call t (if ret ≠ .success then _ else _) _ _
    split
    · next hne =>
      refine (along_unmarked hret.1 (endProcess_unmarked c)).bind fun _ l' hl' => ?_
      subst hl'
      exact .skip hret.1.silent.settled (fun _ => rfl) fun _ => hret
    · next hne =>
      refine .skip hret.1.silent.settled (fun _ => rfl) fun _ => ⟨hret.1, fun _ => ?_⟩
      exact hret.2 (not_not.mp hne)

/-- A success means that the command was accepted and that its result is one. -/
theorem along_processCommand (hcustom : c.type = .custom) (attributes : AuthAttributes) :
    AlongCommand Call t (processCommand c (some attributes))
      (fun ret l => Settled l ret ∧ Silent l) [] := by
  have hend {ret : ResultCode} {l : List HonestMark} (hl : Plain l)
      (hret : ret = .success → ∃ c, .sent c .success ∈ l ∧ .waited c .success ∈ l) :
      Settled l ret ∧ Silent l :=
    ⟨.inr ⟨hl.not_asked, hret⟩, hl.silent⟩
  unfold processCommand
  refine (along_startProcess hcustom attributes).bind fun ret l hret => ?_
  refine .skip hret.1.silent.settled (fun _ => rfl) fun _ => ?_
  rw [hcustom]
  show AlongCommand Call t (if ret ≠ .success then _ else _) _ _
  split
  · next hne => exact hend hret.1 fun h => absurd h hne
  · next hne =>
    refine .skip hret.1.silent.settled (fun _ => rfl) fun valid => ?_
    cases valid with
    | false => exact hend hret.1 fun h => absurd h (by decide)
    | true =>
      intro code
      have hwaited : Plain (l ++ [HonestMark.waited c code]) := hret.1.concat (.inr ⟨c, code, rfl⟩)
      refine ⟨hwaited.silent.settled, hend hwaited fun hcode => ⟨c, ?_, ?_⟩⟩
      · exact List.mem_append_left _ (hret.2 (not_not.mp hne))
      · rw [hcode]
        exact List.mem_append_right _ (List.mem_singleton_self _)

/-! ### The driver's own functions -/

abbrev AlongFramework (Call : Type) (t : Nat) (p : FrameworkProg α)
    (Q : α → List HonestMark → Prop) (l : List HonestMark) : Prop :=
  Machine.Along (@frameworkMark Call) t RepliesSettled p Q l

theorem settled_failure {ret : ResultCode} (hret : ret ≠ .success) :
    Settled [] ret ∧ Silent [] :=
  ⟨.inr ⟨fun _ => List.not_mem_nil, fun h => absurd h hret⟩, fun _ => List.not_mem_nil⟩

/-- A function of the driver is called, and its code is not looked at. -/
theorem along_withExecutorHdi {generalError : α} {f : α → ResultCode} {o : FrameworkOp}
    {k : FrameworkRes o → α} (ho : ∀ r, ∃ code, o.direct r = some code)
    (hfailure : f generalError ≠ .success) (hsuccess : ∀ r, f (k r) = .success) :
    AlongFramework Call t (withExecutorHdi generalError (Prog.op o >>= fun r => .ret (k r)))
      (fun a l => Settled l (f a) ∧ Silent l) [] := by
  have hnil : RepliesSettled [] := plain_nil.silent.settled
  unfold withExecutorHdi
  refine .skip hnil (fun _ => rfl) fun executor => ?_
  cases executor with
  | false => exact settled_failure hfailure
  | true =>
    refine .skip hnil (fun _ => rfl) fun hdi => ?_
    cases hdi with
    | false => exact .skip hnil (fun _ => rfl) fun _ => settled_failure hfailure
    | true =>
      -- whatever the driver returns, the reply is a success
      intro r
      obtain ⟨code, hcode⟩ := ho r
      have hsilent : Silent [.asked code] := fun ret hmem => by simp at hmem
      rw [mark_of_direct hcode]
      refine ⟨hsilent.settled, .skip hsilent.settled (fun _ => rfl) fun _ => ?_⟩
      exact ⟨.inl ⟨code, rfl, hsuccess r⟩, hsilent⟩

theorem along_onCommands {p : ExecutorProg α} {Q : α → List HonestMark → Prop}
    (hp : AlongCommand Call t p Q l) : AlongFramework Call t (onCommands p) Q l :=
  Machine.Along.embed (fun _ _ => rfl) hp

theorem along_processNewCommand (scheduleId : UInt64) (properties : AuthAttributes) :
    AlongFramework Call t (processNewCommand .custom scheduleId properties)
      (fun ret l => Settled l ret ∧ Silent l) [] := by
  refine .skip plain_nil.silent.settled (fun _ => rfl) fun commandId => ?_
  cases commandId with
  | none => exact settled_failure (by decide)
  | some commandId => exact along_onCommands (along_processCommand rfl properties)

theorem along_processCancelCommand (scheduleId : UInt64) :
    AlongFramework Call t (processCancelCommand scheduleId)
      (fun ret l => Settled l ret ∧ Silent l) [] :=
  along_withExecutorHdi (o := .cancel scheduleId) (f := id) (fun r => ⟨r, rfl⟩) (by decide)
    fun _ => rfl

theorem along_onEndExecute (scheduleId : UInt64) (consumerAttr : Option AuthAttributes) :
    AlongFramework Call t (frameworkOnEndExecute scheduleId consumerAttr)
      (fun ret l => Settled l ret ∧ Silent l) [] := by
  have hfailure : ResultCode.generalError ≠ .success := by decide
  cases consumerAttr with
  | none => exact settled_failure hfailure
  | some consumerAttr =>
    unfold frameworkOnEndExecute
    dsimp only
    split
    · exact settled_failure hfailure
    · split
      · exact along_processCancelCommand scheduleId
      · split
        · exact along_processCancelCommand scheduleId
        · exact settled_failure hfailure

theorem along_onSetProperty (properties : Option AuthAttributes) :
    AlongFramework Call t (frameworkOnSetProperty properties)
      (fun ret l => Settled l ret ∧ Silent l) [] := by
  have hfailure : ResultCode.generalError ≠ .success := by decide
  cases properties with
  | none => exact settled_failure hfailure
  | some properties =>
    unfold frameworkOnSetProperty
    dsimp only
    split
    · exact settled_failure hfailure
    · split
      · exact along_withExecutorHdi (o := .delete [templateOf properties]) (f := id)
          (fun r => ⟨r, rfl⟩) hfailure fun _ => rfl
      · exact along_processNewCommand 0 properties

theorem along_onGetProperty (conditions values : Option AuthAttributes) :
    AlongFramework Call t (frameworkOnGetProperty conditions values)
      (fun a l => Settled l a.1 ∧ Silent l) [] := by
  have hfailure : ResultCode.generalError ≠ .success := by decide
  cases conditions with
  | none => exact settled_failure hfailure
  | some conditions =>
    unfold frameworkOnGetProperty
    dsimp only
    split
    · exact settled_failure hfailure
    · split
      · exact settled_failure hfailure
      · cases values with
        | none => exact settled_failure hfailure
        | some values =>
          exact along_withExecutorHdi (o := .getTemplateInfo (templateOf conditions))
            (f := Prod.fst) (k := fun r => (.success, some (templateValues values r.2)))
            (fun r => ⟨r.1, rfl⟩) hfailure fun _ => rfl

/-- Whatever is done about commands and replies nothing. -/
theorem along_onBeginExecute (scheduleId : UInt64) (commandAttrs : Option AuthAttributes) :
    AlongFramework Call t (frameworkOnBeginExecute scheduleId commandAttrs)
      (fun _ l => Plain l) [] := by
  have hcommand (type : CommandType) (properties : AuthAttributes) :
      AlongFramework Call t (processNewCommand type scheduleId properties)
        (fun _ l => Plain l) [] := by
    refine .skip plain_nil.silent.settled (fun _ => rfl) fun commandId => ?_
    cases commandId with
    | none => exact plain_nil
    | some commandId => exact along_onCommands (along_plain _ plain_nil)
  cases commandAttrs with
  | none => exact plain_nil
  | some commandAttrs =>
    unfold frameworkOnBeginExecute
    dsimp only
    split
    · exact plain_nil
    · split
      · exact hcommand .enroll commandAttrs
      · split
        · exact hcommand .auth commandAttrs
        · exact plain_nil

/-! ### A call of the service -/

abbrev AlongReply (Call : Type) (t : Nat) (p : ReplyProg α)
    (Q : α → List HonestMark → Prop) (l : List HonestMark) : Prop :=
  Machine.Along (@replyMark Call) t RepliesSettled p Q l

theorem along_onFramework {p : FrameworkProg α} {Q : α → List HonestMark → Prop}
    (hp : AlongFramework Call t p Q l) : AlongReply Call t (onFramework p) Q l :=
  Machine.Along.embed (fun _ _ => rfl) hp

theorem Settled.reply {ret : ResultCode} (h : Settled l ret) :
    RepliesSettled (l ++ [HonestMark.reply ret]) := by
  intro l' ret' hsplit
  obtain ⟨rfl, heq⟩ := List.append_inj' hsplit rfl
  cases heq
  exact h

theorem along_reply {ret : ResultCode} (h : Settled l ret) :
    AlongReply Call t (Prog.op (ReplyOp.reply ret)) (fun _ _ => True) l :=
  fun _ => ⟨h.reply, trivial⟩

/-- **What a thread does**, of whatever call. -/
theorem along_frameworkBody (call : FrameworkCall) :
    AlongReply Call t (frameworkBody call) (fun _ _ => True) [] := by
  have hcommands {p : ExecutorProg Unit} :
      AlongReply Call t (onFramework (onCommands p)) (fun _ _ => True) [] :=
    along_onFramework (along_onCommands ((along_plain p plain_nil).mono fun _ _ _ => trivial))
  cases call with
  | onBeginExecute scheduleId commandAttrs =>
    exact (along_onFramework (along_onBeginExecute scheduleId commandAttrs)).bind
      fun _ _ _ => trivial
  | onEndExecute scheduleId consumerAttr =>
    exact (along_onFramework (along_onEndExecute scheduleId consumerAttr)).bind
      fun _ _ h => along_reply h.1
  | onSetProperty properties =>
    exact (along_onFramework (along_onSetProperty properties)).bind fun _ _ h => along_reply h.1
  | onGetProperty conditions values =>
    exact (along_onFramework (along_onGetProperty conditions values)).bind
      fun _ _ h => along_reply h.1
  | onResult | onAcquireInfo | onHdiDisconnect => exact hcommands
  | release => trivial

end Thread

/-! ## 4. Results of commands -/

/-- `P` holds of the result of every command. -/
def Promises (P : AsyncCommand → ResultCode → Prop) : ExecutorOp → Prop
  | .setResult c ret => P c ret
  | _ => True

section Promises

variable {P : AsyncCommand → ResultCode → Prop} {c : AsyncCommand}

theorem endProcess_promises (c : AsyncCommand) : (endProcess c).All (Promises P) :=
  endProcess_all trivial trivial trivial trivial trivial

theorem finishSchedule_promises (c : AsyncCommand) (result : ResultCode) (extraInfo : List UInt8) :
    (finishSchedule c result extraInfo).All (Promises P) := by
  refine ⟨trivial, fun authAttributes => Prog.all_ite.mpr ⟨fun _ => trivial, fun _ => ?_⟩⟩
  refine Prog.All.bind ⟨trivial, fun messenger => ?_⟩ fun _ => trivial
  refine Prog.all_ite.mpr ⟨fun _ => trivial, fun _ => ?_⟩
  exact ⟨trivial, fun _ => ⟨trivial, fun _ => trivial⟩⟩

theorem onResult_promises {result : ResultCode} (hP : P c result) (extraInfo : List UInt8) :
    (onResult c result extraInfo).All (Promises P) := by
  have hinner : (onResultInner c result extraInfo).All (Promises P) := by
    unfold onResultInner
    cases c.type with
    | custom => exact ⟨hP, fun _ => trivial⟩
    | _ => exact finishSchedule_promises c result extraInfo
  refine ⟨trivial, fun _ => ⟨trivial, fun finished => ?_⟩⟩
  refine Prog.all_ite.mpr ⟨fun _ => ⟨trivial, fun _ => trivial⟩, fun _ => ⟨trivial, fun _ => ?_⟩⟩
  exact hinner.bind fun _ => (endProcess_promises c).bind fun _ => ⟨trivial, fun _ => trivial⟩

theorem onAcquireInfo_promises (c : AsyncCommand) (extraInfo : List UInt8) :
    (onAcquireInfo c extraInfo).All (Promises P) := by
  have hsend : (sendAcquireInfo c extraInfo).All (Promises P) := by
    have hmessenger (transNum : UInt64) :
        (messengerSendData c transNum extraInfo).All (Promises P) := by
      refine ⟨trivial, fun messenger => Prog.all_ite.mpr ⟨fun _ => trivial, fun _ => ?_⟩⟩
      exact ⟨trivial, fun _ => trivial⟩
    refine ⟨trivial, fun msg => Prog.all_ite.mpr ⟨fun _ => trivial, fun _ => ?_⟩⟩
    refine ⟨trivial, fun _ => ?_⟩
    exact (hmessenger _).bind fun _ => ⟨trivial, fun _ => trivial⟩
  refine ⟨trivial, fun _ => ⟨trivial, fun finished => ?_⟩⟩
  refine Prog.all_ite.mpr ⟨fun _ => ⟨trivial, fun _ => trivial⟩, fun _ => ?_⟩
  refine Prog.All.bind ?_ fun _ => ⟨trivial, fun _ => trivial⟩
  unfold onAcquireInfoInner
  cases c.type with
  | custom => trivial
  | _ => exact hsend

theorem driverOnHdiDisconnect_promises (hP : ∀ c, P c .generalError) :
    driverOnHdiDisconnect.All (Promises P) := by
  have heach (commands : List AsyncCommand) : (respondEach commands).All (Promises P) := by
    induction commands with
    | nil => trivial
    | cons c commands ih => exact (onResult_promises (hP c) []).bind fun _ => ih
  refine ⟨trivial, fun executor => Prog.all_ite.mpr ⟨fun _ => trivial, fun _ => ?_⟩⟩
  refine Prog.All.bind ⟨trivial, fun _ => ⟨trivial, fun _ => ⟨trivial, fun commands => ?_⟩⟩⟩
    fun _ => ⟨trivial, fun _ => trivial⟩
  exact (heach commands).bind fun _ => ⟨trivial, fun _ => ⟨trivial, fun _ => trivial⟩⟩

/-- A command that is started sets its own result only to the code of a driver that refuses it. -/
theorem processCommand_promises (c : AsyncCommand) (attributes : Option AuthAttributes) :
    (processCommand c attributes).All (Promises fun _ ret => ret ≠ .success) := by
  have hrequest (request : HdiRequest) :
      (hdiRequest c request).All (Promises fun _ ret => ret ≠ .success) :=
    ⟨trivial, fun _ => ⟨trivial, fun _ => trivial⟩⟩
  -- the result is set where the driver has refused the command, to the code of the refusal
  have hcustom (attributes : AuthAttributes) :
      (customSendRequest c attributes).All (Promises fun _ ret => ret ≠ .success) := by
    refine ⟨trivial, fun _ => Prog.all_ite.mpr ⟨fun _ => trivial, fun _ => ?_⟩⟩
    refine (hrequest _).bind fun ret => Prog.all_ite.mpr ⟨fun hret => ?_, fun _ => trivial⟩
    exact (onResult_promises hret []).bind fun _ => trivial
  have hsend : (sendRequest c attributes).All (Promises fun _ ret => ret ≠ .success) := by
    unfold sendRequest
    split
    · trivial
    · refine Prog.All.bind ⟨trivial, fun executor => ?_⟩ fun hdi => ?_
      · exact Prog.all_ite.mpr
          ⟨fun _ => trivial, fun _ => ⟨trivial, fun _ => ⟨trivial, fun _ => trivial⟩⟩⟩
      · refine Prog.all_ite.mpr ⟨fun _ => trivial, fun _ => ?_⟩
        cases c.type with
        | custom => exact hcustom _
        | _ => exact ⟨trivial, fun _ => hrequest _⟩
  have hstart : (startProcess c attributes).All (Promises fun _ ret => ret ≠ .success) := by
    refine ⟨trivial, fun executor => Prog.all_ite.mpr ⟨fun _ => trivial, fun _ => ?_⟩⟩
    refine Prog.All.bind ⟨trivial, fun _ => ⟨trivial, fun _ => ⟨trivial, fun _ => trivial⟩⟩⟩
      fun _ => hsend.bind fun ret => Prog.all_ite.mpr ⟨fun _ => ?_, fun _ => ?_⟩
    · exact (endProcess_promises c).bind fun _ => ⟨trivial, fun _ => trivial⟩
    · exact ⟨trivial, fun _ => trivial⟩
  refine hstart.bind fun ret => ⟨trivial, fun _ => ?_⟩
  cases c.type with
  | custom =>
    refine Prog.all_ite.mpr ⟨fun _ => trivial, fun _ => ⟨trivial, fun valid => ?_⟩⟩
    exact Prog.all_ite.mpr ⟨fun _ => trivial, fun _ => ⟨trivial, fun _ => trivial⟩⟩
  | _ => trivial

/-! ### In the process of an executor -/

def FrameworkPromises (P : AsyncCommand → ResultCode → Prop) : FrameworkOp → Prop
  | .command o => Promises P o
  | _ => True

def ReplyPromises (P : AsyncCommand → ResultCode → Prop) : ReplyOp → Prop
  | .framework o => FrameworkPromises P o
  | .reply _ => True

section Framework

variable {α : Type}

theorem onFramework_promises {p : FrameworkProg α} (hp : p.All (FrameworkPromises P)) :
    (onFramework p).All (ReplyPromises P) :=
  Prog.All.interp _ hp fun _ ho => ⟨ho, fun _ => trivial⟩

theorem onCommands_promises {p : ExecutorProg α} (hp : p.All (Promises P)) :
    (onCommands p).All (FrameworkPromises P) :=
  Prog.All.interp _ hp fun _ ho => ⟨ho, fun _ => trivial⟩

theorem withExecutorHdi_promises {generalError : α} {p : FrameworkProg α}
    (hp : p.All (FrameworkPromises P)) :
    (withExecutorHdi generalError p).All (FrameworkPromises P) := by
  refine ⟨trivial, fun executor => Prog.all_ite.mpr ⟨fun _ => trivial, fun _ => ?_⟩⟩
  refine ⟨trivial, fun hdi => Prog.all_ite.mpr ⟨fun _ => ⟨trivial, fun _ => trivial⟩, fun _ => ?_⟩⟩
  exact hp.bind fun _ => ⟨trivial, fun _ => trivial⟩

theorem processNewCommand_promises (hP : ∀ c ret, ret ≠ .success → P c ret) (type : CommandType)
    (scheduleId : UInt64) (properties : AuthAttributes) :
    (processNewCommand type scheduleId properties).All (FrameworkPromises P) := by
  refine ⟨trivial, fun commandId => ?_⟩
  cases commandId with
  | none => trivial
  | some commandId =>
    refine onCommands_promises ((processCommand_promises _ _).mono fun o ho => ?_)
    cases o with
    | setResult c ret => exact hP c ret ho
    | _ => trivial

theorem processCancelCommand_promises (scheduleId : UInt64) :
    (processCancelCommand scheduleId).All (FrameworkPromises P) :=
  withExecutorHdi_promises ⟨trivial, fun _ => trivial⟩

end Framework

/-- The only result of a command that is a success is the one that the driver reports. -/
def ReportedBy (call : FrameworkCall) (c : AsyncCommand) (ret : ResultCode) : Prop :=
  ret = .success → ∃ extraInfo, call = .onResult c .success extraInfo

theorem reportedBy_failure (call : FrameworkCall) (c : AsyncCommand) (ret : ResultCode)
    (hret : ret ≠ .success) : ReportedBy call c ret :=
  fun h => absurd h hret

theorem frameworkBody_promises (call : FrameworkCall) :
    (frameworkBody call).All (ReplyPromises (ReportedBy call)) := by
  have hnew := processNewCommand_promises (reportedBy_failure call)
  have hreply (ret : ResultCode) :
      (Prog.op (ReplyOp.reply ret) : ReplyProg Unit).All (ReplyPromises (ReportedBy call)) :=
    ⟨trivial, fun _ => trivial⟩
  cases call with
  | onBeginExecute scheduleId commandAttrs =>
    refine (onFramework_promises ?_).discard
    cases commandAttrs with
    | none => trivial
    | some commandAttrs =>
      exact Prog.all_ite.mpr ⟨fun _ => trivial, fun _ => Prog.all_ite.mpr ⟨fun _ => hnew _ _ _,
        fun _ => Prog.all_ite.mpr ⟨fun _ => hnew _ _ _, fun _ => trivial⟩⟩⟩
  | onEndExecute scheduleId consumerAttr =>
    refine (onFramework_promises ?_).bind fun ret => hreply ret
    cases consumerAttr with
    | none => trivial
    | some consumerAttr =>
      have hcancel := processCancelCommand_promises (P := ReportedBy
        (.onEndExecute scheduleId (some consumerAttr))) scheduleId
      exact Prog.all_ite.mpr ⟨fun _ => trivial, fun _ => Prog.all_ite.mpr ⟨fun _ => hcancel,
        fun _ => Prog.all_ite.mpr ⟨fun _ => hcancel, fun _ => trivial⟩⟩⟩
  | onSetProperty properties =>
    refine (onFramework_promises ?_).bind fun ret => hreply ret
    cases properties with
    | none => trivial
    | some properties =>
      exact Prog.all_ite.mpr ⟨fun _ => trivial, fun _ => Prog.all_ite.mpr
        ⟨fun _ => withExecutorHdi_promises ⟨trivial, fun _ => trivial⟩, fun _ => hnew _ _ _⟩⟩
  | onGetProperty conditions values =>
    refine (onFramework_promises ?_).bind fun p => hreply p.1
    cases conditions with
    | none => trivial
    | some conditions =>
      refine Prog.all_ite.mpr ⟨fun _ => trivial, fun _ => Prog.all_ite.mpr
        ⟨fun _ => trivial, fun _ => ?_⟩⟩
      cases values with
      | none => trivial
      | some values => exact withExecutorHdi_promises ⟨trivial, fun _ => trivial⟩
  | onResult c result extraInfo =>
    refine onFramework_promises (onCommands_promises (onResult_promises ?_ extraInfo))
    rintro rfl
    exact ⟨extraInfo, rfl⟩
  | onAcquireInfo c acquire extraInfo =>
    exact onFramework_promises (onCommands_promises (onAcquireInfo_promises c extraInfo))
  | onHdiDisconnect =>
    exact onFramework_promises (onCommands_promises (driverOnHdiDisconnect_promises
      fun c => reportedBy_failure _ c _ (by decide)))
  | release => trivial

end Promises

/-! ### What a call asks of the driver -/

/-- The driver is asked for nothing else. -/
def FrameworkForwards (errand : Option Errand) : FrameworkOp → Prop
  | .command (.returnHdi _) => errand.isSome = true → errand = some .command
  | .command _ => True
  | .makeCommand => True
  | o => errand = some (.function o)

/-- Nor is a success replied where it is asked for nothing. -/
def ReplyForwards (errand : Option Errand) : ReplyOp → Prop
  | .framework o => FrameworkForwards errand o
  | .reply ret => ret = .success → errand.isSome = true

section Forwards

variable {α : Type} {errand : Option Errand}

theorem FrameworkForwards.errand_eq {o : FrameworkOp} {r : FrameworkRes o} {code : ResultCode}
    (h : FrameworkForwards errand o) (ho : o.direct r = some code) :
    errand = some (.function o) := by
  cases o with
  | command | makeCommand => cases ho
  | cancel | delete | getTemplateInfo => exact h

theorem onFramework_forwards {p : FrameworkProg α} (hp : p.All (FrameworkForwards errand)) :
    (onFramework p).All (ReplyForwards errand) :=
  Prog.All.interp _ hp fun _ ho => ⟨ho, fun _ => trivial⟩

theorem onCommands_forwards (hcommand : errand.isSome = true → errand = some .command)
    (p : ExecutorProg α) : (onCommands p).All (FrameworkForwards errand) := by
  refine Prog.All.interp _ (Prog.all_of (P := fun _ => True) (fun _ => trivial) p) fun o _ => ?_
  refine Prog.all_op.mpr ?_
  cases o with
  | returnHdi => exact hcommand
  | _ => trivial

theorem processNewCommand_forwards (hcommand : errand.isSome = true → errand = some .command)
    (type : CommandType) (scheduleId : UInt64) (properties : AuthAttributes) :
    (processNewCommand type scheduleId properties).All (FrameworkForwards errand) := by
  refine ⟨trivial, fun commandId => ?_⟩
  cases commandId with
  | none => trivial
  | some commandId => exact onCommands_forwards hcommand _

theorem withExecutorHdi_forwards {generalError : α} {p : FrameworkProg α}
    (hp : p.All (FrameworkForwards errand)) :
    (withExecutorHdi generalError p).All (FrameworkForwards errand) := by
  refine ⟨trivial, fun executor => Prog.all_ite.mpr ⟨fun _ => trivial, fun _ => ?_⟩⟩
  refine ⟨trivial, fun hdi => Prog.all_ite.mpr ⟨fun _ => ⟨trivial, fun _ => trivial⟩, fun _ => ?_⟩⟩
  exact hp.bind fun _ => ⟨trivial, fun _ => trivial⟩

theorem onEndExecute_forwards (scheduleId : UInt64) (consumerAttr : Option AuthAttributes) :
    (frameworkOnEndExecute scheduleId consumerAttr).All
      (FrameworkForwards (some (.function (.cancel scheduleId)))) := by
  have hcancel : (processCancelCommand scheduleId).All
      (FrameworkForwards (some (.function (.cancel scheduleId)))) :=
    withExecutorHdi_forwards ⟨rfl, fun _ => trivial⟩
  cases consumerAttr with
  | none => trivial
  | some consumerAttr =>
    exact Prog.all_ite.mpr ⟨fun _ => trivial, fun _ => Prog.all_ite.mpr ⟨fun _ => hcancel,
      fun _ => Prog.all_ite.mpr ⟨fun _ => hcancel, fun _ => trivial⟩⟩⟩

theorem onSetProperty_forwards (properties : AuthAttributes) :
    (frameworkOnSetProperty (some properties)).All
      (FrameworkForwards (FrameworkCall.onSetProperty (some properties)).errand) := by
  have hdelete (hmode : (properties.getUint32Value authPropertyMode 0).2 = propermodeDelete) :
      (FrameworkCall.onSetProperty (some properties)).errand =
        some (.function (.delete [templateOf properties])) :=
    congrArg some (if_pos hmode)
  have hcustom (hmode : (properties.getUint32Value authPropertyMode 0).2 ≠ propermodeDelete) :
      (FrameworkCall.onSetProperty (some properties)).errand = some .command :=
    congrArg some (if_neg hmode)
  refine Prog.all_ite.mpr ⟨fun _ => trivial, fun _ => Prog.all_ite.mpr ⟨fun hmode => ?_,
    fun hmode => ?_⟩⟩
  · rw [hdelete hmode]
    exact withExecutorHdi_forwards ⟨rfl, fun _ => trivial⟩
  · rw [hcustom hmode]
    exact processNewCommand_forwards (fun _ => rfl) _ _ _

theorem onGetProperty_forwards (conditions : AuthAttributes) (values : Option AuthAttributes) :
    (frameworkOnGetProperty (some conditions) values).All
      (FrameworkForwards (FrameworkCall.onGetProperty (some conditions) values).errand) := by
  refine Prog.all_ite.mpr ⟨fun _ => trivial, fun _ => Prog.all_ite.mpr
    ⟨fun _ => trivial, fun _ => ?_⟩⟩
  cases values with
  | none => trivial
  | some values => exact withExecutorHdi_forwards ⟨rfl, fun _ => trivial⟩

/-- A call asks the driver for its errand and nothing else. -/
theorem frameworkBody_forwards (call : FrameworkCall) :
    (frameworkBody call).All (ReplyForwards call.errand) := by
  have hreply {errand : Errand} (ret : ResultCode) :
      (Prog.op (ReplyOp.reply ret) : ReplyProg Unit).All (ReplyForwards (some errand)) :=
    ⟨fun _ => rfl, fun _ => trivial⟩
  have hfailure {errand : Option Errand} :
      (Prog.op (ReplyOp.reply .generalError) : ReplyProg Unit).All (ReplyForwards errand) :=
    ⟨fun h => absurd h (by decide), fun _ => trivial⟩
  have hnone : (none : Option Errand).isSome = true → none = some Errand.command :=
    fun h => by cases h
  cases call with
  | onBeginExecute scheduleId commandAttrs =>
    refine (onFramework_forwards ?_).discard
    have hnew := processNewCommand_forwards hnone
    cases commandAttrs with
    | none => trivial
    | some commandAttrs =>
      exact Prog.all_ite.mpr ⟨fun _ => trivial, fun _ => Prog.all_ite.mpr ⟨fun _ => hnew _ _ _,
        fun _ => Prog.all_ite.mpr ⟨fun _ => hnew _ _ _, fun _ => trivial⟩⟩⟩
  | onEndExecute scheduleId consumerAttr =>
    exact (onFramework_forwards (onEndExecute_forwards scheduleId consumerAttr)).bind hreply
  | onSetProperty properties =>
    cases properties with
    | none => exact hfailure
    | some properties =>
      exact (onFramework_forwards (onSetProperty_forwards properties)).bind hreply
  | onGetProperty conditions values =>
    cases conditions with
    | none => exact hfailure
    | some conditions =>
      exact (onFramework_forwards (onGetProperty_forwards conditions values)).bind
        fun a => hreply a.1
  | onResult | onAcquireInfo | onHdiDisconnect =>
    exact onFramework_forwards (onCommands_forwards hnone _)
  | release => trivial

end Forwards

/-! ## 5. Runs -/

def ExecutorState.promised (s : ExecutorState) (c : AsyncCommand) : Option ResultCode :=
  (s.command c).bind (·.promised)

section State

variable {s : ExecutorState} {o : ExecutorOp} {c : AsyncCommand} {tid : Nat}

theorem executorHandle_promised {env : ExecutorEnv} (hset : ∀ ret, o ≠ .setResult c ret) :
    (executorHandle tid env s o).2.promised c = s.promised c := by
  have hchange (command : CommandState) : (o.change c command).promised = command.promised := by
    cases o with
    | setResult c' ret =>
      have hne : c ≠ c' := by
        rintro rfl
        exact hset ret rfl
      exact congrArg _ (if_neg hne)
    | setFinished | clearExecutorMessenger | nextTransNum | callHdi | getFuture =>
      dsimp only [ExecutorOp.change]
      split <;> rfl
    | _ => rfl
  rw [ExecutorState.promised, ExecutorState.promised, executorHandle_change]
  cases s.command c with
  | none => rfl
  | some command => exact hchange command

theorem setResult_promised {env : ExecutorEnv} {ret ret' : ResultCode}
    (h : (executorHandle tid env s (.setResult c ret)).2.promised c = some ret') : ret = ret' := by
  change (Function.update s.command c _ c).bind _ = _ at h
  rw [Function.update_self] at h
  cases hcommand : s.command c with
  | none =>
    rw [hcommand] at h
    cases h
  | some command =>
    rw [hcommand] at h
    exact Option.some_injective _ h

theorem makeCommand_promised {s : FrameworkState} {env : FrameworkEnv} {ret : ResultCode}
    (h : (s.makeCommand env).executor.promised c = some ret) :
    s.executor.promised c = some ret := by
  unfold FrameworkState.makeCommand ExecutorState.promised at h
  dsimp only at h
  split at h
  · cases h
  · exact h

theorem replyHandle_promised {s : FrameworkState} {env : FrameworkEnv} {o : ReplyOp}
    {ret : ResultCode} (h : (replyHandle tid env s o).2.executor.promised c = some ret) :
    o = .framework (.command (.setResult c ret)) ∨ s.executor.promised c = some ret := by
  cases o with
  | reply => exact .inr h
  | framework o =>
    cases o with
    | command o =>
      by_cases hset : ∃ ret', o = .setResult c ret'
      · obtain ⟨ret', rfl⟩ := hset
        have hs : (executorHandle tid env.executor s.executor (.setResult c ret')).2.promised c =
            some ret := h
        exact .inl (by rw [setResult_promised hs])
      · refine .inr ((executorHandle_promised fun ret' ho => ?_).symm.trans h)
        exact hset ⟨ret', ho⟩
    | makeCommand =>
      change (if _ then _ else _ : _ × FrameworkState).2.executor.promised c = some ret at h
      split at h
      · exact .inr (makeCommand_promised h)
      · exact .inr h
    | cancel | delete | getTemplateInfo => exact .inr h

theorem frameworkAccept_promised {s s' : FrameworkState} {call : FrameworkCall}
    (h : frameworkAccept s call = some s') : s'.executor.promised c = s.executor.promised c := by
  cases call with
  | onResult | onAcquireInfo =>
    obtain ⟨-, hs⟩ := Option.ite_none_right_eq_some.mp h
    cases hs
    rfl
  | _ =>
    cases h
    rfl

end State

section Runs

variable {c : AsyncCommand} {cfg : FrameworkConfig} {t : Nat} {ret : ResultCode}

/-- A command has got a result. -/
def HasResult (es : List FrameworkEvent) (c : AsyncCommand) (ret : ResultCode) : Prop :=
  ∃ t, .op t (.framework (.command (.setResult c ret))) () ∈ es

theorem HasResult.mono {es es' : List FrameworkEvent} (h : HasResult es c ret)
    (hes : es ⊆ es') : HasResult es' c ret := by
  obtain ⟨t, ht⟩ := h
  exact ⟨t, hes ht⟩

/-- A success that a command has as its result is one that the driver has reported. -/
theorem reported_of_hasResult (hc : framework.Reachable Machine.anyMove .initial cfg)
    (h : HasResult cfg.world.trace c .success) : Reported cfg.world.trace c := by
  obtain ⟨t, hset⟩ := h
  have hlt : t < cfg.threads.length := hc.fresh _ hset
  obtain ⟨call, hcall⟩ := hc.exists_spawn (List.getElem?_eq_getElem hlt)
  -- of all calls, only one of the driver's sets a success
  have hby : ReportedBy call c .success :=
    (hc.all_ops (P := fun call => ReplyPromises (ReportedBy call)) hcall
      (frameworkBody_promises call)).1 _ _ hset
  obtain ⟨extraInfo, rfl⟩ := hby rfl
  exact ⟨t, extraInfo, hcall, hset⟩

/-- Nothing but a result that has been set is found in a command or waited for. -/
theorem hasResult_of_waited (hc : framework.Reachable Machine.anyMove .initial cfg) :
    (∀ c, cfg.world.state.executor.promised c = some .success →
      HasResult cfg.world.trace c .success) ∧
    ∀ t c, .op t (.framework (.command (.waitResult c))) ResultCode.success ∈ cfg.world.trace →
      HasResult cfg.world.trace c .success := by
  -- both along the run: a result that is found has been set by an event before
  induction hc with
  | init => exact ⟨fun _ h => (by cases h), fun _ _ h => (by cases h)⟩
  | spawn hc _ hs ih =>
    refine ⟨fun c h => (ih.1 c ?_).mono (List.subset_append_left _ _), fun t c h => ?_⟩
    · exact (frameworkAccept_promised hs).symm.trans h
    · rcases List.mem_append.mp h with h | h
      · exact (ih.2 t c h).mono (List.subset_append_left _ _)
      · cases List.mem_singleton.mp h
  | @run cfg tid o k env hc _ ht hen ih =>
    have hold {c : AsyncCommand} (h : HasResult cfg.world.trace c .success) :
        HasResult (framework.perform cfg.world tid o env).trace c .success :=
      h.mono (List.subset_append_left _ _)
    refine ⟨fun c h => ?_, fun t c h => ?_⟩
    · rcases replyHandle_promised h with rfl | h
      · exact ⟨tid, List.mem_append_right _ (List.mem_singleton_self _)⟩
      · exact hold (ih.1 c h)
    · rcases List.mem_append.mp h with h | h
      · exact hold (ih.2 t c h)
      · -- the one that waits finds the result in the command
        have heq := List.mem_singleton.mp h
        generalize hanswer : framework.answer cfg.world tid o env = r at heq
        cases heq
        have hfound : (cfg.world.state.executor.promised c).getD .timeout = .success := hanswer
        cases hpromised : cfg.world.state.executor.promised c with
        | none =>
          rw [hpromised] at hfound
          cases hfound
        | some ret =>
          rw [hpromised] at hfound
          exact hold (ih.1 c (hpromised.trans (congrArg some hfound)))

theorem Reported.of_concat {es : List FrameworkEvent} {e : FrameworkEvent}
    (h : Reported (es ++ [e]) c) (hspawn : ∀ t call, e ≠ .spawn t call)
    (hset : ∀ t r, e ≠ .op t (.framework (.command (.setResult c .success))) r) :
    Reported es c := by
  obtain ⟨t, extraInfo, hcall, hop⟩ := h
  have hbefore {d : FrameworkEvent} (hd : d ∈ es ++ [e]) (hne : e ≠ d) : d ∈ es := by
    rcases List.mem_append.mp hd with hd | hd
    · exact hd
    · exact absurd (List.mem_singleton.mp hd).symm hne
  exact ⟨t, extraInfo, hbefore hcall (hspawn _ _), hbefore hop (hset _ _)⟩

/-! ### What the marks say -/

variable {w : FrameworkWorld}

/-- Where a mark comes from. -/
theorem replyMark_cases {e : FrameworkEvent} {m : HonestMark} (h : replyMark e = some m) :
    (∃ t o r code, e = .op t (.framework o) r ∧ o.direct r = some code ∧ m = .asked code) ∨
      (∃ t c code, e = .op t (.framework (.command (.returnHdi c))) code ∧ m = .sent c code) ∨
      (∃ t c code, e = .op t (.framework (.command (.waitResult c))) code ∧ m = .waited c code) ∨
      ∃ t ret, e = .op t (.reply ret) () ∧ m = .reply ret := by
  cases e with
  | spawn => cases h
  | op t o r =>
    cases o with
    | reply ret =>
      cases h
      exact .inr (.inr (.inr ⟨t, ret, rfl, rfl⟩))
    | framework o =>
      cases o with
      | command o =>
        cases o with
        | returnHdi c =>
          cases h
          exact .inr (.inl ⟨t, c, r, rfl, rfl⟩)
        | waitResult c =>
          cases h
          exact .inr (.inr (.inl ⟨t, c, r, rfl, rfl⟩))
        | _ => cases h
      | makeCommand => cases h
      | cancel | delete | getTemplateInfo =>
        cases h
        exact .inl ⟨t, _, r, _, rfl, rfl, rfl⟩

theorem asked_iff {code : ResultCode} :
    Asked w.trace t code ↔ .asked code ∈ w.marks replyMark t := by
  rw [World.mem_marks]
  constructor
  · rintro ⟨o, r, hop, hcode⟩
    exact ⟨_, hop, rfl, mark_of_direct hcode⟩
  · rintro ⟨e, he, rfl, hmark⟩
    rcases replyMark_cases hmark with ⟨t, o, r, _, rfl, hcode, hm⟩ | ⟨_, _, _, -, hm⟩ |
      ⟨_, _, _, -, hm⟩ | ⟨_, _, -, hm⟩ <;> cases hm
    exact ⟨o, r, he, hcode⟩

theorem sent_iff {code : ResultCode} :
    .op t (.framework (.command (.returnHdi c))) code ∈ w.trace ↔
      .sent c code ∈ w.marks replyMark t := by
  rw [World.mem_marks]
  constructor
  · exact fun hop => ⟨_, hop, rfl, rfl⟩
  · rintro ⟨e, he, rfl, hmark⟩
    rcases replyMark_cases hmark with ⟨_, _, _, _, -, -, hm⟩ | ⟨t, _, _, rfl, hm⟩ |
      ⟨_, _, _, -, hm⟩ | ⟨_, _, -, hm⟩ <;> cases hm
    exact he

theorem waited_iff {code : ResultCode} :
    .op t (.framework (.command (.waitResult c))) code ∈ w.trace ↔
      .waited c code ∈ w.marks replyMark t := by
  rw [World.mem_marks]
  constructor
  · exact fun hop => ⟨_, hop, rfl, rfl⟩
  · rintro ⟨e, he, rfl, hmark⟩
    rcases replyMark_cases hmark with ⟨_, _, _, _, -, -, hm⟩ | ⟨_, _, _, -, hm⟩ |
      ⟨t, _, _, rfl, hm⟩ | ⟨_, _, -, hm⟩ <;> cases hm
    exact he

theorem repliesSettled (hc : framework.Reachable Machine.anyMove .initial cfg) (t : Nat) :
    RepliesSettled (cfg.world.marks replyMark t) := by
  have hcall (tid : Nat) (call : FrameworkCall) :
      RepliesSettled (replyMark (.spawn tid call : FrameworkEvent)).toList ∧
        AlongReply FrameworkCall tid (frameworkBody call) (fun _ _ => True)
          (replyMark (.spawn tid call : FrameworkEvent)).toList :=
    ⟨plain_nil.silent.settled, along_frameworkBody call⟩
  exact (Machine.reachable_along plain_nil.silent.settled hcall hc t).1

/-- **When a reply is honest.**  Nothing that the call has asked of the driver itself has failed. -/
theorem honest_iff (hc : framework.Reachable Machine.anyMove .initial cfg)
    {pre post : List FrameworkEvent}
    (hsplit : cfg.world.trace = pre ++ .op t (.reply ret) () :: post) :
    Honest pre t ret ↔ ∀ code, Asked pre t code → code = .success := by
  obtain ⟨cfg', hc', htrace⟩ := hc.cut hsplit
  let w : FrameworkWorld := ⟨cfg'.world.state, pre⟩
  have hmarks : cfg'.world.marks replyMark t = w.marks replyMark t ++ [HonestMark.reply ret] := by
    have hpush : cfg'.world = w.push cfg'.world.state (.op t (.reply ret) ()) :=
      congrArg (World.mk cfg'.world.state) htrace
    rw [hpush, World.marks_push]
    exact Function.update_self ..
  -- the call of the thread, and all that it may ask of the driver
  have hmem (e : FrameworkEvent) (he : e ∈ pre) : e ∈ cfg'.world.trace := by
    rw [htrace]
    exact List.mem_append_left _ he
  have hreply : .op t (.reply ret) () ∈ cfg'.world.trace := by
    rw [htrace]
    exact List.mem_append_right _ (List.mem_singleton_self _)
  obtain ⟨call, hspawn⟩ := hc'.exists_spawn (List.getElem?_eq_getElem (hc'.fresh _ hreply))
  have hcall : .spawn t call ∈ pre := by
    rw [htrace] at hspawn
    rcases List.mem_append.mp hspawn with hspawn | hspawn
    · exact hspawn
    · cases List.mem_singleton.mp hspawn
  have hforwards := (hc'.all_ops (P := fun call => ReplyForwards call.errand) hspawn
    (frameworkBody_forwards call)).1
  have hsettled := repliesSettled hc' t _ _ hmarks
  rcases hsettled with ⟨code, hasked, rfl⟩ | ⟨hnone, hcommand⟩
  -- the driver has been asked for one thing and nothing else
  · have honly (code' : ResultCode) : Asked pre t code' ↔ code' = code := by
      rw [asked_iff (w := w), hasked, List.mem_singleton]
      exact ⟨HonestMark.asked.inj, congrArg _⟩
    constructor
    · intro hhonest code' hcode'
      obtain ⟨_, errand, -, -, hdone⟩ := hhonest rfl
      cases errand with
      | function o =>
        obtain ⟨r, hop, hsuccess⟩ := hdone
        rw [(honly _).mp hcode', ← (honly _).mp ⟨o, r, hop, hsuccess⟩]
      | command =>
        obtain ⟨c, hsent, -⟩ := hdone
        have hmem := sent_iff (w := w) |>.mp hsent
        rw [hasked, List.mem_singleton] at hmem
        cases hmem
    · intro hwhen _
      obtain rfl := hwhen code ((honly code).mpr rfl)
      obtain ⟨o, r, hop, hsuccess⟩ := (honly .success).mpr rfl
      have hallowed : FrameworkForwards call.errand o := hforwards _ _ (hmem _ hop)
      exact ⟨call, .function o, hcall, hallowed.errand_eq hsuccess, r, hop, hsuccess⟩
  -- a command has been sent, or nothing has been done
  · have hnot (code : ResultCode) : ¬Asked pre t code :=
      fun hcode => hnone code (asked_iff (w := w) |>.mp hcode)
    refine ⟨fun _ code hcode => absurd hcode (hnot code), fun _ hret => ?_⟩
    obtain ⟨c, hsent, hwaited⟩ := hcommand hret
    have hsent : .op t (.framework (.command (.returnHdi c))) ResultCode.success ∈ pre :=
      sent_iff (w := w) |>.mpr hsent
    have herrand : call.errand = some .command :=
      hforwards _ _ (hmem _ hsent) (hforwards _ _ hreply hret)
    refine ⟨call, .command, hcall, herrand, c, hsent, ?_⟩
    have hwait : .op t (.framework (.command (.waitResult c))) ResultCode.success ∈
        cfg'.world.trace :=
      hmem _ (waited_iff (w := w) |>.mpr hwaited)
    have hreported := reported_of_hasResult hc' ((hasResult_of_waited hc').2 t c hwait)
    rw [htrace] at hreported
    exact hreported.of_concat (fun _ _ h => by cases h) fun _ _ h => by cases h

end Runs

/-! ### A deletion -/

def deletion : AuthAttributes :=
  ((AuthAttributes.new.setUint32Value authPropertyMode propermodeDelete).2.setUint64Value
    authTemplateId 1).2

/-- The service deletes a template, and the driver returns a code. -/
def deleteRun (code : ResultCode) : Option FrameworkConfig :=
  framework.exec Machine.anyMove ⟨⟨.initial, []⟩, []⟩
    ([.spawn (.onSetProperty (some deletion)), .run 0 {}, .run 0 {},
      .run 0 { executor := { resultCode := code } }, .run 0 {}, .run 0 {}])

theorem deleteRun_split (code : ResultCode)
    (hrun : (deleteRun code).map (fun cfg => cfg.world.marks replyMark 0) =
      some [.asked code, .reply .success]) :
    ∃ (cfg : FrameworkConfig) (pre post : List FrameworkEvent),
      framework.Reachable Machine.anyMove .initial cfg ∧
      cfg.world.marks replyMark 0 = [.asked code, .reply .success] ∧
      cfg.world.trace = pre ++ .op 0 (.reply .success) () :: post := by
  obtain ⟨cfg, hcfg, hmarks⟩ := Option.map_eq_some_iff.mp hrun
  have hreply : .reply .success ∈ cfg.world.marks replyMark 0 := by
    rw [hmarks]
    exact List.mem_cons_of_mem _ (List.mem_singleton_self _)
  obtain ⟨e, he, htid, hmark⟩ := World.mem_marks replyMark |>.mp hreply
  rcases replyMark_cases hmark with ⟨_, _, _, _, -, -, hm⟩ | ⟨_, _, _, -, hm⟩ | ⟨_, _, _, -, hm⟩ |
    ⟨t, ret, rfl, hm⟩ <;> cases hm
  cases htid
  obtain ⟨pre, post, hsplit⟩ := List.append_of_mem he
  exact ⟨cfg, pre, post, Machine.Reachable.init.exec hcfg, hmarks, hsplit⟩

/-- The driver fails to delete a template, and the service is told that it is deleted. -/
theorem honest_counterexample :
    ¬∀ (cfg : FrameworkConfig) (t : Nat) (ret : ResultCode) (pre post : List FrameworkEvent),
      framework.Reachable Machine.anyMove .initial cfg →
      cfg.world.trace = pre ++ .op t (.reply ret) () :: post → Honest pre t ret := by
  intro h
  obtain ⟨cfg, pre, post, hc, hmarks, hsplit⟩ := deleteRun_split .fail (by decide +kernel)
  have hpre : pre ⊆ cfg.world.trace := hsplit ▸ List.subset_append_left _ _
  obtain ⟨_, errand, -, -, hdone⟩ := h cfg 0 .success pre post hc hsplit rfl
  cases errand with
  | function o =>
    obtain ⟨r, hop, hcode⟩ := hdone
    have hasked := asked_iff.mp ⟨o, r, hpre hop, hcode⟩
    rw [hmarks] at hasked
    exact absurd hasked (by decide)
  | command =>
    obtain ⟨c, hsent, -⟩ := hdone
    have hmem := sent_iff.mp (hpre hsent)
    rw [hmarks] at hmem
    exact absurd hmem (by simp)

/-- A template that the driver has deleted. -/
theorem honest_iff_example : ∃ (cfg : FrameworkConfig) (pre post : List FrameworkEvent),
    cfg.world.trace = pre ++ .op 0 (.reply .success) () :: post ∧ Honest pre 0 .success := by
  obtain ⟨cfg, pre, post, hc, hmarks, hsplit⟩ :=
    deleteRun_split .success (by decide +kernel)
  have hpre : pre ⊆ cfg.world.trace := hsplit ▸ List.subset_append_left _ _
  refine ⟨cfg, pre, post, hsplit, (honest_iff hc hsplit).mpr ?_⟩
  rintro code ⟨o, r, hop, hcode⟩
  have hasked := asked_iff.mp ⟨o, r, hpre hop, hcode⟩
  rw [hmarks] at hasked
  simpa using hasked

end UserIam.Executors
