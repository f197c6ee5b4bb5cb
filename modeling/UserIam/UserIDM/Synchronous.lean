import UserIam.CoAuth.ExecutorProperty
import UserIam.Conc.Alone
import UserIam.UserIDM.UserIDMSystem

/-!
# One call at a time

The calls of the credential manager together with what CoAuth does inside them: `SetExecutorProp`
asks an executor and calls the handler back before it returns, and a schedule may finish inside
`BeginSchedule`.  A call runs alone from its first to its last step.
-/

namespace UserIam.UserIDM

open Conc Machine

/-! ## 1. What CoAuth does inside a call -/

/-- `finishNow` is whether the schedule finishes inside `BeginSchedule`, and with what; `locals` are
the variables of CoAuth that may stay uninitialised. -/
inductive SyncOp where
  | idm (o : UserIDMOp)
  | findExecutorCallback (authType : AuthType)
  | onSetProperty (remote : CoAuth.ExecutorCallback) (properties : CoAuth.AuthAttributes)
  | finishNow
  | locals
  | hang

@[reducible] def SyncRes : SyncOp → Type
  | .idm o => UserIDMRes o
  | .findExecutorCallback _ => Option CoAuth.ExecutorCallback
  | .onSetProperty .. => ResultCode
  | .finishNow => Option (UInt32 × List UInt8)
  | .locals => CoAuth.AuthAttributes.PackLocals × AuthType
  | .hang => Unit

abbrev SyncProg := Prog SyncOp SyncRes

def syncCalls : CoAuth.PropertyCalls SyncOp SyncRes where
  findExecutorCallback authType := Prog.op (SyncOp.findExecutorCallback authType)
  hang := Prog.op SyncOp.hang

/-- More rounds than `Pack` and `Unpack` take for the attributes of a request. -/
def propertyFuel : Nat := 16

/-- A program that calls nothing of CoAuth that calls back. -/
def lift {α : Type} (p : UserIDMProg α) : SyncProg α := p.interp fun o => Prog.op (SyncOp.idm o)

/-- `SetExecutorProp` with the handler as its callback. -/
def syncSetExecutorProp (condition : CoAuth.AuthAttributes) (handler : UserIDMSetPropHandler) :
    SyncProg Unit := do
  let _ ← Prog.op (SyncOp.idm (.setExecutorProp condition handler))
  let (locals, authTypeLocal) ← Prog.op SyncOp.locals
  CoAuth.setExecutorProp syncCalls propertyFuel locals
    (fun remote properties => Prog.op (SyncOp.onSetProperty remote properties)) authTypeLocal
    -- called back on the same thread, before the function returns
    condition (some fun result => lift (onResultLocked handler result))

def withExecutors : (o : UserIDMOp) → SyncProg (UserIDMRes o)
  | .setExecutorProp condition handler => syncSetExecutorProp condition handler
  | o => Prog.op (SyncOp.idm o)

/-- `BeginSchedule`, inside which the schedule may finish. -/
def syncBeginSchedule (info : CoAuth.ScheduleInfo) (authInfo : CoAuth.AuthInfo)
    (handler : UserIDMCoAuthHandler) : SyncProg Unit := do
  let _ ← Prog.op (SyncOp.idm (.beginSchedule info authInfo handler))
  match ← Prog.op SyncOp.finishNow with
  | none => return
  | some (resultCode, scheduleToken) =>
    (onFinishLocked handler resultCode scheduleToken).interp withExecutors

def withCoAuth : (o : UserIDMOp) → SyncProg (UserIDMRes o)
  | .beginSchedule info authInfo handler => syncBeginSchedule info authInfo handler
  | o => withExecutors o

def synchronous {α : Type} (p : UserIDMProg α) : SyncProg α := p.interp withCoAuth

/-! ## 2. The machine -/

structure SyncEnv where
  idm : UserIDMEnv := {}
  executor : Option CoAuth.ExecutorCallback := none
  result : ResultCode := .success
  finish : Option (UInt32 × List UInt8) := none
  locals : CoAuth.AuthAttributes.PackLocals := ⟨false, 0, 0⟩
  authTypeLocal : AuthType := 0

def syncHandle (tid : Nat) (env : SyncEnv) (s : UserIDMState) :
    (o : SyncOp) → SyncRes o × UserIDMState
  | .idm o => userIDMHandle tid env.idm s o
  | .findExecutorCallback _ => (env.executor, s)
  | .onSetProperty .. => (env.result, s)
  | .finishNow => (env.finish, s)
  | .locals => ((env.locals, env.authTypeLocal), s)
  | .hang => ((), s)

/-- Nothing goes on behind a `Pack` or an `Unpack` that does not return. -/
def syncEnabled (s : UserIDMState) : SyncOp → Bool
  | .idm o => userIDMEnabled s o
  | .hang => false
  | _ => true

abbrev SyncEvent := Event SyncOp SyncRes UserIDMCall

def sync (platform : Platform) : Machine SyncOp SyncRes SyncEnv UserIDMState UserIDMCall where
  enabled _ o _ s := syncEnabled s o
  handle tid o env s := syncHandle tid env s o
  accept call s := userIDMAccept s call
  body call := synchronous (userIDMBody platform call)

/-- A call that is accepted runs to its end before the next one starts. -/
inductive AtomicRun (platform : Platform) : UserIDMState → List SyncEvent → Prop
  | init : AtomicRun platform .initial []
  | call {s s' : UserIDMState} {es es' : List SyncEvent} (call : UserIDMCall) :
      AtomicRun platform s es → userIDMAccept s call = some s →
      (sync platform).Alone 0 ((sync platform).body call) s () es' s' →
      AtomicRun platform s' (es ++ es')

/-- The same for given calls and given choices of the environment. -/
def runCalls (platform : Platform) :
    UserIDMState → List SyncEvent → List (UserIDMCall × List SyncEnv) →
      Option (UserIDMState × List SyncEvent)
  | s, es, [] => some (s, es)
  | s, es, (call, envs) :: calls =>
    (userIDMAccept s call).bind fun s =>
      ((sync platform).alone 0 ((sync platform).body call) s envs).bind fun r =>
        runCalls platform r.2.2 (es ++ r.2.1) calls

theorem AtomicRun.runCalls {platform : Platform} {s s' : UserIDMState} {es es' : List SyncEvent}
    {calls : List (UserIDMCall × List SyncEnv)} (h : AtomicRun platform s es)
    (hrun : runCalls platform s es calls = some (s', es')) : AtomicRun platform s' es' := by
  -- on the calls that are left, with what has been shown so far
  induction calls generalizing s es with
  | nil =>
    cases hrun
    exact h
  | cons next calls ih =>
    obtain ⟨call, envs⟩ := next
    obtain ⟨s₁, haccept, hrest⟩ := Option.bind_eq_some_iff.mp hrun
    obtain ⟨⟨a, es₁, s₂⟩, halone, hrest⟩ := Option.bind_eq_some_iff.mp hrest
    obtain rfl := eq_of_userIDMAccept haccept
    exact ih (h.call call haccept (.of_alone halone)) hrest

end UserIam.UserIDM
