import UserIam.CoAuth.CoAuthIpc

/-!
# The steps of a registration

`AuthResManager::Register` as a program: what it asks the HDI and the executor's process, one
question after the other.  On the state of the manager it is `AuthResManager.register`.
-/

namespace UserIam.CoAuth

open Conc

/-! ## 1. The steps -/

/-- The questions of one `Register`; `insert` is that of the pool. -/
inductive RegisterOp where
  | getHdiInterface
  | addExecutor (info : ExecutorRegisterInfo)
  | newDeathRecipient
  | asObject (callback : ExecutorCallback)
  | addDeathRecipient (executorId : UInt64) (callback : ExecutorCallback)
  | insert (executorId : UInt64) (executorInfo : AuthExecutor) (callback : ExecutorCallback)
  | newMessenger
  | onMessengerReady (callback : ExecutorCallback) (ready : MessengerReady)

@[reducible] def RegisterRes : RegisterOp → Type
  | .getHdiInterface => Bool
  | .addExecutor _ => AddExecutorResult
  | .newDeathRecipient => Bool
  | .asObject _ => Bool
  | .addDeathRecipient .. => Bool
  | .insert .. => Unit
  | .newMessenger => Option Nat
  | .onMessengerReady .. => Unit

abbrev RegisterProg := Prog RegisterOp RegisterRes

/-- Behind the insertion. -/
def assignMessenger (callback : ExecutorCallback) (added : AddExecutorResult) :
    RegisterProg UInt64 := do
  match ← Prog.op RegisterOp.newMessenger with
  | none => return invalidExecutorId
  | some messenger =>
    Prog.op (RegisterOp.onMessengerReady callback
      ⟨messenger, added.frameworksPublicKey, added.templateIds⟩)
    return added.executorId

/-- Behind the HDI. -/
def watchExecutor (executorInfo : ResAuthExecutor) (callback : ExecutorCallback)
    (added : AddExecutorResult) : RegisterProg UInt64 := do
  if !(← Prog.op RegisterOp.newDeathRecipient) then return invalidExecutorId
  if !(← Prog.op (RegisterOp.asObject callback)) then return invalidExecutorId
  if !(← Prog.op (RegisterOp.addDeathRecipient added.executorId callback)) then
    return invalidExecutorId
  Prog.op (RegisterOp.insert added.executorId executorInfo.toAuthExecutor callback)
  assignMessenger callback added

def registerExecutor (executorInfo : ResAuthExecutor) (callback : ExecutorCallback) :
    RegisterProg UInt64 :=
  match getExecutorRegisterInfo executorInfo with
  | none => return invalidExecutorId
  | some info => do
    if !(← Prog.op RegisterOp.getHdiInterface) then return invalidExecutorId
    let added ← Prog.op (RegisterOp.addExecutor info)
    if added.result ≠ .success then return invalidExecutorId
    watchExecutor executorInfo callback added

/-! ## 2. What they do to the manager -/

/-- `messenger` is the object that is made when one can be. -/
def registerHandle (env : RegisterEnv) (messenger : Nat) (manager : AuthResManager) :
    (o : RegisterOp) → RegisterRes o × AuthResManager
  | .getHdiInterface => (env.hdiInterface, manager)
  | .addExecutor info => (env.addExecutor info, manager)
  | .newDeathRecipient => (env.deathRecipient, manager)
  | .asObject _ => (env.asObject, manager)
  | .addDeathRecipient executorId callback =>
    (env.addDeathRecipient, if env.addDeathRecipient then
      { manager with recipients := manager.recipients ++ [⟨executorId, callback⟩] } else manager)
  | .insert executorId executorInfo callback =>
    ((), { manager with
      coAuthResPool := (manager.coAuthResPool.insertExecutor executorId (some executorInfo)
        (some callback)).2 })
  | .newMessenger => (if env.messenger then some messenger else none, manager)
  | .onMessengerReady callback ready =>
    ((), { manager with
      ready := manager.ready ++ [(callback, ready.publicKey, ready.templateIds)] })

/-- **The steps of a registration come to `Register`.** -/
theorem registerExecutor_eval (env : RegisterEnv) (messenger : Nat) (manager : AuthResManager)
    (executorInfo : ResAuthExecutor) (callback : ExecutorCallback) :
    (registerExecutor executorInfo callback).eval (fun o s => registerHandle env messenger s o)
      manager = manager.register env (some executorInfo) (some callback) := by
  obtain ⟨hdiInterface, addExecutor, deathRecipient, asObject, addDeathRecipient, made⟩ := env
  rw [registerExecutor, AuthResManager.register]
  cases getExecutorRegisterInfo executorInfo with
  | none => rfl
  | some info =>
    cases hdiInterface with
    | false => rfl
    | true =>
      by_cases hresult : (addExecutor info).result = .success
      · -- the checks behind the HDI, up to the first one that fails
        cases deathRecipient <;> cases asObject <;> cases addDeathRecipient <;> cases made <;>
          simp [Prog.eval, watchExecutor, assignMessenger, registerHandle, hresult]
      · simp [Prog.eval, registerHandle, hresult]

end UserIam.CoAuth
