import UserIam.Conc.LockOrder
import UserIam.Conc.Typestate

/-!
# The link to a service

`UserAuthNative`, `UserIDMClient`, `UserIdm` and `AuthExecutorRegistry` each keep a proxy of a
system ability.  `GetProxy` makes one when there is none, and a death recipient drops it when the
service dies.  Both run on any thread, under one mutex.
-/

namespace UserIam.Common

open Conc

/-! ## 1. What the link calls -/

inductive SystemAbility where
  | userAuth
  | userIdm
  | authExecutorMgr
  deriving DecidableEq

/-- A remote object; a proxy is known by the object it was made from. -/
abbrev RemoteObject := Nat

abbrev DeathRecipient := Nat

inductive LinkOp where
  | lock
  | unlock
  | proxy
  | getSystemAbilityManager
  | checkSystemAbility (ability : SystemAbility)
  | newDeathRecipient
  | isProxyObject (obj : RemoteObject)
  | addDeathRecipient (obj : RemoteObject) (dr : DeathRecipient)
  | ifaceCast (obj : RemoteObject)
  | setProxy (proxy : Option RemoteObject)
  | deathRecipient
  | setDeathRecipient (dr : Option DeathRecipient)
  | asObject (proxy : RemoteObject)
  | promote (remote : RemoteObject)
  | removeDeathRecipient (obj : RemoteObject) (dr : Option DeathRecipient)
  deriving DecidableEq

@[reducible] def LinkRes : LinkOp → Type
  | .proxy | .checkSystemAbility _ | .ifaceCast _ | .asObject _ | .promote _ => Option RemoteObject
  | .deathRecipient => Option DeathRecipient
  | .getSystemAbilityManager | .isProxyObject _ | .addDeathRecipient .. => Bool
  | .newDeathRecipient => DeathRecipient
  | .lock | .unlock | .setProxy _ | .setDeathRecipient _ | .removeDeathRecipient .. => Unit

abbrev LinkProg := Prog LinkOp LinkRes

/-! ## 2. The four classes -/

/-- What one class has of its own: `ResetIdmProxy` also drops the recipient. -/
structure LinkClass where
  ability : SystemAbility
  dropsRecipient : Bool

def userAuthNative : LinkClass := ⟨.userAuth, false⟩
def userIDMClient : LinkClass := ⟨.userIdm, false⟩
def userIdm : LinkClass := ⟨.userIdm, true⟩
def authExecutorRegistry : LinkClass := ⟨.authExecutorMgr, false⟩

section Programs

variable (cls : LinkClass)

def linkUnderLock {α : Type} (p : LinkProg α) : LinkProg α := do
  Prog.op LinkOp.lock
  let a ← p
  Prog.op LinkOp.unlock
  return a

/-- A local service gets no recipient. -/
def connect (obj : RemoteObject) : LinkProg (Option RemoteObject) := do
  let dr ← Prog.op LinkOp.newDeathRecipient
  let remote ← Prog.op (LinkOp.isProxyObject obj)
  let added ← if remote then Prog.op (LinkOp.addDeathRecipient obj dr) else pure true
  if !added then return none
  let proxy ← Prog.op (LinkOp.ifaceCast obj)
  Prog.op (LinkOp.setProxy proxy)
  Prog.op (LinkOp.setDeathRecipient (some dr))
  Prog.op LinkOp.proxy

def getProxyLocked : LinkProg (Option RemoteObject) := do
  match ← Prog.op LinkOp.proxy with
  | some proxy => return some proxy
  | none =>
    if !(← Prog.op LinkOp.getSystemAbilityManager) then return none
    match ← Prog.op (LinkOp.checkSystemAbility cls.ability) with
    | none => return none
    | some obj => connect obj

def getProxy : LinkProg (Option RemoteObject) := linkUnderLock (getProxyLocked cls)

def dropProxy (serviceRemote : RemoteObject) : LinkProg Unit := do
  let dr ← Prog.op LinkOp.deathRecipient
  Prog.op (LinkOp.removeDeathRecipient serviceRemote dr)
  Prog.op (LinkOp.setProxy none)
  if cls.dropsRecipient then Prog.op (LinkOp.setDeathRecipient none)

def resetProxyLocked (remote : RemoteObject) : LinkProg Unit := do
  match ← Prog.op LinkOp.proxy with
  | none => return ()
  | some proxy =>
    match ← Prog.op (LinkOp.asObject proxy) with
    | none => return ()
    | some serviceRemote =>
      let promoted ← Prog.op (LinkOp.promote remote)
      if promoted = some serviceRemote then dropProxy cls serviceRemote

def resetProxy (remote : RemoteObject) : LinkProg Unit :=
  linkUnderLock (resetProxyLocked cls remote)

/-- `OnRemoteDied` of the death recipient. -/
def onRemoteDied : Option RemoteObject → LinkProg Unit
  | none => return ()
  | some remote => resetProxy cls remote

end Programs

/-! ## 3. The process around the link -/

/-- `owner` is the thread that holds the mutex.  `recipients` are those that are waiting for the
death of an object, `notices` those that have to be told of one, and `dead` is what this process has
learnt. -/
structure LinkState where
  owner : Option Nat := none
  proxy : Option RemoteObject := none
  deathRecipient : Option DeathRecipient := none
  made : DeathRecipient := 0
  recipients : List (RemoteObject × DeathRecipient) := []
  notices : List (RemoteObject × DeathRecipient) := []
  dead : RemoteObject → Bool := fun _ => false

/-- What the surroundings choose: may the operation succeed, and which object is found. -/
structure LinkEnv where
  ok : Bool := true
  obj : Option RemoteObject := none

/-- Any thread calls `GetProxy`.  A service dies, and a recipient is told of it. -/
inductive LinkCall where
  | getProxy
  | onRemoteDied (remote : Option RemoteObject) (dr : DeathRecipient)
  | die (obj : RemoteObject)

section Machine

variable (cls : LinkClass) (remote : RemoteObject → Bool)

def linkEnabled (o : LinkOp) (s : LinkState) : Bool :=
  match o with
  | .lock => s.owner.isNone
  | _ => true

/-- No recipient is added to an object that is known to be dead.  An object that is held by the
proxy can be promoted. -/
def linkHandle (tid : Nat) (o : LinkOp) (env : LinkEnv) (s : LinkState) : LinkRes o × LinkState :=
  match o with
  | .lock => ((), { s with owner := some tid })
  | .unlock => ((), { s with owner := none })
  | .proxy => (s.proxy, s)
  | .getSystemAbilityManager => (env.ok, s)
  | .checkSystemAbility _ => (env.obj, s)
  | .newDeathRecipient => (s.made, { s with made := s.made + 1 })
  | .isProxyObject obj => (remote obj, s)
  | .addDeathRecipient obj dr =>
    if s.dead obj || !env.ok then (false, s)
    else (true, { s with recipients := (obj, dr) :: s.recipients })
  | .ifaceCast obj => (if env.ok then some obj else none, s)
  | .setProxy proxy => ((), { s with proxy })
  | .deathRecipient => (s.deathRecipient, s)
  | .setDeathRecipient dr => ((), { s with deathRecipient := dr })
  | .asObject proxy => (some proxy, s)
  | .promote obj => (if s.proxy = some obj || env.ok then some obj else none, s)
  | .removeDeathRecipient obj dr =>
    ((), { s with recipients := s.recipients.filter fun e => !(e.1 == obj && some e.2 == dr) })

def dieAccept (obj : RemoteObject) (s : LinkState) : Option LinkState :=
  if remote obj && !s.dead obj then
    some { s with
      dead := Function.update s.dead obj true
      notices := s.notices ++ s.recipients.filter (·.1 == obj)
      recipients := s.recipients.filter (·.1 != obj) }
  else none

def linkAccept (call : LinkCall) (s : LinkState) : Option LinkState :=
  match call with
  | .getProxy => some s
  | .onRemoteDied none _ => some s
  | .onRemoteDied (some obj) dr =>
    if (obj, dr) ∈ s.notices then some { s with notices := s.notices.erase (obj, dr) } else none
  | .die obj => dieAccept remote obj s

def linkBody : LinkCall → LinkProg Unit
  | .getProxy => getProxy cls >>= fun _ => .ret ()
  | .onRemoteDied remote _ => onRemoteDied cls remote
  | .die _ => .ret ()

def serviceLink : Machine LinkOp LinkRes LinkEnv LinkState LinkCall where
  enabled _ o _ s := linkEnabled o s
  handle := linkHandle remote
  accept := linkAccept remote
  body := linkBody cls

end Machine

end UserIam.Common
