import UserIam.Conc.Sweep
import UserIam.Defines
import UserIam.Executors.Driver

/-!
# DriverManager

The drivers of a process and the notices that reach them: a driver's service starts or stops, the
manager of all drivers dies, or the framework is ready.  Everything about the map of drivers happens
under the manager's mutex, and every section under a driver's own mutex is one step.
-/

namespace UserIam.Executors

open Conc

/-! ## 1. What the manager calls -/

/-- `driver` says whether the pointer is not null. -/
structure HdiConfig where
  id : UInt16
  driver : Bool
  deriving DecidableEq, Repr

/-- A map from the names of services, in the order of the names. -/
structure HdiName2Config where
  pairs : List (String × HdiConfig)
  sorted : pairs.Pairwise fun p q => p.1 < q.1

/-- A driver is known by its place among all that have been made. -/
abbrev DriverId := Nat

/-- Other changes of a service than its start and its stop are ignored. -/
inductive ServiceStatusType where
  | start
  | stop
  | other
  deriving DecidableEq, Repr

inductive ManagerOp where
  | lock
  | unlock
  | started
  | setStarted
  | setHdiName2Config (hdiName2Config : HdiName2Config)
  | clear
  | makeDriver (serviceName : String) (hdiConfig : HdiConfig)
  | getSystemAbilityManager
  | listenerInstance
  | subscribeSystemAbility
  | watchParameter
  | getServiceManager
  | newListener
  | registerServiceStatusListener
  | serviceName2Driver
  | find (serviceName : String)
  | driver (d : DriverId) (o : DriverOp)

@[reducible] def ManagerRes : ManagerOp → Type
  | .started | .makeDriver .. | .getSystemAbilityManager | .listenerInstance => Bool
  | .subscribeSystemAbility | .watchParameter | .getServiceManager | .newListener => Bool
  | .registerServiceStatusListener => Bool
  | .serviceName2Driver => List (String × DriverId)
  | .find _ => Option DriverId
  | .driver _ o => DriverRes o
  | .lock | .unlock | .setStarted | .setHdiName2Config _ | .clear => Unit

abbrev ManagerProg := Prog ManagerOp ManagerRes

/-! ## 2. DriverManager -/

def userAuthSuccess : ResultCode := 0
def userAuthError : ResultCode := 1

def iamEventKey : String := "bootevent.useriam.fwkready"

/-- The loop of `HdiConfigIsValid`, with the ids that it has seen. -/
def hdiConfigIsValidFrom : List UInt16 → List (String × HdiConfig) → Bool
  | _, [] => true
  | idSet, (_, hdiConfig) :: pairs =>
    if hdiConfig.id ∈ idSet then false
    else if !hdiConfig.driver then false
    else hdiConfigIsValidFrom (hdiConfig.id :: idSet) pairs

def hdiConfigIsValid (hdiName2Config : HdiName2Config) : Bool :=
  hdiConfigIsValidFrom [] hdiName2Config.pairs

/-- A driver that cannot be made is left out. -/
def makeDrivers : List (String × HdiConfig) → ManagerProg Unit
  | [] => return ()
  | (serviceName, hdiConfig) :: pairs => do
    let _ ← Prog.op (ManagerOp.makeDriver serviceName hdiConfig)
    makeDrivers pairs

def subscribeHdiManagerServiceStatus : ManagerProg Unit := do
  if !(← Prog.op ManagerOp.getSystemAbilityManager) then return
  if !(← Prog.op ManagerOp.listenerInstance) then return
  Prog.discard (Prog.op ManagerOp.subscribeSystemAbility)

def subscribeFrameworkReadyEvent : ManagerProg Unit :=
  Prog.discard (Prog.op ManagerOp.watchParameter)

def subscribeHdiDriverStatus : ManagerProg Unit := do
  if !(← Prog.op ManagerOp.getServiceManager) then return
  if !(← Prog.op ManagerOp.newListener) then return
  Prog.discard (Prog.op ManagerOp.registerServiceStatusListener)

def managerUnderLock {α : Type} (p : ManagerProg α) : ManagerProg α := do
  Prog.op ManagerOp.lock
  let a ← p
  Prog.op ManagerOp.unlock
  return a

def startLocked (hdiName2Config : HdiName2Config) : ManagerProg ResultCode := do
  if ← Prog.op ManagerOp.started then return userAuthError
  Prog.op ManagerOp.setStarted
  Prog.op (ManagerOp.setHdiName2Config hdiName2Config)
  Prog.op ManagerOp.clear
  makeDrivers hdiName2Config.pairs
  subscribeHdiManagerServiceStatus
  subscribeFrameworkReadyEvent
  return userAuthSuccess

def managerStart (hdiName2Config : HdiName2Config) : ManagerProg ResultCode :=
  if !hdiConfigIsValid hdiName2Config then return userAuthError
  else managerUnderLock (startLocked hdiName2Config)

/-- A loop over the map, in which every driver does the same. -/
def forEachDriver (o : DriverOp) : ManagerProg Unit := do
  let pairs ← Prog.op ManagerOp.serviceName2Driver
  Machine.visitEach (fun d => ManagerOp.driver d o) (pairs.map Prod.snd)

def onAllHdiDisconnect : ManagerProg Unit := managerUnderLock (forEachDriver .disconnect)

def managerOnFrameworkReady : ManagerProg Unit := managerUnderLock (forEachDriver .frameworkReady)

def getDriverByServiceName (serviceName : String) : ManagerProg (Option DriverId) :=
  managerUnderLock (Prog.op (ManagerOp.find serviceName))

/-- `driver->OnHdiConnect()` and `driver->OnHdiDisconnect()` -/
def driverCall (d : DriverId) (call : DriverCall) : ManagerProg Unit :=
  (driverBody call).interp fun o => Prog.op (ManagerOp.driver d o)

/-- The listener for a service that starts or stops; the manager's mutex is free again when it turns
to the driver. -/
def onReceive (serviceName : String) (status : ServiceStatusType) : ManagerProg Unit := do
  match ← getDriverByServiceName serviceName with
  | none => return
  | some d =>
    match status with
    | .start => driverCall d .onHdiConnect
    | .stop => driverCall d .onHdiDisconnect
    | .other => return

/-- The callback of the event; a pointer may be null. -/
def eventCallback : Option String → Option String → ManagerProg Unit
  | some key, some value =>
    if key ≠ iamEventKey then return
    else if value ≠ "true" then return
    else managerOnFrameworkReady
  | _, _ => return

/-! ## 3. The machine -/

structure ServiceDriver where
  serviceName : String
  hdiConfig : HdiConfig
  driver : DriverState
  deriving DecidableEq, Repr

/-- `made` are the drivers that have been made, `owner` the thread that holds the mutex. -/
structure ManagerState where
  owner : Option Nat := none
  started : Bool := false
  hdiName2Config : HdiName2Config := ⟨[], List.Pairwise.nil⟩
  made : List ServiceDriver := []
  serviceName2Driver : List (String × DriverId) := []

/-- `ok` is what a call that can fail answers. -/
structure ManagerEnv where
  ok : Bool := true
  driver : DriverEnv := {}

/-- `serviceName2Driver_[serviceName] = driver` -/
def insertDriver (serviceName : String) (d : DriverId) (drivers : List (String × DriverId)) :
    List (String × DriverId) :=
  drivers.filter (·.1 < serviceName) ++ (serviceName, d) :: drivers.filter (serviceName < ·.1)

def findDriver (serviceName : String) (drivers : List (String × DriverId)) : Option DriverId :=
  (drivers.find? (·.1 == serviceName)).map Prod.snd

def ManagerState.addDriver (s : ManagerState) (serviceName : String) (hdiConfig : HdiConfig) :
    ManagerState :=
  { s with
    made := s.made ++ [⟨serviceName, hdiConfig, .initial⟩]
    serviceName2Driver := insertDriver serviceName s.made.length s.serviceName2Driver }

/-- One section of a driver. -/
def ServiceDriver.step (sd : ServiceDriver) (env : DriverEnv) (o : DriverOp) :
    DriverRes o × ServiceDriver :=
  let (r, driver) := driverHandle sd.hdiConfig.driver env sd.driver o
  (r, { sd with driver })

/-- The same for a driver that is known by its place; of any other place nothing is made. -/
def ManagerState.drive (s : ManagerState) (d : DriverId) (env : DriverEnv) (o : DriverOp) :
    DriverRes o × ManagerState :=
  let sd := s.made.getD d ⟨"", ⟨0, false⟩, .initial⟩
  let (r, sd) := sd.step env o
  (r, { s with made := s.made.set d sd })

def managerHandle (tid : Nat) (env : ManagerEnv) (s : ManagerState) :
    (o : ManagerOp) → ManagerRes o × ManagerState
  | .lock => ((), { s with owner := some tid })
  | .unlock => ((), { s with owner := none })
  | .started => (s.started, s)
  | .setStarted => ((), { s with started := true })
  | .setHdiName2Config hdiName2Config => ((), { s with hdiName2Config })
  | .clear => ((), { s with serviceName2Driver := [] })
  | .makeDriver serviceName hdiConfig =>
    if !env.ok then (false, s) else (true, s.addDriver serviceName hdiConfig)
  | .getSystemAbilityManager | .listenerInstance | .subscribeSystemAbility => (env.ok, s)
  | .watchParameter | .getServiceManager | .newListener => (env.ok, s)
  | .registerServiceStatusListener => (env.ok, s)
  | .serviceName2Driver => (s.serviceName2Driver, s)
  | .find serviceName => (findDriver serviceName s.serviceName2Driver, s)
  | .driver d o => s.drive d env.driver o

def managerEnabled (s : ManagerState) : ManagerOp → Bool
  | .lock => s.owner.isNone
  | _ => true

/-- `systemAbilityId` is the id of a system ability that has come or gone. -/
inductive ManagerCall where
  | start (hdiName2Config : HdiName2Config)
  | onAddSystemAbility (systemAbilityId : Int32)
  | onRemoveSystemAbility (systemAbilityId : Int32)
  | onReceive (serviceName : String) (status : ServiceStatusType)
  | eventCallback (key value : Option String)

/-- `deviceServiceManager` is the id of the manager of all drivers. -/
def managerBody (deviceServiceManager : Int32) : ManagerCall → ManagerProg Unit
  | .start hdiName2Config => Prog.discard (managerStart hdiName2Config)
  | .onAddSystemAbility systemAbilityId =>
    if systemAbilityId ≠ deviceServiceManager then return else subscribeHdiDriverStatus
  | .onRemoveSystemAbility systemAbilityId =>
    if systemAbilityId ≠ deviceServiceManager then return else onAllHdiDisconnect
  | .onReceive serviceName status => onReceive serviceName status
  | .eventCallback key value => eventCallback key value

/-- Notices may come at any time. -/
def managerMachine (deviceServiceManager : Int32) :
    Machine ManagerOp ManagerRes ManagerEnv ManagerState ManagerCall where
  enabled _ o _ s := managerEnabled s o
  handle tid o env s := managerHandle tid env s o
  accept _ s := some s
  body := managerBody deviceServiceManager

abbrev ManagerWorld := World ManagerOp ManagerRes ManagerState ManagerCall
abbrev ManagerEvent := Event ManagerOp ManagerRes ManagerCall
abbrev ManagerConfig := Config ManagerOp ManagerRes ManagerState ManagerCall

end UserIam.Executors
