import UserIam.Ipc.Remote
import UserIam.UserAuth.UserAuthState

/-!
# UserAuthProxy and UserAuthStub

How a client's request reaches the authentication service.  The service is any implementation of the
interface; the proxy is another one, whose functions write a message that the stub carries out.
-/

namespace UserIam.UserAuth

open Conc Ipc

/-! ## 1. What a message holds -/

inductive WireKind where
  | interfaceToken
  | int32
  | uint32
  | uint64
  | uint8Vector
  | uint32Vector
  | remoteObject
  deriving DecidableEq

/-- A remote object is that of a client's callback, or a null pointer. -/
@[reducible] def WireKind.Carrier : WireKind → Type
  | .interfaceToken => String
  | .int32 => Int32
  | .uint32 => UInt32
  | .uint64 => UInt64
  | .uint8Vector => List UInt8
  | .uint32Vector => List UInt32
  | .remoteObject => Option ClientCallback

instance (kind : WireKind) : Inhabited kind.Carrier :=
  match kind with
  | .interfaceToken => ⟨""⟩
  | .int32 => ⟨0⟩
  | .uint32 => ⟨0⟩
  | .uint64 => ⟨0⟩
  | .uint8Vector => ⟨[]⟩
  | .uint32Vector => ⟨[]⟩
  | .remoteObject => ⟨none⟩

abbrev WireItem := ParcelApi.Item WireKind WireKind.Carrier

/-- What the two processes rely on: the parcels, whether `iface_cast` makes a callback of a remote
object, and what the base class of a stub makes of a code that it does not know. -/
structure WireIpc (P : Type) where
  parcel : CheckedApi P WireKind WireKind.Carrier
  ifaceCast : ClientCallback → Bool
  objectStub : UInt32 → P → P → ResultCode × P

def ipcError : ResultCode := 11
def eWriteParcelError : ResultCode := 13
def eReadParcelError : ResultCode := 14
def eGetPowerServiceFailed : ResultCode := 15

/-! ## 2. The interfaces -/

/-- `SetPropertyRequest` as it travels: its key is any number. -/
structure WireSetPropertyRequest where
  authType : AuthType
  key : UInt32
  setInfo : List UInt8
  deriving DecidableEq, Repr

section Interfaces

variable (Op : Type) (Res : Op → Type)

@[ext] structure IUserAuth where
  getAvailableStatus : AuthType → AuthTrustLevel → Prog Op Res ResultCode
  getProperty : GetPropertyRequest → ClientCallback → Prog Op Res Unit
  getPropertyById : Int32 → GetPropertyRequest → ClientCallback → Prog Op Res Unit
  setProperty : WireSetPropertyRequest → ClientCallback → Prog Op Res Unit
  auth : UInt64 → AuthType → AuthTrustLevel → ClientCallback → Prog Op Res UInt64
  authUser : Int32 → UInt64 → AuthType → AuthTrustLevel → ClientCallback → Prog Op Res UInt64
  cancelAuth : UInt64 → Prog Op Res ResultCode
  getVersion : Prog Op Res ResultCode

@[ext] structure IUserAuthCallback where
  onAcquireInfo : Int32 → UInt32 → Int32 → Prog Op Res Unit
  onResult : ResultCode → AuthResult → Prog Op Res Unit
  onExecutorPropertyInfo : ExecutorProperty → Prog Op Res Unit
  onSetExecutorProperty : ResultCode → Prog Op Res Unit

end Interfaces

/-- The same service, with its operations carried out by programs. -/
def IUserAuth.through {Op Op' : Type} {Res : Op → Type} {Res' : Op' → Type}
    (service : IUserAuth Op Res) (f : (o : Op) → Prog Op' Res' (Res o)) : IUserAuth Op' Res' where
  getAvailableStatus authType authTrustLevel :=
    (service.getAvailableStatus authType authTrustLevel).interp f
  getProperty request callback := (service.getProperty request callback).interp f
  getPropertyById userId request callback :=
    (service.getPropertyById userId request callback).interp f
  setProperty request callback := (service.setProperty request callback).interp f
  auth challenge authType authTrustLevel callback :=
    (service.auth challenge authType authTrustLevel callback).interp f
  authUser userId challenge authType authTrustLevel callback :=
    (service.authUser userId challenge authType authTrustLevel callback).interp f
  cancelAuth contextId := (service.cancelAuth contextId).interp f
  getVersion := service.getVersion.interp f

/-- The calls of `IUserAuth` that a message can stand for. -/
inductive UserAuthRequest where
  | getAvailableStatus (authType : AuthType) (authTrustLevel : AuthTrustLevel)
  | getProperty (request : GetPropertyRequest) (callback : ClientCallback)
  | getPropertyById (userId : Int32) (request : GetPropertyRequest) (callback : ClientCallback)
  | setProperty (request : WireSetPropertyRequest) (callback : ClientCallback)
  | auth (challenge : UInt64) (authType : AuthType) (authTrustLevel : AuthTrustLevel)
      (callback : ClientCallback)
  | authUser (userId : Int32) (challenge : UInt64) (authType : AuthType)
      (authTrustLevel : AuthTrustLevel) (callback : ClientCallback)
  | cancelAuth (contextId : UInt64)
  | getVersion

def userAuthDescriptor : String := "ohos.UserIAM.UserAuth.IUserAuth"

def userAuthGetAvailableStatus : UInt32 := 0
def userAuthGetProperty : UInt32 := 1
def userAuthGetPropertyById : UInt32 := 2
def userAuthSetProperty : UInt32 := 3
def userAuthAuth : UInt32 := 4
def userAuthAuthUser : UInt32 := 5
def userAuthCancelAuth : UInt32 := 6
def userAuthGetVersion : UInt32 := 7

def UserAuthRequest.code : UserAuthRequest → UInt32
  | .getAvailableStatus .. => userAuthGetAvailableStatus
  | .getProperty .. => userAuthGetProperty
  | .getPropertyById .. => userAuthGetPropertyById
  | .setProperty .. => userAuthSetProperty
  | .auth .. => userAuthAuth
  | .authUser .. => userAuthAuthUser
  | .cancelAuth _ => userAuthCancelAuth
  | .getVersion => userAuthGetVersion

/-- What the proxy writes behind the token, in this order. -/
def UserAuthRequest.args : UserAuthRequest → List WireItem
  | .getAvailableStatus authType authTrustLevel => [⟨.uint32, authType⟩, ⟨.uint32, authTrustLevel⟩]
  | .getProperty request callback =>
    [⟨.uint32, request.authType⟩, ⟨.uint32Vector, request.keys⟩, ⟨.remoteObject, some callback⟩]
  | .getPropertyById userId request callback =>
    [⟨.int32, userId⟩, ⟨.uint32, request.authType⟩, ⟨.uint32Vector, request.keys⟩,
      ⟨.remoteObject, some callback⟩]
  | .setProperty request callback =>
    [⟨.uint32, request.authType⟩, ⟨.uint32, request.key⟩, ⟨.uint8Vector, request.setInfo⟩,
      ⟨.remoteObject, some callback⟩]
  | .auth challenge authType authTrustLevel callback =>
    [⟨.uint64, challenge⟩, ⟨.uint32, authType⟩, ⟨.uint32, authTrustLevel⟩,
      ⟨.remoteObject, some callback⟩]
  | .authUser userId challenge authType authTrustLevel callback =>
    [⟨.int32, userId⟩, ⟨.uint64, challenge⟩, ⟨.uint32, authType⟩, ⟨.uint32, authTrustLevel⟩,
      ⟨.remoteObject, some callback⟩]
  | .cancelAuth contextId => [⟨.uint64, contextId⟩]
  | .getVersion => []

def UserAuthRequest.message (request : UserAuthRequest) : List WireItem :=
  ⟨.interfaceToken, userAuthDescriptor⟩ :: request.args

/-! ## 3. UserAuthStub -/

section Stub

variable {P Op : Type} {Res : Op → Type} (ipc : WireIpc P) (service : IUserAuth Op Res)

/-- A function of a stub reads its arguments and then knows what to run; it fails at the first
argument that is missing. -/
abbrev StubReader (P Op : Type) (Res : Op → Type) := StateT P Option (Prog Op Res (ResultCode × P))

def writeWireReply (reply : P) (kind : WireKind) (ret : kind.Carrier) : ResultCode × P :=
  (ipc.parcel.write reply kind ret).elim (eWriteParcelError, reply) fun reply => (.success, reply)

/-- The callback is the last argument.  A null object counts as one that is missing. -/
def readCallback (reply : P) (serve : ClientCallback → Prog Op Res (ResultCode × P)) :
    StubReader P Op Res := do
  let obj ← ipc.parcel.tryRead .remoteObject
  obj.elim failure fun obj =>
    pure (if ipc.ifaceCast obj then serve obj else pure (.fail, reply))

def getAvailableStatusStub (reply : P) : StubReader P Op Res := do
  let authType ← ipc.parcel.tryRead .uint32
  let authTrustLevel ← ipc.parcel.tryRead .uint32
  return do
    let ret ← service.getAvailableStatus authType authTrustLevel
    return writeWireReply ipc reply .int32 ret

def getPropertyStub (reply : P) : StubReader P Op Res := do
  let authType ← ipc.parcel.tryRead .uint32
  let keys ← ipc.parcel.tryRead .uint32Vector
  readCallback ipc reply fun callback => do
    service.getProperty ⟨authType, keys⟩ callback
    return (.success, reply)

def getPropertyByIdStub (reply : P) : StubReader P Op Res := do
  let userId ← ipc.parcel.tryRead .int32
  let authType ← ipc.parcel.tryRead .uint32
  let keys ← ipc.parcel.tryRead .uint32Vector
  readCallback ipc reply fun callback => do
    service.getPropertyById userId ⟨authType, keys⟩ callback
    return (.success, reply)

def setPropertyStub (reply : P) : StubReader P Op Res := do
  let authType ← ipc.parcel.tryRead .uint32
  let key ← ipc.parcel.tryRead .uint32
  let setInfo ← ipc.parcel.tryRead .uint8Vector
  readCallback ipc reply fun callback => do
    service.setProperty ⟨authType, key, setInfo⟩ callback
    return (.success, reply)

def authStub (reply : P) : StubReader P Op Res := do
  let challenge ← ipc.parcel.tryRead .uint64
  let authType ← ipc.parcel.tryRead .uint32
  let authTrustLevel ← ipc.parcel.tryRead .uint32
  readCallback ipc reply fun callback => do
    let ret ← service.auth challenge authType authTrustLevel callback
    return writeWireReply ipc reply .uint64 ret

def authUserStub (reply : P) : StubReader P Op Res := do
  let userId ← ipc.parcel.tryRead .int32
  let challenge ← ipc.parcel.tryRead .uint64
  let authType ← ipc.parcel.tryRead .uint32
  let authTrustLevel ← ipc.parcel.tryRead .uint32
  readCallback ipc reply fun callback => do
    let ret ← service.authUser userId challenge authType authTrustLevel callback
    return writeWireReply ipc reply .uint64 ret

def cancelAuthStub (reply : P) : StubReader P Op Res := do
  let contextId ← ipc.parcel.tryRead .uint64
  return do
    let ret ← service.cancelAuth contextId
    return writeWireReply ipc reply .int32 ret

def getVersionStub (reply : P) : StubReader P Op Res :=
  return do
    let ret ← service.getVersion
    return writeWireReply ipc reply .int32 ret

/-- The function for a code, if the interface has one. -/
def userAuthStubOf (code : UInt32) (reply : P) : Option (StubReader P Op Res) :=
  if code = userAuthGetAvailableStatus then some (getAvailableStatusStub ipc service reply)
  else if code = userAuthGetProperty then some (getPropertyStub ipc service reply)
  else if code = userAuthGetPropertyById then some (getPropertyByIdStub ipc service reply)
  else if code = userAuthSetProperty then some (setPropertyStub ipc service reply)
  else if code = userAuthAuth then some (authStub ipc service reply)
  else if code = userAuthAuthUser then some (authUserStub ipc service reply)
  else if code = userAuthCancelAuth then some (cancelAuthStub ipc service reply)
  else if code = userAuthGetVersion then some (getVersionStub ipc service reply)
  else none

/-- What a function of a stub makes of the rest of a message. -/
def runStub (read : StubReader P Op Res) (data reply : P) : Prog Op Res (ResultCode × P) :=
  (read.run data).elim (pure (eReadParcelError, reply)) Prod.fst

/-- What every stub of these interfaces does with a message. -/
def wireOnRemoteRequest (descriptor : String)
    (stubOf : UInt32 → P → Option (StubReader P Op Res)) (code : UInt32) :
    Handler P ResultCode Op Res := fun data reply =>
  let (remoteDescripter, data) := ipc.parcel.read data .interfaceToken
  if descriptor ≠ remoteDescripter then pure (eGetPowerServiceFailed, reply)
  else
    match stubOf code reply with
    | none => pure (ipc.objectStub code data reply)
    | some read => runStub read data reply

def userAuthOnRemoteRequest (code : UInt32) : Handler P ResultCode Op Res :=
  wireOnRemoteRequest ipc userAuthDescriptor (userAuthStubOf ipc service) code

end Stub

/-! ## 4. UserAuthProxy -/

section Proxy

variable {P Op : Type} {Res : Op → Type} (ipc : WireIpc P) (delivery : Delivery)

/-- `SendRequest` of a proxy has succeeded. -/
def sendSucceeded (result : ResultCode) : Bool := result = .success

/-- What is read from a reply, or a value that stands for it. -/
def readWireReply (kind : WireKind) (missing : kind.Carrier) (reply : P) : kind.Carrier :=
  ((ipc.parcel.tryRead kind).run reply).elim missing Prod.fst

/-- A request that waits for its reply. -/
def userAuthCall (service : IUserAuth Op Res) (request : UserAuthRequest) (kind : WireKind)
    (unwritten failed missing : kind.Carrier) : Prog Op Res kind.Carrier :=
  remoteCall ipc.parcel.toParcelApi delivery sendSucceeded
    (userAuthOnRemoteRequest ipc service request.code) request.message unwritten failed
    (readWireReply ipc kind missing)

/-- A request that does not wait. -/
def userAuthPost (service : IUserAuth Op Res) (request : UserAuthRequest)
    (failed : Prog Op Res Unit) : Prog Op Res Unit :=
  remotePost ipc.parcel.toParcelApi delivery (userAuthOnRemoteRequest ipc service request.code)
    request.message failed

/-- `callbacks` is what the client's own callback objects do. -/
def userAuthProxy (callbacks : ClientCallback → IUserAuthCallback Op Res)
    (service : IUserAuth Op Res) : IUserAuth Op Res where
  getAvailableStatus authType authTrustLevel :=
    userAuthCall ipc delivery service (.getAvailableStatus authType authTrustLevel) .int32
      ResultCode.generalError ResultCode.generalError ResultCode.generalError
  getProperty request callback :=
    userAuthPost ipc delivery service (.getProperty request callback)
      ((callbacks callback).onExecutorPropertyInfo { result := ipcError })
  getPropertyById userId request callback :=
    userAuthPost ipc delivery service (.getPropertyById userId request callback)
      ((callbacks callback).onExecutorPropertyInfo { result := ipcError })
  setProperty request callback :=
    userAuthPost ipc delivery service (.setProperty request callback)
      ((callbacks callback).onSetExecutorProperty ipcError)
  auth challenge authType authTrustLevel callback :=
    userAuthCall ipc delivery service (.auth challenge authType authTrustLevel callback) .uint64
      (0 : UInt64) (0 : UInt64) (0 : UInt64)
  authUser userId challenge authType authTrustLevel callback :=
    userAuthCall ipc delivery service (.authUser userId challenge authType authTrustLevel callback)
      .uint64 (0 : UInt64) (0 : UInt64) (0 : UInt64)
  cancelAuth contextId :=
    userAuthCall ipc delivery service (.cancelAuth contextId) .int32 eWriteParcelError ipcError
      ResultCode.generalError
  getVersion :=
    userAuthCall ipc delivery service .getVersion .int32 ResultCode.generalError ipcError
      ResultCode.generalError

end Proxy

/-! ## 5. What the stub makes of a message -/

section Messages

variable {P Op : Type} {Res : Op → Type} {ipc : WireIpc P} {contents : P → List WireItem}
  (hlawful : ipc.parcel.Lawful contents)
include hlawful

/-- Behind the token of its own interface, a stub looks at the rest of the message only. -/
theorem wireOnRemoteRequest_of_contents {descriptor : String}
    {stubOf : UInt32 → P → Option (StubReader P Op Res)} {code : UInt32}
    {read : StubReader P Op Res} {data reply : P} {args : List WireItem}
    (hcode : stubOf code reply = some read)
    (hdata : contents data = ⟨.interfaceToken, descriptor⟩ :: args) :
    ∃ data', contents data' = args ∧
      wireOnRemoteRequest ipc descriptor stubOf code data reply = runStub read data' reply := by
  obtain ⟨data', hread, hargs⟩ := hlawful.toLawful.read_of_contents hdata
  refine ⟨data', hargs, ?_⟩
  simp only [wireOnRemoteRequest, hread, ne_eq, not_true_eq_false, if_false, hcode]

/-- A message that is complete is carried out. -/
theorem wireOnRemoteRequest_complete {descriptor : String}
    {stubOf : UInt32 → P → Option (StubReader P Op Res)} {code : UInt32}
    {read : StubReader P Op Res} {p : Prog Op Res (ResultCode × P)} {data reply : P}
    {args : List WireItem} (hcode : stubOf code reply = some read)
    (hread : Reads contents read args p)
    (hdata : contents data = ⟨.interfaceToken, descriptor⟩ :: args) :
    wireOnRemoteRequest ipc descriptor stubOf code data reply = p := by
  obtain ⟨data', hargs, heq⟩ := wireOnRemoteRequest_of_contents hlawful hcode hdata
  rw [← List.append_nil args] at hargs
  obtain ⟨data'', hrun, -⟩ := hread.complete hargs
  rw [heq, runStub, hrun]
  rfl

/-- A message that is cut off behind the token is refused. -/
theorem wireOnRemoteRequest_cut {descriptor : String}
    {stubOf : UInt32 → P → Option (StubReader P Op Res)} {code : UInt32}
    {read : StubReader P Op Res} {p : Prog Op Res (ResultCode × P)} {data reply : P}
    {args cut : List WireItem} (hcode : stubOf code reply = some read)
    (hread : Reads contents read args p) (hcut : cut <+: args) (hne : cut ≠ args)
    (hdata : contents data = ⟨.interfaceToken, descriptor⟩ :: cut) :
    wireOnRemoteRequest ipc descriptor stubOf code data reply = .ret (eReadParcelError, reply) := by
  obtain ⟨data', hargs, heq⟩ := wireOnRemoteRequest_of_contents hlawful hcode hdata
  rw [heq, runStub, hread.cut (hargs.symm ▸ hcut) (hargs.symm ▸ hne)]
  rfl

theorem readCallback_reads (reply : P) (serve : ClientCallback → Prog Op Res (ResultCode × P))
    (callback : ClientCallback) :
    Reads contents (readCallback ipc reply serve) [⟨.remoteObject, some callback⟩]
      (if ipc.ifaceCast callback then serve callback else pure (.fail, reply)) :=
  (hlawful.reads .remoteObject (some callback)).bind (reads_pure _)

end Messages

section Service

variable {P Op : Type} {Res : Op → Type} {ipc : WireIpc P} {contents : P → List WireItem}
  {service : IUserAuth Op Res}

/-- What the stub runs for a request whose message is complete. -/
def UserAuthRequest.serve (ipc : WireIpc P) (service : IUserAuth Op Res) (reply : P) :
    UserAuthRequest → Prog Op Res (ResultCode × P)
  | .getAvailableStatus authType authTrustLevel =>
    service.getAvailableStatus authType authTrustLevel >>= fun ret =>
      .ret (writeWireReply ipc reply .int32 ret)
  | .getProperty request callback =>
    if ipc.ifaceCast callback then
      service.getProperty request callback >>= fun _ => .ret (.success, reply)
    else .ret (.fail, reply)
  | .getPropertyById userId request callback =>
    if ipc.ifaceCast callback then
      service.getPropertyById userId request callback >>= fun _ => .ret (.success, reply)
    else .ret (.fail, reply)
  | .setProperty request callback =>
    if ipc.ifaceCast callback then
      service.setProperty request callback >>= fun _ => .ret (.success, reply)
    else .ret (.fail, reply)
  | .auth challenge authType authTrustLevel callback =>
    if ipc.ifaceCast callback then
      service.auth challenge authType authTrustLevel callback >>= fun ret =>
        .ret (writeWireReply ipc reply .uint64 ret)
    else .ret (.fail, reply)
  | .authUser userId challenge authType authTrustLevel callback =>
    if ipc.ifaceCast callback then
      service.authUser userId challenge authType authTrustLevel callback >>= fun ret =>
        .ret (writeWireReply ipc reply .uint64 ret)
    else .ret (.fail, reply)
  | .cancelAuth contextId =>
    service.cancelAuth contextId >>= fun ret => .ret (writeWireReply ipc reply .int32 ret)
  | .getVersion => service.getVersion >>= fun ret => .ret (writeWireReply ipc reply .int32 ret)

variable (service) in
/-- The stub reads back what the proxy has written. -/
theorem UserAuthRequest.reads (hlawful : ipc.parcel.Lawful contents) (request : UserAuthRequest)
    (reply : P) :
    ∃ read, userAuthStubOf ipc service request.code reply = some read ∧
      Reads contents read request.args (request.serve ipc service reply) := by
  have harg (kind : WireKind) (v : kind.Carrier) := hlawful.reads kind v
  have hcallback (serve : ClientCallback → Prog Op Res (ResultCode × P)) (obj : ClientCallback) :=
    readCallback_reads hlawful reply serve obj
  cases request with
  | getAvailableStatus authType authTrustLevel =>
    exact ⟨_, rfl, (harg _ _).bind ((harg _ _).bind (reads_pure _))⟩
  | getProperty request callback =>
    exact ⟨_, rfl, (harg _ _).bind ((harg _ _).bind (hcallback _ _))⟩
  | getPropertyById userId request callback =>
    exact ⟨_, rfl, (harg _ _).bind ((harg _ _).bind ((harg _ _).bind (hcallback _ _)))⟩
  | setProperty request callback =>
    exact ⟨_, rfl, (harg _ _).bind ((harg _ _).bind ((harg _ _).bind (hcallback _ _)))⟩
  | auth challenge authType authTrustLevel callback =>
    exact ⟨_, rfl, (harg _ _).bind ((harg _ _).bind ((harg _ _).bind (hcallback _ _)))⟩
  | authUser userId challenge authType authTrustLevel callback =>
    refine ⟨_, rfl, (harg _ _).bind ((harg _ _).bind ((harg _ _).bind ?_))⟩
    exact (harg _ _).bind (hcallback _ _)
  | cancelAuth contextId => exact ⟨_, rfl, (harg _ _).bind (reads_pure _)⟩
  | getVersion => exact ⟨_, rfl, reads_pure _⟩

theorem userAuthOnRemoteRequest_message (hlawful : ipc.parcel.Lawful contents)
    (request : UserAuthRequest) {data reply : P} (hdata : contents data = request.message) :
    userAuthOnRemoteRequest ipc service request.code data reply =
      request.serve ipc service reply := by
  obtain ⟨read, hcode, hread⟩ := request.reads service hlawful reply
  exact wireOnRemoteRequest_complete hlawful hcode hread hdata

/-- **A message that is cut off is refused**: nothing of the service runs, and the reply stays as it
is. -/
theorem userAuthOnRemoteRequest_cut (hlawful : ipc.parcel.Lawful contents)
    (request : UserAuthRequest) {cut : List WireItem} (hcut : cut <+: request.args)
    (hne : cut ≠ request.args) {data reply : P}
    (hdata : contents data = ⟨.interfaceToken, userAuthDescriptor⟩ :: cut) :
    userAuthOnRemoteRequest ipc service request.code data reply =
      .ret (eReadParcelError, reply) := by
  obtain ⟨read, hcode, hread⟩ := request.reads service hlawful reply
  exact wireOnRemoteRequest_cut hlawful hcode hread hcut hne hdata

end Service

/-- The parcels are lists, and every remote object is a callback. -/
def listIpc : WireIpc (List WireItem) where
  parcel := CheckedApi.ofList
  ifaceCast := fun _ => true
  objectStub := fun _ _ reply => (.fail, reply)

@[reducible] def UserAuthRequest.Reply : UserAuthRequest → Type
  | .getAvailableStatus .. | .cancelAuth _ | .getVersion => ResultCode
  | .getProperty .. | .getPropertyById .. | .setProperty .. => Unit
  | .auth .. | .authUser .. => UInt64

/-- The service whose functions only record that they are called. -/
def recordingService : IUserAuth UserAuthRequest UserAuthRequest.Reply where
  getAvailableStatus authType authTrustLevel :=
    Prog.op (UserAuthRequest.getAvailableStatus authType authTrustLevel)
  getProperty request callback := Prog.op (UserAuthRequest.getProperty request callback)
  getPropertyById userId request callback :=
    Prog.op (UserAuthRequest.getPropertyById userId request callback)
  setProperty request callback := Prog.op (UserAuthRequest.setProperty request callback)
  auth challenge authType authTrustLevel callback :=
    Prog.op (UserAuthRequest.auth challenge authType authTrustLevel callback)
  authUser userId challenge authType authTrustLevel callback :=
    Prog.op (UserAuthRequest.authUser userId challenge authType authTrustLevel callback)
  cancelAuth contextId := Prog.op (UserAuthRequest.cancelAuth contextId)
  getVersion := Prog.op UserAuthRequest.getVersion

def idleCallback : IUserAuthCallback UserAuthRequest UserAuthRequest.Reply where
  onAcquireInfo _ _ _ := .ret ()
  onResult _ _ := .ret ()
  onExecutorPropertyInfo _ := .ret ()
  onSetExecutorProperty _ := .ret ()

/-- The message of an authentication without its trust level and its callback. -/
def authMessageCut : List WireItem := [⟨.uint64, (7 : UInt64)⟩, ⟨.uint32, AuthType.pin⟩]

theorem userAuthOnRemoteRequest_cut_auth :
    userAuthOnRemoteRequest listIpc recordingService userAuthAuth
      (⟨.interfaceToken, userAuthDescriptor⟩ :: authMessageCut) [] = .ret (eReadParcelError, []) :=
  userAuthOnRemoteRequest_cut CheckedApi.ofList_lawful (.auth 7 .pin atl1 3)
    (List.prefix_append authMessageCut _) (fun h => absurd (congrArg List.length h) (by decide)) rfl

/-! ## 6. What the proxy makes of the service -/

section Transparency

variable {P Op : Type} {Res : Op → Type} {ipc : WireIpc P} {contents : P → List WireItem}
  {delivery : Delivery} {service : IUserAuth Op Res}

/-- What the stub has written into the reply is what the proxy reads there. -/
theorem wireReply_givesBack (hlawful : ipc.parcel.Lawful contents) {kind : WireKind}
    (missing : kind.Carrier) :
    GivesBack sendSucceeded (writeWireReply ipc ipc.parcel.empty kind)
      (readWireReply ipc kind missing) := by
  intro ret hok
  rw [writeWireReply] at hok ⊢
  cases hwrite : ipc.parcel.write ipc.parcel.empty kind ret with
  | none =>
    rw [hwrite] at hok
    exact absurd (show sendSucceeded eWriteParcelError = true from hok) (by decide)
  | some reply =>
    have hreply := hlawful.write hwrite
    rw [hlawful.empty, List.nil_append] at hreply
    obtain ⟨_, hread, -⟩ := hlawful.tryRead hreply
    rw [Option.elim_some, readWireReply, hread]
    rfl

theorem writeWireReply_accepts (haccepts : ipc.parcel.Accepts) (reply : P) (kind : WireKind)
    (ret : kind.Carrier) : sendSucceeded (writeWireReply ipc reply kind ret).1 = true := by
  obtain ⟨reply', hwrite⟩ := haccepts.write reply kind ret
  rw [writeWireReply, hwrite]
  rfl

section Call

variable {request : UserAuthRequest} {kind : WireKind} {p : Prog Op Res kind.Carrier}
  {unwritten failed missing : kind.Carrier}

/-- The request answers its message with the value of `p`. -/
def UserAuthRequest.Answers (ipc : WireIpc P) (service : IUserAuth Op Res)
    (request : UserAuthRequest) (kind : WireKind) (p : Prog Op Res kind.Carrier) : Prop :=
  request.serve ipc service ipc.parcel.empty =
    p >>= fun ret => .ret (writeWireReply ipc ipc.parcel.empty kind ret)

theorem UserAuthRequest.Answers.handles (h : request.Answers ipc service kind p)
    (hlawful : ipc.parcel.Lawful contents) :
    Handles ipc.parcel.toParcelApi contents (userAuthOnRemoteRequest ipc service request.code)
      request.message p (writeWireReply ipc ipc.parcel.empty kind) :=
  fun _ hdata => (userAuthOnRemoteRequest_message hlawful request hdata).trans h

theorem userAuthCall_eq (h : request.Answers ipc service kind p)
    (hlawful : ipc.parcel.Lawful contents) (haccepts : ipc.parcel.Accepts) :
    userAuthCall ipc .answered service request kind unwritten failed missing = p :=
  remoteCall_eq hlawful.toLawful haccepts (h.handles hlawful) (wireReply_givesBack hlawful missing)
    (writeWireReply_accepts haccepts _ _)

variable (request kind) {err : kind.Carrier → Prop}

theorem userAuthCall_atMostOnce (h : request.Answers ipc service kind p)
    (hlawful : ipc.parcel.Lawful contents) (hunwritten : err unwritten) (hfailed : err failed) :
    AtMostOnce err p
      (userAuthCall ipc delivery service request kind unwritten failed missing) :=
  remoteCall_atMostOnce hlawful.toLawful (h.handles hlawful) (wireReply_givesBack hlawful missing)
    hunwritten hfailed

/-- A request whose callback is not one for the service is an error. -/
theorem userAuthCall_refused {reply : P}
    (h : request.serve ipc service ipc.parcel.empty = .ret (.fail, reply))
    (hlawful : ipc.parcel.Lawful contents) (hunwritten : err unwritten) (hfailed : err failed) :
    AtMostOnce err p
      (userAuthCall ipc delivery service request kind unwritten failed missing) :=
  .inl (remoteCall_refused hlawful.toLawful
    (fun _ hdata => (userAuthOnRemoteRequest_message hlawful request hdata).trans h) rfl hunwritten
    hfailed)

end Call

section Post

variable {request : UserAuthRequest} {p failed : Prog Op Res Unit}

theorem userAuthPost_eq {status : ResultCode}
    (h : request.serve ipc service ipc.parcel.empty =
      p >>= fun _ => .ret (status, ipc.parcel.empty))
    (hlawful : ipc.parcel.Lawful contents) :
    userAuthPost ipc delivery service request failed =
      if (ipc.parcel.message request.message).isNone then .ret ()
      else if delivery = .lost then failed else p := by
  have hhandler : Handles ipc.parcel.toParcelApi contents
      (userAuthOnRemoteRequest ipc service request.code) request.message p
      fun _ => (status, ipc.parcel.empty) :=
    fun _ hdata => (userAuthOnRemoteRequest_message hlawful request hdata).trans h
  exact remotePost_eq hlawful.toLawful hhandler

theorem userAuthPost_answered (h : request.serve ipc service ipc.parcel.empty =
      p >>= fun _ => .ret (.success, ipc.parcel.empty))
    (hlawful : ipc.parcel.Lawful contents) (haccepts : ipc.parcel.Accepts) :
    userAuthPost ipc .answered service request failed = p := by
  obtain ⟨data, hdata⟩ := haccepts.message request.message
  rw [userAuthPost_eq h hlawful, hdata]
  rfl

/-- The service may also refuse the callback. -/
theorem userAuthPost_posted {cast : Bool}
    (h : request.serve ipc service ipc.parcel.empty =
      if cast then p >>= fun _ => .ret (.success, ipc.parcel.empty)
      else .ret (.fail, ipc.parcel.empty))
    (hlawful : ipc.parcel.Lawful contents) :
    Posted failed p (userAuthPost ipc delivery service request failed) := by
  have hhandler {p : Prog Op Res Unit} {status : ResultCode}
      (h : request.serve ipc service ipc.parcel.empty =
        p >>= fun _ => .ret (status, ipc.parcel.empty)) :
      Handles ipc.parcel.toParcelApi contents
        (userAuthOnRemoteRequest ipc service request.code) request.message p
        fun _ => (status, ipc.parcel.empty) :=
    fun _ hdata => (userAuthOnRemoteRequest_message hlawful request hdata).trans h
  cases cast with
  | true => exact remotePost_posted hlawful.toLawful (hhandler h)
  | false => exact (remotePost_posted hlawful.toLawful (hhandler (p := .ret ()) h)).of_ret

end Post

/-- **The proxy is the service** when nothing is lost: every function of the proxy is the function
of the service with the same arguments. -/
theorem userAuthProxy_eq (hlawful : ipc.parcel.Lawful contents) (haccepts : ipc.parcel.Accepts)
    (hcast : ∀ callback, ipc.ifaceCast callback = true)
    (callbacks : ClientCallback → IUserAuthCallback Op Res) (service : IUserAuth Op Res) :
    userAuthProxy ipc .answered callbacks service = service := by
  ext
  · exact userAuthCall_eq rfl hlawful haccepts
  · exact userAuthPost_answered (if_pos (hcast _)) hlawful haccepts
  · exact userAuthPost_answered (if_pos (hcast _)) hlawful haccepts
  · exact userAuthPost_answered (if_pos (hcast _)) hlawful haccepts
  · exact userAuthCall_eq (if_pos (hcast _)) hlawful haccepts
  · exact userAuthCall_eq (if_pos (hcast _)) hlawful haccepts
  · exact userAuthCall_eq rfl hlawful haccepts
  · exact userAuthCall_eq rfl hlawful haccepts

theorem userAuthProxy_recordingService :
    userAuthProxy listIpc .answered (fun _ => idleCallback) recordingService =
      recordingService :=
  userAuthProxy_eq CheckedApi.ofList_lawful ParcelApi.ofList_accepts (fun _ => rfl) _ _

/-- What a client can rely on when writes fail and messages get lost: a request is carried out once
or not at all, and the client takes an error for a success in neither case. -/
structure BestEffort (callbacks : ClientCallback → IUserAuthCallback Op Res)
    (service proxy : IUserAuth Op Res) : Prop where
  getAvailableStatus : ∀ authType authTrustLevel, AtMostOnce (· = .generalError)
    (service.getAvailableStatus authType authTrustLevel)
    (proxy.getAvailableStatus authType authTrustLevel)
  getProperty : ∀ request callback,
    Posted ((callbacks callback).onExecutorPropertyInfo { result := ipcError })
      (service.getProperty request callback) (proxy.getProperty request callback)
  getPropertyById : ∀ userId request callback,
    Posted ((callbacks callback).onExecutorPropertyInfo { result := ipcError })
      (service.getPropertyById userId request callback)
      (proxy.getPropertyById userId request callback)
  setProperty : ∀ request callback,
    Posted ((callbacks callback).onSetExecutorProperty ipcError)
      (service.setProperty request callback) (proxy.setProperty request callback)
  auth : ∀ challenge authType authTrustLevel callback, AtMostOnce (· = 0)
    (service.auth challenge authType authTrustLevel callback)
    (proxy.auth challenge authType authTrustLevel callback)
  authUser : ∀ userId challenge authType authTrustLevel callback, AtMostOnce (· = 0)
    (service.authUser userId challenge authType authTrustLevel callback)
    (proxy.authUser userId challenge authType authTrustLevel callback)
  cancelAuth : ∀ contextId, AtMostOnce (fun ret => ret = eWriteParcelError ∨ ret = ipcError)
    (service.cancelAuth contextId) (proxy.cancelAuth contextId)
  getVersion : AtMostOnce (fun ret => ret = .generalError ∨ ret = ipcError) service.getVersion
    proxy.getVersion

theorem userAuthProxy_auth (hlawful : ipc.parcel.Lawful contents) (delivery : Delivery)
    (callbacks : ClientCallback → IUserAuthCallback Op Res) (service : IUserAuth Op Res)
    (challenge : UInt64) (authType : AuthType) (authTrustLevel : AuthTrustLevel)
    (callback : ClientCallback) :
    AtMostOnce (· = 0) (service.auth challenge authType authTrustLevel callback)
      ((userAuthProxy ipc delivery callbacks service).auth challenge authType authTrustLevel
        callback) := by
  cases hcast : ipc.ifaceCast callback with
  | true =>
    exact userAuthCall_atMostOnce (.auth challenge authType authTrustLevel callback) .uint64
      (if_pos hcast) hlawful rfl rfl
  | false =>
    exact userAuthCall_refused (.auth challenge authType authTrustLevel callback) .uint64
      (if_neg (Bool.eq_false_iff.mp hcast)) hlawful rfl rfl

theorem userAuthProxy_authUser (hlawful : ipc.parcel.Lawful contents) (delivery : Delivery)
    (callbacks : ClientCallback → IUserAuthCallback Op Res) (service : IUserAuth Op Res)
    (userId : Int32) (challenge : UInt64) (authType : AuthType) (authTrustLevel : AuthTrustLevel)
    (callback : ClientCallback) :
    AtMostOnce (· = 0) (service.authUser userId challenge authType authTrustLevel callback)
      ((userAuthProxy ipc delivery callbacks service).authUser userId challenge authType
        authTrustLevel callback) := by
  cases hcast : ipc.ifaceCast callback with
  | true =>
    exact userAuthCall_atMostOnce (.authUser userId challenge authType authTrustLevel callback)
      .uint64 (if_pos hcast) hlawful rfl rfl
  | false =>
    exact userAuthCall_refused (.authUser userId challenge authType authTrustLevel callback)
      .uint64 (if_neg (Bool.eq_false_iff.mp hcast)) hlawful rfl rfl

/-- **The proxy over a lossy connection.** -/
theorem userAuthProxy_bestEffort (hlawful : ipc.parcel.Lawful contents) (delivery : Delivery)
    (callbacks : ClientCallback → IUserAuthCallback Op Res) (service : IUserAuth Op Res) :
    BestEffort callbacks service (userAuthProxy ipc delivery callbacks service) where
  getAvailableStatus authType authTrustLevel :=
    userAuthCall_atMostOnce (.getAvailableStatus authType authTrustLevel) .int32 rfl hlawful rfl rfl
  getProperty _ _ := userAuthPost_posted rfl hlawful
  getPropertyById _ _ _ := userAuthPost_posted rfl hlawful
  setProperty _ _ := userAuthPost_posted rfl hlawful
  auth := userAuthProxy_auth hlawful delivery callbacks service
  authUser := userAuthProxy_authUser hlawful delivery callbacks service
  cancelAuth contextId :=
    userAuthCall_atMostOnce (.cancelAuth contextId) .int32 rfl hlawful (.inl rfl) (.inr rfl)
  getVersion := userAuthCall_atMostOnce .getVersion .int32 rfl hlawful (.inl rfl) (.inr rfl)

end Transparency

theorem userAuthProxy_bestEffort_lost :
    BestEffort (fun _ => idleCallback) recordingService
      (userAuthProxy listIpc .lost (fun _ => idleCallback) recordingService) :=
  userAuthProxy_bestEffort CheckedApi.ofList_lawful _ _ _

end UserIam.UserAuth
