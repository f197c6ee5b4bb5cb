import UserIam.CoAuth.AuthResManager
import UserIam.CoAuth.ExecutorCallbackStub
import UserIam.Ipc.Remote

/-!
# CoAuthProxy and CoAuthStub

How an executor's process reaches the service that executors register with, and how that service
reaches the executor's callback when the messenger is ready.  The stubs do not look at whether a
read succeeds; what they look at is whether there is a callback or a messenger.
-/

namespace UserIam.CoAuth

open Conc

/-! ## 1. What a message holds -/

inductive CoAuthKind where
  | interfaceToken
  | int32
  | uint32
  | uint64
  | uint8Vector
  | uint64Vector
  | remoteObject
  deriving DecidableEq

/-- A remote object is that of a callback or of a messenger, or a null pointer. -/
@[reducible] def CoAuthKind.Carrier : CoAuthKind → Type
  | .interfaceToken => String
  | .int32 => Int32
  | .uint32 => UInt32
  | .uint64 => UInt64
  | .uint8Vector => List UInt8
  | .uint64Vector => List UInt64
  | .remoteObject => Option Nat

instance (kind : CoAuthKind) : Inhabited kind.Carrier :=
  match kind with
  | .interfaceToken => ⟨""⟩
  | .int32 => ⟨0⟩
  | .uint32 => ⟨0⟩
  | .uint64 => ⟨0⟩
  | .uint8Vector => ⟨[]⟩
  | .uint64Vector => ⟨[]⟩
  | .remoteObject => ⟨none⟩

abbrev CoAuthItem := Ipc.ParcelApi.Item CoAuthKind CoAuthKind.Carrier

/-- What the two processes rely on: the parcels, whether `iface_cast` makes an interface of a remote
object, and what the base class of a stub makes of a code that it does not know. -/
structure CoAuthIpc (P : Type) where
  parcel : Ipc.CheckedApi P CoAuthKind CoAuthKind.Carrier
  ifaceCast : Nat → Bool
  objectStub : UInt32 → P → P → ResultCode × P

/-- The executor as it travels. -/
structure WireAuthExecutor extends ResAuthExecutor where
  deviceId : List UInt8

/-- The identity of the callback that a status is told to. -/
abbrev QueryCallback := Nat

/-- What `WriteAuthExecutor` writes, in this order; enumerations travel as signed numbers. -/
def WireAuthExecutor.items (executorInfo : WireAuthExecutor) : List CoAuthItem :=
  [⟨.int32, executorInfo.authType.toInt32⟩, ⟨.uint64, executorInfo.authAbility⟩,
    ⟨.int32, executorInfo.executorSecLevel.toInt32⟩, ⟨.int32, executorInfo.executorType.toInt32⟩,
    ⟨.uint8Vector, executorInfo.publicKey⟩, ⟨.uint8Vector, executorInfo.deviceId⟩]

/-! ## 2. CoAuthStub -/

section Interface

variable (Op : Type) (Res : Op → Type)

@[ext] structure ICoAuth where
  register : WireAuthExecutor → ExecutorCallback → Prog Op Res UInt64
  queryStatus : WireAuthExecutor → QueryCallback → Prog Op Res Unit

end Interface

inductive CoAuthRequest where
  | register (executorInfo : WireAuthExecutor) (callback : ExecutorCallback)
  | queryStatus (executorInfo : WireAuthExecutor) (callback : QueryCallback)

def coAuthDescriptor : String := "ohos.CoAuth.ICoAuth"

def coauthExecutorRegist : UInt32 := 0
def coauthQueryStatus : UInt32 := 1

namespace CoAuthRequest

def code : CoAuthRequest → UInt32
  | .register .. => coauthExecutorRegist
  | .queryStatus .. => coauthQueryStatus

def args : CoAuthRequest → List CoAuthItem
  | .register executorInfo callback => executorInfo.items ++ [⟨.remoteObject, some callback⟩]
  | .queryStatus executorInfo callback => executorInfo.items ++ [⟨.remoteObject, some callback⟩]

def message (request : CoAuthRequest) : List CoAuthItem :=
  ⟨.interfaceToken, coAuthDescriptor⟩ :: request.args

end CoAuthRequest

/-- The codes of this process start at zero. -/
def coAuthGetPowerServiceFailed : ResultCode := 3

section Stub

variable {P Op : Type} {Res : Op → Type} (ipc : CoAuthIpc P) (service : ICoAuth Op Res)

def readAuthExecutor (data : P) : WireAuthExecutor × P :=
  let (authType, data) := ipc.parcel.read data .int32
  let (authAbility, data) := ipc.parcel.read data .uint64
  let (executorSecLevel, data) := ipc.parcel.read data .int32
  let (executorType, data) := ipc.parcel.read data .int32
  let (publicKey, data) := ipc.parcel.read data .uint8Vector
  let (deviceId, data) := ipc.parcel.read data .uint8Vector
  ({ authType := authType.toUInt32, authAbility, executorSecLevel := executorSecLevel.toUInt32,
     executorType := executorType.toUInt32, publicKey, deviceId }, data)

/-- The object that a message brings, if it is one of the interface that is asked for. -/
def readRemote (data : P) : Option Nat :=
  (ipc.parcel.read data .remoteObject).1.filter ipc.ifaceCast

def writeExecutorId (reply : P) (ret : UInt64) : ResultCode × P :=
  (ipc.parcel.write reply .uint64 ret).elim (.fail, reply) fun reply => (.success, reply)

def registerStub (data reply : P) : Prog Op Res (ResultCode × P) :=
  let (executorInfo, data) := readAuthExecutor ipc data
  (readRemote ipc data).elim (pure (.fail, reply)) fun callback => do
    let ret ← service.register executorInfo callback
    return writeExecutorId ipc reply ret

def queryStatusStub (data reply : P) : Prog Op Res (ResultCode × P) :=
  let (executorInfo, data) := readAuthExecutor ipc data
  (readRemote ipc data).elim (pure (.fail, reply)) fun callback => do
    service.queryStatus executorInfo callback
    return (.success, reply)

def coAuthOnRemoteRequest (code : UInt32) : Ipc.Handler P ResultCode Op Res := fun data reply =>
  let (remoteDescripter, data) := ipc.parcel.read data .interfaceToken
  if coAuthDescriptor ≠ remoteDescripter then pure (coAuthGetPowerServiceFailed, reply)
  else if code = coauthExecutorRegist then registerStub ipc service data reply
  else if code = coauthQueryStatus then queryStatusStub ipc service data reply
  else pure (ipc.objectStub code data reply)

end Stub

/-! ## 3. CoAuthProxy -/

section Proxy

variable {P Op : Type} {Res : Op → Type} (ipc : CoAuthIpc P) (delivery : Ipc.Delivery)

/-- `SendRequest` of a proxy has succeeded. -/
def coAuthSucceeded (result : ResultCode) : Bool := result = .success

def readExecutorId (reply : P) : UInt64 :=
  ((ipc.parcel.tryRead .uint64).run reply).elim 0 Prod.fst

def coAuthProxy (service : ICoAuth Op Res) : ICoAuth Op Res where
  register executorInfo callback :=
    Ipc.remoteCall ipc.parcel.toParcelApi delivery coAuthSucceeded
      (coAuthOnRemoteRequest ipc service coauthExecutorRegist)
      (CoAuthRequest.register executorInfo callback).message 0 0 (readExecutorId ipc)
  queryStatus executorInfo callback :=
    Ipc.remotePost ipc.parcel.toParcelApi delivery
      (coAuthOnRemoteRequest ipc service coauthQueryStatus)
      (CoAuthRequest.queryStatus executorInfo callback).message (.ret ())

end Proxy

/-! ## 4. What the stub makes of a message -/

section Messages

variable {P Op : Type} {Res : Op → Type} {ipc : CoAuthIpc P} {contents : P → List CoAuthItem}
  {service : ICoAuth Op Res} {data reply : P}

/-- The stub reads the executor that the proxy has written. -/
theorem readAuthExecutor_items (hlawful : ipc.parcel.Lawful contents)
    (executorInfo : WireAuthExecutor) {rest : List CoAuthItem}
    (hdata : contents data = executorInfo.items ++ rest) :
    ∃ data', readAuthExecutor ipc data = (executorInfo, data') ∧ contents data' = rest := by
  obtain ⟨data₁, hauthType, hdata₁⟩ := hlawful.toLawful.read_of_contents hdata
  obtain ⟨data₂, hability, hdata₂⟩ := hlawful.toLawful.read_of_contents hdata₁
  obtain ⟨data₃, hlevel, hdata₃⟩ := hlawful.toLawful.read_of_contents hdata₂
  obtain ⟨data₄, htype, hdata₄⟩ := hlawful.toLawful.read_of_contents hdata₃
  obtain ⟨data₅, hkey, hdata₅⟩ := hlawful.toLawful.read_of_contents hdata₄
  obtain ⟨data₆, hdevice, hdata₆⟩ := hlawful.toLawful.read_of_contents hdata₅
  refine ⟨data₆, ?_, hdata₆⟩
  simp only [readAuthExecutor, hauthType, hability, hlevel, htype, hkey, hdevice,
    UInt32.toUInt32_toInt32]

/-- Of a message that is cut off anywhere before its end, the last object is missing. -/
theorem readAuthExecutor_cut (hlawful : ipc.parcel.Lawful contents)
    (hpast : ipc.parcel.PastEnd contents) (executorInfo : WireAuthExecutor) {obj : Option Nat}
    (hdata : Ipc.ParcelApi.Cut contents data (executorInfo.items ++ [⟨.remoteObject, obj⟩])) :
    readRemote ipc (readAuthExecutor ipc data).2 = none := by
  have hdata₁ := hlawful.toLawful.read_cut hpast hdata (List.cons_ne_nil _ _)
  have hdata₂ := hlawful.toLawful.read_cut hpast hdata₁ (List.cons_ne_nil _ _)
  have hdata₃ := hlawful.toLawful.read_cut hpast hdata₂ (List.cons_ne_nil _ _)
  have hdata₄ := hlawful.toLawful.read_cut hpast hdata₃ (List.cons_ne_nil _ _)
  have hdata₅ := hlawful.toLawful.read_cut hpast hdata₄ (List.cons_ne_nil _ _)
  have hdata₆ := hlawful.toLawful.read_cut hpast hdata₅ (List.cons_ne_nil _ _)
  have hnull : (ipc.parcel.read (readAuthExecutor ipc data).2 .remoteObject).1 = none :=
    hpast.read_last hdata₆
  rw [readRemote, hnull]
  rfl

/-- The function for the code of a request. -/
def CoAuthRequest.stub (ipc : CoAuthIpc P) (service : ICoAuth Op Res) :
    CoAuthRequest → Ipc.Handler P ResultCode Op Res
  | .register .. => registerStub ipc service
  | .queryStatus .. => queryStatusStub ipc service

/-- Behind the token of its own interface, the stub looks at the rest of the message only. -/
theorem coAuthOnRemoteRequest_of_contents (hlawful : ipc.parcel.Lawful contents)
    (request : CoAuthRequest) {args : List CoAuthItem}
    (hdata : contents data = ⟨.interfaceToken, coAuthDescriptor⟩ :: args) :
    ∃ data', contents data' = args ∧
      coAuthOnRemoteRequest ipc service request.code data reply =
        request.stub ipc service data' reply := by
  have hcode : coauthQueryStatus ≠ coauthExecutorRegist := by decide
  obtain ⟨data', hread, hargs⟩ := hlawful.toLawful.read_of_contents hdata
  refine ⟨data', hargs, ?_⟩
  simp only [coAuthOnRemoteRequest, hread, ne_eq, not_true_eq_false, if_false]
  cases request with
  | register => exact if_pos rfl
  | queryStatus => exact (if_neg hcode).trans (if_pos rfl)

/-- What the stub runs for a request whose message is complete. -/
def CoAuthRequest.serve (ipc : CoAuthIpc P) (service : ICoAuth Op Res) (reply : P) :
    CoAuthRequest → Prog Op Res (ResultCode × P)
  | .register executorInfo callback =>
    if ipc.ifaceCast callback then
      service.register executorInfo callback >>= fun ret => .ret (writeExecutorId ipc reply ret)
    else .ret (.fail, reply)
  | .queryStatus executorInfo callback =>
    if ipc.ifaceCast callback then
      service.queryStatus executorInfo callback >>= fun _ => .ret (.success, reply)
    else .ret (.fail, reply)

theorem readRemote_eq (hlawful : ipc.parcel.Lawful contents) {obj : Nat}
    (hdata : contents data = [⟨.remoteObject, some obj⟩]) :
    readRemote ipc data = if ipc.ifaceCast obj then some obj else none := by
  obtain ⟨data', hread, -⟩ := hlawful.toLawful.read_of_contents hdata
  rw [readRemote, hread]
  by_cases hcast : ipc.ifaceCast obj = true
  · rw [if_pos hcast, Option.filter_some_pos hcast]
  · rw [if_neg hcast, Option.filter_some_neg (Bool.eq_false_iff.mpr hcast)]

theorem coAuthOnRemoteRequest_message (hlawful : ipc.parcel.Lawful contents)
    (request : CoAuthRequest) (hdata : contents data = request.message) :
    coAuthOnRemoteRequest ipc service request.code data reply =
      request.serve ipc service reply := by
  obtain ⟨data', hargs, heq⟩ := coAuthOnRemoteRequest_of_contents hlawful request hdata
  rw [heq]
  cases request with
  | register executorInfo callback =>
    obtain ⟨data'', hinfo, hobj⟩ := readAuthExecutor_items hlawful executorInfo hargs
    rw [CoAuthRequest.stub, registerStub, hinfo]
    dsimp only
    rw [readRemote_eq hlawful hobj, CoAuthRequest.serve]
    split <;> rfl
  | queryStatus executorInfo callback =>
    obtain ⟨data'', hinfo, hobj⟩ := readAuthExecutor_items hlawful executorInfo hargs
    rw [CoAuthRequest.stub, queryStatusStub, hinfo]
    dsimp only
    rw [readRemote_eq hlawful hobj, CoAuthRequest.serve]
    split <;> rfl

/-- **A message that is cut off is refused**, although no read of the stub is checked: the object at
its end is missing. -/
theorem coAuthOnRemoteRequest_cut (hlawful : ipc.parcel.Lawful contents)
    (hpast : ipc.parcel.PastEnd contents) (service : ICoAuth Op Res) (request : CoAuthRequest)
    {cut : List CoAuthItem} (hcut : cut <+: request.args) (hne : cut ≠ request.args)
    (hdata : contents data = ⟨.interfaceToken, coAuthDescriptor⟩ :: cut) (reply : P) :
    coAuthOnRemoteRequest ipc service request.code data reply = .ret (.fail, reply) := by
  obtain ⟨data', hargs, heq⟩ := coAuthOnRemoteRequest_of_contents hlawful request hdata
  have hcut' : Ipc.ParcelApi.Cut contents data' request.args := by
    rw [Ipc.ParcelApi.Cut, hargs]
    exact ⟨hcut, hne⟩
  rw [heq]
  cases request with
  | register executorInfo callback =>
    rw [CoAuthRequest.stub, registerStub]
    dsimp only
    rw [readAuthExecutor_cut hlawful hpast executorInfo hcut']
    rfl
  | queryStatus executorInfo callback =>
    rw [CoAuthRequest.stub, queryStatusStub]
    dsimp only
    rw [readAuthExecutor_cut hlawful hpast executorInfo hcut']
    rfl

end Messages

/-- The parcels are lists, and every remote object is of the interface. -/
def listCoAuthIpc : CoAuthIpc (List CoAuthItem) where
  parcel := Ipc.CheckedApi.ofList
  ifaceCast := fun _ => true
  objectStub := fun _ _ reply => (.fail, reply)

@[reducible] def CoAuthRequest.Reply : CoAuthRequest → Type
  | .register .. => UInt64
  | .queryStatus .. => Unit

/-- The service whose functions only record that they are called. -/
def recordingCoAuth : ICoAuth CoAuthRequest CoAuthRequest.Reply where
  register executorInfo callback := Prog.op (CoAuthRequest.register executorInfo callback)
  queryStatus executorInfo callback := Prog.op (CoAuthRequest.queryStatus executorInfo callback)

def faceExecutor : WireAuthExecutor := ⟨⟨⟨.face⟩, 1, 2, 3, List.replicate publicKeyLen 7⟩, []⟩

/-- Everything but the callback has arrived. -/
theorem coAuthOnRemoteRequest_cut_register :
    coAuthOnRemoteRequest listCoAuthIpc recordingCoAuth coauthExecutorRegist
      (⟨.interfaceToken, coAuthDescriptor⟩ :: faceExecutor.items) [] = .ret (.fail, []) := by
  have hlawful : listCoAuthIpc.parcel.Lawful fun p => p := Ipc.CheckedApi.ofList_lawful
  have hpast : listCoAuthIpc.parcel.PastEnd fun p => p := Ipc.ParcelApi.ofList_pastEnd
  exact coAuthOnRemoteRequest_cut hlawful hpast recordingCoAuth (.register faceExecutor 5)
    (List.prefix_append faceExecutor.items _)
    (fun h => absurd (congrArg List.length h) (by decide)) rfl []

/-! ## 5. What the proxy makes of the service -/

section Transparency

variable {P Op : Type} {Res : Op → Type} {ipc : CoAuthIpc P} {contents : P → List CoAuthItem}
  {delivery : Ipc.Delivery} {service : ICoAuth Op Res}

theorem executorId_givesBack (hlawful : ipc.parcel.Lawful contents) :
    Ipc.GivesBack coAuthSucceeded (writeExecutorId ipc ipc.parcel.empty) (readExecutorId ipc) := by
  intro ret hok
  rw [writeExecutorId] at hok ⊢
  cases hwrite : ipc.parcel.write ipc.parcel.empty .uint64 ret with
  | none =>
    rw [hwrite] at hok
    exact absurd (show coAuthSucceeded .fail = true from hok) (by decide)
  | some reply =>
    have hreply := hlawful.write hwrite
    rw [hlawful.empty, List.nil_append] at hreply
    obtain ⟨_, hread, -⟩ := hlawful.tryRead hreply
    rw [Option.elim_some, readExecutorId, hread]
    rfl

theorem writeExecutorId_accepts (haccepts : ipc.parcel.Accepts) (reply : P) (ret : UInt64) :
    coAuthSucceeded (writeExecutorId ipc reply ret).1 = true := by
  obtain ⟨reply', hwrite⟩ := haccepts.write reply .uint64 ret
  rw [writeExecutorId, hwrite]
  rfl

/-- A request whose callback is of the interface is carried out. -/
theorem coAuthOnRemoteRequest_handles (hlawful : ipc.parcel.Lawful contents)
    (request : CoAuthRequest) {α : Type} {p : Prog Op Res α} {answer : α → ResultCode × P}
    (h : request.serve ipc service ipc.parcel.empty = p >>= fun a => .ret (answer a)) :
    Ipc.Handles ipc.parcel.toParcelApi contents (coAuthOnRemoteRequest ipc service request.code)
      request.message p answer :=
  fun _ hdata => (coAuthOnRemoteRequest_message hlawful request hdata).trans h

/-- **The proxy is the service** when nothing is lost. -/
theorem coAuthProxy_eq (hlawful : ipc.parcel.Lawful contents) (haccepts : ipc.parcel.Accepts)
    (hcast : ∀ obj, ipc.ifaceCast obj = true) (service : ICoAuth Op Res) :
    coAuthProxy ipc .answered service = service := by
  ext executorInfo callback
  · have hhandles := coAuthOnRemoteRequest_handles (p := service.register executorInfo callback)
      hlawful (.register executorInfo callback) (if_pos (hcast callback))
    exact Ipc.remoteCall_eq hlawful.toLawful haccepts hhandles (executorId_givesBack hlawful)
      (writeExecutorId_accepts haccepts _)
  · have hhandles := coAuthOnRemoteRequest_handles
      (p := service.queryStatus executorInfo callback) hlawful
      (.queryStatus executorInfo callback) (if_pos (hcast callback))
    obtain ⟨data, hdata⟩ := haccepts.message
      (CoAuthRequest.queryStatus executorInfo callback).message
    refine (Ipc.remotePost_eq hlawful.toLawful hhandles).trans ?_
    rw [hdata]
    rfl

/-- What an executor can rely on when writes fail and messages get lost: a request is carried out
once or not at all, and the id is that of the service or zero. -/
structure CoAuthBestEffort (service proxy : ICoAuth Op Res) : Prop where
  register : ∀ executorInfo callback,
    Ipc.AtMostOnce (· = 0) (service.register executorInfo callback)
      (proxy.register executorInfo callback)
  queryStatus : ∀ executorInfo callback, proxy.queryStatus executorInfo callback = .ret () ∨
    proxy.queryStatus executorInfo callback = service.queryStatus executorInfo callback

/-- **The proxy over a lossy connection.** -/
theorem coAuthProxy_bestEffort (hlawful : ipc.parcel.Lawful contents) (delivery : Ipc.Delivery)
    (service : ICoAuth Op Res) : CoAuthBestEffort service (coAuthProxy ipc delivery service) where
  register executorInfo callback := by
    by_cases hcast : ipc.ifaceCast callback = true
    · have hhandles := coAuthOnRemoteRequest_handles
        (p := service.register executorInfo callback) hlawful (.register executorInfo callback)
        (if_pos hcast)
      exact Ipc.remoteCall_atMostOnce hlawful.toLawful hhandles (executorId_givesBack hlawful) rfl
        rfl
    · have hrefuses : ∀ data, contents data =
          (CoAuthRequest.register executorInfo callback).message →
          coAuthOnRemoteRequest ipc service coauthExecutorRegist data ipc.parcel.empty =
            .ret (.fail, ipc.parcel.empty) := fun _ hdata =>
        (coAuthOnRemoteRequest_message hlawful (.register executorInfo callback) hdata).trans
          (if_neg hcast)
      exact .inl (Ipc.remoteCall_refused hlawful.toLawful hrefuses rfl rfl rfl)
  queryStatus executorInfo callback := by
    have hposted {p : Prog Op Res Unit} {status : ResultCode}
        (h : (CoAuthRequest.queryStatus executorInfo callback).serve ipc service ipc.parcel.empty =
          p >>= fun _ => .ret (status, ipc.parcel.empty)) :
        (coAuthProxy ipc delivery service).queryStatus executorInfo callback = .ret () ∨
          (coAuthProxy ipc delivery service).queryStatus executorInfo callback = p := by
      have hhandles := coAuthOnRemoteRequest_handles hlawful
        (.queryStatus executorInfo callback) h
      have heq : (coAuthProxy ipc delivery service).queryStatus executorInfo callback =
          if (ipc.parcel.message
            (CoAuthRequest.queryStatus executorInfo callback).message).isNone then .ret ()
          else if delivery = .lost then .ret () else p :=
        Ipc.remotePost_eq hlawful.toLawful hhandles
      rw [heq]
      split
      · exact .inl rfl
      · split
        · exact .inl rfl
        · exact .inr rfl
    by_cases hcast : ipc.ifaceCast callback = true
    · exact hposted (if_pos hcast)
    · exact .inl ((hposted (p := .ret ()) (if_neg hcast)).elim id id)

end Transparency

/-! ## 6. The messenger is ready -/

section Ready

variable {P Op : Type} {Res : Op → Type} (ipc : CoAuthIpc P) (delivery : Ipc.Delivery)

/-- What `OnMessengerReady` hands over. -/
structure MessengerReady where
  messenger : Nat
  publicKey : List UInt8
  templateIds : List UInt64
  deriving DecidableEq

def MessengerReady.args (ready : MessengerReady) : List CoAuthItem :=
  [⟨.remoteObject, some ready.messenger⟩, ⟨.uint8Vector, ready.publicKey⟩,
    ⟨.uint64Vector, ready.templateIds⟩]

def MessengerReady.message (ready : MessengerReady) : List CoAuthItem :=
  ⟨.interfaceToken, executorCallbackDescriptor⟩ :: ready.args

/-- `OnMessengerReadyStub`; `onMessengerReady` is what the executor's callback does. -/
def onMessengerReadyStub (onMessengerReady : MessengerReady → Prog Op Res Unit)
    (data reply : P) : Prog Op Res (ResultCode × P) :=
  let (obj, data) := ipc.parcel.read data .remoteObject
  (obj.filter ipc.ifaceCast).elim (pure (.fail, reply)) fun messenger =>
    let (publicKey, data) := ipc.parcel.read data .uint8Vector
    let (templateIds, _) := ipc.parcel.read data .uint64Vector
    do
      onMessengerReady ⟨messenger, publicKey, templateIds⟩
      return (.success, reply)

/-- `OnRemoteRequest` for the code `ON_MESSENGER_READY`. -/
def messengerReadyRequest (onMessengerReady : MessengerReady → Prog Op Res Unit) :
    Ipc.Handler P ResultCode Op Res := fun data reply =>
  let (remoteDescripter, data) := ipc.parcel.read data .interfaceToken
  if executorCallbackDescriptor ≠ remoteDescripter then pure (.fail, reply)
  else onMessengerReadyStub ipc onMessengerReady data reply

/-- `OnMessengerReady` of the proxy, which waits for the reply and does not look at it. -/
def proxyOnMessengerReady (onMessengerReady : MessengerReady → Prog Op Res Unit)
    (ready : MessengerReady) : Prog Op Res Unit :=
  Ipc.remoteCall ipc.parcel.toParcelApi delivery coAuthSucceeded
    (messengerReadyRequest ipc onMessengerReady) ready.message () () fun _ => ()

variable {ipc delivery} {contents : P → List CoAuthItem}
  {onMessengerReady : MessengerReady → Prog Op Res Unit} {ready : MessengerReady}

theorem messengerReadyRequest_message (hlawful : ipc.parcel.Lawful contents) {data reply : P}
    (hdata : contents data = ready.message) :
    messengerReadyRequest ipc onMessengerReady data reply =
      if ipc.ifaceCast ready.messenger then
        onMessengerReady ready >>= fun _ => .ret (.success, reply)
      else .ret (.fail, reply) := by
  obtain ⟨data₁, htoken, hdata₁⟩ := hlawful.toLawful.read_of_contents hdata
  obtain ⟨data₂, hobj, hdata₂⟩ := hlawful.toLawful.read_of_contents hdata₁
  obtain ⟨data₃, hkey, hdata₃⟩ := hlawful.toLawful.read_of_contents hdata₂
  obtain ⟨data₄, hids, -⟩ := hlawful.toLawful.read_of_contents hdata₃
  simp only [messengerReadyRequest, htoken, ne_eq, not_true_eq_false, if_false,
    onMessengerReadyStub, hobj]
  by_cases hcast : ipc.ifaceCast ready.messenger = true
  · rw [if_pos hcast, Option.filter_some_pos hcast]
    simp only [Option.elim_some, hkey, hids]
    rfl
  · rw [if_neg hcast, Option.filter_some_neg (Bool.eq_false_iff.mpr hcast)]
    rfl

/-- The executor is told once or not at all. -/
theorem proxyOnMessengerReady_posted (hlawful : ipc.parcel.Lawful contents)
    (delivery : Ipc.Delivery) (onMessengerReady : MessengerReady → Prog Op Res Unit)
    (ready : MessengerReady) :
    proxyOnMessengerReady ipc delivery onMessengerReady ready = .ret () ∨
      proxyOnMessengerReady ipc delivery onMessengerReady ready = onMessengerReady ready := by
  by_cases hcast : ipc.ifaceCast ready.messenger = true
  · have hhandles : Ipc.Handles ipc.parcel.toParcelApi contents
        (messengerReadyRequest ipc onMessengerReady) ready.message (onMessengerReady ready)
        fun _ => (.success, ipc.parcel.empty) := fun _ hdata =>
      (messengerReadyRequest_message hlawful hdata).trans (if_pos hcast)
    have hcall : Ipc.AtMostOnce (fun _ => True) (onMessengerReady ready)
        (proxyOnMessengerReady ipc delivery onMessengerReady ready) :=
      Ipc.remoteCall_atMostOnce hlawful.toLawful hhandles (fun _ _ => rfl) trivial trivial
    rcases hcall with ⟨_, -, heq⟩ | ⟨f, -, heq⟩
    · exact .inl heq
    · exact .inr (heq.trans (Prog.bind_ret _))
  · have hrefuses : ∀ data, contents data = ready.message →
        messengerReadyRequest ipc onMessengerReady data ipc.parcel.empty =
          .ret (.fail, ipc.parcel.empty) := fun _ hdata =>
      (messengerReadyRequest_message hlawful hdata).trans (if_neg hcast)
    have hcall : ∃ b : Unit, True ∧
        proxyOnMessengerReady ipc delivery onMessengerReady ready = .ret b :=
      Ipc.remoteCall_refused hlawful.toLawful hrefuses rfl trivial trivial
    obtain ⟨_, -, heq⟩ := hcall
    exact .inl heq

theorem proxyOnMessengerReady_eq (hlawful : ipc.parcel.Lawful contents)
    (haccepts : ipc.parcel.Accepts) (hcast : ∀ obj, ipc.ifaceCast obj = true)
    (onMessengerReady : MessengerReady → Prog Op Res Unit) (ready : MessengerReady) :
    proxyOnMessengerReady ipc .answered onMessengerReady ready = onMessengerReady ready := by
  have hhandles : Ipc.Handles ipc.parcel.toParcelApi contents
      (messengerReadyRequest ipc onMessengerReady) ready.message (onMessengerReady ready)
      fun _ => (.success, ipc.parcel.empty) := fun _ hdata =>
    (messengerReadyRequest_message hlawful hdata).trans (if_pos (hcast _))
  exact Ipc.remoteCall_eq hlawful.toLawful haccepts hhandles (fun _ _ => rfl) fun _ => rfl

end Ready

end UserIam.CoAuth
