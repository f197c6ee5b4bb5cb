import UserIam.UserAuth.UserAuthIpc

/-!
# UserAuthAsyncProxy and UserAuthAsyncStub

How the service calls a client's callback back.  The proxy is in the process of the service; the
stub is in the client's, where it belongs to a callback of one of three kinds and drops the calls
that are not for that kind.
-/

namespace UserIam.UserAuth

open Conc Ipc

/-! ## 1. Calls of a callback -/

inductive CallbackCall where
  | onAcquireInfo (acquireModule : Int32) (acquireInfo : UInt32) (extraInfo : Int32)
  | onResult (result : ResultCode) (extraInfo : AuthResult)
  | onExecutorPropertyInfo (result : ExecutorProperty)
  | onSetExecutorProperty (result : ResultCode)
  deriving DecidableEq

def userAuthOnResult : UInt32 := 8
def userAuthGetExProp : UInt32 := 9
def userAuthSetExProp : UInt32 := 10
def userAuthAcquireInfo : UInt32 := 11

def userAuthCallbackDescriptor : String := "ohos.UserIAM.UserAuth.IUserAuthCallback"

namespace CallbackCall

/-- The codes are those of `IUserAuth`, behind the codes of its requests. -/
def code : CallbackCall → UInt32
  | .onAcquireInfo .. => userAuthAcquireInfo
  | .onResult .. => userAuthOnResult
  | .onExecutorPropertyInfo _ => userAuthGetExProp
  | .onSetExecutorProperty _ => userAuthSetExProp

/-- What the proxy writes behind the token, in this order. -/
def args : CallbackCall → List WireItem
  | .onAcquireInfo acquireModule acquireInfo extraInfo =>
    [⟨.int32, acquireModule⟩, ⟨.uint32, acquireInfo⟩, ⟨.int32, extraInfo⟩]
  | .onResult result extraInfo =>
    [⟨.int32, result⟩, ⟨.uint8Vector, extraInfo.token⟩, ⟨.uint32, extraInfo.remainTimes⟩,
      ⟨.uint32, extraInfo.freezingTime⟩]
  | .onExecutorPropertyInfo result =>
    [⟨.int32, result.result⟩, ⟨.uint64, result.authSubType⟩, ⟨.uint32, result.remainTimes⟩,
      ⟨.uint32, result.freezingTime⟩]
  | .onSetExecutorProperty result => [⟨.int32, result⟩]

def message (call : CallbackCall) : List WireItem :=
  ⟨.interfaceToken, userAuthCallbackDescriptor⟩ :: call.args

variable {Op : Type} {Res : Op → Type}

/-- The function of a callback that the call is for. -/
def on (callback : IUserAuthCallback Op Res) : CallbackCall → Prog Op Res Unit
  | .onAcquireInfo acquireModule acquireInfo extraInfo =>
    callback.onAcquireInfo acquireModule acquireInfo extraInfo
  | .onResult result extraInfo => callback.onResult result extraInfo
  | .onExecutorPropertyInfo result => callback.onExecutorPropertyInfo result
  | .onSetExecutorProperty result => callback.onSetExecutorProperty result

end CallbackCall

/-! ## 2. UserAuthAsyncStub -/

section Kinds

variable (Op : Type) (Res : Op → Type)

structure UserAuthCallback where
  onAcquireInfo : Int32 → UInt32 → Int32 → Prog Op Res Unit
  onResult : ResultCode → AuthResult → Prog Op Res Unit

structure GetPropCallback where
  onGetProperty : ExecutorProperty → Prog Op Res Unit

structure SetPropCallback where
  onSetProperty : ResultCode → Prog Op Res Unit

/-- Three pointers, of which a constructor sets one. -/
structure UserAuthAsyncStub where
  authCallback : Option (UserAuthCallback Op Res) := none
  setPropCallback : Option (SetPropCallback Op Res) := none
  getPropCallback : Option (GetPropCallback Op Res) := none

end Kinds

section Stub

variable {P Op : Type} {Res : Op → Type}

namespace UserAuthAsyncStub

def ofAuthCallback (impl : UserAuthCallback Op Res) : UserAuthAsyncStub Op Res :=
  { authCallback := some impl }

def ofGetPropCallback (impl : GetPropCallback Op Res) : UserAuthAsyncStub Op Res :=
  { getPropCallback := some impl }

def ofSetPropCallback (impl : SetPropCallback Op Res) : UserAuthAsyncStub Op Res :=
  { setPropCallback := some impl }

/-- The stub's own functions; a null pointer goes into a log only. -/
def callback (stub : UserAuthAsyncStub Op Res) : IUserAuthCallback Op Res where
  onAcquireInfo acquireModule acquireInfo extraInfo :=
    stub.authCallback.elim (.ret ()) (·.onAcquireInfo acquireModule acquireInfo extraInfo)
  onResult result extraInfo := stub.authCallback.elim (.ret ()) (·.onResult result extraInfo)
  onExecutorPropertyInfo result := stub.getPropCallback.elim (.ret ()) (·.onGetProperty result)
  onSetExecutorProperty result := stub.setPropCallback.elim (.ret ()) (·.onSetProperty result)

end UserAuthAsyncStub

variable (ipc : WireIpc P) (callback : IUserAuthCallback Op Res)

def onAcquireInfoStub (reply : P) : StubReader P Op Res := do
  let acquireModule ← ipc.parcel.tryRead .int32
  let acquireInfo ← ipc.parcel.tryRead .uint32
  let extraInfo ← ipc.parcel.tryRead .int32
  return do
    callback.onAcquireInfo acquireModule acquireInfo extraInfo
    return writeWireReply ipc reply .int32 ResultCode.success

def onResultStub (reply : P) : StubReader P Op Res := do
  let result ← ipc.parcel.tryRead .int32
  let token ← ipc.parcel.tryRead .uint8Vector
  let remainTimes ← ipc.parcel.tryRead .uint32
  let freezingTime ← ipc.parcel.tryRead .uint32
  return do
    callback.onResult result { token, remainTimes, freezingTime }
    return writeWireReply ipc reply .int32 ResultCode.success

/-- The result goes through the 64 bits of `AuthSubType` and back. -/
def onExecutorPropertyInfoStub (reply : P) : StubReader P Op Res := do
  let result ← ipc.parcel.tryRead .int32
  let authSubType ← ipc.parcel.tryRead .uint64
  let remainTimes ← ipc.parcel.tryRead .uint32
  let freezingTime ← ipc.parcel.tryRead .uint32
  let result := result.toInt64.toUInt64.toInt64.toInt32
  return do
    callback.onExecutorPropertyInfo { result, authSubType, remainTimes, freezingTime }
    return writeWireReply ipc reply .int32 ResultCode.success

def onSetExecutorPropertyStub (reply : P) : StubReader P Op Res := do
  let result ← ipc.parcel.tryRead .int32
  return do
    callback.onSetExecutorProperty result
    return writeWireReply ipc reply .int32 ResultCode.success

def asyncStubOf (code : UInt32) (reply : P) : Option (StubReader P Op Res) :=
  if code = userAuthAcquireInfo then some (onAcquireInfoStub ipc callback reply)
  else if code = userAuthOnResult then some (onResultStub ipc callback reply)
  else if code = userAuthGetExProp then some (onExecutorPropertyInfoStub ipc callback reply)
  else if code = userAuthSetExProp then some (onSetExecutorPropertyStub ipc callback reply)
  else none

def asyncOnRemoteRequest (code : UInt32) : Handler P ResultCode Op Res :=
  wireOnRemoteRequest ipc userAuthCallbackDescriptor (asyncStubOf ipc callback) code

/-! ## 3. UserAuthAsyncProxy -/

variable (delivery : Delivery)

/-- The proxy waits for the reply, and what it reads there goes into a log only. -/
def asyncCall (call : CallbackCall) : Prog Op Res Unit :=
  remoteCall ipc.parcel.toParcelApi delivery sendSucceeded
    (asyncOnRemoteRequest ipc callback call.code) call.message () () fun _ => ()

def userAuthAsyncProxy : IUserAuthCallback Op Res where
  onAcquireInfo acquireModule acquireInfo extraInfo :=
    asyncCall ipc callback delivery (.onAcquireInfo acquireModule acquireInfo extraInfo)
  onResult result extraInfo := asyncCall ipc callback delivery (.onResult result extraInfo)
  onExecutorPropertyInfo result := asyncCall ipc callback delivery (.onExecutorPropertyInfo result)
  onSetExecutorProperty result := asyncCall ipc callback delivery (.onSetExecutorProperty result)

end Stub

/-! ## 4. What gets through -/

section Messages

variable {P Op : Type} {Res : Op → Type} {ipc : WireIpc P} {contents : P → List WireItem}
  {callback : IUserAuthCallback Op Res} {delivery : Delivery}

theorem authSubType_cast (result : ResultCode) :
    result.toInt64.toUInt64.toInt64.toInt32 = result := by
  simp

variable (callback) in
theorem CallbackCall.reads (hlawful : ipc.parcel.Lawful contents) (call : CallbackCall)
    (reply : P) :
    ∃ read, asyncStubOf ipc callback call.code reply = some read ∧
      Reads contents read call.args (call.on callback >>= fun _ =>
        .ret (writeWireReply ipc reply .int32 ResultCode.success)) := by
  have harg (kind : WireKind) (v : kind.Carrier) := hlawful.reads kind v
  cases call with
  | onAcquireInfo acquireModule acquireInfo extraInfo =>
    exact ⟨_, rfl, (harg _ _).bind ((harg _ _).bind ((harg _ _).bind (reads_pure _)))⟩
  | onResult result extraInfo =>
    refine ⟨_, rfl, (harg _ _).bind ((harg _ _).bind ((harg _ _).bind ?_))⟩
    exact (harg _ _).bind (reads_pure _)
  | onExecutorPropertyInfo result =>
    refine ⟨_, rfl, (harg _ _).bind ((harg _ _).bind ((harg _ _).bind ?_))⟩
    refine (harg _ _).bind ?_
    dsimp only
    rw [authSubType_cast]
    exact reads_pure _
  | onSetExecutorProperty result => exact ⟨_, rfl, (harg _ _).bind (reads_pure _)⟩

/-- A message of the proxy calls the callback once, with the values that were written. -/
theorem asyncCall_eq (hlawful : ipc.parcel.Lawful contents) (call : CallbackCall) :
    asyncCall ipc callback delivery call =
      if (ipc.parcel.message call.message).isNone ∨ delivery = .lost then .ret ()
      else call.on callback := by
  rw [asyncCall, remoteCall]
  cases hdata : ipc.parcel.message call.message with
  | none => rfl
  | some data =>
    obtain ⟨read, hcode, hread⟩ := call.reads callback hlawful ipc.parcel.empty
    have hrun : asyncOnRemoteRequest ipc callback call.code data ipc.parcel.empty = _ :=
      wireOnRemoteRequest_complete hlawful hcode hread (hlawful.toLawful.message hdata)
    cases delivery with
    | lost => rfl
    | unanswered | answered =>
      dsimp only [request]
      rw [hrun]
      simp only [Prog.bind_assoc, Prog.pure_eq, Prog.ret_bind]
      exact Prog.bind_ret _

/-- **A call of the service is what the stub in the client's process hears**, unless the message is
not written or gets lost; the values are those that were passed.  A message that is cut off behind
the token is refused, and nobody hears it. -/
theorem userAuthAsyncProxy_on (hlawful : ipc.parcel.Lawful contents)
    (stub : UserAuthAsyncStub Op Res) (call : CallbackCall) :
    call.on (userAuthAsyncProxy ipc stub.callback delivery) =
        (if (ipc.parcel.message call.message).isNone ∨ delivery = .lost then .ret ()
        else call.on stub.callback) ∧
      ∀ cut data reply, cut <+: call.args → cut ≠ call.args →
        contents data = ⟨.interfaceToken, userAuthCallbackDescriptor⟩ :: cut →
        asyncOnRemoteRequest ipc stub.callback call.code data reply =
          .ret (eReadParcelError, reply) := by
  refine ⟨?_, fun cut data reply hcut hne hdata => ?_⟩
  · rw [← asyncCall_eq hlawful]
    cases call <;> rfl
  · obtain ⟨read, hcode, hread⟩ := call.reads stub.callback hlawful reply
    exact wireOnRemoteRequest_cut hlawful hcode hread hcut hne hdata

/-- The callback of an authentication, which writes down what it hears. -/
def recordingStub : UserAuthAsyncStub CallbackCall fun _ => Unit :=
  .ofAuthCallback {
    onAcquireInfo acquireModule acquireInfo extraInfo :=
      Prog.op (CallbackCall.onAcquireInfo acquireModule acquireInfo extraInfo)
    onResult result extraInfo := Prog.op (CallbackCall.onResult result extraInfo) }

/-- A result with its token is heard as it is; without its last value it is not heard at all. -/
theorem userAuthAsyncProxy_on_token :
    (CallbackCall.onResult 0 { token := [7] }).on
        (userAuthAsyncProxy listIpc recordingStub.callback .answered) =
      Prog.op (CallbackCall.onResult 0 { token := [7] }) ∧
    ∀ reply, asyncOnRemoteRequest listIpc recordingStub.callback
      (CallbackCall.onResult 0 { token := [7] }).code
      (CallbackCall.onResult 0 { token := [7] }).message.dropLast reply =
        .ret (eReadParcelError, reply) := by
  have hon : (CallbackCall.onResult 0 { token := [7] }).on
      (userAuthAsyncProxy listIpc recordingStub.callback .answered) = _ ∧ _ :=
    userAuthAsyncProxy_on CheckedApi.ofList_lawful recordingStub (.onResult 0 { token := [7] })
  refine ⟨hon.1.trans (if_neg (by decide)), fun reply => ?_⟩
  exact hon.2 [⟨.int32, (0 : Int32)⟩, ⟨.uint8Vector, [(7 : UInt8)]⟩, ⟨.uint32, (0 : UInt32)⟩] _ _
    ⟨[⟨.uint32, (0 : UInt32)⟩], rfl⟩ (fun h => by cases congrArg List.length h) rfl

end Messages

end UserIam.UserAuth
