import UserIam.CoAuth.ExecutorProperty

/-!
# ExecutorCallbackStub

The stub in the process of an executor: it unpacks the attributes of a message and hands them to the
callback that the executor has registered.  What `Unpack` returns is not looked at.
-/

namespace UserIam.CoAuth

open Conc

/-! ## 1. What the stub calls -/

/-- The functions of the executor's callback.  `hang` is where the stub stays when `Pack` or
`Unpack` does not return. -/
inductive ExecutorCallbackOp where
  | onBeginExecute (scheduleId : UInt64) (publicKey : List UInt8) (commandAttrs : AuthAttributes)
  | onEndExecute (scheduleId : UInt64) (consumerAttr : AuthAttributes)
  | onSetProperty (properties : AuthAttributes)
  | onGetProperty (conditions values : AuthAttributes)
  | hang

/-- `onGetProperty` fills in the values. -/
@[reducible] def ExecutorCallbackRes : ExecutorCallbackOp → Type
  | .onBeginExecute .. => ResultCode
  | .onEndExecute .. => ResultCode
  | .onSetProperty _ => ResultCode
  | .onGetProperty .. => ResultCode × AuthAttributes
  | .hang => Empty

abbrev ExecutorCallbackProg := Prog ExecutorCallbackOp ExecutorCallbackRes

def callbackHang {α : Type} : ExecutorCallbackProg α := .call .hang fun r => r.elim

/-! ## 2. The functions of the stub -/

section Callback

-- whether `callback_` points to an object
variable (callback : Bool)

def stubOnBeginExecute (scheduleId : UInt64) (publicKey : List UInt8)
    (commandAttrs : AuthAttributes) : ExecutorCallbackProg ResultCode :=
  if !callback then pure .fail
  else Prog.op (ExecutorCallbackOp.onBeginExecute scheduleId publicKey commandAttrs)

def stubOnEndExecute (scheduleId : UInt64) (consumerAttr : AuthAttributes) :
    ExecutorCallbackProg ResultCode :=
  if !callback then pure .fail
  else Prog.op (ExecutorCallbackOp.onEndExecute scheduleId consumerAttr)

def stubOnSetProperty (properties : AuthAttributes) : ExecutorCallbackProg ResultCode :=
  if !callback then pure .fail
  else Prog.op (ExecutorCallbackOp.onSetProperty properties)

def stubOnGetProperty (conditions values : AuthAttributes) :
    ExecutorCallbackProg (ResultCode × AuthAttributes) :=
  if !callback then pure (.fail, values)
  else Prog.op (ExecutorCallbackOp.onGetProperty conditions values)

end Callback

/-! ## 3. Messages -/

def onMessengerReadyCode : UInt32 := 1
def onBeginExecuteCode : UInt32 := 2
def onEndExecuteCode : UInt32 := 3

/-- A new object that `Unpack` has worked on. -/
def unpackMessage (fuel : Nat) (buffer : List UInt8) : ExecutorCallbackProg AuthAttributes :=
  match (AuthAttributes.new.unpack fuel buffer).bind (·.object) with
  | none => callbackHang
  | some attributes => pure attributes

section Stub

variable {P : Type} (fuel : Nat) (ipc : Ipc P) (callback : Bool)

def onBeginExecuteStub (data reply : P) : ExecutorCallbackProg (ResultCode × P) := do
  let (scheduleId, data) := ipc.parcel.read data .uint64
  let (publicKey, data) := ipc.parcel.read data .uint8Vector
  let (buffer, _) := ipc.parcel.read data .uint8Vector
  let commandAttrs ← unpackMessage fuel buffer
  let ret ← stubOnBeginExecute callback scheduleId publicKey commandAttrs
  pure (writeReply ipc reply ret)

def onEndExecuteStub (data reply : P) : ExecutorCallbackProg (ResultCode × P) := do
  let (scheduleId, data) := ipc.parcel.read data .uint64
  let (buffer, _) := ipc.parcel.read data .uint8Vector
  let consumerAttr ← unpackMessage fuel buffer
  let ret ← stubOnEndExecute callback scheduleId consumerAttr
  pure (writeReply ipc reply ret)

/-- The values go back in the reply. -/
def writeValues (locals : AuthAttributes.PackLocals) (reply : P) (ret : ResultCode)
    (values : AuthAttributes) : ExecutorCallbackProg (ResultCode × P) :=
  match ipc.parcel.write reply .int32 ret with
  | none => pure (.fail, reply)
  | some reply =>
    match values.pack fuel locals with
    | none => callbackHang
    | some (replyBuffer, _) =>
      match ipc.parcel.write reply .uint8Vector replyBuffer with
      | none => pure (.fail, reply)
      | some reply => pure (.success, reply)

def onGetPropertyStub (locals : AuthAttributes.PackLocals) (data reply : P) :
    ExecutorCallbackProg (ResultCode × P) := do
  let (buffer, _) := ipc.parcel.read data .uint8Vector
  let conditions ← unpackMessage fuel buffer
  let (ret, values) ← stubOnGetProperty callback conditions AuthAttributes.new
  writeValues fuel ipc locals reply ret values

def onSetPropertyStub (data reply : P) : ExecutorCallbackProg (ResultCode × P) := do
  let (buffer, _) := ipc.parcel.read data .uint8Vector
  let properties ← unpackMessage fuel buffer
  let ret ← stubOnSetProperty callback properties
  pure (writeReply ipc reply ret)

/-- `OnRemoteRequest`.  `onMessengerReadyStub` hands over no attributes. -/
def callbackOnRemoteRequest (locals : AuthAttributes.PackLocals)
    (onMessengerReadyStub : P → P → ExecutorCallbackProg (ResultCode × P)) (code : UInt32)
    (data reply : P) : ExecutorCallbackProg (ResultCode × P) :=
  let (remoteDescripter, data) := ipc.parcel.read data .interfaceToken
  if executorCallbackDescriptor ≠ remoteDescripter then pure (.fail, reply)
  else if code = onMessengerReadyCode then onMessengerReadyStub data reply
  else if code = onBeginExecuteCode then onBeginExecuteStub fuel ipc callback data reply
  else if code = onEndExecuteCode then onEndExecuteStub fuel ipc callback data reply
  else if code = onSetPropertyCode then onSetPropertyStub fuel ipc callback data reply
  else if code = onGetPropertyCode then onGetPropertyStub fuel ipc callback locals data reply
  else pure (ipc.objectStub code data reply)

end Stub

/-! ## 4. A property that is set -/

/-- The stub hands over what `Unpack` makes of the message. -/
theorem callbackOnRemoteRequest_setProperty {P : Type} {fuel : Nat} {ipc : Ipc P}
    {contents : P → List (Ipc.ParcelApi.Item ParcelKind ParcelKind.Carrier)}
    (hparcel : ipc.parcel.Lawful contents) {data : P} {buffer : List UInt8}
    (hdata : contents data =
      [⟨.interfaceToken, executorCallbackDescriptor⟩, ⟨.uint8Vector, buffer⟩])
    {properties : AuthAttributes}
    (hunpack : (AuthAttributes.new.unpack fuel buffer).bind (·.object) = some properties)
    (locals : AuthAttributes.PackLocals)
    (onMessengerReadyStub : P → P → ExecutorCallbackProg (ResultCode × P)) (reply : P) :
    callbackOnRemoteRequest fuel ipc true locals onMessengerReadyStub onSetPropertyCode data reply =
      .call (.onSetProperty properties) fun ret => .ret (writeReply ipc reply ret) := by
  obtain ⟨data₁, htoken, hdata₁⟩ := hparcel.read_of_contents hdata
  obtain ⟨data₂, hvector, -⟩ := hparcel.read_of_contents hdata₁
  have hcodes : onSetPropertyCode ≠ onMessengerReadyCode ∧
      onSetPropertyCode ≠ onBeginExecuteCode ∧ onSetPropertyCode ≠ onEndExecuteCode := by decide
  unfold callbackOnRemoteRequest
  simp only [htoken]
  rw [if_neg (not_not.mpr rfl), if_neg hcodes.1, if_neg hcodes.2.1, if_neg hcodes.2.2,
    if_pos trivial]
  unfold onSetPropertyStub unpackMessage
  simp only [hvector, hunpack]
  rfl

/-! ## 5. An execution that begins -/

theorem callbackOnRemoteRequest_beginExecute {P : Type} {fuel : Nat} {ipc : Ipc P}
    {contents : P → List (Ipc.ParcelApi.Item ParcelKind ParcelKind.Carrier)}
    (hparcel : ipc.parcel.Lawful contents) {data : P} {scheduleId : UInt64}
    {publicKey buffer : List UInt8}
    (hdata : contents data =
      [⟨.interfaceToken, executorCallbackDescriptor⟩, ⟨.uint64, scheduleId⟩,
        ⟨.uint8Vector, publicKey⟩, ⟨.uint8Vector, buffer⟩])
    {commandAttrs : AuthAttributes}
    (hunpack : (AuthAttributes.new.unpack fuel buffer).bind (·.object) = some commandAttrs)
    (locals : AuthAttributes.PackLocals)
    (onMessengerReadyStub : P → P → ExecutorCallbackProg (ResultCode × P)) (reply : P) :
    callbackOnRemoteRequest fuel ipc true locals onMessengerReadyStub onBeginExecuteCode data
        reply =
      .call (.onBeginExecute scheduleId publicKey commandAttrs) fun ret =>
        .ret (writeReply ipc reply ret) := by
  obtain ⟨data₁, htoken, hdata₁⟩ := hparcel.read_of_contents hdata
  obtain ⟨data₂, hschedule, hdata₂⟩ := hparcel.read_of_contents hdata₁
  obtain ⟨data₃, hkey, hdata₃⟩ := hparcel.read_of_contents hdata₂
  obtain ⟨data₄, hvector, -⟩ := hparcel.read_of_contents hdata₃
  have hcode : onBeginExecuteCode ≠ onMessengerReadyCode := by decide
  unfold callbackOnRemoteRequest
  simp only [htoken]
  rw [if_neg (not_not.mpr rfl), if_neg hcode, if_pos trivial]
  unfold onBeginExecuteStub unpackMessage
  simp only [hschedule, hkey, hvector, hunpack]
  rfl

end UserIam.CoAuth
