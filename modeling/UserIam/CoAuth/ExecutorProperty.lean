import UserIam.CoAuth.ExecutorMessengerIpc

/-!
# Property requests

`SetExecutorProp` and `GetExecutorProp` of the service, and the proxy through which they reach an
executor in another process.  The service packs the conditions of the caller and unpacks them into
an object of its own, which the proxy packs again.
-/

namespace UserIam.CoAuth

open Conc

/-! ## 1. CoAuthManager -/

/-- What a property request calls.  `hang` is where it stays when `Pack` or `Unpack` does not
return. -/
structure PropertyCalls (Op : Type) (Res : Op → Type) where
  findExecutorCallback : AuthType → Prog Op Res (Option ExecutorCallback)
  hang : Prog Op Res Unit

/-- The properties that the executor is given; what `Unpack` returns is not looked at. -/
def relayed (fuel : Nat) (locals : AuthAttributes.PackLocals) (conditions : AuthAttributes) :
    Option AuthAttributes :=
  (conditions.pack fuel locals).bind fun (buffer, _) =>
    (AuthAttributes.new.unpack fuel buffer).bind (·.object)

section Manager

variable {Op : Type} {Res : Op → Type} (calls : PropertyCalls Op Res) (fuel : Nat)
  (locals : AuthAttributes.PackLocals)

/-- `authTypeLocal` is the variable that stays uninitialised when the conditions have no type. -/
def setExecutorProp (onSetProperty : ExecutorCallback → AuthAttributes → Prog Op Res ResultCode)
    (authTypeLocal : AuthType) (conditions : AuthAttributes) :
    Option (UInt32 → Prog Op Res Unit) → Prog Op Res Unit
  | none => pure ()
  | some callback => do
    let (_, authType) := conditions.getUint32Value CoAuth.authType authTypeLocal
    match ← calls.findExecutorCallback authType with
    | none => callback ResultCode.fail.toUInt32
    | some execallback =>
      match relayed fuel locals conditions with
      | none => calls.hang
      | some properties => do
        let result ← onSetProperty execallback properties
        callback result.toUInt32

/-- The values are an object of the caller, `none` a null pointer. -/
def getExecutorProp
    (onGetProperty : ExecutorCallback → AuthAttributes → Option AuthAttributes →
      Prog Op Res (ResultCode × Option AuthAttributes))
    (authTypeLocal : AuthType) (conditions : AuthAttributes) (values : Option AuthAttributes) :
    Prog Op Res (ResultCode × Option AuthAttributes) := do
  let (_, authType) := conditions.getUint32Value CoAuth.authType authTypeLocal
  match ← calls.findExecutorCallback authType with
  | none => return (.fail, values)
  | some execallback =>
    match relayed fuel locals conditions with
    | none => do
      calls.hang
      return (.fail, values)
    | some properties => onGetProperty execallback properties values

end Manager

/-! ## 2. ExecutorCallbackProxy -/

def executorCallbackDescriptor : String := "ohos.UserIAM.AuthResPool.ExecutorCallback"

def onSetPropertyCode : UInt32 := 4
def onGetPropertyCode : UInt32 := 5

/-- What the proxy reads from the reply; a read that fails is `none`. -/
structure PropertyReply where
  result : Option ResultCode
  values : Option (List UInt8)

/-- `SendRequest` is answered with a reply, or has failed. -/
inductive PropertyOp (P : Type) where
  | findExecutorCallback (authType : AuthType)
  | sendRequest (remote : ExecutorCallback) (code : UInt32) (data : P)
  | onResult (result : UInt32)
  | hang

@[reducible] def PropertyRes {P : Type} : PropertyOp P → Type
  | .findExecutorCallback _ => Option ExecutorCallback
  | .sendRequest .. => Option PropertyReply
  | .onResult _ => Unit
  | .hang => Empty

abbrev PropertyProg (P : Type) := Prog (PropertyOp P) (PropertyRes (P := P))

section Proxy

variable {P : Type} (parcel : MessageParcel P) (fuel : Nat) (locals : AuthAttributes.PackLocals)

def propertyHang : PropertyProg P Unit := .call .hang fun r => r.elim

/-- What both functions of the proxy do with the properties: the request, or `FAIL`. -/
def sendProperty (remote : ExecutorCallback) (code : UInt32) (properties : AuthAttributes) :
    PropertyProg P (Option PropertyReply) :=
  match parcel.write parcel.empty .interfaceToken executorCallbackDescriptor with
  | none => return none
  | some data =>
    match properties.pack fuel locals with
    | none => do
      propertyHang
      return none
    | some (buffer, _) =>
      match parcel.write data .uint8Vector buffer with
      | none => return none
      | some data => Prog.op (PropertyOp.sendRequest remote code data)

def proxyOnSetProperty (remote : ExecutorCallback) :
    Option AuthAttributes → PropertyProg P ResultCode
  | none => return .invalidParameters
  | some properties => do
    match ← sendProperty parcel fuel locals remote onSetPropertyCode properties with
    | none => return .fail
    | some reply => return reply.result.getD .fail

/-- The values are what `Unpack` makes of the reply. -/
def proxyOnGetProperty (remote : ExecutorCallback) (conditions values : Option AuthAttributes) :
    PropertyProg P (ResultCode × Option AuthAttributes) :=
  match conditions, values with
  | some conditions, some values => do
    match ← sendProperty parcel fuel locals remote onGetPropertyCode conditions with
    | none => return (.fail, some values)
    | some reply =>
      match reply.result, reply.values with
      | some result, some valuesReply =>
        match (values.unpack fuel valuesReply).bind (·.object) with
        | none => do
          propertyHang
          return (.fail, some values)
        | some values => return (result, some values)
      | _, _ => return (.fail, some values)
  | _, _ => return (.invalidParameters, values)

/-- The service's requests, with the executor behind a proxy. -/
def relayCalls : PropertyCalls (PropertyOp P) PropertyRes where
  findExecutorCallback authType := Prog.op (PropertyOp.findExecutorCallback authType)
  hang := propertyHang

def relaySet (locals' : AuthAttributes.PackLocals) (authTypeLocal : AuthType)
    (conditions : AuthAttributes) (callback : Option (UInt32 → PropertyProg P Unit)) :
    PropertyProg P Unit :=
  setExecutorProp relayCalls fuel locals'
    (fun remote properties => proxyOnSetProperty parcel fuel locals remote (some properties))
    authTypeLocal conditions callback

def relayGet (locals' : AuthAttributes.PackLocals) (authTypeLocal : AuthType)
    (conditions : AuthAttributes) (values : Option AuthAttributes) :
    PropertyProg P (ResultCode × Option AuthAttributes) :=
  getExecutorProp relayCalls fuel locals'
    (fun remote properties => proxyOnGetProperty parcel fuel locals remote (some properties))
    authTypeLocal conditions values

end Proxy

end UserIam.CoAuth
