import UserIam.UserAuth.UserAuthAsyncIpc

/-!
# UserAuthNative

The library in the client's process.  It connects to the service, wraps a callback into a stub of
its kind and hands the request to the proxy.
-/

namespace UserIam.UserAuth

open Conc Ipc

def eRetNoserver : ResultCode := 17

def propermodeSetSurfaceId : UInt32 := 100

section Native

variable (Op : Type) (Res : Op → Type)

/-- What the library calls.  `GetProxy` has no answer when the service is not there; the three kinds
of callbacks are the client's. -/
structure NativeCalls where
  getProxy : Prog Op Res (Option (IUserAuth Op Res))
  setSurfaceId : WireSetPropertyRequest → Prog Op Res ResultCode
  authCallback : ClientCallback → UserAuthCallback Op Res
  getPropCallback : ClientCallback → GetPropCallback Op Res
  setPropCallback : ClientCallback → SetPropCallback Op Res

end Native

section Requests

variable {Op : Type} {Res : Op → Type} (calls : NativeCalls Op Res)

/-- A request for the proxy, or the answer of a library that has none. -/
def withProxy {α : Type} (noserver : Prog Op Res α) (send : IUserAuth Op Res → Prog Op Res α) :
    Prog Op Res α := do
  let proxy ← calls.getProxy
  proxy.elim noserver send

def nativeGetProperty (request : GetPropertyRequest) : Option ClientCallback → Prog Op Res Unit
  | none => pure ()
  | some callback =>
    withProxy calls ((calls.getPropCallback callback).onGetProperty { result := eRetNoserver })
      (·.getProperty request callback)

def nativeGetPropertyById (userId : Int32) (request : GetPropertyRequest) :
    Option ClientCallback → Prog Op Res Unit
  | none => pure ()
  | some callback =>
    withProxy calls ((calls.getPropCallback callback).onGetProperty { result := eRetNoserver })
      (·.getPropertyById userId request callback)

/-- The surface of the face camera is set in the client's process. -/
def WireSetPropertyRequest.setsSurface (request : WireSetPropertyRequest) : Bool :=
  request.key == propermodeSetSurfaceId && request.authType == .face

def nativeSetProperty (request : WireSetPropertyRequest) :
    Option ClientCallback → Prog Op Res Unit
  | none => pure ()
  | some callback =>
    withProxy calls ((calls.setPropCallback callback).onSetProperty eRetNoserver) fun proxy =>
      if request.setsSurface then do
        let result ← calls.setSurfaceId request
        (UserAuthAsyncStub.ofSetPropCallback
          (calls.setPropCallback callback)).callback.onSetExecutorProperty result
      else proxy.setProperty request callback

end Requests

/-! ## 2. What a request comes to -/

section Outcomes

variable {P Op : Type} {Res : Op → Type} {ipc : WireIpc P} {contents : P → List WireItem}
  {delivery : Delivery} {callbacks : ClientCallback → IUserAuthCallback Op Res}
  {service : IUserAuth Op Res} {calls : NativeCalls Op Res} {α : Type}

end Outcomes

end UserIam.UserAuth
