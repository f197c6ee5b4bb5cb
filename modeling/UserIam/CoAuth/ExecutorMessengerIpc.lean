import UserIam.CoAuth.CoAuthManager
import UserIam.Ipc.Parcel

/-!
# ExecutorMessengerProxy and ExecutorMessengerStub

How a call of an executor reaches the messenger of the service.  The proxy writes a parcel, the stub
reads it and makes the call.  A call is synchronous, so the proxy's function is a program of the
service: what it does is what the stub does for it.
-/

namespace UserIam.CoAuth

open Conc Ipc

/-! ## 1. What a message holds -/

inductive ParcelKind where
  | interfaceToken
  | uint64
  | int32
  | uint8Vector
  deriving DecidableEq

@[reducible] def ParcelKind.Carrier : ParcelKind → Type
  | .interfaceToken => String
  | .uint64 => UInt64
  | .int32 => Int32
  | .uint8Vector => List UInt8

instance (kind : ParcelKind) : Inhabited kind.Carrier :=
  match kind with
  | .interfaceToken => ⟨""⟩
  | .uint64 => ⟨0⟩
  | .int32 => ⟨0⟩
  | .uint8Vector => ⟨[]⟩

abbrev MessageParcel (P : Type) := ParcelApi P ParcelKind ParcelKind.Carrier

def descriptor : String := "ohos.UserIAM.AuthResPool.IExecutor_Messenger"

def coauthSendData : UInt32 := 0
def coauthFinish : UInt32 := 1

/-- What the two processes rely on: the parcels, what the base class of the stub makes of a code
that it does not know, and whether the request gets through. -/
structure Ipc (P : Type) where
  parcel : MessageParcel P
  objectStub : UInt32 → P → P → ResultCode × P
  delivers : Bool

variable {P : Type}

/-! ## 2. ExecutorMessengerStub -/

/-- What both stubs do with the result of the call. -/
def writeReply (ipc : Ipc P) (reply : P) (ret : ResultCode) : ResultCode × P :=
  match ipc.parcel.write reply .int32 ret with
  | none => (.fail, reply)
  | some reply => (.success, reply)

def sendDataStub (ipc : Ipc P) (service : CoAuthService) (data reply : P) :
    CoAuthProg (ResultCode × P) := do
  let (scheduleId, data) := ipc.parcel.read data .uint64
  let (_transNum, data) := ipc.parcel.read data .uint64
  let (_srcType, data) := ipc.parcel.read data .int32
  let (_dstType, data) := ipc.parcel.read data .int32
  let (buffer, _) := ipc.parcel.read data .uint8Vector
  let ret ← sendData service scheduleId (some buffer)
  pure (writeReply ipc reply ret)

/-- The object that `Unpack` has worked on, whatever it has returned. -/
def AuthAttributes.UnpackResult.object : UnpackResult → Option AuthAttributes
  | .this a => some a
  | .nullptr a => some a
  | .undefined => none

/-- There is no program when `Unpack` does not return. -/
def finishStub (fuel : Nat) (ipc : Ipc P) (service : CoAuthService) (data reply : P) :
    Option (CoAuthProg (ResultCode × P)) :=
  let (scheduleId, data) := ipc.parcel.read data .uint64
  let (_srcType, data) := ipc.parcel.read data .int32
  let (resultCode, data) := ipc.parcel.read data .int32
  let (buffer, _) := ipc.parcel.read data .uint8Vector
  let finalResult := (AuthAttributes.new.unpack fuel buffer).bind (·.object)
  finalResult.map fun finalResult => do
    let ret ← finish service scheduleId resultCode (some finalResult)
    pure (writeReply ipc reply ret)

def onRemoteRequest (fuel : Nat) (ipc : Ipc P) (service : CoAuthService) (code : UInt32)
    (data reply : P) : Option (CoAuthProg (ResultCode × P)) :=
  let (remoteDescripter, data) := ipc.parcel.read data .interfaceToken
  if descriptor ≠ remoteDescripter then some (pure (.fail, reply))
  else if code = coauthSendData then some (sendDataStub ipc service data reply)
  else if code = coauthFinish then finishStub fuel ipc service data reply
  else some (pure (ipc.objectStub code data reply))

/-! ## 3. ExecutorMessengerProxy -/

/-- Whether there is a reply, and the reply. -/
def sendRequest (fuel : Nat) (ipc : Ipc P) (service : CoAuthService) (code : UInt32)
    (data reply : P) : Option (CoAuthProg (Bool × P)) :=
  if !ipc.delivers then some (pure (false, reply))
  else
    (onRemoteRequest fuel ipc service code data reply).map fun request => do
      let (result, reply) ← request
      pure (result = .success, reply)

/-- What both functions of the proxy do with the reply. -/
def readReply (ipc : Ipc P) (request : CoAuthProg (Bool × P)) : CoAuthProg ResultCode := do
  let (ret, reply) ← request
  if ret then pure (ipc.parcel.read reply .int32).1 else pure .success

/-- `message` is the content of the message, `none` a null pointer. -/
def proxySendData (fuel : Nat) (ipc : Ipc P) (service : CoAuthService)
    (scheduleId transNum : UInt64) (srcType dstType : Int32) (message : Option (List UInt8)) :
    Option (CoAuthProg ResultCode) :=
  match message with
  | none => some (pure .invalidParameters)
  | some buffer =>
    let data := do
      let data ← ipc.parcel.write ipc.parcel.empty .interfaceToken descriptor
      let data ← ipc.parcel.write data .uint64 scheduleId
      let data ← ipc.parcel.write data .uint64 transNum
      let data ← ipc.parcel.write data .int32 srcType
      let data ← ipc.parcel.write data .int32 dstType
      ipc.parcel.write data .uint8Vector buffer
    match data with
    | none => some (pure .fail)
    | some data =>
      (sendRequest fuel ipc service coauthSendData data ipc.parcel.empty).map (readReply ipc)

/-- What `Finish` of the proxy writes before it packs the result. -/
def finishHeader (ipc : Ipc P) (scheduleId : UInt64) (srcType : Int32) (resultCode : ResultCode) :
    Option P := do
  let data ← ipc.parcel.write ipc.parcel.empty .interfaceToken descriptor
  let data ← ipc.parcel.write data .uint64 scheduleId
  let data ← ipc.parcel.write data .int32 srcType
  ipc.parcel.write data .int32 resultCode

/-- There is no program when `Pack` does not return; what it returns is `SUCCESS`. -/
def proxyFinish (fuel : Nat) (locals : AuthAttributes.PackLocals) (ipc : Ipc P)
    (service : CoAuthService) (scheduleId : UInt64) (srcType : Int32) (resultCode : ResultCode)
    (finalResult : Option AuthAttributes) : Option (CoAuthProg ResultCode) :=
  match finalResult with
  | none => some (pure .invalidParameters)
  | some finalResult =>
    match finishHeader ipc scheduleId srcType resultCode with
    | none => some (pure .fail)
    | some data =>
      (finalResult.pack fuel locals).bind fun (buffer, _) =>
        match ipc.parcel.write data .uint8Vector buffer with
        | none => some (pure .fail)
        | some data =>
          (sendRequest fuel ipc service coauthFinish data ipc.parcel.empty).map (readReply ipc)

/-! ## 4. What gets through -/

/-- The proxy returns what it can make of the stub's answer. -/
theorem readReply_stub (ipc : Ipc P) (reply : P) (p : CoAuthProg ResultCode) :
    ∃ k : ResultCode → ResultCode,
      (readReply ipc do
        let (result, reply) ← p >>= fun ret => .ret (writeReply ipc reply ret)
        pure (result = .success, reply)) = p >>= fun ret => .ret (k ret) := by
  refine ⟨fun ret =>
    if (writeReply ipc reply ret).1 = .success then
      (ipc.parcel.read (writeReply ipc reply ret).2 .int32).1
    else .success, ?_⟩
  rw [readReply, Prog.bind_assoc, Prog.bind_assoc]
  congr 1
  funext ret
  by_cases hok : (writeReply ipc reply ret).1 = .success
  · simp only [Prog.pure_eq, Prog.ret_bind, hok, decide_true, if_true]
  · simp only [Prog.pure_eq, Prog.ret_bind, hok, decide_false, Bool.false_eq_true, if_false]

section SendData

variable {ipc : Ipc P} {service : CoAuthService}
  {contents : P → List (ParcelApi.Item ParcelKind ParcelKind.Carrier)}
  {scheduleId transNum : UInt64} {srcType dstType : Int32} {buffer : List UInt8}

/-- The stub makes the call that the parcel describes. -/
theorem onRemoteRequest_sendData (hparcel : ipc.parcel.Lawful contents) {fuel : Nat}
    {data reply : P}
    (hdata : contents data = [⟨.interfaceToken, descriptor⟩, ⟨.uint64, scheduleId⟩,
      ⟨.uint64, transNum⟩, ⟨.int32, srcType⟩, ⟨.int32, dstType⟩, ⟨.uint8Vector, buffer⟩]) :
    onRemoteRequest fuel ipc service coauthSendData data reply =
      some (sendData service scheduleId (some buffer) >>= fun ret =>
        .ret (writeReply ipc reply ret)) := by
  obtain ⟨data₁, h₁, hdata⟩ := hparcel.read_of_contents hdata
  obtain ⟨data₂, h₂, hdata⟩ := hparcel.read_of_contents hdata
  obtain ⟨data₃, h₃, hdata⟩ := hparcel.read_of_contents hdata
  obtain ⟨data₄, h₄, hdata⟩ := hparcel.read_of_contents hdata
  obtain ⟨data₅, h₅, hdata⟩ := hparcel.read_of_contents hdata
  obtain ⟨data₆, h₆, -⟩ := hparcel.read_of_contents hdata
  simp only [onRemoteRequest, sendDataStub, h₁, h₂, h₃, h₄, h₅, h₆, ne_eq, not_true_eq_false,
    if_false, if_true, Prog.pure_eq]

/-- When nothing is lost, the proxy's `SendData` is one `SendData` of the service. -/
theorem proxySendData_eq (hparcel : ipc.parcel.Lawful contents) (haccepts : ipc.parcel.Accepts)
    (hdelivers : ipc.delivers = true) (fuel : Nat) (service : CoAuthService)
    (scheduleId transNum : UInt64) (srcType dstType : Int32) (buffer : List UInt8) :
    ∃ k : ResultCode → ResultCode,
      proxySendData fuel ipc service scheduleId transNum srcType dstType (some buffer) =
        some (sendData service scheduleId (some buffer) >>= fun ret => .ret (k ret)) := by
  obtain ⟨data₁, h₁⟩ := haccepts.write ipc.parcel.empty .interfaceToken descriptor
  obtain ⟨data₂, h₂⟩ := haccepts.write data₁ .uint64 scheduleId
  obtain ⟨data₃, h₃⟩ := haccepts.write data₂ .uint64 transNum
  obtain ⟨data₄, h₄⟩ := haccepts.write data₃ .int32 srcType
  obtain ⟨data₅, h₅⟩ := haccepts.write data₄ .int32 dstType
  obtain ⟨data₆, h₆⟩ := haccepts.write data₅ .uint8Vector buffer
  have hdata : contents data₆ = [⟨.interfaceToken, descriptor⟩, ⟨.uint64, scheduleId⟩,
      ⟨.uint64, transNum⟩, ⟨.int32, srcType⟩, ⟨.int32, dstType⟩, ⟨.uint8Vector, buffer⟩] := by
    rw [hparcel.write h₆, hparcel.write h₅, hparcel.write h₄, hparcel.write h₃, hparcel.write h₂,
      hparcel.write h₁, hparcel.empty]
    rfl
  obtain ⟨k, hk⟩ := readReply_stub ipc ipc.parcel.empty (sendData service scheduleId (some buffer))
  refine ⟨k, ?_⟩
  simp only [proxySendData, h₁, h₂, h₃, h₄, h₅, h₆, Option.bind_eq_bind, Option.bind_some]
  rw [sendRequest, if_neg (by simp [hdelivers]), onRemoteRequest_sendData hparcel hdata,
    Option.map_some, Option.map_some]
  exact congrArg some hk

end SendData

section Finish

variable {ipc : Ipc P} {service : CoAuthService}
  {contents : P → List (ParcelApi.Item ParcelKind ParcelKind.Carrier)}
  (hparcel : ipc.parcel.Lawful contents)
  {scheduleId : UInt64} {srcType : Int32} {resultCode : ResultCode} {data reply : P}

include hparcel

theorem finishHeader_contents (h : finishHeader ipc scheduleId srcType resultCode = some data) :
    contents data = [⟨.interfaceToken, descriptor⟩, ⟨.uint64, scheduleId⟩, ⟨.int32, srcType⟩,
      ⟨.int32, resultCode⟩] := by
  obtain ⟨data₁, h₁, h⟩ := Option.bind_eq_some_iff.mp h
  obtain ⟨data₂, h₂, h⟩ := Option.bind_eq_some_iff.mp h
  obtain ⟨data₃, h₃, h₄⟩ := Option.bind_eq_some_iff.mp h
  rw [hparcel.write h₄, hparcel.write h₃, hparcel.write h₂, hparcel.write h₁, hparcel.empty]
  rfl

omit hparcel in
theorem finishHeader_of_accepts (h : ipc.parcel.Accepts) :
    ∃ data, finishHeader ipc scheduleId srcType resultCode = some data := by
  obtain ⟨data₁, h₁⟩ := h.write ipc.parcel.empty .interfaceToken descriptor
  obtain ⟨data₂, h₂⟩ := h.write data₁ .uint64 scheduleId
  obtain ⟨data₃, h₃⟩ := h.write data₂ .int32 srcType
  obtain ⟨data₄, h₄⟩ := h.write data₃ .int32 resultCode
  refine ⟨data₄, ?_⟩
  simp [finishHeader, h₁, h₂, h₃, h₄]

/-- The stub makes the call that the parcel describes. -/
theorem onRemoteRequest_finish {fuel : Nat} {buffer : List UInt8}
    (hdata : contents data = [⟨.interfaceToken, descriptor⟩, ⟨.uint64, scheduleId⟩,
      ⟨.int32, srcType⟩, ⟨.int32, resultCode⟩, ⟨.uint8Vector, buffer⟩]) :
    onRemoteRequest fuel ipc service coauthFinish data reply =
      ((AuthAttributes.new.unpack fuel buffer).bind (·.object)).map fun finalResult =>
        finish service scheduleId resultCode (some finalResult) >>= fun ret =>
          .ret (writeReply ipc reply ret) := by
  obtain ⟨data₁, h₁, hdata⟩ := hparcel.read_of_contents hdata
  obtain ⟨data₂, h₂, hdata⟩ := hparcel.read_of_contents hdata
  obtain ⟨data₃, h₃, hdata⟩ := hparcel.read_of_contents hdata
  obtain ⟨data₄, h₄, hdata⟩ := hparcel.read_of_contents hdata
  obtain ⟨data₅, h₅, -⟩ := hparcel.read_of_contents hdata
  have hcode : ¬coauthFinish = coauthSendData := by decide
  simp only [onRemoteRequest, finishStub, h₁, h₂, h₃, h₄, h₅, ne_eq, not_true_eq_false, hcode,
    if_false, if_true, Prog.pure_eq]

/-- The proxy's `Finish` either gives up before the service is reached, or it is one `Finish` of the
service with what `Unpack` makes of the packed result. -/
theorem proxyFinish_cases {fuel : Nat} {locals : AuthAttributes.PackLocals}
    {finalResult : AuthAttributes} {p : CoAuthProg ResultCode}
    (h : proxyFinish fuel locals ipc service scheduleId srcType resultCode (some finalResult) =
      some p) :
    (∃ ret, p = .ret ret ∧ ¬(ipc.parcel.Accepts ∧ ipc.delivers = true)) ∨
      ∃ buffer a r b, ∃ k : ResultCode → ResultCode, finalResult.Packs locals buffer a ∧
        AuthAttributes.new.Unpacks buffer r ∧ r.object = some b ∧
        p = finish service scheduleId resultCode (some b) >>= fun ret => .ret (k ret) := by
  rw [proxyFinish] at h
  cases hheader : finishHeader ipc scheduleId srcType resultCode with
  | none =>
    simp only [hheader, Option.some.injEq] at h
    refine .inl ⟨_, h.symm, fun hall => ?_⟩
    obtain ⟨data, hdata⟩ := finishHeader_of_accepts hall.1
    rw [hheader] at hdata
    cases hdata
  | some data =>
    simp only [hheader] at h
    obtain ⟨⟨buffer, a⟩, hpack, h⟩ := Option.bind_eq_some_iff.mp h
    have hcontents := finishHeader_contents hparcel hheader
    cases hwrite : ipc.parcel.write data .uint8Vector buffer with
    | none =>
      simp only [hwrite, Option.some.injEq] at h
      refine .inl ⟨_, h.symm, fun hall => ?_⟩
      obtain ⟨data', hdata'⟩ := hall.1.write data .uint8Vector buffer
      rw [hwrite] at hdata'
      cases hdata'
    | some data' =>
      simp only [hwrite] at h
      obtain ⟨request, hrequest, rfl⟩ := Option.map_eq_some_iff.mp h
      rw [sendRequest] at hrequest
      split at hrequest
      -- the message is lost: nothing runs on the other side
      · next hlost =>
        cases hrequest
        exact .inl ⟨_, rfl, fun hall => by simp [hall.2] at hlost⟩
      · obtain ⟨stub, hstub, rfl⟩ := Option.map_eq_some_iff.mp hrequest
        have hdata' := hparcel.write hwrite
        rw [hcontents] at hdata'
        rw [onRemoteRequest_finish hparcel hdata'] at hstub
        obtain ⟨b, hb, rfl⟩ := Option.map_eq_some_iff.mp hstub
        obtain ⟨r, hunpack, hobject⟩ := Option.bind_eq_some_iff.mp hb
        -- The stub runs `finish`, and what remains is to read the reply.
        obtain ⟨k, hk⟩ := readReply_stub ipc ipc.parcel.empty
          (finish service scheduleId resultCode (some b))
        exact .inr ⟨buffer, a, r, b, k, ⟨fuel, hpack⟩, ⟨fuel, hunpack⟩, hobject, hk⟩

/-- The proxy's `Finish` returns when `Pack` and `Unpack` do. -/
theorem proxyFinish_returns {fuel : Nat} {locals : AuthAttributes.PackLocals}
    {finalResult a b : AuthAttributes} {buffer : List UInt8}
    {r : AuthAttributes.UnpackResult} (hpack : finalResult.pack fuel locals = some (buffer, a))
    (hunpack : AuthAttributes.new.unpack fuel buffer = some r) (hobject : r.object = some b) :
    ∃ p, proxyFinish fuel locals ipc service scheduleId srcType resultCode (some finalResult) =
      some p := by
  rw [proxyFinish]
  cases hheader : finishHeader ipc scheduleId srcType resultCode with
  | none => exact ⟨_, rfl⟩
  | some data =>
    simp only [hpack, Option.bind_some]
    cases hwrite : ipc.parcel.write data .uint8Vector buffer with
    | none => exact ⟨_, rfl⟩
    | some data' =>
      have hdata' := hparcel.write hwrite
      rw [finishHeader_contents hparcel hheader] at hdata'
      simp only [sendRequest]
      split
      · exact ⟨_, rfl⟩
      · rw [onRemoteRequest_finish hparcel hdata', hunpack, Option.bind_some, hobject]
        exact ⟨_, rfl⟩

end Finish

end UserIam.CoAuth
