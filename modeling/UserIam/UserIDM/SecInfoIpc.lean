import UserIam.Conc.Trace
import UserIam.Ipc.Parcel
import UserIam.UserIDM.UserIDMService

/-!
# UserIDMGetSecInfoCallbackProxy and UserIDMGetSecInfoCallbackStub

How the security information of a user reaches the client that has asked for it.  The proxy of the
service writes a parcel, the stub of the client reads it, and the client's callback is of one of two
kinds.
-/

namespace UserIam.UserIDM

open Conc Ipc

/-! ## 1. What a message holds -/

inductive CallbackKind where
  | interfaceToken
  | uint32
  | uint64
  | int32
  deriving DecidableEq

@[reducible] def CallbackKind.Carrier : CallbackKind → Type
  | .interfaceToken => String
  | .uint32 => UInt32
  | .uint64 => UInt64
  | .int32 => Int32

instance (kind : CallbackKind) : Inhabited kind.Carrier :=
  match kind with
  | .interfaceToken => ⟨""⟩
  | .uint32 => ⟨0⟩
  | .uint64 => ⟨0⟩
  | .int32 => ⟨0⟩

/-- What the two processes rely on: the parcels, what the base class of the stub makes of a code
that it does not know, whether the proxy still has its remote object, and whether the request gets
through. -/
structure CallbackIpc (P : Type) where
  parcel : ParcelApi P CallbackKind CallbackKind.Carrier
  objectStub : UInt32 → P → P → ResultCode × P
  remote : Bool
  delivers : Bool

def getSecInfoDescriptor : String := "ohos.useridm.IGetSecInfoCallback"

def onGetSecInfoCode : UInt32 := 0

/-! ## 2. The client -/

namespace UserAuthDomain

structure EnrolledInfo where
  authType : AuthType
  enrolledId : UInt64
  deriving DecidableEq, Repr

structure SecInfo where
  secureUid : UInt64
  enrolledInfoLen : UInt32
  enrolledInfo : List EnrolledInfo

end UserAuthDomain

def EnrolledInfo.toUserAuthDomain (enrolledInfo : EnrolledInfo) : UserAuthDomain.EnrolledInfo where
  authType := enrolledInfo.authType
  enrolledId := enrolledInfo.enrolledId

/-- The two pointers of a stub, at most one of which is not null. -/
structure GetSecInfoCallbackStub where
  callback : Option ClientCallback
  idmCallback : Option ClientCallback

/-- A call of `OnGetSecInfo` of a client. -/
inductive SecInfoCall where
  | callback (callback : ClientCallback) (info : SecInfo)
  | idmCallback (idmCallback : ClientCallback) (secInfo : UserAuthDomain.SecInfo)

variable {P : Type}

def stubOnGetSecInfo (stub : GetSecInfoCallbackStub) (info : SecInfo) : List SecInfoCall :=
  match stub.callback with
  | some callback => [.callback callback info]
  | none =>
    match stub.idmCallback with
    | some idmCallback =>
      let enrolledInfos := info.enrolledInfo.map EnrolledInfo.toUserAuthDomain
      [.idmCallback idmCallback ⟨info.secureUid, info.enrolledInfoLen, enrolledInfos⟩]
    | none => []

/-- The list of the security information stays as it is made, empty. -/
def onGetSecInfoStub (ipc : CallbackIpc P) (stub : GetSecInfoCallbackStub) (data reply : P) :
    ResultCode × P × List SecInfoCall :=
  let (secureUid, data) := ipc.parcel.read data .uint64
  let (enrolledInfoLen, _) := ipc.parcel.read data .uint32
  -- the client is called before the reply is written
  let calls := stubOnGetSecInfo stub ⟨secureUid, enrolledInfoLen, []⟩
  match ipc.parcel.write reply .int32 ResultCode.success with
  | none => (.fail, reply, calls)
  | some reply => (.success, reply, calls)

def secInfoOnRemoteRequest (ipc : CallbackIpc P) (stub : GetSecInfoCallbackStub) (code : UInt32)
    (data reply : P) : ResultCode × P × List SecInfoCall :=
  let (remoteDescripter, data) := ipc.parcel.read data .interfaceToken
  if getSecInfoDescriptor ≠ remoteDescripter then (.fail, reply, [])
  else if code = onGetSecInfoCode then onGetSecInfoStub ipc stub data reply
  else
    let (ret, reply) := ipc.objectStub code data reply
    (ret, reply, [])

/-! ## 3. The proxy of the service -/

/-- Whether there is a reply, the reply, and what the client is called with meanwhile. -/
def secInfoSendRequest (ipc : CallbackIpc P) (stub : GetSecInfoCallbackStub) (code : UInt32)
    (data reply : P) : Bool × P × List SecInfoCall :=
  if !ipc.remote then (false, reply, [])
  else if !ipc.delivers then (false, reply, [])
  else
    let (result, reply, calls) := secInfoOnRemoteRequest ipc stub code data reply
    (result = .success, reply, calls)

/-- `OnGetSecInfo`, of whose reply nothing is made. -/
def proxyOnGetSecInfo (ipc : CallbackIpc P) (stub : GetSecInfoCallbackStub) (info : SecInfo) :
    List SecInfoCall :=
  let data := do
    let data ← ipc.parcel.write ipc.parcel.empty .interfaceToken getSecInfoDescriptor
    let data ← ipc.parcel.write data .uint64 info.secureUid
    ipc.parcel.write data .uint32 info.enrolledInfoLen
  match data with
  | none => []
  | some data => (secInfoSendRequest ipc stub onGetSecInfoCode data ipc.parcel.empty).2.2

/-! ## 4. What gets through -/

section Through

variable {ipc : CallbackIpc P}
  {contents : P → List (ParcelApi.Item CallbackKind CallbackKind.Carrier)}
  (hparcel : ipc.parcel.Lawful contents)

include hparcel

/-- The stub makes the call that the parcel describes, and the parcel describes no list. -/
theorem secInfoOnRemoteRequest_calls {stub : GetSecInfoCallbackStub} {info : SecInfo}
    {data reply : P}
    (hdata : contents data = [⟨.interfaceToken, getSecInfoDescriptor⟩, ⟨.uint64, info.secureUid⟩,
      ⟨.uint32, info.enrolledInfoLen⟩]) :
    (secInfoOnRemoteRequest ipc stub onGetSecInfoCode data reply).2.2 =
      stubOnGetSecInfo stub { info with enrolledInfo := [] } := by
  obtain ⟨data₁, h₁, hdata⟩ := hparcel.read_of_contents hdata
  obtain ⟨data₂, h₂, hdata⟩ := hparcel.read_of_contents hdata
  obtain ⟨data₃, h₃, -⟩ := hparcel.read_of_contents hdata
  simp only [secInfoOnRemoteRequest, onGetSecInfoStub, h₁, h₂, h₃, ne_eq, not_true_eq_false,
    if_false, if_true]
  cases ipc.parcel.write reply .int32 ResultCode.success <;> rfl

/-- When nothing is lost on the way, the client is called once, with an empty list. -/
theorem proxyOnGetSecInfo_eq (haccepts : ipc.parcel.Accepts) (hremote : ipc.remote = true)
    (hdelivers : ipc.delivers = true) (stub : GetSecInfoCallbackStub) (info : SecInfo) :
    proxyOnGetSecInfo ipc stub info = stubOnGetSecInfo stub { info with enrolledInfo := [] } := by
  obtain ⟨data₁, h₁⟩ := haccepts.write ipc.parcel.empty .interfaceToken getSecInfoDescriptor
  obtain ⟨data₂, h₂⟩ := haccepts.write data₁ .uint64 info.secureUid
  obtain ⟨data₃, h₃⟩ := haccepts.write data₂ .uint32 info.enrolledInfoLen
  have hdata : contents data₃ = [⟨.interfaceToken, getSecInfoDescriptor⟩,
      ⟨.uint64, info.secureUid⟩, ⟨.uint32, info.enrolledInfoLen⟩] := by
    rw [hparcel.write h₃, hparcel.write h₂, hparcel.write h₁, hparcel.empty]
    rfl
  simp only [proxyOnGetSecInfo, h₁, h₂, h₃, Option.bind_eq_bind, Option.bind_some]
  rw [secInfoSendRequest, if_neg (by simp [hremote]), if_neg (by simp [hdelivers])]
  exact secInfoOnRemoteRequest_calls hparcel hdata

end Through

/-! ## 5. What the client sees -/

/-- The client sees the security information as it was, in its own types. -/
def SecInfoCall.Shows (info : SecInfo) : SecInfoCall → Prop
  | .callback _ got =>
    got.secureUid = info.secureUid ∧ got.enrolledInfo = info.enrolledInfo ∧
      got.enrolledInfoLen.toNat = got.enrolledInfo.length
  | .idmCallback _ got =>
    got.secureUid = info.secureUid ∧
      got.enrolledInfo = info.enrolledInfo.map EnrolledInfo.toUserAuthDomain ∧
      got.enrolledInfoLen.toNat = got.enrolledInfo.length

/-- The client's `OnGetSecInfo` is called once, and it is told what the service has told. -/
def SurvivesIpc (ipc : CallbackIpc P) (stub : GetSecInfoCallbackStub) (info : SecInfo) : Prop :=
  ∃ call, proxyOnGetSecInfo ipc stub info = [call] ∧ call.Shows info

theorem survivesIpc_of_call {ipc : CallbackIpc P} {stub : GetSecInfoCallbackStub} {info : SecInfo}
    {call : SecInfoCall} (hcall : proxyOnGetSecInfo ipc stub info = [call]) :
    SurvivesIpc ipc stub info ↔ call.Shows info := by
  constructor
  · rintro ⟨call', hcall', hshows⟩
    rw [hcall] at hcall'
    cases hcall'
    exact hshows
  · exact fun hshows => ⟨call, hcall, hshows⟩

theorem stubOnGetSecInfo_client {stub : GetSecInfoCallbackStub}
    (hclient : stub.callback.isSome ∨ stub.idmCallback.isSome) (info : SecInfo) :
    ∃ client, stubOnGetSecInfo stub info = [.callback client info] ∨
      stubOnGetSecInfo stub info = [.idmCallback client ⟨info.secureUid, info.enrolledInfoLen,
        info.enrolledInfo.map EnrolledInfo.toUserAuthDomain⟩] := by
  unfold stubOnGetSecInfo
  cases hcallback : stub.callback with
  | some client => exact ⟨client, .inl rfl⟩
  | none =>
    cases hidm : stub.idmCallback with
    | some client => exact ⟨client, .inr rfl⟩
    | none => simp [hcallback, hidm] at hclient

/-- Whoever has asked, the list is lost, and the length may tell of it. -/
theorem shows_emptied {info : SecInfo} (client : ClientCallback)
    (hzero : info.enrolledInfo = [] → info.enrolledInfoLen.toNat = 0) :
    ((SecInfoCall.callback client { info with enrolledInfo := [] }).Shows info ↔
        info.enrolledInfo = []) ∧
      ((SecInfoCall.idmCallback client ⟨info.secureUid, info.enrolledInfoLen, []⟩).Shows info ↔
        info.enrolledInfo = []) := by
  refine ⟨⟨fun h => h.2.1.symm, fun hnil => ⟨rfl, hnil.symm, hzero hnil⟩⟩, ?_, fun hnil => ?_⟩
  · rintro ⟨-, hmap, -⟩
    exact List.map_eq_nil_iff.mp hmap.symm
  · refine ⟨rfl, ?_, hzero hnil⟩
    rw [hnil]
    rfl

theorem survives_of_zero {ipc : CallbackIpc P}
    {contents : P → List (ParcelApi.Item CallbackKind CallbackKind.Carrier)}
    (hparcel : ipc.parcel.Lawful contents) (haccepts : ipc.parcel.Accepts)
    (hremote : ipc.remote = true) (hdelivers : ipc.delivers = true)
    {stub : GetSecInfoCallbackStub} (hclient : stub.callback.isSome ∨ stub.idmCallback.isSome)
    {info : SecInfo} (hzero : info.enrolledInfo = [] → info.enrolledInfoLen.toNat = 0) :
    SurvivesIpc ipc stub info ↔ info.enrolledInfo = [] := by
  have hproxy := proxyOnGetSecInfo_eq hparcel haccepts hremote hdelivers stub info
  obtain ⟨client, hcall⟩ := stubOnGetSecInfo_client hclient { info with enrolledInfo := [] }
  obtain ⟨hcallback, hidm⟩ := shows_emptied client hzero
  -- the client has one callback or the other
  rcases hcall with hcall | hcall
  · exact (survivesIpc_of_call (hproxy.trans hcall)).trans hcallback
  · exact (survivesIpc_of_call (hproxy.trans hcall)).trans hidm

/-- **When security information survives.**  The parcel holds the length of the list and none of its
entries. -/
theorem survivesIpc_iff {ipc : CallbackIpc P}
    {contents : P → List (ParcelApi.Item CallbackKind CallbackKind.Carrier)}
    (hparcel : ipc.parcel.Lawful contents) (haccepts : ipc.parcel.Accepts)
    (hremote : ipc.remote = true) (hdelivers : ipc.delivers = true)
    {stub : GetSecInfoCallbackStub} (hclient : stub.callback.isSome ∨ stub.idmCallback.isSome)
    {info : SecInfo} (hlen : info.enrolledInfoLen.toNat = info.enrolledInfo.length) :
    SurvivesIpc ipc stub info ↔ info.enrolledInfo = [] := by
  refine survives_of_zero hparcel haccepts hremote hdelivers hclient fun hnil => ?_
  rw [hlen, hnil]
  rfl

/-! ### A request -/

/-- A report of security information to the one who has asked for it. -/
def secInfoReport : (o : UserIDMOp) × UserIDMRes o → Option (ClientCallback × SecInfo)
  | ⟨.onGetSecInfo callback info, _⟩ => some (callback, info)
  | _ => none

/-- A request that fails has no list, and one that succeeds has more than an empty one. -/
theorem getSecureUid_returns (userId : Int32) :
    (getSecureUid userId).Returns fun r => r.1 = .success ↔ r.2.2 ≠ [] := by
  intro found
  refine Prog.returns_ite.mpr ⟨fun _ => ?_, fun _ r => ?_⟩
  · show ResultCode.generalError = .success ↔ [] ≠ []
    decide
  · refine Prog.returns_ite.mpr ⟨fun hret => ?_, fun hret => ?_⟩
    · exact ⟨fun h => absurd h hret, fun h => absurd rfl h⟩
    -- a list that is empty is a failure
    · refine Prog.returns_ite.mpr ⟨fun hlen => ?_, fun hlen => ?_⟩
      · show ResultCode.generalError = .success ↔ [] ≠ []
        decide
      · refine ⟨fun _ hnil => hlen ?_, fun _ => not_not.mp hret⟩
        rw [List.map_eq_nil_iff.mp hnil]
        exact Nat.le_refl 0

theorem getSecureUid_unreported (userId : Int32) :
    (getSecureUid userId).All fun o => ∀ r, secInfoReport ⟨o, r⟩ = none := by
  simp [getSecureUid, secInfoReport]

/-- The service reports once, and its answer tells whether there is a list that can be counted. -/
theorem serviceGetSecInfo_reports {userId : Int32} {callback : ClientCallback} {ret : ResultCode}
    {es : List ((o : UserIDMOp) × UserIDMRes o)}
    (h : (serviceGetSecInfo userId (some callback)).Trace ret es) :
    ∃ info, es.filterMap secInfoReport = [(callback, info)] ∧
      (info.enrolledInfo = [] → info.enrolledInfoLen.toNat = 0) ∧
      (ret = .success ↔ info.enrolledInfo ≠ [] ∧ info.enrolledInfo.length < 2 ^ 32) := by
  obtain ⟨answer, es₁, es₂, hquery, hrest, rfl⟩ := Prog.trace_bind.mp h
  have hlist := hquery.returns (getSecureUid_returns userId)
  obtain ⟨ret', secureUid, enrolledInfo⟩ := answer
  have hlist : ret' = .success ↔ enrolledInfo ≠ [] := hlist
  dsimp only at hrest
  have hsilent : es₁.filterMap secInfoReport = [] := List.filterMap_eq_nil_iff.mpr fun e he =>
    hquery.ops (getSecureUid_unreported userId) he e.2
  rw [List.filterMap_append, hsilent, List.nil_append]
  by_cases hfail : ret' ≠ .success ∨ enrolledInfo.length ≥ 2 ^ 32
  · rw [if_pos hfail] at hrest
    obtain ⟨_, es₃, hret, rfl⟩ := Prog.trace_op_bind.mp hrest
    obtain ⟨rfl, rfl⟩ := Prog.trace_ret.mp hret
    refine ⟨⟨secureUid, 0, enrolledInfo⟩, rfl, fun _ => rfl, fun h => absurd h (by decide), ?_⟩
    rintro ⟨hsome, hshort⟩
    exact absurd hfail (not_or.mpr ⟨not_not.mpr (hlist.mpr hsome), Nat.not_le_of_lt hshort⟩)
  · rw [if_neg hfail] at hrest
    obtain ⟨_, es₃, hret, rfl⟩ := Prog.trace_op_bind.mp hrest
    obtain ⟨rfl, rfl⟩ := Prog.trace_ret.mp hret
    rw [not_or, not_not, not_le] at hfail
    refine ⟨⟨secureUid, UInt32.ofNat enrolledInfo.length, enrolledInfo⟩, rfl, fun hnil => ?_,
      fun _ => ⟨hlist.mp hfail.1, hfail.2⟩, fun _ => rfl⟩
    exact absurd hnil (hlist.mp hfail.1)

/-- **A request for security information.**  It is reported once.  What reaches the client is what
was reported only when there is nothing enrolled to report, so never when the request succeeds. -/
theorem serviceGetSecInfo_survives {ipc : CallbackIpc P}
    {contents : P → List (ParcelApi.Item CallbackKind CallbackKind.Carrier)}
    (hparcel : ipc.parcel.Lawful contents) (haccepts : ipc.parcel.Accepts)
    (hremote : ipc.remote = true) (hdelivers : ipc.delivers = true)
    {stub : GetSecInfoCallbackStub} (hclient : stub.callback.isSome ∨ stub.idmCallback.isSome)
    {userId : Int32} {callback : ClientCallback} {ret : ResultCode}
    {es : List ((o : UserIDMOp) × UserIDMRes o)}
    (h : (serviceGetSecInfo userId (some callback)).Trace ret es) :
    ∃ info, es.filterMap secInfoReport = [(callback, info)] ∧
      (SurvivesIpc ipc stub info ↔ info.enrolledInfo = []) ∧
      (ret = .success ↔ info.enrolledInfo ≠ [] ∧ info.enrolledInfo.length < 2 ^ 32) := by
  obtain ⟨info, hreport, hzero, hret⟩ := serviceGetSecInfo_reports h
  exact ⟨info, hreport, survives_of_zero hparcel haccepts hremote hdelivers hclient hzero, hret⟩

/-! ### A user with a face -/

def secInfoIpc : CallbackIpc (List (ParcelApi.Item CallbackKind CallbackKind.Carrier)) :=
  ⟨ParcelApi.ofList, fun _ _ reply => (.fail, reply), true, true⟩

theorem survivesIpc_iff_example : SurvivesIpc secInfoIpc ⟨some 0, none⟩ ⟨7, 0, []⟩ :=
  (survivesIpc_iff ParcelApi.ofList_lawful ParcelApi.ofList_accepts rfl rfl (.inl rfl) rfl).mpr rfl

/-- The client is told of one entry, and gets none. -/
theorem survivesIpc_counterexample :
    ¬∀ (stub : GetSecInfoCallbackStub) (info : SecInfo),
      stub.callback.isSome ∨ stub.idmCallback.isSome →
        info.enrolledInfoLen.toNat = info.enrolledInfo.length →
          SurvivesIpc secInfoIpc stub info := by
  intro h
  have hface := h ⟨some 0, none⟩ ⟨7, 1, [⟨AuthType.face, 5⟩]⟩ (.inl rfl) rfl
  have hproxy : proxyOnGetSecInfo secInfoIpc ⟨some 0, none⟩ ⟨7, 1, [⟨AuthType.face, 5⟩]⟩ =
      [.callback 0 ⟨7, 1, []⟩] :=
    proxyOnGetSecInfo_eq ParcelApi.ofList_lawful ParcelApi.ofList_accepts rfl rfl _ _
  cases ((survivesIpc_of_call hproxy).mp hface).2.1

/-- The request of a user with a face succeeds, and the client does not get the face. -/
theorem serviceGetSecInfo_survives_face :
    ∃ es info, (serviceGetSecInfo 100 (some 3)).Trace .success es ∧
      es.filterMap secInfoReport = [(3, info)] ∧ ¬SurvivesIpc secInfoIpc ⟨some 3, none⟩ info := by
  have htrace : (serviceGetSecInfo 100 (some 3)).Trace .success
      [⟨.getHdiInterface, true⟩, ⟨.getUserInfo 100, (.success, 7, [⟨AuthType.face, 5⟩])⟩,
        ⟨.onGetSecInfo 3 ⟨7, 1, [⟨AuthType.face, 5⟩]⟩, ()⟩] :=
    .call _ (.call _ (.call _ (.ret _)))
  obtain ⟨info, hreport, hsurvives, hret⟩ :=
    serviceGetSecInfo_survives ParcelApi.ofList_lawful ParcelApi.ofList_accepts
      (show secInfoIpc.remote = true from rfl) rfl
      (show (⟨some 3, none⟩ : GetSecInfoCallbackStub).callback.isSome ∨ _ from .inl rfl) htrace
  exact ⟨_, info, htrace, hreport, fun h => (hret.mp rfl).1 (hsurvives.mp h)⟩

end UserIam.UserIDM
