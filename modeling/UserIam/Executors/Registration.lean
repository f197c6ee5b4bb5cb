import UserIam.CoAuth.Registration
import UserIam.Conc.Promise
import UserIam.Conc.Trace

/-!
# Registration

How an executor gets from its driver into the framework: the executor's process sends what the
driver says about the executor, the service registers it and sends the messenger, and the driver is
told that the registration has finished.
-/

namespace UserIam.Executors

open Conc CoAuth

/-! ## 1. The process of the executor -/

/-- What a driver says about an executor. -/
structure HdiExecutorInfo where
  executorId : Int32
  authType : AuthType
  role : UInt32
  executorType : Int32
  esl : UInt32
  publicKey : List UInt8
  deriving Inhabited

inductive RegistrationOp where
  | executorHdi
  | getExecutorInfo
  | executorCallback
  | executorMgrWrapper
  | getProxy
  | service (o : RegisterOp)
  | lockExecutor
  | setExecutorMessenger (messenger : Nat)
  | onRegisterFinish (templateIds : List UInt64) (publicKey extraInfo : List UInt8)
  | onQueryResult (callback : QueryCallback) (resultCode : UInt32)

/-- `executorHdi` and `lockExecutor` tell whether the pointer is there. -/
@[reducible] def RegistrationRes : RegistrationOp → Type
  | .executorHdi => Bool
  | .getExecutorInfo => ResultCode × HdiExecutorInfo
  | .executorCallback => Bool
  | .executorMgrWrapper => Bool
  | .getProxy => Bool
  | .service o => RegisterRes o
  | .lockExecutor => Bool
  | .setExecutorMessenger _ => Unit
  | .onRegisterFinish .. => Unit
  | .onQueryResult .. => Unit

abbrev RegistrationProg := Prog RegistrationOp RegistrationRes
abbrev RegistrationStep := (o : RegistrationOp) × RegistrationRes o

/-- `OnMessengerReady` of the framework's callback. -/
def frameworkOnMessengerReady (ready : MessengerReady) : RegistrationProg Unit := do
  if !(← Prog.op RegistrationOp.lockExecutor) then return
  if !(← Prog.op RegistrationOp.executorHdi) then return
  Prog.op (RegistrationOp.setExecutorMessenger ready.messenger)
  Prog.op (RegistrationOp.onRegisterFinish ready.templateIds ready.publicKey [])

/-- `OnMessengerReady` of the stub.  The one that hands over the messenger only does nothing. -/
def stubOnMessengerReady (callback : Bool) (ready : MessengerReady) : RegistrationProg Unit :=
  if !callback then return else frameworkOnMessengerReady ready

def combineShortToInt (upper lower : UInt16) : UInt32 := (upper.toUInt32 <<< 16) ||| lower.toUInt32

/-- `ExecutorMgr::Register` leaves the id and the device behind. -/
def authExecutorOf (info : HdiExecutorInfo) : WireAuthExecutor where
  authType := info.authType
  -- a signed number becomes one of 64 bits
  authAbility := info.executorType.toInt64.toUInt64
  executorSecLevel := info.esl
  executorType := info.role
  publicKey := info.publicKey
  deviceId := []

/-! ## 2. Both processes -/

/-- What is between the processes: the parcels, and what becomes of the two messages. -/
structure RegistrationLink (P : Type) where
  ipc : CoAuthIpc P
  register : Ipc.Delivery
  ready : Ipc.Delivery

section System

variable {P : Type} (link : RegistrationLink P)

/-- The service tells the executor over the link. -/
def throughReady : (o : RegisterOp) → RegistrationProg (RegisterRes o)
  | .onMessengerReady _ ready =>
    proxyOnMessengerReady link.ipc link.ready (stubOnMessengerReady true) ready
  | o => Prog.op (RegistrationOp.service o)

/-- `QueryStatus` is a legacy interface and answers with a failure. -/
def coAuthService : ICoAuth RegistrationOp RegistrationRes where
  register executorInfo callback :=
    (registerExecutor executorInfo.toResAuthExecutor callback).interp (throughReady link)
  queryStatus _ callback := Prog.op (RegistrationOp.onQueryResult callback ResultCode.fail.toUInt32)

/-- `AuthExecutorRegistry::Register`, whose answer nobody looks at. -/
def registryRegister (executorInfo : WireAuthExecutor) (callback : ExecutorCallback) :
    RegistrationProg UInt64 := do
  if !(← Prog.op RegistrationOp.getProxy) then return 1
  (coAuthProxy link.ipc link.register (coAuthService link)).register executorInfo callback

def registerExecutorCallback (hdiId : UInt16) (callback : ExecutorCallback)
    (info : HdiExecutorInfo) : RegistrationProg Unit := do
  let combineResult := combineShortToInt hdiId info.executorId.toUInt32.toUInt16
  let info := { info with executorId := combineResult.toInt32 }
  if !(← Prog.op RegistrationOp.executorCallback) then return
  if !(← Prog.op RegistrationOp.executorMgrWrapper) then return
  Prog.discard (registryRegister link (authExecutorOf info) callback)

/-- `Executor::OnFrameworkReady` -/
def onFrameworkReady (hdiId : UInt16) (callback : ExecutorCallback) : RegistrationProg Unit := do
  if !(← Prog.op RegistrationOp.executorHdi) then return
  let (ret, info) ← Prog.op RegistrationOp.getExecutorInfo
  if ret ≠ .success then return
  registerExecutorCallback link hdiId callback info

end System

/-! ## 3. The course of a registration -/

/-- What the driver says, as the HDI of the framework is told it. -/
def registerInfoOf (info : HdiExecutorInfo) : ExecutorRegisterInfo where
  authType := info.authType
  executorRole := info.role
  executorMatcher := info.executorType.toUInt32
  esl := info.esl
  publicKey := info.publicKey

/-- A number that is extended to 64 bits and cut off again. -/
theorem toUInt32_toUInt64_toInt64 (x : Int32) : x.toInt64.toUInt64.toUInt32 = x.toUInt32 := by
  apply UInt32.toBitVec_inj.mp
  show (x.toBitVec.signExtend 64).setWidth 32 = x.toBitVec
  ext i hi
  have hlt : i < 64 := by omega
  rw [BitVec.getElem_setWidth, BitVec.getLsbD_signExtend, if_pos hi]
  simp [hlt, hi]

theorem getExecutorRegisterInfo_authExecutorOf (info : HdiExecutorInfo) :
    getExecutorRegisterInfo (authExecutorOf info).toResAuthExecutor =
      if info.publicKey.length = publicKeyLen then some (registerInfoOf info) else none := by
  rw [getExecutorRegisterInfo, ite_not]
  show (if info.publicKey.length = publicKeyLen then _ else _) = _
  simp only [authExecutorOf, registerInfoOf, toUInt32_toUInt64_toInt64]

def readyCourse (ready : MessengerReady) : List RegistrationStep :=
  [⟨.lockExecutor, true⟩, ⟨.executorHdi, true⟩, ⟨.setExecutorMessenger ready.messenger, ()⟩,
    ⟨.onRegisterFinish ready.templateIds ready.publicKey [], ()⟩]

def messengerCourse (added : AddExecutorResult) (messenger : Nat) : List RegistrationStep :=
  ⟨.service .newMessenger, some messenger⟩ ::
    readyCourse ⟨messenger, added.frameworksPublicKey, added.templateIds⟩

def watchCourse (callback : ExecutorCallback) (info : HdiExecutorInfo) (added : AddExecutorResult)
    (messenger : Nat) : List RegistrationStep :=
  ⟨.service .newDeathRecipient, true⟩ :: ⟨.service (.asObject callback), true⟩ ::
    ⟨.service (.addDeathRecipient added.executorId callback), true⟩ ::
    ⟨.service (.insert added.executorId ⟨info.authType⟩ callback), ()⟩ ::
    messengerCourse added messenger

def registerCourse (callback : ExecutorCallback) (info : HdiExecutorInfo)
    (added : AddExecutorResult) (messenger : Nat) : List RegistrationStep :=
  ⟨.service .getHdiInterface, true⟩ :: ⟨.service (.addExecutor (registerInfoOf info)), added⟩ ::
    watchCourse callback info added messenger

/-- The whole of a registration; a key of the wrong length does not get to the HDI. -/
def registrationCourse (callback : ExecutorCallback) (info : HdiExecutorInfo)
    (added : AddExecutorResult) (messenger : Nat) : List RegistrationStep :=
  ⟨.executorHdi, true⟩ :: ⟨.getExecutorInfo, (.success, info)⟩ :: ⟨.executorCallback, true⟩ ::
    ⟨.executorMgrWrapper, true⟩ :: ⟨.getProxy, true⟩ ::
    if info.publicKey.length = publicKeyLen then registerCourse callback info added messenger
    else []

section Course

variable {P : Type} {link : RegistrationLink P} {contents : P → List CoAuthItem}
  {es : List RegistrationStep} {callback : ExecutorCallback} {info : HdiExecutorInfo}
  {added : AddExecutorResult}

/-- A check whose failure ends the program. -/
theorem check {α : Type} {k : Bool → RegistrationProg α} {b : α} (hk : k false = .ret b) (r : Bool)
    (hr : r ≠ true) : ∃ b, k r = .ret b := by
  obtain rfl := Bool.eq_false_of_not_eq_true hr
  exact ⟨b, hk⟩

/-- An operation that has one answer only. -/
theorem unchecked {α : Type} {k : Unit → RegistrationProg α} (r : Unit) (hr : r ≠ ()) :
    ∃ b, k r = .ret b := absurd rfl hr

theorem frameworkOnMessengerReady_inCourse {ready : MessengerReady}
    (h : (frameworkOnMessengerReady ready).Trace () es) :
    Prog.InCourse (readyCourse ready) es := by
  refine h.inCourse true (fun es₁ h₁ => ?_) (check (by rfl))
  refine h₁.inCourse true (fun es₂ h₂ => ?_) (check (by rfl))
  refine h₂.inCourse () (fun es₃ h₃ => ?_) unchecked
  refine h₃.inCourse () (fun es₄ h₄ => ?_) unchecked
  rw [(Prog.trace_ret.mp h₄).2]
  exact Prog.inCourse_nil

variable (hlawful : link.ipc.parcel.Lawful contents)
include hlawful

theorem ready_inCourse {ready : MessengerReady} {a b : UInt64}
    (h : (throughReady link (.onMessengerReady callback ready) >>= fun _ => .ret b).Trace a es) :
    Prog.InCourse (readyCourse ready) es := by
  obtain ⟨_, es₁, es₂, h₁, h₂, rfl⟩ := Prog.trace_bind.mp h
  rw [(Prog.trace_ret.mp h₂).2, List.append_nil]
  rcases proxyOnMessengerReady_posted hlawful link.ready (stubOnMessengerReady true) ready with
    heq | heq
  · have h₁ : (proxyOnMessengerReady link.ipc link.ready (stubOnMessengerReady true)
      ready).Trace () es₁ := h₁
    rw [heq] at h₁
    rw [(Prog.trace_ret.mp h₁).2]
    exact Prog.inCourse_nil
  · have h₁ : (proxyOnMessengerReady link.ipc link.ready (stubOnMessengerReady true)
      ready).Trace () es₁ := h₁
    rw [heq] at h₁
    exact frameworkOnMessengerReady_inCourse h₁

theorem assignMessenger_inCourse {id : UInt64}
    (h : ((assignMessenger callback added).interp (throughReady link)).Trace id es) :
    ∃ messenger, Prog.InCourse (messengerCourse added messenger) es := by
  obtain ⟨r, es', h', rfl⟩ := Prog.trace_call.mp h
  cases r with
  | none =>
    rw [(Prog.trace_ret.mp h').2]
    exact ⟨0, Prog.inCourse_stop _ _⟩
  | some messenger =>
    exact ⟨messenger, (ready_inCourse hlawful h').cons _⟩

theorem watchExecutor_inCourse {executorInfo : ResAuthExecutor} {id : UInt64}
    (hinfo : executorInfo.toAuthExecutor = ⟨info.authType⟩)
    (h : ((watchExecutor executorInfo callback added).interp (throughReady link)).Trace id es) :
    ∃ messenger, Prog.InCourse (watchCourse callback info added messenger) es := by
  unfold watchCourse
  rw [← hinfo]
  refine h.inCourse_exists Nat true (fun es₁ h₁ => ?_) (check (by rfl))
  refine h₁.inCourse_exists Nat true (fun es₂ h₂ => ?_) (check (by rfl))
  refine h₂.inCourse_exists Nat true (fun es₃ h₃ => ?_) (check (by rfl))
  refine h₃.inCourse_exists Nat () (fun es₄ h₄ => ?_) unchecked
  exact assignMessenger_inCourse hlawful h₄

/-- An answer of the HDI that adds the executor, and a messenger. -/
abbrev Addition := { added : AddExecutorResult // added.result = .success } × Nat

instance : Nonempty Addition := ⟨⟨⟨.success, 0, [], []⟩, rfl⟩, 0⟩

theorem registerExecutor_inCourse {id : UInt64}
    (hlength : info.publicKey.length = publicKeyLen)
    (h : ((registerExecutor (authExecutorOf info).toResAuthExecutor callback).interp
      (throughReady link)).Trace id es) :
    ∃ i : Addition, Prog.InCourse (registerCourse callback info i.1 i.2) es := by
  have hinfo := getExecutorRegisterInfo_authExecutorOf info
  rw [if_pos hlength] at hinfo
  rw [registerExecutor, hinfo] at h
  refine h.inCourse_exists Addition true (fun es₁ h₁ => ?_) (check (by rfl))
  obtain ⟨added, es₂, h₂, rfl⟩ := Prog.trace_call.mp h₁
  have h₂ : ((if added.result ≠ .success then .ret invalidExecutorId
    else watchExecutor (authExecutorOf info).toResAuthExecutor callback added).interp
      (throughReady link)).Trace id es₂ := h₂
  by_cases hresult : added.result = .success
  · rw [if_neg (not_not.mpr hresult)] at h₂
    obtain ⟨messenger, hcourse⟩ := watchExecutor_inCourse hlawful rfl h₂
    exact ⟨⟨⟨added, hresult⟩, messenger⟩, hcourse.cons _⟩
  · rw [if_pos hresult] at h₂
    rw [(Prog.trace_ret.mp h₂).2]
    exact ⟨Classical.arbitrary _, Prog.inCourse_stop _ _⟩

theorem coAuthService_inCourse {id : UInt64}
    (h : ((coAuthService link).register (authExecutorOf info) callback).Trace id es) :
    ∃ i : Addition, Prog.InCourse (if info.publicKey.length = publicKeyLen then
      registerCourse callback info i.1 i.2 else []) es := by
  by_cases hlength : info.publicKey.length = publicKeyLen
  · simp only [if_pos hlength]
    exact registerExecutor_inCourse hlawful hlength h
  · have hinfo := getExecutorRegisterInfo_authExecutorOf info
    rw [if_neg hlength] at hinfo
    have h : ((registerExecutor (authExecutorOf info).toResAuthExecutor callback).interp
      (throughReady link)).Trace id es := h
    rw [registerExecutor, hinfo] at h
    rw [(Prog.trace_ret.mp h).2]
    exact ⟨Classical.arbitrary _, Prog.inCourse_nil⟩

theorem proxyRegister_inCourse {id : UInt64}
    (h : ((coAuthProxy link.ipc link.register (coAuthService link)).register (authExecutorOf info)
      callback).Trace id es) :
    ∃ i : Addition, Prog.InCourse (if info.publicKey.length = publicKeyLen then
      registerCourse callback info i.1 i.2 else []) es := by
  rcases (coAuthProxy_bestEffort hlawful link.register (coAuthService link)).register
    (authExecutorOf info) callback with ⟨_, -, heq⟩ | ⟨f, -, heq⟩
  · rw [heq] at h
    rw [(Prog.trace_ret.mp h).2]
    exact ⟨Classical.arbitrary _, Prog.inCourse_nil⟩
  · rw [heq] at h
    obtain ⟨_, es₁, es₂, h₁, h₂, rfl⟩ := Prog.trace_bind.mp h
    rw [(Prog.trace_ret.mp h₂).2, List.append_nil]
    exact coAuthService_inCourse hlawful h₁

theorem registerExecutorCallback_inCourse {hdiId : UInt16}
    (h : (registerExecutorCallback link hdiId callback info).Trace () es) :
    ∃ i : Addition, Prog.InCourse (⟨.executorCallback, true⟩ :: ⟨.executorMgrWrapper, true⟩ ::
      ⟨.getProxy, true⟩ :: if info.publicKey.length = publicKeyLen then
        registerCourse callback info i.1 i.2 else []) es := by
  refine h.inCourse_exists Addition true (fun es₁ h₁ => ?_) (check (by rfl))
  refine h₁.inCourse_exists Addition true (fun es₂ h₂ => ?_) (check (by rfl))
  -- The id that the service gives does not matter, nor does the one that the driver has given.
  have h₂ : (registryRegister link (authExecutorOf info) callback >>= fun _ =>
    .ret ()).Trace () es₂ := h₂
  obtain ⟨id, es₃, es₄, h₃, h₄, rfl⟩ := Prog.trace_bind.mp h₂
  rw [(Prog.trace_ret.mp h₄).2, List.append_nil]
  refine h₃.inCourse_exists Addition true (fun es₅ h₅ => ?_) (check (by rfl))
  exact proxyRegister_inCourse hlawful h₅

/-- **A registration takes its course**, whatever the surroundings do and whatever messages get
lost: what is done is done in this order, with what the driver and the HDI have said, up to the
first step that fails. -/
theorem onFrameworkReady_inCourse (hdiId : UInt16)
    (h : (onFrameworkReady link hdiId callback).Trace () es) :
    ∃ info added messenger, added.result = .success ∧
      Prog.InCourse (registrationCourse callback info added messenger) es := by
  have hexists : ∃ i : HdiExecutorInfo × Addition,
      Prog.InCourse (registrationCourse callback i.1 i.2.1 i.2.2) es := by
    refine h.inCourse_exists (HdiExecutorInfo × Addition) true (fun es₁ h₁ => ?_) (check (by rfl))
    obtain ⟨⟨ret, info⟩, es₂, h₂, rfl⟩ := Prog.trace_call.mp h₁
    have h₂ : (if ret ≠ .success then .ret () else
      registerExecutorCallback link hdiId callback info).Trace () es₂ := h₂
    by_cases hret : ret = .success
    · rw [if_neg (not_not.mpr hret)] at h₂
      obtain ⟨i, hcourse⟩ := registerExecutorCallback_inCourse hlawful h₂
      exact ⟨(info, i), hret ▸ hcourse.cons _⟩
    · rw [if_pos hret] at h₂
      rw [(Prog.trace_ret.mp h₂).2]
      exact ⟨Classical.arbitrary _, Prog.inCourse_stop _ _⟩
  obtain ⟨⟨info, added, messenger⟩, hcourse⟩ := hexists
  exact ⟨info, added.1, messenger, added.2, hcourse⟩

end Course

def fingerprintInfo : HdiExecutorInfo := ⟨3, 3, 3, -1, 2, List.replicate publicKeyLen 9⟩

/-- The request gets lost behind the connection to the service. -/
theorem onFrameworkReady_inCourse_lost :
    ∃ info added messenger, added.result = .success ∧
      Prog.InCourse (registrationCourse 5 info added messenger)
        [⟨.executorHdi, true⟩, ⟨.getExecutorInfo, (.success, fingerprintInfo)⟩,
          ⟨.executorCallback, true⟩, ⟨.executorMgrWrapper, true⟩, ⟨.getProxy, true⟩] := by
  have htrace : (onFrameworkReady ⟨listCoAuthIpc, .lost, .answered⟩ 1 5).Trace ()
      [⟨.executorHdi, true⟩, ⟨.getExecutorInfo, (.success, fingerprintInfo)⟩,
        ⟨.executorCallback, true⟩, ⟨.executorMgrWrapper, true⟩, ⟨.getProxy, true⟩] :=
    Prog.trace_call.mpr ⟨true, _, Prog.trace_call.mpr ⟨(.success, fingerprintInfo), _,
      Prog.trace_call.mpr ⟨true, _, Prog.trace_call.mpr ⟨true, _,
        Prog.trace_call.mpr ⟨true, [], .ret (), rfl⟩, rfl⟩, rfl⟩, rfl⟩, rfl⟩
  exact onFrameworkReady_inCourse Ipc.CheckedApi.ofList_lawful 1 htrace

/-! ## 4. A registration that nothing stops -/

/-- Everything is there, and these are the driver's and the HDI's answers. -/
def Supports (info : HdiExecutorInfo) (added : AddExecutorResult) (messenger : Nat) :
    (o : RegistrationOp) → RegistrationRes o → Prop
  | .executorHdi, r => r = true
  | .getExecutorInfo, r => r = (.success, info)
  | .executorCallback, r => r = true
  | .executorMgrWrapper, r => r = true
  | .getProxy, r => r = true
  | .service .getHdiInterface, r => r = true
  | .service (.addExecutor _), r => r = added
  | .service .newDeathRecipient, r => r = true
  | .service (.asObject _), r => r = true
  | .service (.addDeathRecipient ..), r => r = true
  | .service (.insert ..), r => r = ()
  | .service .newMessenger, r => r = some messenger
  | .service (.onMessengerReady ..), r => r = ()
  | .lockExecutor, r => r = true
  | .setExecutorMessenger _, r => r = ()
  | .onRegisterFinish .., r => r = ()
  | .onQueryResult .., r => r = ()

section Completion

variable {P : Type} {ipc : CoAuthIpc P} {contents : P → List CoAuthItem} {hdiId : UInt16}
  {callback : ExecutorCallback} {info : HdiExecutorInfo} {added : AddExecutorResult}
  {messenger : Nat}

theorem frameworkOnMessengerReady_completes (ready : MessengerReady) :
    (frameworkOnMessengerReady ready).Meets (Supports info added messenger)
      fun _ es => es = readyCourse ready := by
  refine Prog.Meets.call_eq (fun _ => Iff.rfl) ?_
  refine Prog.Meets.call_eq (fun _ => Iff.rfl) ?_
  refine Prog.Meets.call_eq (fun _ => Iff.rfl) ?_
  exact Prog.Meets.call_eq (fun _ => Iff.rfl) rfl

variable (hlawful : ipc.parcel.Lawful contents) (haccepts : ipc.parcel.Accepts)
  (hcast : ∀ obj, ipc.ifaceCast obj = true)
include hlawful haccepts hcast

theorem assignMessenger_completes :
    ((assignMessenger callback added).interp (throughReady ⟨ipc, .answered, .answered⟩)).Meets
      (Supports info added messenger) fun _ es => es = messengerCourse added messenger := by
  refine Prog.Meets.call_eq (fun _ => Iff.rfl) ?_
  show (proxyOnMessengerReady ipc .answered (stubOnMessengerReady true) _ >>= fun _ =>
    .ret _).Meets _ _
  rw [proxyOnMessengerReady_eq hlawful haccepts hcast]
  refine Prog.Meets.bind (frameworkOnMessengerReady_completes _) fun _ es hes => ?_
  exact (List.append_nil es).trans hes

theorem registerExecutor_completes (hlength : info.publicKey.length = publicKeyLen)
    (hresult : added.result = .success) :
    ((registerExecutor (authExecutorOf info).toResAuthExecutor callback).interp
      (throughReady ⟨ipc, .answered, .answered⟩)).Meets (Supports info added messenger)
        fun _ es => es = registerCourse callback info added messenger := by
  have hinfo := getExecutorRegisterInfo_authExecutorOf info
  rw [if_pos hlength] at hinfo
  rw [registerExecutor, hinfo]
  refine Prog.Meets.call_eq (fun _ => Iff.rfl) ?_
  refine Prog.Meets.call_eq (fun _ => Iff.rfl) ?_
  show ((if added.result ≠ .success then .ret invalidExecutorId
    else watchExecutor (authExecutorOf info).toResAuthExecutor callback added).interp _).Meets _ _
  rw [if_neg (not_not.mpr hresult)]
  refine Prog.Meets.call_eq (fun _ => Iff.rfl) ?_
  refine Prog.Meets.call_eq (fun _ => Iff.rfl) ?_
  refine Prog.Meets.call_eq (fun _ => Iff.rfl) ?_
  refine Prog.Meets.call_eq (fun _ => Iff.rfl) ?_
  exact assignMessenger_completes hlawful haccepts hcast

/-- **A registration that nothing stops is complete**: the HDI is asked to add what the driver says
about the executor, and the driver is told what the HDI has answered. -/
theorem onFrameworkReady_completes (hlength : info.publicKey.length = publicKeyLen)
    (hresult : added.result = .success) :
    (onFrameworkReady ⟨ipc, .answered, .answered⟩ hdiId callback).Meets
      (Supports info added messenger)
      fun _ es => es = registrationCourse callback info added messenger := by
  rw [registrationCourse, if_pos hlength]
  refine Prog.Meets.call_eq (fun _ => Iff.rfl) ?_
  refine Prog.Meets.call_eq (fun _ => Iff.rfl) ?_
  refine Prog.Meets.call_eq (fun _ => Iff.rfl) ?_
  refine Prog.Meets.call_eq (fun _ => Iff.rfl) ?_
  show (registryRegister _ (authExecutorOf info) callback >>= fun _ => .ret ()).Meets _ _
  have hregistry : (registryRegister ⟨ipc, .answered, .answered⟩ (authExecutorOf info)
      callback).Meets (Supports info added messenger) fun _ es =>
        es = ⟨.getProxy, true⟩ :: registerCourse callback info added messenger := by
    refine Prog.Meets.call_eq (fun _ => Iff.rfl) ?_
    show ((coAuthProxy ipc .answered _).register _ _).Meets _ _
    rw [coAuthProxy_eq hlawful haccepts hcast]
    exact registerExecutor_completes hlawful haccepts hcast hlength hresult
  exact hregistry.bind fun _ es hes => (List.append_nil es).trans hes

end Completion

theorem onFrameworkReady_completes_fingerprint :
    (onFrameworkReady ⟨listCoAuthIpc, .answered, .answered⟩ 1 5).Meets
      (Supports fingerprintInfo ⟨.success, 17, [1, 2], [258]⟩ 8)
      fun _ es => es = registrationCourse 5 fingerprintInfo ⟨.success, 17, [1, 2], [258]⟩ 8 :=
  onFrameworkReady_completes Ipc.CheckedApi.ofList_lawful Ipc.ParcelApi.ofList_accepts
    (fun _ => rfl) rfl rfl

end UserIam.Executors
