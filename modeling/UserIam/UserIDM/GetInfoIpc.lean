import UserIam.Ipc.Records
import UserIam.UserIDM.SecInfoIpc

/-!
# UserIDMGetInfoCallbackProxy and UserIDMGetInfoCallbackStub

How the credentials of a user reach the client that has asked for them.  The proxy of the service
writes their number and then the four fields of each, the stub of the client reads them back, and
tells the client what it has read wherever it has to stop.
-/

namespace UserIam.UserIDM

open Ipc

/-- As `CallbackIpc`, with parcels whose reads can be seen to fail. -/
structure GetInfoIpc (P : Type) where
  parcel : CheckedApi P CallbackKind CallbackKind.Carrier
  objectStub : UInt32 → P → P → ResultCode × P
  remote : Bool
  delivers : Bool

abbrev CallbackItem := ParcelApi.Item CallbackKind CallbackKind.Carrier

def getInfoDescriptor : String := "ohos.useridm.IGetInfoCallback"

def onGetInfoCode : UInt32 := 0

/-! ## 1. The client -/

namespace UserAuthDomain

/-- The subtype has 64 bits here, and 32 in the domain of the service. -/
structure CredentialInfo where
  credentialId : UInt64
  authType : AuthType
  authSubType : UInt64
  templateId : UInt64
  deriving DecidableEq, Repr

end UserAuthDomain

def CredentialInfo.toUserAuthDomain (credInfo : CredentialInfo) :
    UserAuthDomain.CredentialInfo where
  authType := credInfo.authType
  authSubType := credInfo.authSubType.toUInt64
  credentialId := credInfo.credentialId
  templateId := credInfo.templateId

/-- The two pointers of a stub, at most one of which is not null. -/
structure GetInfoCallbackStub where
  callback : Option ClientCallback
  idmCallback : Option ClientCallback

/-- A call of `OnGetInfo` of a client. -/
inductive GetInfoCall where
  | callback (callback : ClientCallback) (infos : List CredentialInfo)
  | idmCallback (idmCallback : ClientCallback) (credInfos : List UserAuthDomain.CredentialInfo)

variable {P : Type}

def stubOnGetInfo (stub : GetInfoCallbackStub) (infos : List CredentialInfo) : List GetInfoCall :=
  match stub.callback with
  | some callback => [.callback callback infos]
  | none =>
    match stub.idmCallback with
    | some idmCallback =>
      let credInfos := infos.map CredentialInfo.toUserAuthDomain
      [.idmCallback idmCallback credInfos]
    | none => []

/-- One round of the loop of `OnGetInfoStub`, which fails where one of the four reads does. -/
def readCredentialInfo (parcel : CheckedApi P CallbackKind CallbackKind.Carrier) :
    StateT P Option CredentialInfo := do
  let credentialId ← parcel.tryRead .uint64
  let authType ← parcel.tryRead .uint32
  let authSubType ← parcel.tryRead .uint64
  let templateId ← parcel.tryRead .uint64
  return ⟨credentialId, authType, authSubType.toUInt32, templateId⟩

/-- Whichever read fails, the client is told the entries that were complete before it. -/
def onGetInfoStub (ipc : GetInfoIpc P) (stub : GetInfoCallbackStub) (data reply : P) :
    ResultCode × P × List GetInfoCall :=
  match (ipc.parcel.tryRead .uint32).run data with
  | none => (.fail, reply, stubOnGetInfo stub [])
  | some (vectorSize, data) =>
    match readEach (readCredentialInfo ipc.parcel) vectorSize.toNat data [] with
    | (false, credInfos) => (.fail, reply, stubOnGetInfo stub credInfos)
    | (true, credInfos) =>
      -- the client is called before the reply is written
      let calls := stubOnGetInfo stub credInfos
      match ipc.parcel.write reply .int32 ResultCode.success with
      | none => (.fail, reply, calls)
      | some reply => (.success, reply, calls)

def getInfoOnRemoteRequest (ipc : GetInfoIpc P) (stub : GetInfoCallbackStub) (code : UInt32)
    (data reply : P) : ResultCode × P × List GetInfoCall :=
  let (remoteDescripter, data) := ipc.parcel.read data .interfaceToken
  if getInfoDescriptor ≠ remoteDescripter then (.fail, reply, [])
  else if code = onGetInfoCode then onGetInfoStub ipc stub data reply
  else
    let (ret, reply) := ipc.objectStub code data reply
    (ret, reply, [])

/-! ## 2. The proxy of the service -/

/-- One round of the loop of the proxy. -/
def writeCredentialInfo (parcel : ParcelApi P CallbackKind CallbackKind.Carrier) (data : P)
    (info : CredentialInfo) : Option P := do
  let data ← parcel.write data .uint64 info.credentialId
  let data ← parcel.write data .uint32 info.authType
  let data ← parcel.write data .uint64 info.authSubType.toUInt64
  parcel.write data .uint64 info.templateId

/-- The loop from `i` on; there is no result as long as it goes on, and no parcel when a write has
failed. -/
def writeCredInfos (parcel : ParcelApi P CallbackKind CallbackKind.Carrier)
    (credInfos : List CredentialInfo) : Nat → UInt32 → P → Option (Option P)
  | 0, _, _ => none
  | fuel + 1, i, data =>
    if h : i.toNat < credInfos.length then
      match writeCredentialInfo parcel data credInfos[i.toNat] with
      | none => some none
      | some data => writeCredInfos parcel credInfos fuel (i + 1) data
    else some (some data)

/-- The parcel that the proxy sends. -/
def getInfoMessage (parcel : ParcelApi P CallbackKind CallbackKind.Carrier) (fuel : Nat)
    (credInfos : List CredentialInfo) : Option (Option P) :=
  let data := do
    let data ← parcel.write parcel.empty .interfaceToken getInfoDescriptor
    parcel.write data .uint32 (UInt32.ofNat credInfos.length)
  match data with
  | none => some none
  | some data =>
    if credInfos.length > 0 then writeCredInfos parcel credInfos fuel 0 data else some (some data)

/-- The values of one entry. -/
def credentialValues (info : CredentialInfo) : List CallbackItem :=
  [⟨.uint64, info.credentialId⟩, ⟨.uint32, info.authType⟩, ⟨.uint64, info.authSubType.toUInt64⟩,
    ⟨.uint64, info.templateId⟩]

/-- The values after the interface token. -/
def getInfoValues (credInfos : List CredentialInfo) : List CallbackItem :=
  ⟨.uint32, UInt32.ofNat credInfos.length⟩ :: credInfos.flatMap credentialValues

section Written

variable {parcel : ParcelApi P CallbackKind CallbackKind.Carrier} {contents : P → List CallbackItem}
  {credInfos : List CredentialInfo} {fuel : Nat} {i : UInt32} {data data' : P}

theorem writeCredentialInfo_contents (hparcel : parcel.Lawful contents) {info : CredentialInfo}
    (h : writeCredentialInfo parcel data info = some data') :
    contents data' = contents data ++ credentialValues info := by
  obtain ⟨data₁, h₁, h⟩ := Option.bind_eq_some_iff.mp h
  obtain ⟨data₂, h₂, h⟩ := Option.bind_eq_some_iff.mp h
  obtain ⟨data₃, h₃, h₄⟩ := Option.bind_eq_some_iff.mp h
  rw [hparcel.write h₄, hparcel.write h₃, hparcel.write h₂, hparcel.write h₁, List.append_assoc,
    List.append_assoc, List.append_assoc]
  rfl

theorem writeCredentialInfo_accepted (haccepts : parcel.Accepts) (data : P)
    (info : CredentialInfo) : ∃ data', writeCredentialInfo parcel data info = some data' := by
  obtain ⟨data₁, h₁⟩ := haccepts.write data .uint64 info.credentialId
  obtain ⟨data₂, h₂⟩ := haccepts.write data₁ .uint32 info.authType
  obtain ⟨data₃, h₃⟩ := haccepts.write data₂ .uint64 info.authSubType.toUInt64
  obtain ⟨data₄, h₄⟩ := haccepts.write data₃ .uint64 info.templateId
  exact ⟨data₄, by simp only [writeCredentialInfo, h₁, h₂, h₃, h₄, Option.bind_eq_bind,
    Option.bind_some]⟩

/-- The counter of the loop does not wrap below the length of the list. -/
theorem toNat_counter (hlen : credInfos.length < 2 ^ 32) (hi : i.toNat < credInfos.length) :
    (i + 1).toNat = i.toNat + 1 := by
  rw [UInt32.toNat_add]
  exact Nat.mod_eq_of_lt (Nat.lt_of_le_of_lt hi hlen)

theorem writeCredInfos_contents (hparcel : parcel.Lawful contents)
    (hlen : credInfos.length < 2 ^ 32)
    (h : writeCredInfos parcel credInfos fuel i data = some (some data')) :
    contents data' = contents data ++ (credInfos.drop i.toNat).flatMap credentialValues := by
  induction fuel generalizing i data with
  | zero => cases h
  | succ fuel ih =>
    rw [writeCredInfos] at h
    split at h
    · next hi =>
      split at h
      · cases h
      · next data₁ hwrite =>
        rw [ih h, toNat_counter hlen hi, writeCredentialInfo_contents hparcel hwrite,
          List.drop_eq_getElem_cons hi, List.flatMap_cons, List.append_assoc]
    · next hi =>
      cases h
      rw [List.drop_eq_nil_of_le (Nat.le_of_not_lt hi), List.flatMap_nil, List.append_nil]

/-- When no write fails, the loop ends behind the last entry. -/
theorem writeCredInfos_accepted (haccepts : parcel.Accepts) (hlen : credInfos.length < 2 ^ 32)
    (hi : i.toNat ≤ credInfos.length) (hfuel : credInfos.length < fuel + i.toNat) (data : P) :
    ∃ data', writeCredInfos parcel credInfos fuel i data = some (some data') := by
  induction fuel generalizing i data with
  | zero => omega
  | succ fuel ih =>
    rw [writeCredInfos]
    split
    · next hlt =>
      obtain ⟨data₁, hwrite⟩ := writeCredentialInfo_accepted haccepts data credInfos[i.toNat]
      have hnext := toNat_counter hlen hlt
      rw [hwrite]
      exact ih (by omega) (by omega) data₁
    · exact ⟨data, rfl⟩

theorem getInfoMessage_contents (hparcel : parcel.Lawful contents)
    (hlen : credInfos.length < 2 ^ 32)
    (h : getInfoMessage parcel fuel credInfos = some (some data)) :
    contents data = ⟨.interfaceToken, getInfoDescriptor⟩ :: getInfoValues credInfos := by
  unfold getInfoMessage at h
  dsimp only at h
  split at h
  · cases h
  · next data₂ hheader =>
    obtain ⟨data₁, h₁, h₂⟩ := Option.bind_eq_some_iff.mp hheader
    have hcount : contents data₂ =
        [⟨.interfaceToken, getInfoDescriptor⟩, ⟨.uint32, UInt32.ofNat credInfos.length⟩] := by
      rw [hparcel.write h₂, hparcel.write h₁, hparcel.empty]
      rfl
    split at h
    · rw [writeCredInfos_contents hparcel hlen h, hcount]
      rfl
    · next hnone =>
      cases h
      obtain rfl := List.eq_nil_of_length_eq_zero (Nat.eq_zero_of_not_pos hnone)
      exact hcount

theorem getInfoMessage_accepted (haccepts : parcel.Accepts) (hlen : credInfos.length < 2 ^ 32)
    (hfuel : credInfos.length < fuel) :
    ∃ data, getInfoMessage parcel fuel credInfos = some (some data) := by
  obtain ⟨data₁, h₁⟩ := haccepts.write parcel.empty .interfaceToken getInfoDescriptor
  obtain ⟨data₂, h₂⟩ := haccepts.write data₁ .uint32 (UInt32.ofNat credInfos.length)
  simp only [getInfoMessage, h₁, h₂, Option.bind_eq_bind, Option.bind_some]
  split
  · exact writeCredInfos_accepted haccepts hlen (Nat.zero_le _) hfuel data₂
  · exact ⟨data₂, rfl⟩

end Written

/-! ## 4. What is read -/

section Read

variable {ipc : GetInfoIpc P} {contents : P → List CallbackItem}
  (hparcel : ipc.parcel.Lawful contents)
include hparcel

/-- The four fields come back through the casts on both sides. -/
theorem readCredentialInfo_reads (info : CredentialInfo) :
    Reads contents (readCredentialInfo ipc.parcel) (credentialValues info) info := by
  have hinfo : Reads contents (pure ⟨info.credentialId, info.authType,
      info.authSubType.toUInt64.toUInt32, info.templateId⟩) [] info := by
    rw [UInt32.toUInt32_toUInt64]
    exact reads_pure info
  exact (hparcel.reads .uint64 info.credentialId).bind
    ((hparcel.reads .uint32 info.authType).bind
      ((hparcel.reads .uint64 info.authSubType.toUInt64).bind
        ((hparcel.reads .uint64 info.templateId).bind hinfo)))

/-- A request with the right token is read by `OnGetInfoStub`. -/
theorem getInfoOnRemoteRequest_token {stub : GetInfoCallbackStub} {data reply : P}
    {values : List CallbackItem}
    (hdata : contents data = ⟨.interfaceToken, getInfoDescriptor⟩ :: values) :
    ∃ data', contents data' = values ∧
      getInfoOnRemoteRequest ipc stub onGetInfoCode data reply =
        onGetInfoStub ipc stub data' reply := by
  obtain ⟨data', hread, hdata'⟩ := hparcel.toLawful.read_of_contents hdata
  refine ⟨data', hdata', ?_⟩
  rw [getInfoOnRemoteRequest, hread]
  dsimp only
  rw [if_neg (not_not.mpr rfl), if_pos rfl]

/-- Of a complete message the client is told everything. -/
theorem onGetInfoStub_complete {stub : GetInfoCallbackStub} {credInfos : List CredentialInfo}
    (hlen : credInfos.length < 2 ^ 32) {data : P} (hdata : contents data = getInfoValues credInfos)
    (reply : P) : (onGetInfoStub ipc stub data reply).2.2 = stubOnGetInfo stub credInfos := by
  obtain ⟨data', hsize, hdata'⟩ := hparcel.tryRead hdata
  have hcount : (UInt32.ofNat credInfos.length).toNat = credInfos.length :=
    UInt32.toNat_ofNat_of_lt' hlen
  have hloop := readEach_complete (readCredentialInfo_reads hparcel)
    (hdata'.trans (List.append_nil _).symm) []
  rw [onGetInfoStub, hsize]
  dsimp only
  rw [hcount, hloop]
  dsimp only
  cases ipc.parcel.write reply .int32 ResultCode.success <;> rfl

/-- Of a message that is cut off the client is told the entries that are complete. -/
theorem onGetInfoStub_cut {stub : GetInfoCallbackStub} {credInfos : List CredentialInfo}
    (hlen : credInfos.length < 2 ^ 32) {data : P} (hcut : contents data <+: getInfoValues credInfos)
    (hne : contents data ≠ getInfoValues credInfos) (reply : P) :
    ∃ got, got <+: credInfos ∧ got.length = ((contents data).length - 1) / 4 ∧
      onGetInfoStub ipc stub data reply = (.fail, reply, stubOnGetInfo stub got) := by
  rw [onGetInfoStub]
  rcases List.prefix_cons_iff.mp hcut with hnil | ⟨rest, hrest, hprefix⟩
  · -- not even the number of entries is there
    rw [hparcel.past_end _ hnil, hnil]
    exact ⟨[], List.nil_prefix, rfl, rfl⟩
  · obtain ⟨data', hsize, hdata'⟩ := hparcel.tryRead hrest
    have hcount : (UInt32.ofNat credInfos.length).toNat = credInfos.length :=
      UInt32.toNat_ofNat_of_lt' hlen
    have hne' : contents data' ≠ credInfos.flatMap credentialValues := by
      rintro heq
      exact hne (hrest.trans (congrArg _ (hdata'.symm.trans heq)))
    obtain ⟨got, info, others, rfl, hloop, part, hpart, hfields, hlost⟩ :=
      readEach_cut (readCredentialInfo_reads hparcel) (hdata'.symm ▸ hprefix) hne' []
    rw [hsize]
    dsimp only
    rw [hcount, hloop]
    refine ⟨got, List.prefix_append _ _, ?_, rfl⟩
    -- four values for each entry, and less than four of the next one
    have hwhole : (got.flatMap credentialValues).length = 4 * got.length := by
      rw [List.length_flatMap]
      simp [credentialValues, Nat.mul_comm]
    have hshort : part.length < 4 := by
      have hle : part.length ≤ 4 := hfields.length_le
      refine Nat.lt_of_le_of_ne hle fun heq => hlost ?_
      exact hfields.eq_of_length heq
    rw [hrest, ← hdata', hpart, List.length_cons, List.length_append, hwhole]
    omega

end Read

/-! ## 5. What the client is told -/

/-- The client gets the list, in its own types. -/
def GetInfoCall.Shows (credInfos : List CredentialInfo) : GetInfoCall → Prop
  | .callback _ got => got = credInfos
  | .idmCallback _ got => got = credInfos.map CredentialInfo.toUserAuthDomain

/-- The client's `OnGetInfo` is called once, with the list. -/
def ToldOnce (calls : List GetInfoCall) (credInfos : List CredentialInfo) : Prop :=
  ∃ call, calls = [call] ∧ call.Shows credInfos

theorem stubOnGetInfo_toldOnce {stub : GetInfoCallbackStub}
    (hclient : stub.callback.isSome ∨ stub.idmCallback.isSome) (infos : List CredentialInfo) :
    ToldOnce (stubOnGetInfo stub infos) infos := by
  unfold stubOnGetInfo
  cases hcallback : stub.callback with
  | some client => exact ⟨.callback client infos, rfl, rfl⟩
  | none =>
    cases hidm : stub.idmCallback with
    | some client => exact ⟨.idmCallback client _, rfl, rfl⟩
    | none => simp [hcallback, hidm] at hclient

theorem toUserAuthDomain_injective : Function.Injective CredentialInfo.toUserAuthDomain := by
  rintro ⟨credentialId, authType, authSubType, templateId⟩ ⟨_, _, authSubType', _⟩ h
  obtain ⟨rfl, rfl, hsubType, rfl⟩ := UserAuthDomain.CredentialInfo.mk.inj h
  have hsame : authSubType = authSubType' := by
    rw [← UInt32.toUInt32_toUInt64 authSubType, hsubType, UInt32.toUInt32_toUInt64]
  rw [hsame]

/-- A client of either kind can tell from its call which list was sent. -/
theorem ToldOnce.unique {calls : List GetInfoCall} {credInfos credInfos' : List CredentialInfo}
    (h : ToldOnce calls credInfos) (h' : ToldOnce calls credInfos') : credInfos = credInfos' := by
  obtain ⟨call, rfl, hshows⟩ := h
  obtain ⟨call', heq, hshows'⟩ := h'
  obtain rfl := List.singleton_injective heq
  cases call with
  | callback client got => exact hshows.symm.trans hshows'
  | idmCallback client got =>
    exact toUserAuthDomain_injective.list_map (hshows.symm.trans hshows')

section Told

variable {ipc : GetInfoIpc P} {contents : P → List CallbackItem}
  (hparcel : ipc.parcel.Lawful contents) {stub : GetInfoCallbackStub}
  (hclient : stub.callback.isSome ∨ stub.idmCallback.isSome) {credInfos : List CredentialInfo}
  (hlen : credInfos.length < 2 ^ 32)
include hparcel hclient hlen

theorem getInfoOnRemoteRequest_complete {message : P}
    (hmessage : contents message = ⟨.interfaceToken, getInfoDescriptor⟩ :: getInfoValues credInfos)
    (reply : P) :
    ToldOnce (getInfoOnRemoteRequest ipc stub onGetInfoCode message reply).2.2 credInfos := by
  obtain ⟨data', hdata', hstub⟩ := getInfoOnRemoteRequest_token hparcel hmessage
  rw [hstub, onGetInfoStub_complete hparcel hlen hdata']
  exact stubOnGetInfo_toldOnce hclient credInfos

/-- **The credentials on their way to the client.**  The message that the proxy writes is read back
as it is; of one that is cut off somewhere after the interface token, the client is told the entries
that are complete, and the service gets `FAIL`. -/
theorem getInfo_told (fuel : Nat) :
    (ipc.parcel.toParcelApi.Accepts → credInfos.length < fuel →
      ∃ message, getInfoMessage ipc.parcel.toParcelApi fuel credInfos = some (some message)) ∧
    ∀ message, getInfoMessage ipc.parcel.toParcelApi fuel credInfos = some (some message) →
      (∀ reply,
        ToldOnce (getInfoOnRemoteRequest ipc stub onGetInfoCode message reply).2.2 credInfos) ∧
      ∃ values, contents message = ⟨.interfaceToken, getInfoDescriptor⟩ :: values ∧
        ∀ cut, cut <+: values → cut ≠ values →
          ∀ data reply, contents data = ⟨.interfaceToken, getInfoDescriptor⟩ :: cut →
            (getInfoOnRemoteRequest ipc stub onGetInfoCode data reply).1 = .fail ∧
              ∃ got, got <+: credInfos ∧ got.length = (cut.length - 1) / 4 ∧
                ToldOnce (getInfoOnRemoteRequest ipc stub onGetInfoCode data reply).2.2 got := by
  refine ⟨fun haccepts hfuel => getInfoMessage_accepted haccepts hlen hfuel,
    fun message hmessage => ?_⟩
  have hcontents := getInfoMessage_contents hparcel.toLawful hlen hmessage
  refine ⟨getInfoOnRemoteRequest_complete hparcel hclient hlen hcontents,
    getInfoValues credInfos, hcontents, fun cut hcut hne data reply hdata => ?_⟩
  obtain ⟨data', hdata', hstub⟩ := getInfoOnRemoteRequest_token hparcel hdata
  obtain ⟨got, hgot, hlength, hcalls⟩ := onGetInfoStub_cut hparcel hlen (hdata'.symm ▸ hcut)
    (hdata'.symm ▸ hne) reply
  rw [hstub, hcalls]
  exact ⟨rfl, got, hgot, hdata' ▸ hlength, stubOnGetInfo_toldOnce hclient got⟩

end Told

section Outcome

variable {ipc : GetInfoIpc P} {contents : P → List CallbackItem}
  (hparcel : ipc.parcel.Lawful contents) {stub : GetInfoCallbackStub}
  (hclient : stub.callback.isSome ∨ stub.idmCallback.isSome) {credInfos : List CredentialInfo}
  {fuel : Nat} {calls : List GetInfoCall}
include hparcel hclient

end Outcome

/-! ### A user with a pin and a face -/

def getInfoIpc : GetInfoIpc (List CallbackItem) :=
  ⟨CheckedApi.ofList, fun _ _ reply => (.fail, reply), true, true⟩

def pinAndFace : List CredentialInfo :=
  [⟨1, AuthType.pin, 10000, 11⟩, ⟨2, AuthType.face, 20000, 12⟩]

def pinAndFaceMessage : List CallbackItem :=
  ⟨.interfaceToken, getInfoDescriptor⟩ :: getInfoValues pinAndFace

/-- Six of the nine values are one entry and a piece of the other. -/
theorem getInfo_told_example :
    getInfoMessage getInfoIpc.parcel.toParcelApi 3 pinAndFace = some (some pinAndFaceMessage) ∧
      ToldOnce (getInfoOnRemoteRequest getInfoIpc ⟨none, some 0⟩ onGetInfoCode pinAndFaceMessage
        []).2.2 pinAndFace ∧
      ∃ got, got <+: pinAndFace ∧ got.length = 1 ∧
        ToldOnce (getInfoOnRemoteRequest getInfoIpc ⟨none, some 0⟩ onGetInfoCode
          (pinAndFaceMessage.take 7) []).2.2 got := by
  have hmessage : getInfoMessage getInfoIpc.parcel.toParcelApi 3 pinAndFace =
      some (some pinAndFaceMessage) := rfl
  have hlawful : getInfoIpc.parcel.Lawful fun data => data := CheckedApi.ofList_lawful
  have hclient : (⟨none, some 0⟩ : GetInfoCallbackStub).callback.isSome ∨
      (⟨none, some 0⟩ : GetInfoCallbackStub).idmCallback.isSome := .inr rfl
  have hlen : pinAndFace.length < 2 ^ 32 := by decide
  have htold := (getInfo_told hlawful hclient hlen 3).2 _ hmessage
  obtain ⟨hcomplete, values, hvalues, hcut⟩ := htold
  obtain rfl := List.tail_eq_of_cons_eq hvalues
  obtain ⟨-, got, hgot, hlength, hpart⟩ := hcut ((getInfoValues pinAndFace).take 6)
    (List.take_prefix 6 _) (fun h => absurd (congrArg List.length h) (by decide)) _ [] rfl
  exact ⟨hmessage, hcomplete [], got, hgot, hlength, hpart⟩

end UserIam.UserIDM
