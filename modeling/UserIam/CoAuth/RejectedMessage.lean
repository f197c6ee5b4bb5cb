import UserIam.CoAuth.ExecutorCallbackStub
import UserIam.CoAuth.PackLayout

/-!
# Messages that Unpack rejects

`Unpack` stores the records in front of the one that it refuses and takes nothing back.  The stubs
hand the object on.
-/

namespace UserIam.CoAuth

open Bytes Conc

namespace AuthAttributes

open SetCall

/-! ## 1. The object -/

/-- Every getter and `Pack` give the same results. -/
structure NoEffect (a b : AuthAttributes) : Prop where
  getters : a.SameGetters b
  bytes : ∀ locals buffer, (∃ a', a.Packs locals buffer a') ↔ ∃ b', b.Packs locals buffer b'

/-- The calls repeat what the object holds, and its `Pack` does not write their records: they are
for the signature, or the object already lists so many tags that `Pack` does not return. -/
structure Repeats (a : AuthAttributes) (sets : List SetCall) : Prop where
  values : ∀ tag c, lastSet sets tag = some c → a.valueMap c.type tag = some c.value
  bytes : 2 ^ 32 ≤ a.existAttributes.length ∨
    (∀ c ∈ sets, c.tag = authSignature) ∧ a.existAttributes.length + sets.length < 2 ^ 32

theorem lastSet_tag {calls : List SetCall} {tag : AuthAttributeType} {c : SetCall}
    (h : lastSet calls tag = some c) : c ∈ calls ∧ c.Succeeds ∧ c.tag = tag := by
  have hmem := List.mem_of_getLast? h
  rw [List.mem_filter, decide_eq_true_iff] at hmem
  exact hmem

/-- The last call for a tag decides its value. -/
theorem valueMap_setAll_of_lastSet (a : AuthAttributes) {calls : List SetCall}
    {tag : AuthAttributeType} {c : SetCall} (h : lastSet calls tag = some c) :
    (a.setAll calls).valueMap c.type tag = some c.value := by
  induction calls using List.reverseRecOn with
  | nil => cases h
  | append_singleton calls d ih =>
    rw [lastSet_concat] at h
    rw [setAll_concat]
    split at h
    · next hd =>
      cases h
      obtain ⟨hd, rfl⟩ := hd
      exact valueMap_set_self _ hd
    · next hd =>
      rw [valueMap_set_of_ne _, ih h]
      rintro ⟨htype, rfl⟩
      -- the same tag and the same type, so this call has succeeded too
      obtain ⟨-, hc, htag⟩ := lastSet_tag h
      have hknown : typeOf c.tag = some c.type := hc
      rw [htag, ← htype] at hknown
      exact hd ⟨hknown, rfl⟩

theorem valueMap_setAll_of_none (a : AuthAttributes) {calls : List SetCall} {type : ValueType}
    {tag : AuthAttributeType} (h : ∀ c, lastSet calls tag = some c → c.type ≠ type) :
    (a.setAll calls).valueMap type tag = a.valueMap type tag := by
  induction calls using List.reverseRecOn with
  | nil => rfl
  | append_singleton calls d ih =>
    rw [setAll_concat]
    by_cases hd : d.Succeeds ∧ d.tag = tag
    · have htype := h d (by rw [lastSet_concat, if_pos hd])
      obtain ⟨hknown, rfl⟩ := hd
      rw [valueMap_set_of_ne _ fun hsame => htype hsame.1]
      refine ih fun c hc hsame => htype ?_
      -- a tag has one type
      obtain ⟨-, hother, htag⟩ := lastSet_tag hc
      have hother : typeOf c.tag = some c.type := hother
      rw [htag, hsame] at hother
      exact Option.some.inj ((show typeOf d.tag = some d.type from hknown).symm.trans hother)
    · have hcalls := ih fun c hc => h c (by rw [lastSet_concat, if_neg hd, hc])
      by_cases hknown : d.Succeeds
      · have htag : d.tag ≠ tag := fun hsame => hd ⟨hknown, hsame⟩
        rw [valueMap_set_of_ne _ fun hsame => htag hsame.2, hcalls]
      · rw [(set_unknown _ hknown).2, hcalls]

theorem sameGetters_setAll_iff (a : AuthAttributes) (sets : List SetCall) :
    a.SameGetters (a.setAll sets) ↔
      ∀ tag c, lastSet sets tag = some c → a.valueMap c.type tag = some c.value := by
  rw [sameGetters_iff]
  constructor
  · intro h tag c hc
    rw [h, a.valueMap_setAll_of_lastSet hc]
  · intro h type tag
    by_cases hlast : ∃ c, lastSet sets tag = some c ∧ c.type = type
    · obtain ⟨c, hc, rfl⟩ := hlast
      rw [h tag c hc, a.valueMap_setAll_of_lastSet hc]
    · exact (a.valueMap_setAll_of_none fun c hc htype => hlast ⟨c, hc, htype⟩).symm

/-- The calls add their tags to the list, so only calls for the signature leave the bytes alone. -/
theorem SameGetters.packs_setAll_iff {a : AuthAttributes} {sets : List SetCall}
    (h : a.SameGetters (a.setAll sets)) (htyped : ∀ c ∈ sets, typeOf c.tag = some c.type)
    (hlength : a.existAttributes.length < 2 ^ 32) (locals : PackLocals) :
    (∃ buffer, (∃ a', a.Packs locals buffer a') ∧ ∃ b', (a.setAll sets).Packs locals buffer b') ↔
      (∀ c ∈ sets, c.tag = authSignature) ∧
        a.existAttributes.length + sets.length < 2 ^ 32 := by
  rw [h.packs_iff, existAttributes_setAll htyped, List.length_append, List.length_map,
    and_iff_right hlength, and_comm]
  apply and_congr_left'
  constructor
  · intro hcount c hc
    by_contra hne
    have hsame := hcount c.tag hne
    rw [List.count_append] at hsame
    have hpos := List.count_pos_iff.mpr (List.mem_map_of_mem (f := fun c => c.tag) hc)
    omega
  · intro hsignature tag hne
    rw [List.count_append, List.count_eq_zero_of_not_mem (l := sets.map _), Nat.add_zero]
    intro hmem
    obtain ⟨c, hc, rfl⟩ := List.mem_map.mp hmem
    exact hne (hsignature c hc)

theorem not_packs_of_length {a a' : AuthAttributes} {locals : PackLocals} {buffer : List UInt8}
    (h : 2 ^ 32 ≤ a.existAttributes.length) : ¬a.Packs locals buffer a' := by
  intro hpack
  exact absurd (packs_iff.mp hpack).1 (Nat.not_lt_of_le h)

/-- The calls leave getters and bytes as they are exactly if they repeat what is there. -/
theorem noEffect_setAll_iff (a : AuthAttributes) {sets : List SetCall}
    (htyped : ∀ c ∈ sets, typeOf c.tag = some c.type) :
    a.NoEffect (a.setAll sets) ↔ a.Repeats sets := by
  have hlist := existAttributes_setAll (a := a) htyped
  constructor
  · intro h
    refine ⟨(a.sameGetters_setAll_iff sets).mp h.getters, ?_⟩
    rcases Nat.lt_or_ge a.existAttributes.length (2 ^ 32) with hlength | hlength
    · right
      rw [← h.getters.packs_setAll_iff htyped hlength ⟨false, 0, 0⟩]
      have hpack : ∃ a', a.Packs ⟨false, 0, 0⟩ _ a' := ⟨_, packs_iff.mpr ⟨hlength, rfl, rfl⟩⟩
      exact ⟨_, hpack, (h.bytes _ _).mp hpack⟩
    · exact .inl hlength
  · intro h
    have hgetters := (a.sameGetters_setAll_iff sets).mpr h.values
    refine ⟨hgetters, fun locals buffer => ?_⟩
    rcases Nat.lt_or_ge a.existAttributes.length (2 ^ 32) with hlength | hlength
    · have hbytes := h.bytes.resolve_left (Nat.not_le_of_lt hlength)
      obtain ⟨same, ⟨a', ha⟩, b', hb⟩ :=
        (hgetters.packs_setAll_iff htyped hlength locals).mpr hbytes
      -- each of the two has one result
      constructor
      · rintro ⟨a'', ha'⟩
        rw [(packs_iff.mp ha').2.1, ← (packs_iff.mp ha).2.1]
        exact ⟨b', hb⟩
      · rintro ⟨b'', hb'⟩
        rw [(packs_iff.mp hb').2.1, ← (packs_iff.mp hb).2.1]
        exact ⟨a', ha⟩
    -- neither of the two returns
    · constructor
      · rintro ⟨a', ha⟩
        exact absurd ha (not_packs_of_length hlength)
      · rintro ⟨b', hb⟩
        refine absurd hb (not_packs_of_length ?_)
        rw [hlist, List.length_append]
        omega

end AuthAttributes

/-! ## 2. The stubs -/

/-- The stubs of the executor that unpack a message. -/
inductive ExecutorStub where
  | onBeginExecuteStub
  | onEndExecuteStub
  | onGetPropertyStub
  | onSetPropertyStub

section Stub

variable {P : Type} (fuel : Nat) (ipc : Ipc P) (callback : Bool)
  (locals : AuthAttributes.PackLocals)

/-- The bytes that the stub unpacks. -/
def ExecutorStub.message (data : P) : ExecutorStub → List UInt8
  | .onBeginExecuteStub =>
    let (_, data) := ipc.parcel.read data .uint64
    let (_, data) := ipc.parcel.read data .uint8Vector
    (ipc.parcel.read data .uint8Vector).1
  | .onEndExecuteStub =>
    let (_, data) := ipc.parcel.read data .uint64
    (ipc.parcel.read data .uint8Vector).1
  | .onGetPropertyStub => (ipc.parcel.read data .uint8Vector).1
  | .onSetPropertyStub => (ipc.parcel.read data .uint8Vector).1

def ExecutorStub.program (data reply : P) : ExecutorStub → ExecutorCallbackProg (ResultCode × P)
  | .onBeginExecuteStub => CoAuth.onBeginExecuteStub fuel ipc callback data reply
  | .onEndExecuteStub => CoAuth.onEndExecuteStub fuel ipc callback data reply
  | .onGetPropertyStub => CoAuth.onGetPropertyStub fuel ipc callback locals data reply
  | .onSetPropertyStub => CoAuth.onSetPropertyStub fuel ipc callback data reply

/-- The bytes that `FinishStub` unpacks. -/
def finishMessage (data : P) : List UInt8 :=
  let (_, data) := ipc.parcel.read data .uint64
  let (_, data) := ipc.parcel.read data .int32
  let (_, data) := ipc.parcel.read data .int32
  (ipc.parcel.read data .uint8Vector).1

/-- The object that `FinishStub` hands to `Finish`. -/
def finishObject (data : P) : Option AuthAttributes :=
  (AuthAttributes.new.unpack fuel (finishMessage ipc data)).bind (·.object)

/-- `FinishStub` calls `Finish` with this object. -/
theorem finishStub_finishObject (service : CoAuthService) (data reply : P) :
    ∃ scheduleId resultCode, finishStub fuel ipc service data reply =
      (finishObject fuel ipc data).map fun finalResult =>
        finish service scheduleId resultCode (some finalResult) >>= fun ret =>
          pure (writeReply ipc reply ret) :=
  ⟨_, _, rfl⟩

end Stub

/-- The attributes that are handed over with the call have taken nothing from the message. -/
def HandsNothing : ExecutorCallbackOp → Prop
  | .onBeginExecute _ _ commandAttrs => commandAttrs.existAttributes = []
  | .onEndExecute _ consumerAttr => consumerAttr.existAttributes = []
  | .onSetProperty properties => properties.existAttributes = []
  | .onGetProperty conditions _ => conditions.existAttributes = []
  | .hang => True

theorem unpackMessage_rejected {fuel : Nat} {buffer : List UInt8} {b : AuthAttributes}
    (h : AuthAttributes.new.unpack fuel buffer = some (.nullptr b)) :
    unpackMessage fuel buffer = pure b := by
  unfold unpackMessage
  rw [h]
  rfl

section Stub

variable {P : Type} (fuel : Nat) (ipc : Ipc P)

theorem writeValues_all (locals : AuthAttributes.PackLocals) (reply : P) (ret : ResultCode)
    (values : AuthAttributes) :
    (writeValues fuel ipc locals reply ret values).All HandsNothing := by
  unfold writeValues
  split
  · trivial
  · split
    · exact ⟨trivial, fun r => r.elim⟩
    · split
      · trivial
      · trivial

/-- What the stub does with its object: the callback gets it, if there is a callback. -/
theorem ExecutorStub.program_eq (stub : ExecutorStub) (callback : Bool)
    (locals : AuthAttributes.PackLocals) (data reply : P) :
    ∃ next : AuthAttributes → ExecutorCallbackProg (ResultCode × P),
      stub.program fuel ipc callback locals data reply =
        unpackMessage fuel (stub.message ipc data) >>= next ∧
      ∀ attributes, (next attributes).All HandsNothing ↔
        callback = false ∨ attributes.existAttributes = [] := by
  cases stub with
  | onBeginExecuteStub =>
    refine ⟨_, rfl, fun attributes => ?_⟩
    cases callback with
    | false => exact ⟨fun _ => .inl rfl, fun _ => trivial⟩
    | true =>
      exact ⟨fun hall => .inr hall.1, fun h => ⟨h.resolve_left (by decide), fun _ => trivial⟩⟩
  | onEndExecuteStub =>
    refine ⟨_, rfl, fun attributes => ?_⟩
    cases callback with
    | false => exact ⟨fun _ => .inl rfl, fun _ => trivial⟩
    | true =>
      exact ⟨fun hall => .inr hall.1, fun h => ⟨h.resolve_left (by decide), fun _ => trivial⟩⟩
  | onGetPropertyStub =>
    refine ⟨_, rfl, fun attributes => ?_⟩
    cases callback with
    | false => exact ⟨fun _ => .inl rfl, fun _ => writeValues_all ..⟩
    | true =>
      exact ⟨fun hall => .inr hall.1,
        fun h => ⟨h.resolve_left (by decide), fun _ => writeValues_all ..⟩⟩
  | onSetPropertyStub =>
    refine ⟨_, rfl, fun attributes => ?_⟩
    cases callback with
    | false => exact ⟨fun _ => .inl rfl, fun _ => trivial⟩
    | true =>
      exact ⟨fun hall => .inr hall.1, fun h => ⟨h.resolve_left (by decide), fun _ => trivial⟩⟩

theorem ExecutorStub.all_iff (stub : ExecutorStub) (callback : Bool)
    (locals : AuthAttributes.PackLocals) (data reply : P) {b : AuthAttributes}
    (h : AuthAttributes.new.unpack fuel (stub.message ipc data) = some (.nullptr b)) :
    (stub.program fuel ipc callback locals data reply).All HandsNothing ↔
      callback = false ∨ b.existAttributes = [] := by
  obtain ⟨next, hprogram, hnext⟩ := stub.program_eq fuel ipc callback locals data reply
  rw [hprogram, unpackMessage_rejected h]
  exact hnext b

end Stub

/-! ## 3. Rejected messages -/

section Rejected

open AuthAttributes

/-- **Rejected messages.**  `Unpack` has had no effect exactly if the calls that it made repeat what
the object holds, and the stubs hand over nothing exactly if it made none, or if there is no
callback to call. -/
theorem rejected_iff (P : Type) (fuel : Nat) (buffer : List UInt8) :
    (∀ (a b : AuthAttributes) sets, a.unpack fuel buffer = some (.nullptr b) →
      a.UnpackSets buffer sets → (a.NoEffect b ↔ a.Repeats sets)) ∧
    ∀ b sets, new.unpack fuel buffer = some (.nullptr b) → new.UnpackSets buffer sets →
      ∀ (ipc : Ipc P) (data : P),
        (∀ (stub : ExecutorStub) callback locals reply, stub.message ipc data = buffer →
          ((stub.program fuel ipc callback locals data reply).All HandsNothing ↔
            callback = false ∨ sets = [])) ∧
        (finishMessage ipc data = buffer →
          ((∃ finalResult, finishObject fuel ipc data = some finalResult ∧
            finalResult.existAttributes = []) ↔ sets = []) ∧
          ∀ service reply, ∃ scheduleId resultCode, finishStub fuel ipc service data reply =
            (finishObject fuel ipc data).map fun finalResult =>
              finish service scheduleId resultCode (some finalResult) >>= fun ret =>
                pure (writeReply ipc reply ret)) := by
  refine ⟨fun a b sets h hsets => ?_, fun b sets h hsets ipc data => ?_⟩
  · rw [hsets.object_eq ⟨fuel, h⟩ rfl]
    exact a.noEffect_setAll_iff fun c hc => hsets.typed hc
  · have hempty : b.existAttributes = [] ↔ sets = [] := by
      rw [hsets.object_eq ⟨fuel, h⟩ rfl, existAttributes_setAll fun c hc => hsets.typed hc]
      exact List.map_eq_nil_iff
    refine ⟨fun stub callback locals reply hmessage => ?_, fun hmessage => ?_⟩
    · rw [stub.all_iff fuel ipc callback locals data reply (hmessage ▸ h), hempty]
    · have hobject : finishObject fuel ipc data = some b := by
        rw [finishObject, hmessage, h]
        rfl
      refine ⟨?_, fun service reply => finishStub_finishObject fuel ipc service data reply⟩
      rw [hobject, ← hempty]
      constructor
      · rintro ⟨finalResult, hfinal, hnone⟩
        rw [Option.some.inj hfinal]
        exact hnone
      · intro hnone
        exact ⟨b, rfl, hnone⟩

/-- A message that ends within the tag of its second record. -/
def cutBuffer : List UInt8 :=
  codeBuffer.take 30

theorem recordSet_cutBuffer : recordSet cutBuffer 16 = some codeCall := by
  rfl

theorem cutBuffer_walk : Walk new.authAttributesPosition cutBuffer [16] 28 :=
  .next .first (by decide) (by decide +kernel)

theorem cutBuffer_refused : Refused new.authAttributesPosition cutBuffer 28 :=
  ⟨by decide, some .uint8ArrayType, by decide +kernel, by decide +kernel⟩

theorem cutBuffer_rejected :
    ∃ fuel, new.unpack fuel cutBuffer = some (.nullptr (new.setAll [codeCall])) := by
  have h := cutBuffer_walk.unpacks (by decide) (.nullptr cutBuffer_refused)
  rw [recordSets, List.filterMap_cons_some recordSet_cutBuffer] at h
  exact h

/-- A parcel that is a list. -/
def cutIpc : Ipc (List (Ipc.ParcelApi.Item ParcelKind ParcelKind.Carrier)) :=
  ⟨Ipc.ParcelApi.ofList, fun _ _ reply => (.fail, reply), true⟩

/-- The result code stays in the object, and an executor is given it as a property. -/
theorem cutBuffer_effect :
    ∃ fuel, new.unpack fuel cutBuffer = some (.nullptr (new.setAll [codeCall])) ∧
      ¬new.NoEffect (new.setAll [codeCall]) ∧
      ∀ locals, ¬(ExecutorStub.onSetPropertyStub.program fuel cutIpc true locals
        [⟨.uint8Vector, cutBuffer⟩] []).All HandsNothing := by
  obtain ⟨fuel, h⟩ := cutBuffer_rejected
  refine ⟨fuel, h, fun heffect => ?_, fun locals => ?_⟩
  · have hgetter := heffect.getters .uint32Type authResultCode (0 : UInt32)
    cases (Prod.mk.inj hgetter).1
  · have hiff := ExecutorStub.all_iff fuel cutIpc .onSetPropertyStub true locals
      [⟨.uint8Vector, cutBuffer⟩] [] h
    rw [hiff]
    decide

/-- A message without a byte is rejected, and leaves nothing behind. -/
theorem rejected_iff_example :
    new.unpack 0 [] = some (.nullptr new) ∧ new.NoEffect new ∧
      (ExecutorStub.onSetPropertyStub.program 0 cutIpc true ⟨false, 0, 0⟩
        [⟨.uint8Vector, []⟩] []).All HandsNothing ∧
      ∃ finalResult, finishObject 0 cutIpc [] = some finalResult ∧
        finalResult.existAttributes = [] := by
  obtain ⟨hobject, hstubs⟩ := rejected_iff
    (List (Ipc.ParcelApi.Item ParcelKind ParcelKind.Carrier)) 0 []
  have hsets : new.UnpackSets [] [] := .inl ⟨rfl, rfl⟩
  have hrepeats : new.Repeats [] :=
    ⟨fun _ _ h => (by cases h), .inr ⟨fun _ h => (by cases h), by decide⟩⟩
  obtain ⟨hexecutor, -⟩ := hstubs new [] rfl hsets cutIpc [⟨.uint8Vector, []⟩]
  obtain ⟨-, hfinish⟩ := hstubs new [] rfl hsets cutIpc []
  exact ⟨rfl, (hobject new new [] rfl hsets).mpr hrepeats,
    (hexecutor .onSetPropertyStub true _ [] rfl).mpr (.inr rfl), (hfinish rfl).1.mpr rfl⟩

end Rejected

end UserIam.CoAuth
