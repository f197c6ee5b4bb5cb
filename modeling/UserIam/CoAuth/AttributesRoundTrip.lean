import Mathlib.Algebra.Order.BigOperators.Group.List
import Mathlib.Algebra.Order.Ring.Nat
import Mathlib.Data.List.Induction
import UserIam.CoAuth.AuthAttributes

/-!
# Pack and Unpack

What `Unpack` reads out of the bytes of `Pack`: the attributes that were set, with their last
values, except that an empty byte array is not stored.
-/

namespace UserIam.CoAuth

open Bytes

/-- A call of one of the six setters. -/
structure SetCall where
  type : ValueType
  tag : AuthAttributeType
  value : type.Carrier

namespace SetCall

/-- The bytes of a value. -/
def payload : (type : ValueType) → type.Carrier → List UInt8
  | .boolType, v => [cond v 1 0]
  | .uint32Type, v => leBytes 4 v.toNat
  | .uint64Type, v => leBytes 8 v.toNat
  | .uint32ArrayType, v => v.flatMap fun w => leBytes 4 w.toNat
  | .uint64ArrayType, v => v.flatMap fun w => leBytes 8 w.toNat
  | .uint8ArrayType, v => v

/-- Tag, length, value. -/
def record (c : SetCall) : List UInt8 :=
  leBytes 4 c.tag.toNat ++ (leBytes 4 (payload c.type c.value).length ++ payload c.type c.value)

theorem length_record (c : SetCall) : c.record.length = 8 + (payload c.type c.value).length := by
  simp only [record, List.length_append, length_leBytes]
  omega

/-- The values that `Unpack` does not store. -/
def isEmptyUint8Array : (type : ValueType) → type.Carrier → Bool
  | .uint8ArrayType, v => v.isEmpty
  | _, _ => false

end SetCall

namespace AuthAttributes

open SetCall

def set (a : AuthAttributes) (c : SetCall) : AuthAttributes :=
  (a.setValue c.type c.tag c.value).2

def setAll (a : AuthAttributes) (calls : List SetCall) : AuthAttributes :=
  calls.foldl set a

/-! ## 1. Setters -/

theorem position_iff (a : AuthAttributes) (tag : AuthAttributeType) (type : ValueType) :
    a.authAttributesPosition tag = some (some type) ↔ typeOf tag = some type :=
  ⟨a.position_typed, a.position_known⟩

theorem findPosition_eq (a : AuthAttributes) (tag : AuthAttributeType) :
    a.findPosition tag = typeOf tag := by
  apply Option.ext
  intro type
  rw [← a.position_iff, findPosition, Option.join_eq_some_iff]

theorem set_known (a : AuthAttributes) {c : SetCall} (h : typeOf c.tag = some c.type) :
    (a.set c).existAttributes = a.existAttributes ++ [c.tag] ∧
      (a.set c).valueMap = Function.update a.valueMap c.type
        (Function.update (a.valueMap c.type) c.tag (some c.value)) := by
  have hpos := ((a.touchPosition c.tag).position_iff c.tag c.type).mpr h
  simp only [set, setValue, hpos, dite_true]
  exact ⟨rfl, rfl⟩

theorem set_unknown (a : AuthAttributes) {c : SetCall} (h : typeOf c.tag ≠ some c.type) :
    (a.set c).existAttributes = a.existAttributes ∧ (a.set c).valueMap = a.valueMap := by
  have hpos := ((a.touchPosition c.tag).position_iff c.tag c.type).not.mpr h
  simp only [set, setValue, hpos, dite_false]
  exact ⟨rfl, rfl⟩

theorem valueMap_set_self (a : AuthAttributes) {c : SetCall} (h : typeOf c.tag = some c.type) :
    (a.set c).valueMap c.type c.tag = some c.value := by
  rw [(a.set_known h).2, Function.update_self, Function.update_self]

theorem valueMap_set_of_ne (a : AuthAttributes) {c : SetCall} {type : ValueType}
    {tag : AuthAttributeType} (h : ¬(c.type = type ∧ c.tag = tag)) :
    (a.set c).valueMap type tag = a.valueMap type tag := by
  by_cases hk : typeOf c.tag = some c.type
  · rw [(a.set_known hk).2]
    by_cases ht : type = c.type
    · subst ht
      have htag : tag ≠ c.tag := fun h' => h ⟨rfl, h'.symm⟩
      rw [Function.update_self, Function.update_of_ne htag]
    · rw [Function.update_of_ne ht]
  · rw [(a.set_unknown hk).2]

/-- The listed tags are exactly those that have a value, and the value has the type of the tag. -/
structure Filled (a : AuthAttributes) : Prop where
  stored : ∀ {tag type}, tag ∈ a.existAttributes → typeOf tag = some type →
    ∃ v, a.valueMap type tag = some v
  listed : ∀ {tag type v}, a.valueMap type tag = some v →
    tag ∈ a.existAttributes ∧ typeOf tag = some type

theorem new_filled : new.Filled := by
  constructor <;> intros <;> contradiction

theorem Filled.set {a : AuthAttributes} (ha : a.Filled) (c : SetCall) : (a.set c).Filled := by
  by_cases hk : typeOf c.tag = some c.type
  · have hexist := (a.set_known hk).1
    refine ⟨fun {tag type} htag htype => ?_, fun {tag type v} hv => ?_⟩
    · by_cases hc : c.type = type ∧ c.tag = tag
      · obtain ⟨rfl, rfl⟩ := hc
        exact ⟨_, a.valueMap_set_self hk⟩
      · rw [hexist, List.mem_append, List.mem_singleton] at htag
        rw [a.valueMap_set_of_ne hc]
        rcases htag with htag | rfl
        · exact ha.stored htag htype
        · exact absurd ⟨Option.some.inj (hk.symm.trans htype), rfl⟩ hc
    · by_cases hc : c.type = type ∧ c.tag = tag
      · obtain ⟨rfl, rfl⟩ := hc
        rw [hexist]
        exact ⟨by simp, hk⟩
      · rw [a.valueMap_set_of_ne hc] at hv
        rw [hexist]
        exact ⟨List.mem_append_left _ (ha.listed hv).1, (ha.listed hv).2⟩
  · obtain ⟨hexist, hmap⟩ := a.set_unknown hk
    refine ⟨fun htag htype => ?_, fun hv => ?_⟩
    · rw [hmap]
      exact ha.stored (hexist ▸ htag) htype
    · rw [hexist]
      exact ha.listed (hmap ▸ hv)

theorem Filled.setAll {a : AuthAttributes} (ha : a.Filled) (calls : List SetCall) :
    (a.setAll calls).Filled := by
  induction calls generalizing a with
  | nil => exact ha
  | cons c calls ih => exact ih (ha.set c)

theorem setAll_of_not_mem {a : AuthAttributes} {calls : List SetCall} {type : ValueType}
    {tag : AuthAttributeType} (h : ∀ c ∈ calls, ¬(c.type = type ∧ c.tag = tag)) :
    (a.setAll calls).valueMap type tag = a.valueMap type tag := by
  induction calls generalizing a with
  | nil => rfl
  | cons c calls ih =>
    have hcalls := ih (a := a.set c) fun d hd => h d (List.mem_cons_of_mem _ hd)
    exact hcalls.trans (a.valueMap_set_of_ne (h c List.mem_cons_self))

theorem setAll_concat (a : AuthAttributes) (calls : List SetCall) (c : SetCall) :
    a.setAll (calls ++ [c]) = (a.setAll calls).set c := by
  rw [setAll, List.foldl_append]
  rfl

theorem existAttributes_setAll {a : AuthAttributes} {calls : List SetCall}
    (h : ∀ c ∈ calls, typeOf c.tag = some c.type) :
    (a.setAll calls).existAttributes = a.existAttributes ++ calls.map (·.tag) := by
  induction calls generalizing a with
  | nil => exact (List.append_nil _).symm
  | cons c calls ih =>
    refine (ih (a := a.set c) fun d hd => h d (List.mem_cons_of_mem _ hd)).trans ?_
    rw [(a.set_known (h c List.mem_cons_self)).1, List.append_assoc]
    rfl

/-- Calls that all repeat values of `s` leave the values of `s` behind. -/
theorem setAll_of_mem {a s : AuthAttributes} {calls : List SetCall} {type : ValueType}
    {tag : AuthAttributeType}
    (hcalls : ∀ c ∈ calls, typeOf c.tag = some c.type ∧ s.valueMap c.type c.tag = some c.value)
    (h : ∃ c ∈ calls, c.type = type ∧ c.tag = tag) :
    (a.setAll calls).valueMap type tag = s.valueMap type tag := by
  induction calls using List.reverseRecOn with
  | nil =>
    obtain ⟨c, hc, -⟩ := h
    cases hc
  | append_singleton calls d ih =>
    rw [setAll_concat]
    by_cases hd : d.type = type ∧ d.tag = tag
    · obtain ⟨rfl, rfl⟩ := hd
      obtain ⟨hknown, hvalue⟩ := hcalls d (by simp)
      rw [valueMap_set_self _ hknown, hvalue]
    · rw [valueMap_set_of_ne _ hd]
      refine ih (fun c hc => hcalls c (List.mem_append_left _ hc)) ?_
      obtain ⟨c, hc, hct⟩ := h
      rcases List.mem_append.mp hc with hc | hc
      · exact ⟨c, hc, hct⟩
      · rw [List.mem_singleton.mp hc] at hct
        exact absurd hct hd

/-! ## 2. Pack -/

/-- The last `Set` call of a listed tag. -/
def entry (a : AuthAttributes) (tag : AuthAttributeType) : Option SetCall :=
  (typeOf tag).bind fun type => (a.valueMap type tag).map fun v => ⟨type, tag, v⟩

/-- What the loop of `Pack` writes for a listed tag. -/
def loopEntry (a : AuthAttributes) (tag : AuthAttributeType) : Option SetCall :=
  if tag = authRoot ∨ tag = authData ∨ tag = authSignature then none else a.entry tag

/-- The signature is always written, as an empty array when it has not been set. -/
def signatureEntry (a : AuthAttributes) : SetCall :=
  ⟨.uint8ArrayType, authSignature, (a.valueMap .uint8ArrayType authSignature).getD []⟩

/-- The attributes in the order in which `Pack` writes them. -/
def packedEntries (a : AuthAttributes) : List SetCall :=
  a.existAttributes.filterMap a.loopEntry ++ [a.signatureEntry]

/-- The size of everything that `Pack` has to write: two headers and a record for each attribute. -/
def packedSize (a : AuthAttributes) : Nat :=
  16 + (a.packedEntries.map fun c => c.record.length).sum

theorem entry_eq_some {a : AuthAttributes} {tag : AuthAttributeType} {c : SetCall} :
    a.entry tag = some c ↔
      c.tag = tag ∧ typeOf c.tag = some c.type ∧ a.valueMap c.type c.tag = some c.value := by
  obtain ⟨type, ctag, v⟩ := c
  simp only [entry, Option.bind_eq_some_iff, Option.map_eq_some_iff, SetCall.mk.injEq]
  constructor
  · rintro ⟨t, ht, w, hw, rfl, rfl, hv⟩
    cases hv
    exact ⟨rfl, ht, hw⟩
  · rintro ⟨rfl, ht, hv⟩
    exact ⟨type, ht, v, hv, rfl, rfl, HEq.rfl⟩

/-- Every tag is set once and with its type, and none belongs to a header or to the signature. -/
structure SetOnce (calls : List SetCall) : Prop where
  known : ∀ c ∈ calls, typeOf c.tag = some c.type
  written : ∀ c ∈ calls, ¬(c.tag = authRoot ∨ c.tag = authData ∨ c.tag = authSignature)
  once : (calls.map (·.tag)).Nodup

instance (calls : List SetCall) : Decidable (SetOnce calls) :=
  decidable_of_iff ((∀ c ∈ calls, typeOf c.tag = some c.type) ∧
    (∀ c ∈ calls, ¬(c.tag = authRoot ∨ c.tag = authData ∨ c.tag = authSignature)) ∧
    (calls.map (·.tag)).Nodup)
    ⟨fun h => ⟨h.1, h.2.1, h.2.2⟩, fun h => ⟨h.known, h.written, h.once⟩⟩

section SetOnce

variable {calls : List SetCall} (h : SetOnce calls)
include h

theorem SetOnce.valueMap_eq {c : SetCall} (hc : c ∈ calls) (a : AuthAttributes) :
    (a.setAll calls).valueMap c.type c.tag = some c.value := by
  obtain ⟨before, after, rfl⟩ := List.append_of_mem hc
  have hafter : ∀ d ∈ after, ¬(d.type = c.type ∧ d.tag = c.tag) := by
    rintro d hd ⟨-, htag⟩
    have honce := h.once
    rw [List.map_append, List.map_cons, List.nodup_append, List.nodup_cons] at honce
    exact honce.2.1.1 (htag ▸ List.mem_map_of_mem hd)
  have hsplit : a.setAll (before ++ c :: after) = ((a.setAll before).set c).setAll after :=
    List.foldl_append ..
  rw [hsplit, setAll_of_not_mem hafter, valueMap_set_self _ (h.known c hc)]

/-- Such calls are packed as they are, with an empty signature behind them. -/
theorem SetOnce.packedEntries_eq :
    (new.setAll calls).packedEntries = calls ++ [⟨.uint8ArrayType, authSignature, []⟩] := by
  have hentry : ∀ c ∈ calls, (new.setAll calls).loopEntry c.tag = some c := by
    intro c hc
    rw [loopEntry, if_neg (h.written c hc)]
    exact entry_eq_some.mpr ⟨rfl, h.known c hc, h.valueMap_eq hc new⟩
  have hunsigned : (new.setAll calls).valueMap .uint8ArrayType authSignature = none := by
    refine (setAll_of_not_mem ?_).trans rfl
    rintro c hc ⟨-, htag⟩
    exact h.written c hc (.inr (.inr htag))
  have hlisted : (calls.map (·.tag)).filterMap (new.setAll calls).loopEntry = calls := by
    rw [List.filterMap_map]
    exact (List.filterMap_congr hentry).trans List.filterMap_some
  have hexist : (new.setAll calls).existAttributes = calls.map (·.tag) :=
    existAttributes_setAll h.known
  rw [packedEntries, signatureEntry, hunsigned, hexist, hlisted]
  rfl

theorem SetOnce.packedSize_eq :
    (new.setAll calls).packedSize = 24 + (calls.map fun c => c.record.length).sum := by
  rw [packedSize, h.packedEntries_eq, List.map_append, List.sum_append, List.map_singleton,
    List.sum_singleton]
  simp only [length_record, payload, List.length_nil]
  omega

theorem SetOnce.length_existAttributes_eq :
    (new.setAll calls).existAttributes.length = calls.length := by
  rw [existAttributes_setAll h.known, List.length_append, List.length_map]
  exact Nat.zero_add _

end SetOnce

theorem Filled.exists_entry {a : AuthAttributes} (ha : a.Filled) {tag : AuthAttributeType}
    (h : tag ∈ a.existAttributes) : ∃ c, a.entry tag = some c := by
  obtain ⟨type, htype⟩ := a.exist_typed h
  obtain ⟨v, hv⟩ := ha.stored h htype
  exact ⟨⟨type, tag, v⟩, entry_eq_some.mpr ⟨rfl, htype, hv⟩⟩

/-- What `PackToBuffer` writes for a value whose length fits into 32 bits. -/
theorem packToBuffer_eq (a : AuthAttributes) (locals : PackLocals) {c : SetCall}
    (hv : a.valueMap c.type c.tag = some c.value)
    (hsize : (payload c.type c.value).length < 2 ^ 32) (buffer : List UInt8) :
    a.packToBuffer locals c.tag (some c.type) buffer =
      buffer ++ (leBytes 4 (payload c.type c.value).length ++ payload c.type c.value) := by
  obtain ⟨type, tag, v⟩ := c
  have hlength : (UInt32.ofNat (payload type v).length).toNat = (payload type v).length :=
    UInt32.toNat_ofNat_of_lt' hsize
  cases type with
  | boolType =>
    simp only [packToBuffer, getBoolValue, getValue, hv, writeDataLength, List.append_assoc]
    rfl
  | uint32Type =>
    simp only [packToBuffer, getUint32Value, getValue, hv, writeDataLength, List.append_assoc,
      payload, length_leBytes]
    rfl
  | uint64Type =>
    simp only [packToBuffer, getUint64Value, getValue, hv, writeDataLength, List.append_assoc,
      payload, length_leBytes]
    rfl
  | uint32ArrayType =>
    have hbytes := length_flatMap_encode (fun w : UInt32 => length_leBytes 4 w.toNat) v
    simp only [payload, hbytes] at hlength
    simp only [packToBuffer, getUint32ArrayValue, getValue, hv, writeDataLength, write32Array,
      List.append_assoc, payload, hbytes, Nat.mul_comm 4, hlength]
  | uint64ArrayType =>
    have hbytes := length_flatMap_encode (fun w : UInt64 => length_leBytes 8 w.toNat) v
    simp only [payload, hbytes] at hlength
    simp only [packToBuffer, getUint64ArrayValue, getValue, hv, writeDataLength, write64Array,
      List.append_assoc, payload, hbytes, Nat.mul_comm 8, hlength]
  | uint8ArrayType =>
    simp only [payload] at hlength
    have hcode : ResultCode.success = 0 := rfl
    simp only [packToBuffer, getUint8ArrayValue, getValue, hv, hcode, ne_eq, not_true_eq_false,
      if_false, writeDataLength, List.append_assoc, payload, hlength, List.take_length]

/-- An unset byte array is written as an empty one. -/
theorem packToBuffer_unset (a : AuthAttributes) (locals : PackLocals) {tag : AuthAttributeType}
    (hv : a.valueMap .uint8ArrayType tag = none) (buffer : List UInt8) :
    a.packToBuffer locals tag (some .uint8ArrayType) buffer = buffer ++ leBytes 4 0 := by
  simp only [packToBuffer, getUint8ArrayValue, getValue, hv]
  rfl

/-- A listed tag gives its record, if the loop writes one. -/
theorem packAttribute_eq {a : AuthAttributes} (ha : a.Filled) (locals : PackLocals)
    {tag : AuthAttributeType} (htag : tag ∈ a.existAttributes)
    (hsize : ∀ c ∈ a.packedEntries, c.record.length < 2 ^ 32) :
    a.packAttribute locals tag [] = (a.loopEntry tag).toList.flatMap record := by
  by_cases hskip : tag = authRoot ∨ tag = authData ∨ tag = authSignature
  · have hentry : a.loopEntry tag = none := if_pos hskip
    rw [packAttribute, if_pos hskip, hentry]
    rfl
  · obtain ⟨c, hc⟩ := ha.exists_entry htag
    have hentry : a.loopEntry tag = some c := (if_neg hskip).trans hc
    have hmem : c ∈ a.packedEntries :=
      List.mem_append_left _ (List.mem_filterMap.mpr ⟨tag, htag, hentry⟩)
    have hpayload := hsize c hmem
    rw [length_record] at hpayload
    obtain ⟨rfl, htype, hv⟩ := entry_eq_some.mp hc
    rw [packAttribute, if_neg hskip, a.findPosition_eq, htype,
      a.packToBuffer_eq locals hv (by omega), writeTag, hentry]
    simp [record]

theorem packToBuffer_append (a : AuthAttributes) (locals : PackLocals) (tag : AuthAttributeType)
    (position : Option ValueType) (buffer : List UInt8) :
    a.packToBuffer locals tag position buffer =
      buffer ++ a.packToBuffer locals tag position [] := by
  rcases position with _ | type
  · exact (List.append_nil buffer).symm
  · cases type with
    | uint8ArrayType =>
      simp only [packToBuffer, writeDataLength, List.nil_append]
      split
      · rfl
      · rw [List.append_assoc]
    | _ =>
      simp only [packToBuffer, writeDataLength, write32Array, write64Array, List.append_assoc,
        List.nil_append]

theorem packAttribute_append (a : AuthAttributes) (locals : PackLocals) (tag : AuthAttributeType)
    (buffer : List UInt8) :
    a.packAttribute locals tag buffer = buffer ++ a.packAttribute locals tag [] := by
  unfold packAttribute
  split
  · exact (List.append_nil buffer).symm
  · rw [packToBuffer_append, writeTag, a.packToBuffer_append locals tag _ (writeTag [] tag),
      writeTag, List.nil_append, List.append_assoc]

/-- The loop appends what it writes for the tags that are left. -/
theorem packLoop_flatMap {a : AuthAttributes} (locals : PackLocals)
    (hlength : a.existAttributes.length < 2 ^ 32) {fuel : Nat} {i : UInt32} {buffer : List UInt8}
    (hi : i.toNat ≤ a.existAttributes.length) :
    a.packLoop locals fuel i buffer =
      if a.existAttributes.length < i.toNat + fuel then
        some (buffer ++
          (a.existAttributes.drop i.toNat).flatMap fun tag => a.packAttribute locals tag [])
      else none := by
  induction fuel generalizing i buffer with
  | zero => exact (if_neg (by omega)).symm
  | succ fuel ih =>
    rw [packLoop]
    by_cases hend : i.toNat = a.existAttributes.length
    · rw [if_neg (not_not.mpr hend), if_pos (by omega), hend, List.drop_length]
      simp
    · have hlt : i.toNat < a.existAttributes.length := by omega
      have hnext : (i + 1).toNat = i.toNat + 1 := by
        rw [UInt32.toNat_add]
        exact Nat.mod_eq_of_lt (by simp; omega)
      rw [if_pos hend, List.getElem?_eq_getElem hlt, Option.bind_some, ih (by omega),
        packAttribute_append, hnext, List.drop_eq_getElem_cons hlt, List.flatMap_cons,
        List.append_assoc, Nat.add_right_comm, Nat.add_assoc]

/-- The loop appends the records of the tags that are left, one unit of fuel for each. -/
theorem packLoop_eq {a : AuthAttributes} (ha : a.Filled) (locals : PackLocals)
    (hsize : ∀ c ∈ a.packedEntries, c.record.length < 2 ^ 32)
    (hlength : a.existAttributes.length < 2 ^ 32) {fuel : Nat} {i : UInt32} {buffer : List UInt8}
    (hi : i.toNat ≤ a.existAttributes.length) :
    a.packLoop locals fuel i buffer =
      if a.existAttributes.length < i.toNat + fuel then
        some (buffer ++ ((a.existAttributes.drop i.toNat).filterMap a.loopEntry).flatMap record)
      else none := by
  have hrecords : ((a.existAttributes.drop i.toNat).flatMap fun tag =>
      a.packAttribute locals tag []) =
        ((a.existAttributes.drop i.toNat).filterMap a.loopEntry).flatMap record := by
    rw [List.filterMap_eq_flatMap_toList, List.flatMap_assoc]
    refine List.flatMap_congr fun tag htag => ?_
    exact packAttribute_eq ha locals (List.mem_of_mem_drop htag) hsize
  rw [packLoop_flatMap locals hlength hi, hrecords]

/-- The 32-bit index never equals a size of `2 ^ 32` or more. -/
theorem packLoop_eq_none {a : AuthAttributes} (locals : PackLocals)
    (hlength : 2 ^ 32 ≤ a.existAttributes.length) (fuel : Nat) (i : UInt32) (buffer : List UInt8) :
    a.packLoop locals fuel i buffer = none := by
  induction fuel generalizing i buffer with
  | zero => rfl
  | succ fuel ih =>
    have hi : i.toNat < 2 ^ 32 := i.toNat_lt
    rw [packLoop, if_pos (by omega), List.getElem?_eq_getElem (by omega), Option.bind_some, ih]

theorem packSignature_eq {a : AuthAttributes} (hsize : a.signatureEntry.record.length < 2 ^ 32)
    (locals : PackLocals) (buffer : List UInt8) :
    a.packToBuffer locals authSignature (a.findPosition authSignature)
        (writeTag buffer authSignature) = buffer ++ a.signatureEntry.record := by
  have htype : a.findPosition authSignature = some .uint8ArrayType := by
    rw [a.findPosition_eq]
    rfl
  rw [htype]
  cases hv : a.valueMap .uint8ArrayType authSignature with
  | none =>
    rw [a.packToBuffer_unset locals hv, writeTag, List.append_assoc]
    simp only [signatureEntry, hv, record, payload, Option.getD_none, List.length_nil,
      List.append_nil]
  | some v =>
    have hentry : a.signatureEntry = ⟨.uint8ArrayType, authSignature, v⟩ := by
      simp only [signatureEntry, hv, Option.getD_some]
    rw [hentry, length_record] at hsize
    rw [hentry, a.packToBuffer_eq (c := ⟨.uint8ArrayType, authSignature, v⟩) locals hv (by omega),
      writeTag, List.append_assoc]
    rfl

theorem packFrame_eq {a : AuthAttributes}
    (hsize : a.signatureEntry.record.length < 2 ^ 32) (locals : PackLocals) (data : List UInt8) :
    ∃ header : List UInt8, header.length = 16 ∧
      a.packFrame locals data = header ++ (data ++ a.signatureEntry.record) := by
  simp only [packFrame, packSignature_eq hsize, List.append_assoc]
  simp only [← List.append_assoc _ _ (data ++ _)]
  exact ⟨_, by simp, rfl⟩

theorem packedSize_sortAttributes (a : AuthAttributes) :
    a.sortAttributes.packedSize = a.packedSize := by
  have hperm : (a.sortAttributes.packedEntries.map fun c => c.record.length).Perm
      (a.packedEntries.map fun c => c.record.length) :=
    (((List.perm_insertionSort _ a.existAttributes).filterMap _).append_right _).map _
  rw [packedSize, packedSize, hperm.sum_eq]

theorem Filled.sortAttributes {a : AuthAttributes} (ha : a.Filled) : a.sortAttributes.Filled :=
  ⟨fun h => ha.stored ((List.mem_insertionSort _).mp h),
   fun h => ⟨(List.mem_insertionSort _).mpr (ha.listed h).1, (ha.listed h).2⟩⟩

theorem record_length_lt {a : AuthAttributes} (hsize : a.packedSize < 2 ^ 32) {c : SetCall}
    (hc : c ∈ a.packedEntries) : c.record.length < 2 ^ 32 := by
  have h := List.single_le_sum (l := a.packedEntries.map fun c => c.record.length)
    (fun _ _ => Nat.zero_le _) _ (List.mem_map_of_mem hc)
  simp only [packedSize] at hsize
  omega

theorem signatureEntry_mem (a : AuthAttributes) : a.signatureEntry ∈ a.packedEntries := by
  simp [packedEntries]

theorem length_sortAttributes (a : AuthAttributes) :
    a.sortAttributes.existAttributes.length = a.existAttributes.length :=
  (List.perm_insertionSort _ _).length_eq

/-- With enough fuel `Pack` returns 16 bytes of headers and the records. -/
theorem pack_eq {a : AuthAttributes} (ha : a.Filled) (hsize : a.packedSize < 2 ^ 32)
    (hlength : a.existAttributes.length < 2 ^ 32) (locals : PackLocals) :
    ∃ header : List UInt8, header.length = 16 ∧ ∀ fuel, a.pack fuel locals =
      if a.existAttributes.length < fuel then
        some (header ++ a.sortAttributes.packedEntries.flatMap record, a.sortAttributes)
      else none := by
  have hrecord : ∀ c ∈ a.sortAttributes.packedEntries, c.record.length < 2 ^ 32 :=
    fun c hc => record_length_lt (a.packedSize_sortAttributes ▸ hsize) hc
  obtain ⟨header, hheader, hframe⟩ := packFrame_eq (hrecord _ (signatureEntry_mem _)) locals
    ((a.sortAttributes.existAttributes.filterMap a.sortAttributes.loopEntry).flatMap record)
  refine ⟨header, hheader, fun fuel => ?_⟩
  rw [pack, packLoop_eq ha.sortAttributes locals hrecord (a.length_sortAttributes ▸ hlength)
    (Nat.zero_le _), length_sortAttributes, UInt32.toNat_zero, Nat.zero_add, List.drop_zero,
    List.nil_append]
  split
  · rw [Option.map_some, hframe, packedEntries, List.flatMap_append, List.flatMap_singleton]
  · rfl

/-- `Pack` returns exactly when fewer than `2 ^ 32` tags are listed. -/
theorem packs_iff_length {a : AuthAttributes} (ha : a.Filled) (hsize : a.packedSize < 2 ^ 32)
    (locals : PackLocals) :
    (∃ buffer a', a.Packs locals buffer a') ↔ a.existAttributes.length < 2 ^ 32 := by
  constructor
  · rintro ⟨buffer, a', fuel, h⟩
    by_contra hlength
    rw [pack, packLoop_eq_none locals (by rw [length_sortAttributes]; omega)] at h
    cases h
  · intro hlength
    obtain ⟨header, -, hpack⟩ := pack_eq ha hsize hlength locals
    exact ⟨_, _, _, (hpack _).trans (if_pos (Nat.lt_succ_self _))⟩

theorem Packs.eq {a a' : AuthAttributes} {locals : PackLocals} {buffer : List UInt8} (ha : a.Filled)
    (hsize : a.packedSize < 2 ^ 32) (h : a.Packs locals buffer a') :
    a' = a.sortAttributes ∧ ∃ header : List UInt8, header.length = 16 ∧
      buffer = header ++ a'.packedEntries.flatMap record := by
  have hlength := (packs_iff_length ha hsize locals).mp ⟨buffer, a', h⟩
  obtain ⟨header, hheader, hpack⟩ := pack_eq ha hsize hlength locals
  obtain ⟨fuel, h⟩ := h
  rw [hpack fuel] at h
  split at h
  · cases h
    exact ⟨rfl, header, hheader, rfl⟩
  · cases h

/-- The buffer has the size of what had to be written: no length is cut off. -/
theorem Packs.length_eq {a a' : AuthAttributes} {locals : PackLocals} {buffer : List UInt8}
    (ha : a.Filled) (hsize : a.packedSize < 2 ^ 32) (h : a.Packs locals buffer a') :
    buffer.length = a.packedSize := by
  obtain ⟨rfl, header, hheader, rfl⟩ := h.eq ha hsize
  rw [List.length_append, hheader, List.length_flatMap, ← packedSize_sortAttributes]
  rfl

/-! ## 3. Unpack -/

theorem toNat_add_of_lt {c : UInt32} {n k : Nat} (hc : c.toNat = n) (h : n + k < 2 ^ 32) :
    (c + UInt32.ofNat k).toNat = n + k := by
  rw [UInt32.toNat_add, UInt32.toNat_ofNat', hc, Nat.mod_eq_of_lt (b := 2 ^ 32) (by omega),
    Nat.mod_eq_of_lt (by omega)]

theorem getUint32FromUint8_window {pre : List UInt8} (suf : List UInt8) {c : UInt32}
    (hc : c.toNat = pre.length) (v : UInt32) :
    getUint32FromUint8 (pre ++ (leBytes 4 v.toNat ++ suf)) c = v := by
  rw [getUint32FromUint8, hc, if_neg (by simp), readLe_window,
    Nat.mod_eq_of_lt (by simpa using v.toNat_lt), UInt32.ofNat_toNat]

theorem getUint64FromUint8_window {pre : List UInt8} (suf : List UInt8) {c : UInt32}
    (hc : c.toNat = pre.length) (v : UInt64) :
    getUint64FromUint8 (pre ++ (leBytes 8 v.toNat ++ suf)) c = v := by
  rw [getUint64FromUint8, hc, if_neg (by simp), readLe_window,
    Nat.mod_eq_of_lt (by simpa using v.toNat_lt), UInt64.ofNat_toNat]

theorem getBoolFromUint8_window {pre suf : List UInt8} {c : UInt32} (hc : c.toNat = pre.length)
    (v : Bool) : getBoolFromUint8 (pre ++ ([cond v 1 0] ++ suf)) c = v := by
  have hbyte : [cond v 1 0] = leBytes 1 (cond v 1 0) := by cases v <;> rfl
  rw [hbyte, getBoolFromUint8, hc, if_neg (by simp), readLe_window]
  cases v <;> rfl

theorem getUint32ArrayFromUint8_window {pre suf : List UInt8} {c len : UInt32} {v : List UInt32}
    (hc : c.toNat = pre.length) (hlen : len.toNat = v.length * 4)
    (hfit : pre.length + v.length * 4 < 2 ^ 32) :
    getUint32ArrayFromUint8 (pre ++ ((v.flatMap fun w => leBytes 4 w.toNat) ++ suf)) c len = v := by
  have hread := map_get_window (2 ^ 32) (fun data n => getUint32FromUint8 data (UInt32.ofNat n))
    (fun w : UInt32 => length_leBytes 4 w.toNat)
    (fun _ w _ h => getUint32FromUint8_window _ (UInt32.toNat_ofNat_of_lt' h) w)
    pre suf v fun i hi => by omega
  rw [getUint32ArrayFromUint8, hlen, Nat.mul_div_cancel _ (by decide)]
  simp only [UInt32.ofNat_add, ← hc, UInt32.ofNat_toNat] at hread
  exact hread

theorem getUint64ArrayFromUint8_window {pre suf : List UInt8} {c len : UInt32} {v : List UInt64}
    (hc : c.toNat = pre.length) (hlen : len.toNat = v.length * 8)
    (hfit : pre.length + v.length * 8 < 2 ^ 32) :
    getUint64ArrayFromUint8 (pre ++ ((v.flatMap fun w => leBytes 8 w.toNat) ++ suf)) c len = v := by
  have hread := map_get_window (2 ^ 32) (fun data n => getUint64FromUint8 data (UInt32.ofNat n))
    (fun w : UInt64 => length_leBytes 8 w.toNat)
    (fun _ w _ h => getUint64FromUint8_window _ (UInt32.toNat_ofNat_of_lt' h) w)
    pre suf v fun i hi => by omega
  rw [getUint64ArrayFromUint8, hlen, Nat.mul_div_cancel _ (by decide)]
  simp only [UInt32.ofNat_add, ← hc, UInt32.ofNat_toNat] at hread
  exact hread

/-- What `Unpack` does with a record: an empty byte array is not stored. -/
def store (a : AuthAttributes) (c : SetCall) : AuthAttributes :=
  if isEmptyUint8Array c.type c.value then a else a.set c

theorem unpackTag_record {pre suf : List UInt8} {c : SetCall} {cursor : UInt32}
    (hcursor : cursor.toNat = pre.length)
    (hfit : (pre ++ (c.record ++ suf)).length < 2 ^ 32) :
    unpackTag (pre ++ (c.record ++ suf)) cursor =
      (c.tag, UInt32.ofNat (payload c.type c.value).length, cursor + 4 + 4) := by
  simp only [List.length_append, length_record] at hfit
  have hcursor' : (cursor + 4).toNat = (pre ++ leBytes 4 c.tag.toNat).length := by
    rw [List.length_append, length_leBytes]
    exact toNat_add_of_lt (k := 4) hcursor (by omega)
  have hlength : (UInt32.ofNat (payload c.type c.value).length).toNat =
      (payload c.type c.value).length :=
    UInt32.toNat_ofNat_of_lt' (Nat.lt_of_le_of_lt (by omega) hfit)
  have htag := getUint32FromUint8_window (leBytes 4 (payload c.type c.value).length ++
    (payload c.type c.value ++ suf)) hcursor c.tag
  have hlen := getUint32FromUint8_window (payload c.type c.value ++ suf) hcursor'
    (UInt32.ofNat (payload c.type c.value).length)
  rw [hlength] at hlen
  simp only [List.append_assoc] at hlen
  simp only [unpackTag, record, List.append_assoc, htag, hlen]

theorem checkLengthPass_record {pre suf : List UInt8} {c : SetCall} {cursor : UInt32}
    (hcursor : cursor.toNat = pre.length + 8)
    (hfit : (pre ++ (c.record ++ suf)).length < 2 ^ 32) :
    checkLengthPass (some c.type) cursor (UInt32.ofNat (payload c.type c.value).length)
      (UInt32.ofNat (pre ++ (c.record ++ suf)).length) = true := by
  have hend := toNat_add_of_lt (k := (payload c.type c.value).length) hcursor (by
    simp only [List.length_append, length_record] at hfit
    omega)
  have hbuffer : (UInt32.ofNat (pre ++ (c.record ++ suf)).length).toNat =
      (pre ++ (c.record ++ suf)).length := UInt32.toNat_ofNat_of_lt' hfit
  have hle : ¬cursor + UInt32.ofNat (payload c.type c.value).length >
      UInt32.ofNat (pre ++ (c.record ++ suf)).length := by
    rw [gt_iff_lt, UInt32.lt_iff_toNat_lt, hend, hbuffer, List.length_append, List.length_append,
      length_record]
    omega
  obtain ⟨type, tag, v⟩ := c
  unfold checkLengthPass
  rw [if_neg hle]
  cases type with
  | boolType => rfl
  | uint32Type => exact decide_eq_true (congrArg UInt32.ofNat (length_leBytes 4 _))
  | uint64Type => exact decide_eq_true (congrArg UInt32.ofNat (length_leBytes 8 _))
  | uint32ArrayType => rfl
  | uint64ArrayType => rfl
  | uint8ArrayType => rfl

/-- The value that follows the tag and the length is stored. -/
theorem unpackValue_payload (a : AuthAttributes) {header : List UInt8} (suf : List UInt8)
    {c : SetCall} {start : UInt32} (hstart : start.toNat = header.length)
    (hfit : header.length + (payload c.type c.value).length < 2 ^ 32) :
    a.unpackValue (header ++ (payload c.type c.value ++ suf)) c.tag (some c.type) start
        (UInt32.ofNat (payload c.type c.value).length) =
      .next (a.store c) (start + UInt32.ofNat (payload c.type c.value).length) := by
  have hlength : (UInt32.ofNat (payload c.type c.value).length).toNat =
      (payload c.type c.value).length :=
    UInt32.toNat_ofNat_of_lt' (Nat.lt_of_le_of_lt (Nat.le_add_left _ _) hfit)
  obtain ⟨type, tag, v⟩ := c
  cases type with
  | boolType =>
    simp only [payload, unpackValue, getBoolFromUint8_window hstart]
    rfl
  | uint32Type =>
    simp only [payload, unpackValue, getUint32FromUint8_window suf hstart, length_leBytes]
    rfl
  | uint64Type =>
    simp only [payload, unpackValue, getUint64FromUint8_window suf hstart, length_leBytes]
    rfl
  | uint32ArrayType =>
    simp only [payload, length_flatMap_encode fun w : UInt32 => length_leBytes 4 w.toNat]
      at hlength hfit ⊢
    simp only [unpackValue, unpackUint32ArrayType,
      getUint32ArrayFromUint8_window hstart hlength hfit]
    rfl
  | uint64ArrayType =>
    simp only [payload, length_flatMap_encode fun w : UInt64 => length_leBytes 8 w.toNat]
      at hlength hfit ⊢
    simp only [unpackValue, unpackUint64ArrayType,
      getUint64ArrayFromUint8_window hstart hlength hfit]
    rfl
  | uint8ArrayType =>
    simp only [payload] at hlength hfit ⊢
    cases v with
    -- the value that is not stored; the position stays, as the length is zero
    | nil =>
      have hzero : UInt32.ofNat ([] : List UInt8).length = 0 := rfl
      rw [hzero, UInt32.add_zero]
      rfl
    | cons b bs =>
      have hne : UInt32.ofNat (b :: bs).length ≠ 0 := by
        intro h
        rw [h] at hlength
        cases hlength
      simp only [unpackValue, unpackUint8ArrayType, if_neg hne, hlength, hstart]
      rw [if_pos (by simp only [List.length_append]; omega), drop_take_window]
      rfl

/-- One round of the loop reads one record. -/
theorem unpackStep_record (a : AuthAttributes) {pre suf : List UInt8} {c : SetCall}
    {cursor : UInt32} (hknown : typeOf c.tag = some c.type) (hcursor : cursor.toNat = pre.length)
    (hfit : (pre ++ (c.record ++ suf)).length < 2 ^ 32) :
    ∃ cursor', a.unpackStep (pre ++ (c.record ++ suf)) cursor = .next (a.store c) cursor' ∧
      cursor'.toNat = (pre ++ c.record).length := by
  have hsize := hfit
  simp only [List.length_append, length_record] at hsize
  have hstart : (cursor + 4 + 4).toNat = pre.length + 8 :=
    toNat_add_of_lt (k := 4) (toNat_add_of_lt (k := 4) hcursor (by omega)) (by omega)
  have hend := toNat_add_of_lt (k := (payload c.type c.value).length) hstart (by omega)
  -- the value is what follows the tag and the length
  have hheader : (pre ++ (leBytes 4 c.tag.toNat ++
      leBytes 4 (payload c.type c.value).length)).length = pre.length + 8 := by
    simp only [List.length_append, length_leBytes]
  have hvalue := a.unpackValue_payload suf (c := c) (hstart.trans hheader.symm)
    (by rw [hheader]; omega)
  simp only [List.append_assoc] at hvalue
  refine ⟨cursor + 4 + 4 + UInt32.ofNat (payload c.type c.value).length, ?_, by
    rw [hend, List.length_append, length_record, Nat.add_assoc]⟩
  rw [unpackStep, unpackTag_record hcursor hfit]
  simp only [a.position_known hknown, checkLengthPass_record hstart hfit, if_true]
  simp only [record, List.append_assoc]
  exact hvalue

/-- The loop stores records one by one, whatever follows them. -/
theorem unpackLoop_append {entries : List SetCall}
    (hknown : ∀ c ∈ entries, typeOf c.tag = some c.type) (a : AuthAttributes)
    {pre suf : List UInt8} {cursor : UInt32} (hcursor : cursor.toNat = pre.length)
    (hfit : (pre ++ (entries.flatMap record ++ suf)).length < 2 ^ 32) (fuel : Nat) :
    ∃ cursor', cursor'.toNat = (pre ++ entries.flatMap record).length ∧
      unpackLoop (pre ++ (entries.flatMap record ++ suf)) (entries.length + fuel) a cursor =
        unpackLoop (pre ++ (entries.flatMap record ++ suf)) fuel (entries.foldl store a)
          cursor' := by
  induction entries generalizing a pre cursor with
  | nil => exact ⟨cursor, by simp [hcursor], by simp⟩
  | cons c entries ih =>
    rw [List.flatMap_cons, List.append_assoc] at hfit ⊢
    obtain ⟨next, hstep, hnext⟩ := a.unpackStep_record (hknown c List.mem_cons_self) hcursor hfit
    have hmore : cursor.toNat <
        (pre ++ (c.record ++ (entries.flatMap record ++ suf))).length := by
      simp only [List.length_append, length_record, hcursor]
      omega
    rw [List.length_cons, Nat.add_right_comm, unpackLoop, if_pos hmore, hstep]
    rw [← List.append_assoc] at hfit
    obtain ⟨cursor', hcursor', hloop⟩ :=
      ih (fun d hd => hknown d (List.mem_cons_of_mem _ hd)) (a.store c) hnext hfit
    rw [List.append_assoc] at hloop hcursor'
    exact ⟨cursor', hcursor', hloop⟩

/-- The loop stores the records of the rest of the buffer. -/
theorem unpackLoop_records {entries : List SetCall}
    (hknown : ∀ c ∈ entries, typeOf c.tag = some c.type) (a : AuthAttributes) {pre : List UInt8}
    {cursor : UInt32} (hcursor : cursor.toNat = pre.length)
    (hfit : (pre ++ entries.flatMap record).length < 2 ^ 32) :
    unpackLoop (pre ++ entries.flatMap record) (entries.length + 1) a cursor =
      some (.this (entries.foldl store a)) := by
  have hsuf : pre ++ entries.flatMap record = pre ++ (entries.flatMap record ++ []) := by
    rw [List.append_nil]
  rw [hsuf] at hfit ⊢
  obtain ⟨cursor', hcursor', hloop⟩ := unpackLoop_append hknown a hcursor hfit 1
  rw [hloop, unpackLoop, if_neg (by simp [hcursor'])]

theorem unpack_records_eq {entries : List SetCall}
    (hknown : ∀ c ∈ entries, typeOf c.tag = some c.type) (a : AuthAttributes)
    {header : List UInt8} (hheader : header.length = 16)
    (hfit : (header ++ entries.flatMap record).length < 2 ^ 32) :
    a.unpack (entries.length + 1) (header ++ entries.flatMap record) =
      some (.this (entries.foldl store a)) := by
  have hne : (header ++ entries.flatMap record).isEmpty = false := by
    cases header with
    | nil => cases hheader
    | cons => rfl
  rw [unpack, if_neg (by rw [hne]; decide)]
  exact unpackLoop_records hknown a (hheader.symm ▸ rfl) hfit

theorem unpack_records {entries : List SetCall}
    (hknown : ∀ c ∈ entries, typeOf c.tag = some c.type) (a : AuthAttributes)
    {header : List UInt8} (hheader : header.length = 16)
    (hfit : (header ++ entries.flatMap record).length < 2 ^ 32) :
    a.Unpacks (header ++ entries.flatMap record) (.this (entries.foldl store a)) :=
  ⟨entries.length + 1, unpack_records_eq hknown a hheader hfit⟩

theorem unpackLoop_add {buffer : List UInt8} {fuel : Nat} {a : AuthAttributes} {cursor : UInt32}
    {r : UnpackResult} (h : unpackLoop buffer fuel a cursor = some r) (k : Nat) :
    unpackLoop buffer (fuel + k) a cursor = some r := by
  induction fuel generalizing a cursor with
  | zero => cases h
  | succ fuel ih =>
    rw [Nat.add_right_comm, unpackLoop]
    rw [unpackLoop] at h
    split at h
    · next hmore =>
      rw [if_pos hmore]
      cases hstep : a.unpackStep buffer cursor with
      | next a' cursor' =>
        rw [hstep] at h
        exact ih h
      | nullptr a' =>
        rw [hstep] at h
        exact h
      | undefined =>
        rw [hstep] at h
        exact h
    · next hend =>
      rw [if_neg hend]
      exact h

theorem unpack_add {buffer : List UInt8} {fuel : Nat} {a : AuthAttributes} {r : UnpackResult}
    (h : a.unpack fuel buffer = some r) (k : Nat) : a.unpack (fuel + k) buffer = some r := by
  rw [unpack] at h ⊢
  split at h
  · next hempty =>
    rw [if_pos hempty]
    exact h
  · next hne =>
    rw [if_neg hne]
    exact unpackLoop_add h k

/-- `Unpack` has one result. -/
theorem Unpacks.unique {a : AuthAttributes} {buffer : List UInt8} {r r' : UnpackResult}
    (h : a.Unpacks buffer r) (h' : a.Unpacks buffer r') : r = r' := by
  obtain ⟨fuel, h⟩ := h
  obtain ⟨fuel', h'⟩ := h'
  have hlong := unpack_add h fuel'
  rw [Nat.add_comm, unpack_add h' fuel] at hlong
  exact Option.some.inj hlong.symm

/-! ## 4. The round trip -/

theorem foldl_store_eq_setAll (a : AuthAttributes) (entries : List SetCall) :
    entries.foldl store a =
      a.setAll (entries.filter fun c => !isEmptyUint8Array c.type c.value) := by
  induction entries generalizing a with
  | nil => rfl
  | cons c entries ih =>
    rw [List.foldl_cons, ih, store]
    cases h : isEmptyUint8Array c.type c.value <;> simp [h, setAll]

theorem typeOf_of_mem_packedEntries {a : AuthAttributes} {c : SetCall} (hc : c ∈ a.packedEntries) :
    typeOf c.tag = some c.type := by
  rcases List.mem_append.mp hc with hc | hc
  · obtain ⟨tag, -, hentry⟩ := List.mem_filterMap.mp hc
    rw [loopEntry] at hentry
    split at hentry
    · cases hentry
    · exact (entry_eq_some.mp hentry).2.1
  · rw [List.mem_singleton.mp hc]
    rfl

/-- An entry that is not an empty byte array repeats a value of the object. -/
theorem valueMap_of_mem_packedEntries {a : AuthAttributes} {c : SetCall}
    (hc : c ∈ a.packedEntries) (hne : isEmptyUint8Array c.type c.value = false) :
    a.valueMap c.type c.tag = some c.value := by
  rcases List.mem_append.mp hc with hc | hc
  · obtain ⟨tag, -, hentry⟩ := List.mem_filterMap.mp hc
    rw [loopEntry] at hentry
    split at hentry
    · cases hentry
    · exact (entry_eq_some.mp hentry).2.2
  · rw [List.mem_singleton] at hc
    subst hc
    cases hv : a.valueMap .uint8ArrayType authSignature with
    | none =>
      simp only [signatureEntry, hv] at hne
      cases hne
    | some v =>
      simp only [signatureEntry, hv, Option.getD_some]

/-- Every value of the object has an entry. -/
theorem Filled.mem_packedEntries {a : AuthAttributes} (ha : a.Filled) {type : ValueType}
    {tag : AuthAttributeType} {v : type.Carrier} (hv : a.valueMap type tag = some v) :
    (⟨type, tag, v⟩ : SetCall) ∈ a.packedEntries := by
  obtain ⟨hlisted, htype⟩ := ha.listed hv
  by_cases hskip : tag = authRoot ∨ tag = authData ∨ tag = authSignature
  · rcases hskip with rfl | rfl | rfl
    · cases htype
    · cases htype
    · cases htype
      refine List.mem_append_right _ (List.mem_singleton.mpr ?_)
      rw [signatureEntry, hv, Option.getD_some]
  · refine List.mem_append_left _ (List.mem_filterMap.mpr ⟨tag, hlisted, ?_⟩)
    rw [loopEntry, if_neg hskip]
    exact entry_eq_some.mpr ⟨rfl, htype, hv⟩

/-- What a fresh object holds once it has stored the written entries. -/
theorem valueMap_store_packedEntries {a : AuthAttributes} (ha : a.Filled) (type : ValueType)
    (tag : AuthAttributeType) :
    (a.packedEntries.foldl store new).valueMap type tag =
      if (a.valueMap type tag).any (isEmptyUint8Array type) then none
      else a.valueMap type tag := by
  have hstored : ∀ c ∈ a.packedEntries.filter fun c => !isEmptyUint8Array c.type c.value,
      typeOf c.tag = some c.type ∧ a.valueMap c.type c.tag = some c.value := by
    intro c hc
    obtain ⟨hc, hne⟩ := List.mem_filter.mp hc
    exact ⟨typeOf_of_mem_packedEntries hc, valueMap_of_mem_packedEntries hc (by simpa using hne)⟩
  rw [foldl_store_eq_setAll]
  by_cases hkept : ∃ v, a.valueMap type tag = some v ∧ isEmptyUint8Array type v = false
  · obtain ⟨v, hv, hne⟩ := hkept
    rw [setAll_of_mem hstored, hv, Option.any_some, hne]
    · rfl
    · exact ⟨⟨type, tag, v⟩, List.mem_filter.mpr ⟨ha.mem_packedEntries hv, by simp [hne]⟩, rfl, rfl⟩
  · rw [setAll_of_not_mem]
    · cases hv : a.valueMap type tag with
      | none => rfl
      | some v =>
        have hempty : isEmptyUint8Array type v = true := by
          by_contra hne
          exact hkept ⟨v, hv, by simpa using hne⟩
        rw [Option.any_some, hempty]
        rfl
    · rintro c hc ⟨rfl, rfl⟩
      exact hkept ⟨c.value, (hstored c hc).2, by simpa using (List.mem_filter.mp hc).2⟩

/-- Every buffer of `Pack` is unpacked to the values that were packed. -/
theorem Packs.unpacks {a a' : AuthAttributes} {locals : PackLocals} {buffer : List UInt8}
    (ha : a.Filled) (hsize : a.packedSize < 2 ^ 32) (h : a.Packs locals buffer a') :
    ∃ b, new.Unpacks buffer (.this b) ∧ ∀ type tag, b.valueMap type tag =
      if (a.valueMap type tag).any (isEmptyUint8Array type) then none
      else a.valueMap type tag := by
  have hlength := h.length_eq ha hsize
  obtain ⟨rfl, header, hheader, rfl⟩ := h.eq ha hsize
  exact ⟨_, unpack_records (fun c hc => typeOf_of_mem_packedEntries hc) new hheader
    (hlength ▸ hsize), valueMap_store_packedEntries ha.sortAttributes⟩

/-- **Pack and Unpack.**  Of an object that any `Set` calls have filled, `Pack` returns a buffer
exactly when fewer than `2 ^ 32` tags are listed, and a fresh object unpacks every buffer that
`Pack` returns to the same getters, except that empty byte arrays are unset. -/
theorem unpack_pack (calls : List SetCall) (locals : PackLocals)
    (hsize : (new.setAll calls).packedSize < 2 ^ 32) :
    ((∃ buffer a', (new.setAll calls).Packs locals buffer a') ↔
      (new.setAll calls).existAttributes.length < 2 ^ 32) ∧
    ∀ buffer a', (new.setAll calls).Packs locals buffer a' →
      buffer.length = (new.setAll calls).packedSize ∧
      ∃ b, new.Unpacks buffer (.this b) ∧
        ∀ (type : ValueType) (tag : AuthAttributeType) (value : type.Carrier),
          a'.getValue type tag value = (new.setAll calls).getValue type tag value ∧
          b.getValue type tag value =
            if ((new.setAll calls).valueMap type tag).any (isEmptyUint8Array type) then
              (.fail, value)
            else (new.setAll calls).getValue type tag value := by
  have ha : (new.setAll calls).Filled := new_filled.setAll calls
  refine ⟨packs_iff_length ha hsize locals, fun buffer a' hpack => ?_⟩
  obtain ⟨b, hunpacks, hvalues⟩ := hpack.unpacks ha hsize
  refine ⟨hpack.length_eq ha hsize, b, hunpacks, fun type tag value => ⟨?_, ?_⟩⟩
  · rw [(hpack.eq ha hsize).1]
    rfl
  · rw [getValue, hvalues]
    by_cases hempty : ((new.setAll calls).valueMap type tag).any (isEmptyUint8Array type)
    · rw [if_pos hempty, if_pos hempty]
    · rw [if_neg hempty, if_neg hempty, getValue]

end AuthAttributes
end UserIam.CoAuth
