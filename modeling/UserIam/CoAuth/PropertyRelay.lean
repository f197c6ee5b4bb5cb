import UserIam.CoAuth.ExecutorProperty
import UserIam.CoAuth.UnpackSafety

/-!
# What an executor is sent

The service packs the conditions of a property request, unpacks them into an object of its own and
packs that object again.  The bytes that leave are compared with those of the first packing.
-/

namespace UserIam.CoAuth

open Bytes Conc

namespace AuthAttributes

open SetCall

/-! ## 1. Objects that pack alike -/

/-- The listed tags for which the loop of `Pack` writes a record. -/
def writtenTags (a : AuthAttributes) : List AuthAttributeType :=
  a.existAttributes.filter fun tag => (a.loopEntry tag).isSome

/-- The order in which the tags have been set does not count. -/
structure PacksAlike (a b : AuthAttributes) : Prop where
  tags : a.writtenTags.Perm b.writtenTags
  entries : ∀ tag, a.loopEntry tag = b.loopEntry tag
  signature : a.signatureEntry = b.signatureEntry

/-- Of the listed tags, only the written ones have an entry. -/
theorem filterMap_loopEntry (a : AuthAttributes) (tags : List AuthAttributeType) :
    tags.filterMap a.loopEntry =
      (tags.filter fun tag => (a.loopEntry tag).isSome).filterMap a.loopEntry := by
  rw [List.filterMap_filter]
  apply List.filterMap_congr
  intro tag _
  cases h : a.loopEntry tag <;> simp

theorem filter_insertionSort (p : AuthAttributeType → Bool) (tags : List AuthAttributeType) :
    (tags.insertionSort (· ≤ ·)).filter p = (tags.filter p).insertionSort (· ≤ ·) := by
  have hperm := (List.perm_insertionSort (· ≤ ·) tags).filter p
  -- two sorted lists with the same elements
  apply (hperm.trans (List.perm_insertionSort (· ≤ ·) _).symm).eq_of_pairwise'
    (r := fun x y : AuthAttributeType => x ≤ y)
  · exact (List.pairwise_insertionSort _ _).filter p
  · exact List.pairwise_insertionSort _ _

theorem insertionSort_congr {tags tags' : List AuthAttributeType} (h : tags.Perm tags') :
    tags.insertionSort (· ≤ ·) = tags'.insertionSort (· ≤ ·) := by
  have hperm := (List.perm_insertionSort (· ≤ ·) tags).trans
    (h.trans (List.perm_insertionSort (· ≤ ·) tags').symm)
  exact hperm.eq_of_pairwise' (r := fun x y : AuthAttributeType => x ≤ y)
    (List.pairwise_insertionSort _ _) (List.pairwise_insertionSort _ _)

theorem PacksAlike.packedEntries {a b : AuthAttributes} (h : a.PacksAlike b) :
    a.sortAttributes.packedEntries = b.sortAttributes.packedEntries := by
  have hloop (c : AuthAttributes) : c.sortAttributes.existAttributes.filterMap
      c.sortAttributes.loopEntry = (c.writtenTags.insertionSort (· ≤ ·)).filterMap c.loopEntry := by
    show (c.existAttributes.insertionSort _).filterMap c.loopEntry = _
    rw [filterMap_loopEntry, filter_insertionSort]
    rfl
  unfold AuthAttributes.packedEntries
  rw [hloop, hloop, insertionSort_congr h.tags, funext h.entries]
  exact congrArg (fun c => _ ++ [c]) h.signature

theorem PacksAlike.packedSize {a b : AuthAttributes} (h : a.PacksAlike b) :
    a.packedSize = b.packedSize := by
  rw [← a.packedSize_sortAttributes, ← b.packedSize_sortAttributes]
  unfold AuthAttributes.packedSize
  rw [h.packedEntries]

theorem packFrame_congr {a b : AuthAttributes} (h : a.signatureEntry = b.signatureEntry)
    (hsize : a.signatureEntry.record.length < 2 ^ 32) (locals locals' : PackLocals)
    (data : List UInt8) : a.packFrame locals data = b.packFrame locals' data := by
  simp only [packFrame, packSignature_eq hsize, packSignature_eq (h ▸ hsize), h]

/-- Objects that pack alike give the same bytes. -/
theorem PacksAlike.packs {a b a' : AuthAttributes} (h : a.PacksAlike b) (ha : a.Filled)
    (hb : b.Filled) (hsize : a.packedSize < 2 ^ 32) (hlength : b.existAttributes.length < 2 ^ 32)
    {locals : PackLocals} {buffer : List UInt8} (hpack : a.Packs locals buffer a')
    {fuel : Nat} (hfuel : b.existAttributes.length < fuel) (locals' : PackLocals) :
    b.pack fuel locals' = some (buffer, b.sortAttributes) := by
  have hentries := h.packedEntries
  have hrecord : ∀ c ∈ a.sortAttributes.packedEntries, c.record.length < 2 ^ 32 :=
    fun c hc => record_length_lt (a.packedSize_sortAttributes ▸ hsize) hc
  have hlength' := (packs_iff_length ha hsize locals).mp ⟨buffer, a', hpack⟩
  obtain ⟨fuel', hpack⟩ := hpack
  -- Both loops write the records of the same entries, in the same order.
  rw [pack, packLoop_eq ha.sortAttributes locals hrecord (a.length_sortAttributes ▸ hlength')
    (Nat.zero_le _)] at hpack
  rw [pack, packLoop_eq hb.sortAttributes locals' (hentries ▸ hrecord)
    (b.length_sortAttributes ▸ hlength) (Nat.zero_le _), length_sortAttributes,
    if_pos (by simpa using hfuel)]
  split at hpack
  · cases hpack
    -- The signature is the last of the entries, and the frame writes it.
    have hsig : a.sortAttributes.signatureEntry = b.sortAttributes.signatureEntry := h.signature
    have hloop : a.sortAttributes.existAttributes.filterMap a.sortAttributes.loopEntry =
        b.sortAttributes.existAttributes.filterMap b.sortAttributes.loopEntry := by
      unfold AuthAttributes.packedEntries at hentries
      exact (List.append_inj' hentries rfl).1
    simp only [UInt32.toNat_zero, List.drop_zero, List.nil_append, Option.map_some, hloop,
      packFrame_congr hsig (hrecord _ (signatureEntry_mem _)) locals locals']
  · cases hpack

/-! ## 2. Empty byte arrays -/

/-- The value of the tag is an empty byte array. -/
def holdsEmpty (a : AuthAttributes) (tag : AuthAttributeType) : Bool :=
  (a.valueMap .uint8ArrayType tag).any List.isEmpty

/-- No tag but the signature holds an empty byte array. -/
def NoEmptyArray (a : AuthAttributes) : Prop :=
  ∀ tag, tag ≠ authSignature → a.valueMap .uint8ArrayType tag ≠ some []

/-- The calls without those for the tags that end up with an empty byte array. -/
def keptCalls (calls : List SetCall) : List SetCall :=
  calls.filter fun c => !(new.setAll calls).holdsEmpty c.tag

theorem setAll_filter_tag (p : AuthAttributeType → Bool) (calls : List SetCall) :
    (new.setAll (calls.filter fun c => p c.tag)).existAttributes =
        (new.setAll calls).existAttributes.filter p ∧
      ∀ type tag, (new.setAll (calls.filter fun c => p c.tag)).valueMap type tag =
        if p tag then (new.setAll calls).valueMap type tag else none := by
  -- on the calls from the last one, which decides what a tag holds
  induction calls using List.reverseRecOn with
  | nil =>
    refine ⟨rfl, fun type tag => ?_⟩
    show none = _
    split <;> rfl
  | append_singleton calls c ih =>
    obtain ⟨hexist, hvalue⟩ := ih
    rw [List.filter_append, setAll_concat]
    by_cases hp : p c.tag
    · rw [List.filter_cons_of_pos (p := fun c : SetCall => p c.tag) hp, List.filter_nil,
        setAll_concat]
      by_cases hknown : typeOf c.tag = some c.type
      · refine ⟨?_, fun type tag => ?_⟩
        · rw [(set_known _ hknown).1, (set_known _ hknown).1, hexist, List.filter_append,
            List.filter_cons_of_pos hp, List.filter_nil]
        · by_cases hc : c.type = type ∧ c.tag = tag
          · obtain ⟨rfl, rfl⟩ := hc
            rw [valueMap_set_self _ hknown, valueMap_set_self _ hknown, if_pos hp]
          · rw [valueMap_set_of_ne _ hc, valueMap_set_of_ne _ hc, hvalue]
      -- a setter of the wrong type changes neither object
      · rw [(set_unknown _ hknown).1, (set_unknown _ hknown).1, (set_unknown _ hknown).2,
          (set_unknown _ hknown).2]
        exact ⟨hexist, hvalue⟩
    · rw [List.filter_cons_of_neg (p := fun c : SetCall => p c.tag) hp, List.filter_nil,
        List.append_nil]
      by_cases hknown : typeOf c.tag = some c.type
      · refine ⟨?_, fun type tag => ?_⟩
        · rw [(set_known _ hknown).1, hexist, List.filter_append, List.filter_cons_of_neg hp,
            List.filter_nil, List.append_nil]
        · rw [hvalue]
          by_cases htag : c.tag = tag
          · rw [if_neg (htag ▸ hp), if_neg (htag ▸ hp)]
          · rw [valueMap_set_of_ne _ fun h => htag h.2]
      · rw [(set_unknown _ hknown).1, (set_unknown _ hknown).2]
        exact ⟨hexist, hvalue⟩

/-- The values that `Unpack` does not store are the empty byte arrays. -/
theorem isEmptyUint8Array_eq {a : AuthAttributes} (ha : a.Filled) {type : ValueType}
    {tag : AuthAttributeType} {v : type.Carrier} (hv : a.valueMap type tag = some v) :
    isEmptyUint8Array type v = a.holdsEmpty tag := by
  by_cases htype : type = .uint8ArrayType
  · subst htype
    rw [holdsEmpty, hv]
    rfl
  -- A tag has values in the map of its own type only.
  · have hnone : a.valueMap .uint8ArrayType tag = none := by
      cases hw : a.valueMap .uint8ArrayType tag with
      | none => rfl
      | some w =>
        have hother := (ha.listed hv).2.symm.trans (ha.listed hw).2
        exact absurd (Option.some.inj hother) htype
    rw [holdsEmpty, hnone]
    cases type with
    | uint8ArrayType => exact absurd rfl htype
    | _ => rfl

theorem valueMap_kept {a : AuthAttributes} (ha : a.Filled) (type : ValueType)
    (tag : AuthAttributeType) :
    (if (a.valueMap type tag).any (isEmptyUint8Array type) then none else a.valueMap type tag) =
      if !a.holdsEmpty tag then a.valueMap type tag else none := by
  cases hv : a.valueMap type tag with
  | none => simp
  | some v =>
    rw [Option.any_some, isEmptyUint8Array_eq ha hv]
    cases a.holdsEmpty tag <;> rfl

/-! ## 3. The object in between -/

section Between

variable {calls : List SetCall}

theorem valueMap_keptCalls (calls : List SetCall) (type : ValueType) (tag : AuthAttributeType) :
    (new.setAll (keptCalls calls)).valueMap type tag =
      if !(new.setAll calls).holdsEmpty tag then (new.setAll calls).valueMap type tag else none :=
  (setAll_filter_tag (fun tag => !(new.setAll calls).holdsEmpty tag) calls).2 type tag

theorem existAttributes_keptCalls (calls : List SetCall) :
    (new.setAll (keptCalls calls)).existAttributes =
      (new.setAll calls).existAttributes.filter fun tag => !(new.setAll calls).holdsEmpty tag :=
  (setAll_filter_tag (fun tag => !(new.setAll calls).holdsEmpty tag) calls).1

theorem loopEntry_congr {a b : AuthAttributes} (h : ∀ type tag, a.valueMap type tag =
    b.valueMap type tag) (tag : AuthAttributeType) : a.loopEntry tag = b.loopEntry tag := by
  simp only [loopEntry, entry, h]

/-- What is written of the kept calls is what was written before, less the empty byte arrays. -/
theorem loopEntry_keptCalls (calls : List SetCall) (tag : AuthAttributeType) :
    (new.setAll (keptCalls calls)).loopEntry tag =
      if !(new.setAll calls).holdsEmpty tag then (new.setAll calls).loopEntry tag else none := by
  unfold loopEntry entry
  split
  · simp
  · cases typeOf tag with
    | none => simp
    | some type =>
      rw [Option.bind_some, valueMap_keptCalls]
      cases (new.setAll calls).holdsEmpty tag <;> rfl

theorem signatureEntry_keptCalls (calls : List SetCall) :
    (new.setAll (keptCalls calls)).signatureEntry = (new.setAll calls).signatureEntry := by
  unfold signatureEntry
  rw [valueMap_keptCalls]
  cases hv : (new.setAll calls).valueMap .uint8ArrayType authSignature with
  | none => simp
  | some v =>
    cases v with
    -- a missing signature is packed like an empty one
    | nil => cases (new.setAll calls).holdsEmpty authSignature <;> rfl
    | cons byte rest =>
      have hkept : (new.setAll calls).holdsEmpty authSignature = false := by
        rw [holdsEmpty, hv]
        rfl
      rw [hkept]
      rfl

/-- A written tag is stored exactly if it is written of the kept calls. -/
theorem storedTag_eq (calls : List SetCall) (tag : AuthAttributeType) :
    ((((new.setAll calls).loopEntry tag).filter fun c => !isEmptyUint8Array c.type c.value).map
      (·.tag)).filter (fun tag => ((new.setAll (keptCalls calls)).loopEntry tag).isSome) =
      Option.guard (fun tag => ((new.setAll (keptCalls calls)).loopEntry tag).isSome) tag := by
  have ha : (new.setAll calls).Filled := new_filled.setAll calls
  have hkept := loopEntry_keptCalls calls tag
  cases hentry : (new.setAll calls).loopEntry tag with
  | none =>
    rw [hentry] at hkept
    have hnone : (new.setAll (keptCalls calls)).loopEntry tag = none := by
      rw [hkept]
      split <;> rfl
    simp [Option.guard, hnone]
  | some c =>
    rw [hentry] at hkept
    have hvalue : c.tag = tag ∧ typeOf c.tag = some c.type ∧
        (new.setAll calls).valueMap c.type c.tag = some c.value := by
      unfold loopEntry at hentry
      split at hentry
      · cases hentry
      · exact entry_eq_some.mp hentry
    obtain ⟨rfl, -, hv⟩ := hvalue
    have hempty := isEmptyUint8Array_eq ha hv
    cases hdrop : (new.setAll calls).holdsEmpty c.tag with
    | true =>
      rw [hdrop] at hkept hempty
      simp [Option.guard, hkept, hempty]
    | false =>
      rw [hdrop] at hkept hempty
      simp [Option.guard, hkept, hempty]

theorem writtenTags_keptCalls (calls : List SetCall) :
    (new.setAll (keptCalls calls)).writtenTags = (new.setAll calls).existAttributes.filter
      fun tag => ((new.setAll (keptCalls calls)).loopEntry tag).isSome := by
  unfold writtenTags
  rw [existAttributes_keptCalls, List.filter_filter]
  apply List.filter_congr
  intro tag _
  rw [loopEntry_keptCalls]
  cases (new.setAll calls).holdsEmpty tag <;> simp

theorem valueMap_store (calls : List SetCall) (type : ValueType) (tag : AuthAttributeType) :
    ((new.setAll calls).sortAttributes.packedEntries.foldl store new).valueMap type tag =
      (new.setAll (keptCalls calls)).valueMap type tag := by
  have ha : (new.setAll calls).Filled := new_filled.setAll calls
  rw [valueMap_store_packedEntries ha.sortAttributes, valueMap_keptCalls]
  exact valueMap_kept ha type tag

/-- The loop does not write the signature, which is packed last. -/
theorem signature_not_written (calls : List SetCall) :
    ((([(new.setAll calls).sortAttributes.signatureEntry].filter
      fun c => !isEmptyUint8Array c.type c.value).map (·.tag)).filter
        fun tag => ((new.setAll (keptCalls calls)).loopEntry tag).isSome) = [] := by
  have hsignature : (new.setAll (keptCalls calls)).loopEntry authSignature = none := rfl
  apply List.filter_eq_nil_iff.mpr
  intro tag htag
  obtain ⟨c, hc, rfl⟩ := List.mem_map.mp htag
  rw [List.mem_singleton.mp (List.mem_filter.mp hc).1]
  show ¬((new.setAll (keptCalls calls)).loopEntry authSignature).isSome = true
  rw [hsignature]
  decide

theorem perm_writtenTags_store (calls : List SetCall) :
    ((new.setAll calls).sortAttributes.packedEntries.foldl store new).writtenTags.Perm
      (new.setAll (keptCalls calls)).writtenTags := by
  have hknown : ∀ c ∈ (new.setAll calls).sortAttributes.packedEntries.filter
      fun c => !isEmptyUint8Array c.type c.value, typeOf c.tag = some c.type :=
    fun c hc => typeOf_of_mem_packedEntries (List.mem_filter.mp hc).1
  have hsort : (new.setAll calls).sortAttributes.loopEntry = (new.setAll calls).loopEntry := rfl
  rw [writtenTags_keptCalls]
  unfold writtenTags
  -- The stored tags are those of the sorted entries, without the signature.
  rw [funext (loopEntry_congr (valueMap_store calls)), foldl_store_eq_setAll,
    existAttributes_setAll hknown]
  show ([] ++ ((_ ++ [_]).filter _).map _ |>.filter _).Perm _
  rw [List.nil_append, List.filter_append, List.map_append, List.filter_append,
    signature_not_written, List.append_nil, List.filter_filterMap, List.map_filterMap,
    List.filter_filterMap, hsort, funext (storedTag_eq calls), List.filterMap_eq_filter]
  exact (List.perm_insertionSort _ _).filter _

/-- The object that `Unpack` makes of the packed conditions packs like the kept calls. -/
theorem store_packsAlike (calls : List SetCall) :
    ((new.setAll calls).sortAttributes.packedEntries.foldl store new).PacksAlike
      (new.setAll (keptCalls calls)) where
  tags := perm_writtenTags_store calls
  entries := loopEntry_congr (valueMap_store calls)
  signature := by
    unfold signatureEntry
    rw [valueMap_store]

/-! ## 4. The bytes that are sent -/

/-- The records that the second packing does not write. -/
def emptyEntries (a : AuthAttributes) : List SetCall :=
  (a.existAttributes.filter fun tag => a.holdsEmpty tag).filterMap a.loopEntry

theorem loopEntries_keptCalls (calls : List SetCall) :
    (new.setAll (keptCalls calls)).existAttributes.filterMap
        (new.setAll (keptCalls calls)).loopEntry =
      ((new.setAll calls).existAttributes.filter
        fun tag => !(new.setAll calls).holdsEmpty tag).filterMap (new.setAll calls).loopEntry := by
  rw [existAttributes_keptCalls]
  apply List.filterMap_congr
  intro tag htag
  rw [loopEntry_keptCalls, if_pos (List.mem_filter.mp htag).2]

theorem packedSize_keptCalls (calls : List SetCall) :
    (new.setAll calls).packedSize = (new.setAll (keptCalls calls)).packedSize +
      ((new.setAll calls).emptyEntries.map fun c => c.record.length).sum := by
  have hperm := (List.filter_append_perm (fun tag => !(new.setAll calls).holdsEmpty tag)
    (new.setAll calls).existAttributes).filterMap (new.setAll calls).loopEntry
  have hsum := (hperm.map fun c => c.record.length).sum_eq
  simp only [List.filterMap_append, List.map_append, List.sum_append, Bool.not_not] at hsum
  simp only [packedSize, packedEntries, emptyEntries, signatureEntry_keptCalls,
    loopEntries_keptCalls, List.map_append, List.sum_append]
  omega

/-- Only the signature may be an empty byte array, and the loop does not write it. -/
theorem NoEmptyArray.loopEntry_eq_none {a : AuthAttributes} (h : a.NoEmptyArray)
    {tag : AuthAttributeType} (hempty : a.holdsEmpty tag = true) : a.loopEntry tag = none := by
  obtain ⟨v, hv, hnil⟩ := (Option.any_eq_true _ _).mp hempty
  have hsig : tag = authSignature := by
    by_contra hne
    exact h tag hne (hv.trans (congrArg some (List.isEmpty_iff.mp hnil)))
  subst hsig
  rfl

/-- The kept calls leave everything as it is exactly if there is no empty byte array. -/
theorem packedSize_keptCalls_eq_iff (calls : List SetCall) :
    (new.setAll (keptCalls calls)).packedSize = (new.setAll calls).packedSize ↔
      (new.setAll calls).NoEmptyArray := by
  have ha : (new.setAll calls).Filled := new_filled.setAll calls
  rw [packedSize_keptCalls calls]
  constructor
  · intro hsize tag htag hempty
    obtain ⟨hlisted, htype⟩ := ha.listed hempty
    have hentry : (new.setAll calls).loopEntry tag = some ⟨.uint8ArrayType, tag, []⟩ := by
      unfold loopEntry
      rw [if_neg]
      · exact entry_eq_some.mpr ⟨rfl, htype, hempty⟩
      · rintro (rfl | rfl | rfl)
        · cases htype
        · cases htype
        · exact htag rfl
    have hmem : (⟨.uint8ArrayType, tag, []⟩ : SetCall) ∈ (new.setAll calls).emptyEntries := by
      refine List.mem_filterMap.mpr ⟨tag, List.mem_filter.mpr ⟨hlisted, ?_⟩, hentry⟩
      rw [holdsEmpty, hempty]
      rfl
    -- An empty byte array costs eight bytes for its tag and its length.
    have hle := List.single_le_sum
      (l := (new.setAll calls).emptyEntries.map fun c => c.record.length)
      (fun _ _ => Nat.zero_le _) _ (List.mem_map_of_mem hmem)
    rw [length_record] at hle
    omega
  · intro h
    have hnone : (new.setAll calls).emptyEntries = [] := by
      rw [emptyEntries, List.filterMap_eq_nil_iff]
      intro tag htag
      exact h.loopEntry_eq_none (List.mem_filter.mp htag).2
    rw [hnone]
    rfl

theorem PacksAlike.refl (a : AuthAttributes) : a.PacksAlike a :=
  ⟨.refl _, fun _ => rfl, rfl⟩

theorem PacksAlike.symm {a b : AuthAttributes} (h : a.PacksAlike b) : b.PacksAlike a :=
  ⟨h.tags.symm, fun tag => (h.entries tag).symm, h.signature.symm⟩

/-- Without an empty byte array, nothing is lost. -/
theorem NoEmptyArray.packsAlike (h : (new.setAll calls).NoEmptyArray) :
    (new.setAll calls).PacksAlike (new.setAll (keptCalls calls)) := by
  have hentries (tag : AuthAttributeType) : (new.setAll calls).loopEntry tag =
      (new.setAll (keptCalls calls)).loopEntry tag := by
    rw [loopEntry_keptCalls]
    cases hempty : (new.setAll calls).holdsEmpty tag with
    | false => rfl
    | true => exact h.loopEntry_eq_none hempty
  refine ⟨?_, hentries, (signatureEntry_keptCalls calls).symm⟩
  rw [writtenTags_keptCalls, ← funext hentries]
  rfl

theorem length_packedEntries_le (a : AuthAttributes) :
    8 * a.packedEntries.length ≤ a.packedSize := by
  have hlength (entries : List SetCall) :
      8 * entries.length ≤ (entries.map fun c => c.record.length).sum := by
    induction entries with
    | nil => exact le_rfl
    | cons c entries ih =>
      rw [List.map_cons, List.sum_cons, List.length_cons, length_record]
      omega
  have hle := hlength a.packedEntries
  unfold packedSize
  omega

theorem length_store_lt (hsize : (new.setAll calls).packedSize < 2 ^ 32) :
    ((new.setAll calls).sortAttributes.packedEntries.foldl store new).existAttributes.length <
      2 ^ 32 := by
  have hle := length_packedEntries_le (new.setAll calls).sortAttributes
  rw [packedSize_sortAttributes] at hle
  rw [foldl_store_eq_setAll, existAttributes_setAll fun c hc =>
    typeOf_of_mem_packedEntries (List.mem_filter.mp hc).1]
  show (List.map _ _).length < _
  rw [List.length_map]
  have hfilter := List.length_filter_le (fun c => !isEmptyUint8Array c.type c.value)
    (new.setAll calls).sortAttributes.packedEntries
  omega

theorem Packs.buffer_unique {a a₁ a₂ : AuthAttributes} (ha : a.Filled)
    (hsize : a.packedSize < 2 ^ 32) {locals₁ locals₂ : PackLocals} {buffer₁ buffer₂ : List UInt8}
    (h₁ : a.Packs locals₁ buffer₁ a₁) (h₂ : a.Packs locals₂ buffer₂ a₂) : buffer₁ = buffer₂ := by
  have hlength := (packs_iff_length ha hsize locals₁).mp ⟨buffer₁, a₁, h₁⟩
  have hfirst := (PacksAlike.refl a).packs ha ha hsize hlength h₁ (Nat.lt_succ_self _) locals₁
  have hsecond := (PacksAlike.refl a).packs ha ha hsize hlength h₂ (Nat.lt_succ_self _) locals₁
  rw [hfirst] at hsecond
  exact congrArg Prod.fst (Option.some.inj hsecond)

/-- The kept calls are packed, and to the same bytes exactly if they are all the calls. -/
theorem packs_keptCalls (hsize : (new.setAll calls).packedSize < 2 ^ 32) {locals : PackLocals}
    {buffer : List UInt8} {a' : AuthAttributes}
    (hpack : (new.setAll calls).Packs locals buffer a') :
    ∃ sent k, (new.setAll (keptCalls calls)).Packs locals sent k ∧
      (sent = buffer ↔ (new.setAll calls).NoEmptyArray) := by
  have ha : (new.setAll calls).Filled := new_filled.setAll calls
  have hk : (new.setAll (keptCalls calls)).Filled := new_filled.setAll (keptCalls calls)
  have hadd := packedSize_keptCalls calls
  have hksize : (new.setAll (keptCalls calls)).packedSize < 2 ^ 32 := by omega
  have hlength := (packs_iff_length ha hsize locals).mp ⟨buffer, a', hpack⟩
  have hklength : (new.setAll (keptCalls calls)).existAttributes.length < 2 ^ 32 := by
    rw [existAttributes_keptCalls]
    exact Nat.lt_of_le_of_lt (List.length_filter_le _ _) hlength
  obtain ⟨sent, k, hkpack⟩ := (packs_iff_length hk hksize locals).mpr hklength
  refine ⟨sent, k, hkpack, ?_⟩
  constructor
  · intro hsent
    -- The same bytes have the same length.
    rw [← packedSize_keptCalls_eq_iff, ← hkpack.length_eq hk hksize, hsent,
      hpack.length_eq ha hsize]
  · intro hempty
    have hsame := hempty.packsAlike.packs ha hk hsize hklength hpack (Nat.lt_succ_self _) locals
    exact hkpack.buffer_unique hk hksize ⟨_, hsame⟩

/-- The object in between holds what was packed. -/
theorem relayed_eq {a : AuthAttributes} (ha : a.Filled) (hsize : a.packedSize < 2 ^ 32)
    (hlength : a.existAttributes.length < 2 ^ 32) {fuel : Nat}
    (hfuel : a.existAttributes.length + 2 ≤ fuel) (locals : PackLocals) :
    relayed fuel locals a = some (a.sortAttributes.packedEntries.foldl store new) := by
  obtain ⟨header, hheader, hpack⟩ := pack_eq ha hsize hlength locals
  have hfirst := hpack fuel
  rw [if_pos (by omega)] at hfirst
  -- one round for each record, and one that finds the end
  have hentries : a.sortAttributes.packedEntries.length + 1 ≤ fuel := by
    have hfilter := List.length_filterMap_le a.sortAttributes.loopEntry
      a.sortAttributes.existAttributes
    rw [length_sortAttributes] at hfilter
    rw [packedEntries, List.length_append, List.length_singleton]
    omega
  have hpacked : a.Packs locals _ _ := ⟨fuel, hfirst⟩
  have hunpack := unpack_add (unpack_records_eq
    (fun c hc => typeOf_of_mem_packedEntries hc) new hheader
    (hpacked.length_eq ha hsize ▸ hsize)) (fuel - (a.sortAttributes.packedEntries.length + 1))
  rw [Nat.add_sub_cancel' hentries] at hunpack
  unfold relayed
  rw [hfirst, Option.bind_some]
  dsimp only
  rw [hunpack]
  rfl

/-- The object in between is made by setters too, and but for the byte arrays it holds the same
values. -/
theorem relayed_setAll (hsize : (new.setAll calls).packedSize < 2 ^ 32) {fuel : Nat}
    (hfuel : (new.setAll calls).existAttributes.length + 2 ≤ fuel)
    (hlength : (new.setAll calls).existAttributes.length < 2 ^ 32) (locals : PackLocals) :
    ∃ stored, relayed fuel locals (new.setAll calls) = some (new.setAll stored) ∧
      (new.setAll stored).packedSize ≤ (new.setAll calls).packedSize ∧
      (new.setAll stored).existAttributes.length ≤ (new.setAll calls).existAttributes.length + 1 ∧
      ∀ type tag, type ≠ .uint8ArrayType →
        (new.setAll stored).valueMap type tag = (new.setAll calls).valueMap type tag := by
  have ha : (new.setAll calls).Filled := new_filled.setAll calls
  have hrelayed := relayed_eq ha hsize hlength hfuel locals
  have halike := store_packsAlike calls
  have hvalues := valueMap_store calls
  rw [foldl_store_eq_setAll] at hrelayed halike hvalues
  refine ⟨_, hrelayed, ?_, ?_, fun type tag htype => ?_⟩
  · rw [halike.packedSize, packedSize_keptCalls calls]
    exact Nat.le_add_right _ _
  · have hentries : (new.setAll calls).sortAttributes.packedEntries.length ≤
        (new.setAll calls).existAttributes.length + 1 := by
      have hle := List.length_filterMap_le (new.setAll calls).sortAttributes.loopEntry
        (new.setAll calls).sortAttributes.existAttributes
      rw [length_sortAttributes] at hle
      rw [packedEntries, List.length_append, List.length_singleton]
      omega
    rw [existAttributes_setAll fun c hc => typeOf_of_mem_packedEntries (List.mem_filter.mp hc).1]
    show (List.map _ _).length ≤ _
    rw [List.length_map]
    exact (List.length_filter_le _ _).trans hentries
  · rw [hvalues, valueMap_keptCalls]
    cases hempty : (new.setAll calls).holdsEmpty tag with
    | false => rfl
    | true =>
      -- a tag with a byte array holds nothing of another type
      obtain ⟨v, hv, -⟩ := (Option.any_eq_true _ _).mp hempty
      cases hw : (new.setAll calls).valueMap type tag with
      | none => rfl
      | some w =>
        have hother := (ha.listed hv).2.symm.trans (ha.listed hw).2
        exact absurd (Option.some.inj hother).symm htype

/-- The object in between, and the bytes into which it is packed. -/
theorem relayed_pack (hsize : (new.setAll calls).packedSize < 2 ^ 32) {locals : PackLocals}
    {buffer sent : List UInt8} {a' k : AuthAttributes}
    (hpack : (new.setAll calls).Packs locals buffer a')
    (hkpack : (new.setAll (keptCalls calls)).Packs locals sent k) :
    ∃ b b' bound, ∀ fuel ≥ bound, ∀ locals', relayed fuel locals' (new.setAll calls) = some b ∧
      b.pack fuel locals' = some (sent, b') := by
  have ha : (new.setAll calls).Filled := new_filled.setAll calls
  have hk : (new.setAll (keptCalls calls)).Filled := new_filled.setAll (keptCalls calls)
  have hb : ((new.setAll calls).sortAttributes.packedEntries.foldl store new).Filled := by
    rw [foldl_store_eq_setAll]
    exact new_filled.setAll _
  have hadd := packedSize_keptCalls calls
  have hksize : (new.setAll (keptCalls calls)).packedSize < 2 ^ 32 := by omega
  have hlength := (packs_iff_length ha hsize locals).mp ⟨buffer, a', hpack⟩
  have hblength := length_store_lt hsize
  have hfirst {fuel : Nat} (hfuel : _ ≤ fuel) := relayed_eq ha hsize hlength hfuel
  have hsecond {fuel : Nat} (hfuel : _ < fuel) :=
    (store_packsAlike calls).symm.packs hk hb hksize hblength hkpack hfuel
  generalize (new.setAll calls).sortAttributes.packedEntries.foldl store new = b at *
  -- enough for both loops of `Pack` and the loop of `Unpack` between them
  refine ⟨b, b.sortAttributes, (new.setAll calls).existAttributes.length +
    b.existAttributes.length + 2, ?_⟩
  intro fuel hfuel locals'
  exact ⟨hfirst (by omega) locals', hsecond (by omega) locals'⟩

end Between

end AuthAttributes

/-! ## 5. The relay -/

open AuthAttributes

section Relay

variable {P : Type}

def PropertyOp.isSend : PropertyOp P → Bool
  | .sendRequest .. => true
  | _ => false

/-- Whatever is sent is this message: the code of the request, and the bytes. -/
def PropertyOp.Carries (contents : P → List (Ipc.ParcelApi.Item ParcelKind ParcelKind.Carrier))
    (code : UInt32) (bytes : List UInt8) : PropertyOp P → Prop
  | .sendRequest _ code' data => code' = code ∧
      contents data = [⟨.interfaceToken, executorCallbackDescriptor⟩, ⟨.uint8Vector, bytes⟩]
  | _ => True

/-- The program sends these bytes and no others; where the parcel takes every value and there is an
executor, it does send them. -/
structure Sends {α : Type} (parcel : MessageParcel P)
    (contents : P → List (Ipc.ParcelApi.Item ParcelKind ParcelKind.Carrier)) (code : UInt32)
    (bytes : List UInt8) (p : PropertyProg P α) : Prop where
  only : p.All (PropertyOp.Carries contents code bytes)
  reached : parcel.Accepts → ¬p.All fun o => o.isSend = false

variable {parcel : MessageParcel P}
  {contents : P → List (Ipc.ParcelApi.Item ParcelKind ParcelKind.Carrier)}
  (hparcel : parcel.Lawful contents) {fuel : Nat} {locals locals' : PackLocals}
  {properties properties' : AuthAttributes} {sent : List UInt8}
  (hpack : properties.pack fuel locals = some (sent, properties'))

include hparcel hpack in
theorem sendProperty_carries (remote : ExecutorCallback) (code : UInt32) :
    (sendProperty parcel fuel locals remote code properties).All
      (PropertyOp.Carries contents code sent) := by
  unfold sendProperty
  cases htoken : parcel.write parcel.empty .interfaceToken executorCallbackDescriptor with
  | none => trivial
  | some data =>
    simp only [hpack]
    cases hvector : parcel.write data .uint8Vector sent with
    | none => trivial
    | some data' =>
      refine ⟨⟨rfl, ?_⟩, fun _ => trivial⟩
      rw [hparcel.write hvector, hparcel.write htoken, hparcel.empty]
      rfl

include hpack in
theorem sendProperty_accepted (h : parcel.Accepts) (remote : ExecutorCallback) (code : UInt32) :
    ∃ data, sendProperty parcel fuel locals remote code properties =
      Prog.op (PropertyOp.sendRequest remote code data) := by
  obtain ⟨data, htoken⟩ := h.write parcel.empty .interfaceToken executorCallbackDescriptor
  obtain ⟨data', hvector⟩ := h.write data .uint8Vector sent
  refine ⟨data', ?_⟩
  simp only [sendProperty, htoken, hpack, hvector]

variable {conditions : AuthAttributes}
  (hrelayed : relayed fuel locals' conditions = some properties)

/-- The program that sends is reached through an executor that the pool has found. -/
theorem not_all_of_found {α : Type} {authType : AuthType}
    {k : Option ExecutorCallback → PropertyProg P α} {data : P} {code : UInt32}
    {f : Option PropertyReply → PropertyProg P α}
    (hk : k (some default) = Prog.op (PropertyOp.sendRequest default code data) >>= f) :
    ¬(Prog.call (PropertyOp.findExecutorCallback authType) k : PropertyProg P α).All
      fun o => o.isSend = false := by
  intro h
  -- The pool may answer with any executor.
  have hsend := h.2 (some default)
  rw [hk] at hsend
  cases hsend.1

include hparcel hpack hrelayed in
theorem setExecutorProp_sends (authTypeLocal : AuthType) :
    Sends parcel contents onSetPropertyCode sent
      (relaySet parcel fuel locals locals' authTypeLocal conditions
        (some fun result => Prog.op (PropertyOp.onResult result))) := by
  simp only [relaySet, setExecutorProp, relayCalls, Prog.op_bind, hrelayed]
  constructor
  · refine ⟨trivial, fun execallback => ?_⟩
    cases execallback with
    | none => exact ⟨trivial, fun _ => trivial⟩
    | some execallback =>
      refine Prog.All.bind (Prog.All.bind (sendProperty_carries hparcel hpack _ _) fun reply => ?_)
        fun _ => ⟨trivial, fun _ => trivial⟩
      cases reply <;> trivial
  · intro haccepts
    obtain ⟨data, hsend⟩ := sendProperty_accepted hpack haccepts default onSetPropertyCode
    apply not_all_of_found
    dsimp only
    unfold proxyOnSetProperty
    dsimp only
    rw [hsend, Prog.bind_assoc]

include hparcel hpack hrelayed in
theorem getExecutorProp_sends (authTypeLocal : AuthType) (values : AuthAttributes) :
    Sends parcel contents onGetPropertyCode sent
      (relayGet parcel fuel locals locals' authTypeLocal conditions (some values)) := by
  simp only [relayGet, getExecutorProp, relayCalls, Prog.op_bind, hrelayed]
  constructor
  · refine ⟨trivial, fun execallback => ?_⟩
    cases execallback with
    | none => trivial
    | some execallback =>
      refine Prog.All.bind (sendProperty_carries hparcel hpack _ _) fun reply => ?_
      -- What comes back is unpacked; nothing else is sent.
      cases reply with
      | none => trivial
      | some reply =>
        dsimp only
        split
        · split
          · exact ⟨trivial, fun r => r.elim⟩
          · trivial
        · trivial
  · intro haccepts
    obtain ⟨data, hsend⟩ := sendProperty_accepted hpack haccepts default onGetPropertyCode
    apply not_all_of_found
    dsimp only
    unfold proxyOnGetProperty
    dsimp only
    rw [hsend]

end Relay

/-- Both requests send these bytes, whatever the parcels and the uninitialised variables are. -/
def RelaySends (conditions : AuthAttributes) (bytes : List UInt8) : Prop :=
  ∃ bound, ∀ fuel ≥ bound, ∀ (locals₁ locals₂ : PackLocals) (P : Type) (parcel : MessageParcel P)
    contents, parcel.Lawful contents → ∀ (authTypeLocal : AuthType) (values : AuthAttributes),
      Sends parcel contents onSetPropertyCode bytes
        (relaySet parcel fuel locals₂ locals₁ authTypeLocal conditions
          (some fun result => Prog.op (PropertyOp.onResult result))) ∧
      Sends parcel contents onGetPropertyCode bytes
        (relayGet parcel fuel locals₂ locals₁ authTypeLocal conditions (some values))

theorem relaySends_of_packs {calls : List SetCall} (hsize : (new.setAll calls).packedSize < 2 ^ 32)
    {locals : PackLocals} {buffer sent : List UInt8} {a' k : AuthAttributes}
    (hpack : (new.setAll calls).Packs locals buffer a')
    (hkpack : (new.setAll (keptCalls calls)).Packs locals sent k) :
    RelaySends (new.setAll calls) sent := by
  obtain ⟨b, b', bound, hrelay⟩ := relayed_pack hsize hpack hkpack
  refine ⟨bound, ?_⟩
  intro fuel hfuel locals₁ locals₂ P parcel contents hparcel authTypeLocal values
  have hrelayed := (hrelay fuel hfuel locals₁).1
  have hsecond := (hrelay fuel hfuel locals₂).2
  exact ⟨setExecutorProp_sends hparcel hsecond hrelayed authTypeLocal,
    getExecutorProp_sends hparcel hsecond hrelayed authTypeLocal values⟩

/-- No request sends two different messages. -/
theorem RelaySends.unique {conditions : AuthAttributes} {bytes bytes' : List UInt8}
    (h : RelaySends conditions bytes) (h' : RelaySends conditions bytes') : bytes = bytes' := by
  obtain ⟨bound, h⟩ := h
  obtain ⟨bound', h'⟩ := h'
  have hset := (h (bound + bound') (Nat.le_add_right _ _) ⟨true, 0, 0⟩ ⟨true, 0, 0⟩ _
    Ipc.ParcelApi.ofList _ Ipc.ParcelApi.ofList_lawful 0 new).1
  have hset' := (h' (bound + bound') (Nat.le_add_left _ _) ⟨true, 0, 0⟩ ⟨true, 0, 0⟩ _
    Ipc.ParcelApi.ofList _ Ipc.ParcelApi.ofList_lawful 0 new).1
  by_contra hne
  -- A message of two contents cannot be, so nothing would be sent at all.
  apply hset.reached Ipc.ParcelApi.ofList_accepts
  refine (hset.only.and hset'.only).mono fun o ho => ?_
  cases o with
  | sendRequest remote code data =>
    have hsame := ho.1.2.symm.trans ho.2.2
    simp only [List.cons.injEq, Sigma.mk.injEq, heq_eq_eq, and_true, true_and] at hsame
    exact absurd hsame hne
  | _ => rfl

/-- Where `Pack` and `Unpack` never leave an object, nothing is sent. -/
theorem RelaySends.exists_relayed {conditions : AuthAttributes} {bytes : List UInt8}
    (h : RelaySends conditions bytes) (locals : PackLocals) :
    ∃ fuel properties, relayed fuel locals conditions = some properties := by
  obtain ⟨bound, h⟩ := h
  have hset := (h bound le_rfl locals locals _ Ipc.ParcelApi.ofList _ Ipc.ParcelApi.ofList_lawful 0
    new).1
  refine ⟨bound, ?_⟩
  cases hrelayed : relayed bound locals conditions with
  | some properties => exact ⟨properties, rfl⟩
  | none =>
    exfalso
    apply hset.reached Ipc.ParcelApi.ofList_accepts
    simp only [relaySet, setExecutorProp, relayCalls, Prog.op_bind, hrelayed]
    refine ⟨rfl, fun execallback => ?_⟩
    cases execallback with
    | none => exact ⟨rfl, fun _ => trivial⟩
    | some execallback => exact ⟨rfl, fun r => r.elim⟩

/-- **The relay.**  What reaches the executor's process is the packing of the conditions without the
tags that hold an empty byte array, and so the packing of the conditions themselves exactly if there
are none.  A signature may be empty. -/
theorem relay_bytes (calls : List SetCall) (hsize : (new.setAll calls).packedSize < 2 ^ 32)
    {locals : PackLocals} {buffer : List UInt8} {a' : AuthAttributes}
    (hpack : (new.setAll calls).Packs locals buffer a') :
    ∃ sent, RelaySends (new.setAll calls) sent ∧
      (∃ k, (new.setAll (keptCalls calls)).Packs locals sent k) ∧
      (sent = buffer ↔ (new.setAll calls).NoEmptyArray) := by
  obtain ⟨sent, k, hkpack, hempty⟩ := packs_keptCalls hsize hpack
  exact ⟨sent, relaySends_of_packs hsize hpack hkpack, ⟨k, hkpack⟩, hempty⟩

section Lost

/-- An executor type, and an algorithm information that is empty. -/
def emptyInfo : List SetCall :=
  [⟨.uint32Type, CoAuth.authType, 1⟩, ⟨.uint8ArrayType, algorithmInfo, []⟩]

theorem emptyInfo_packs : ∃ buffer a', (new.setAll emptyInfo).Packs ⟨true, 0, 0⟩ buffer a' := by
  apply (packs_iff_length (new_filled.setAll _) (by decide) _).mpr
  decide

theorem relay_bytes_example : ∃ buffer sent, RelaySends (new.setAll emptyInfo) sent ∧
    (∃ k, (new.setAll (keptCalls emptyInfo)).Packs ⟨true, 0, 0⟩ sent k) ∧
    (sent = buffer ↔ (new.setAll emptyInfo).NoEmptyArray) := by
  obtain ⟨buffer, a', hpack⟩ := emptyInfo_packs
  exact ⟨buffer, relay_bytes emptyInfo (by decide) hpack⟩

/-- An executor type and template ids. -/
def idList (templateIds : List UInt64) : List SetCall :=
  [⟨.uint32Type, CoAuth.authType, 1⟩, ⟨.uint64ArrayType, authTemplateIdList, templateIds⟩]

theorem idList_noEmptyArray (templateIds : List UInt64) :
    (new.setAll (idList templateIds)).NoEmptyArray := by
  intro tag _ hempty
  rw [setAll_of_not_mem (by simp [idList])] at hempty
  cases hempty

theorem existAttributes_idList (templateIds : List UInt64) :
    (new.setAll (idList templateIds)).sortAttributes.existAttributes =
      [authTemplateIdList, CoAuth.authType] := by
  have hknown : ∀ c ∈ idList templateIds, typeOf c.tag = some c.type := by
    intro c hc
    rcases List.mem_cons.mp hc with rfl | hc
    · rfl
    · rw [List.mem_singleton.mp hc]
      rfl
  show (new.setAll (idList templateIds)).existAttributes.insertionSort (· ≤ ·) = _
  rw [existAttributes_setAll hknown]
  show [CoAuth.authType, authTemplateIdList].insertionSort (· ≤ ·) = _
  decide

/-- The record of the template ids when they fill 4 GiB: its length is cut down to zero. -/
theorem packAttribute_idList {templateIds : List UInt64} (hlength : templateIds.length = 2 ^ 29)
    (locals : PackLocals) :
    (new.setAll (idList templateIds)).sortAttributes.packAttribute locals authTemplateIdList [] =
      leBytes 4 authTemplateIdList.toNat ++ (leBytes 4 0 ++
        templateIds.flatMap fun v => leBytes 8 v.toNat) := by
  have hvalue : (new.setAll (idList templateIds)).sortAttributes.valueMap .uint64ArrayType
      authTemplateIdList = some templateIds := rfl
  rw [packAttribute, if_neg (by decide), findPosition_eq]
  show AuthAttributes.packToBuffer _ locals _ (some .uint64ArrayType) _ = _
  -- eight bytes for each of 2^29 ids
  have hcut : (UInt32.ofNat (8 * templateIds.length)).toNat = 0 := by
    rw [hlength]
    decide
  simp only [packToBuffer, getUint64ArrayValue, getValue, hvalue, writeDataLength, write64Array,
    hcut, writeTag, List.nil_append, List.append_assoc]

theorem packLoop_idList (templateIds : List UInt64) (locals : PackLocals) (fuel : Nat) :
    (new.setAll (idList templateIds)).sortAttributes.packLoop locals (fuel + 3) 0 [] =
      some ((new.setAll (idList templateIds)).sortAttributes.packAttribute locals CoAuth.authType
        ((new.setAll (idList templateIds)).sortAttributes.packAttribute locals
          authTemplateIdList [])) := by
  simp [packLoop, existAttributes_idList]

theorem packLoop_idList_none (templateIds : List UInt64) (locals : PackLocals) {fuel : Nat}
    (hfuel : fuel < 3) :
    (new.setAll (idList templateIds)).sortAttributes.packLoop locals fuel 0 [] = none := by
  have hcases : fuel = 0 ∨ fuel = 1 ∨ fuel = 2 := by omega
  rcases hcases with rfl | rfl | rfl
  all_goals simp [packLoop, existAttributes_idList]

/-- The whole message; the template ids stand where the next record should be. -/
def idListBuffer (header : List UInt8) (templateIds : List UInt64) (rest : List UInt8) :
    List UInt8 :=
  header ++ (leBytes 4 authTemplateIdList.toNat ++ (leBytes 4 0 ++
    ((templateIds.flatMap fun v => leBytes 8 v.toNat) ++ rest)))

theorem pack_idList {templateIds : List UInt64} (hlength : templateIds.length = 2 ^ 29)
    (locals : PackLocals) (fuel : Nat) :
    ∃ header rest : List UInt8, header.length = 16 ∧ rest.length = 20 ∧
      (new.setAll (idList templateIds)).pack (fuel + 3) locals =
        some (idListBuffer header templateIds rest,
          (new.setAll (idList templateIds)).sortAttributes) := by
  have hvalue : (new.setAll (idList templateIds)).sortAttributes.valueMap .uint32Type
      CoAuth.authType = some 1 := rfl
  have hsig : (new.setAll (idList templateIds)).sortAttributes.signatureEntry =
      ⟨.uint8ArrayType, authSignature, []⟩ := rfl
  have htype (buffer : List UInt8) :
      (new.setAll (idList templateIds)).sortAttributes.packAttribute locals CoAuth.authType buffer =
        buffer ++ SetCall.record ⟨.uint32Type, CoAuth.authType, 1⟩ := by
    rw [packAttribute, if_neg (by decide), findPosition_eq]
    rw [show typeOf CoAuth.authType = some .uint32Type from rfl,
      packToBuffer_eq (c := ⟨.uint32Type, CoAuth.authType, 1⟩) _ locals hvalue (by decide),
      writeTag, List.append_assoc]
    rfl
  obtain ⟨header, hheader, hframe⟩ := packFrame_eq
    (a := (new.setAll (idList templateIds)).sortAttributes) (by rw [hsig]; decide) locals
    ((leBytes 4 authTemplateIdList.toNat ++ (leBytes 4 0 ++
        templateIds.flatMap fun v => leBytes 8 v.toNat)) ++
      SetCall.record ⟨.uint32Type, CoAuth.authType, 1⟩)
  refine ⟨header, SetCall.record ⟨.uint32Type, CoAuth.authType, 1⟩ ++
    SetCall.record ⟨.uint8ArrayType, authSignature, []⟩, hheader, by decide, ?_⟩
  rw [pack, packLoop_idList, packAttribute_idList hlength, htype, Option.map_some, hframe, hsig]
  simp only [idListBuffer, List.append_assoc]

section Buffer

variable {header rest : List UInt8} (hheader : header.length = 16) {ids : List UInt64}

include hheader

theorem length_idListBuffer (hlength : ids.length = 2 ^ 29) (hrest : rest.length = 20) :
    (idListBuffer header ids rest).length = 2 ^ 32 + 44 := by
  have hids := length_flatMap_encode (fun v : UInt64 => length_leBytes 8 v.toNat) ids
  rw [hlength] at hids
  simp only [idListBuffer, List.length_append, hheader, hids, hrest, length_leBytes]
  omega

theorem recordTag_idListBuffer :
    recordTag (idListBuffer header ids rest) 16 = authTemplateIdList :=
  getUint32FromUint8_window _ (by rw [hheader]; rfl) authTemplateIdList

theorem recordLength_idListBuffer : recordLength (idListBuffer header ids rest) 16 = 0 := by
  unfold idListBuffer
  rw [← List.append_assoc]
  exact getUint32FromUint8_window _ (by rw [List.length_append, hheader]; rfl) 0

/-- The first template id is taken for a tag. -/
theorem nextTag_idListBuffer : recordTag (idListBuffer header (0 :: ids) rest) 24 = 0 := by
  have hword : leBytes 8 (0 : UInt64).toNat = leBytes 4 0 ++ leBytes 4 0 := by decide
  unfold idListBuffer
  rw [List.flatMap_cons, hword, ← List.append_assoc, ← List.append_assoc,
    List.append_assoc (leBytes 4 0), List.append_assoc (leBytes 4 0)]
  exact getUint32FromUint8_window _
    (by rw [List.length_append, List.length_append, hheader]; rfl) 0

/-- The template ids, as long as they are, are passed over as an empty array. -/
theorem nextRecord_idListBuffer (hlength : ids.length = 2 ^ 29) (hrest : rest.length = 20) :
    nextRecord new.authAttributesPosition (idListBuffer header ids rest) 16 = some 24 := by
  have hcheck : checkLengthPass (some .uint64ArrayType) (recordValue 16) 0
      (UInt32.ofNat (idListBuffer header ids rest).length) = true := by
    refine checkLengthPass_iff.mpr ⟨?_, by simp [fixedLength]⟩
    rw [length_idListBuffer hheader hlength hrest]
    decide
  have hentry : new.authAttributesPosition authTemplateIdList = some (some .uint64ArrayType) :=
    rfl
  simp only [nextRecord, recordTag_idListBuffer hheader, recordLength_idListBuffer hheader, hentry,
    hcheck, if_true]
  rfl

theorem unpack_idList (hlength : ids.length = 2 ^ 29) (hzero : ids.head? = some 0)
    (hrest : rest.length = 20) (fuel : Nat) :
    (new.unpack fuel (idListBuffer header ids rest)).bind (·.object) = none := by
  have hsize := length_idListBuffer hheader hlength hrest
  obtain ⟨b, hstep, hposition⟩ :=
    unpackStep_next (nextRecord_idListBuffer hheader hlength hrest)
  -- The second round takes the first template id for a tag that nobody knows.
  have hunknown : b.unpackStep (idListBuffer header ids rest) 24 = .undefined := by
    apply unpackStep_unknown
    obtain ⟨tail, rfl⟩ : ∃ tail, ids = 0 :: tail := by
      cases ids with
      | nil => cases hzero
      | cons id tail => exact ⟨tail, congrArg (· :: tail) (Option.some.inj hzero)⟩
    rw [nextTag_idListBuffer hheader, hposition]
    rfl
  generalize idListBuffer header ids rest = buffer at *
  have hne : buffer.isEmpty = false := by
    rw [List.isEmpty_eq_false_iff]
    intro hnil
    rw [hnil] at hsize
    cases hsize
  rw [unpack, if_neg (by rw [hne]; decide)]
  show (unpackLoop buffer fuel new 16).bind _ = _
  -- The first round passes the list over, the second one has no defined end.
  cases fuel with
  | zero => rfl
  | succ fuel =>
    rw [unpackLoop, if_pos (by rw [hsize]; decide), hstep]
    dsimp only
    cases fuel with
    | zero => rfl
    | succ fuel =>
      rw [unpackLoop, if_pos (by rw [hsize]; decide), hunknown]
      rfl

end Buffer

/-- **Not transparent.**  An empty byte array is lost, and a message of more than 4 GiB is not
understood. -/
theorem relay_loses :
    (¬∀ (calls : List SetCall) (locals : PackLocals) (buffer : List UInt8) (a' : AuthAttributes),
      (new.setAll calls).valueMap .uint32Type CoAuth.authType ≠ none →
      (new.setAll calls).packedSize < 2 ^ 32 → (new.setAll calls).Packs locals buffer a' →
        RelaySends (new.setAll calls) buffer) ∧
    ¬∀ (calls : List SetCall) (locals : PackLocals) (buffer : List UInt8) (a' : AuthAttributes),
      (new.setAll calls).valueMap .uint32Type CoAuth.authType ≠ none →
      (new.setAll calls).NoEmptyArray → (new.setAll calls).Packs locals buffer a' →
        RelaySends (new.setAll calls) buffer := by
  constructor
  · intro h
    obtain ⟨buffer, a', hpack⟩ := emptyInfo_packs
    obtain ⟨sent, k, hkpack, hempty⟩ := packs_keptCalls (by decide) hpack
    have hsent := relaySends_of_packs (by decide) hpack hkpack
    have hbuffer := h emptyInfo _ buffer a' (by decide) (by decide) hpack
    exact hempty.mp (hsent.unique hbuffer) algorithmInfo (by decide) rfl
  · intro h
    have hids : (List.replicate (2 ^ 29) (0 : UInt64)).length = 2 ^ 29 := List.length_replicate
    have hzero : (List.replicate (2 ^ 29) (0 : UInt64)).head? = some 0 := by
      rw [List.head?_replicate, if_neg (by decide)]
    -- Only the length and the first id count; the list itself is never computed.
    generalize List.replicate (2 ^ 29) (0 : UInt64) = ids at hids hzero
    obtain ⟨header, rest, hheader, hrest, hpack⟩ := pack_idList hids ⟨true, 0, 0⟩ 0
    have hsends := h (idList ids) _ _ _ (by exact Option.some_ne_none 1)
      (idList_noEmptyArray ids) ⟨_, hpack⟩
    obtain ⟨fuel, properties, hrelayed⟩ := hsends.exists_relayed ⟨true, 0, 0⟩
    unfold relayed at hrelayed
    -- With less fuel, the first `Pack` is not through.
    rcases Nat.lt_or_ge fuel 3 with hfuel | hfuel
    · rw [pack, packLoop_idList_none ids _ hfuel] at hrelayed
      cases hrelayed
    · obtain ⟨fuel, rfl⟩ := Nat.exists_eq_add_of_le' hfuel
      obtain ⟨header, rest, hheader, hrest, hpack⟩ := pack_idList hids ⟨true, 0, 0⟩ fuel
      rw [hpack, Option.bind_some] at hrelayed
      dsimp only at hrelayed
      rw [unpack_idList hheader hids hzero hrest] at hrelayed
      cases hrelayed

end Lost

end UserIam.CoAuth
