import UserIam.CoAuth.PropertyRelay
import UserIam.CoAuth.UnpackWalk

/-!
# The bytes of Pack

`Pack` writes two headers, one record for each successful `Set` call in the order of the tags, and
the signature.  The second call for a tag writes a second record.
-/

namespace UserIam.CoAuth

open Bytes

/-- The setter is the one for the type of the tag. -/
def SetCall.Succeeds (c : SetCall) : Prop :=
  typeOf c.tag = some c.type

instance (c : SetCall) : Decidable c.Succeeds :=
  inferInstanceAs (Decidable (_ = _))

namespace AuthAttributes

open SetCall

/-! ## 1. What Pack writes for an object -/

/-- The headers around the records and the signature. -/
def frame (records signature : List UInt8) : List UInt8 :=
  leBytes 4 authRoot.toNat ++ (leBytes 4 (8 + records.length + signature.length) ++
    (leBytes 4 authData.toNat ++ (leBytes 4 records.length ++ (records ++ signature))))

/-- The listed tags that the loop does not skip, in the order of the sort. -/
def recordTags (a : AuthAttributes) : List AuthAttributeType :=
  (a.existAttributes.filter fun tag => tag ≠ authSignature).insertionSort (· ≤ ·)

def recordBytes (a : AuthAttributes) (locals : PackLocals) : List UInt8 :=
  a.recordTags.flatMap fun tag => a.packAttribute locals tag []

def signatureBytes (a : AuthAttributes) (locals : PackLocals) : List UInt8 :=
  a.packToBuffer locals authSignature (a.findPosition authSignature) (writeTag [] authSignature)

theorem packAttribute_signature (a : AuthAttributes) (locals : PackLocals) :
    a.packAttribute locals authSignature [] = [] :=
  if_pos (.inr (.inr rfl))

/-- The signature is skipped, so its place in the list does not matter. -/
theorem flatMap_recordTags (a : AuthAttributes) (locals : PackLocals) :
    (a.sortAttributes.existAttributes.flatMap fun tag => a.packAttribute locals tag []) =
      a.recordBytes locals := by
  unfold recordBytes recordTags
  rw [← filter_insertionSort]
  show (a.existAttributes.insertionSort _).flatMap _ = _
  generalize a.existAttributes.insertionSort (· ≤ ·) = tags
  induction tags with
  | nil => rfl
  | cons tag tags ih =>
    by_cases htag : tag = authSignature
    · subst htag
      rw [List.filter_cons_of_neg (by simp), List.flatMap_cons, packAttribute_signature, ih]
      rfl
    · rw [List.filter_cons_of_pos (by simpa using htag), List.flatMap_cons, List.flatMap_cons, ih]

theorem leBytes_uint32 (n : Nat) : leBytes 4 (UInt32.ofNat n).toNat = leBytes 4 n := by
  rw [UInt32.toNat_ofNat']
  exact leBytes_mod 4 n

theorem packFrame_frame (a : AuthAttributes) (locals : PackLocals) (data : List UInt8) :
    a.packFrame locals data = frame data (a.signatureBytes locals) := by
  have hsignature (buffer : List UInt8) :
      a.packToBuffer locals authSignature (a.findPosition authSignature)
        (writeTag buffer authSignature) = buffer ++ a.signatureBytes locals := by
    rw [packToBuffer_append, signatureBytes, a.packToBuffer_append locals _ _ (writeTag [] _),
      writeTag, writeTag, List.nil_append, List.append_assoc]
  have hlength : (leBytes 4 authData.toNat ++ (leBytes 4 data.length ++
      (data ++ a.signatureBytes locals))).length =
        8 + data.length + (a.signatureBytes locals).length := by
    simp only [List.length_append, length_leBytes]
    omega
  simp only [packFrame, hsignature, leBytes_uint32, List.append_assoc, hlength]
  rfl

/-- Pack returns exactly when fewer than `2 ^ 32` tags are listed, and then with these bytes. -/
theorem packs_iff {a a' : AuthAttributes} {locals : PackLocals} {buffer : List UInt8} :
    a.Packs locals buffer a' ↔
      a.existAttributes.length < 2 ^ 32 ∧
        buffer = frame (a.recordBytes locals) (a.signatureBytes locals) ∧
        a' = a.sortAttributes := by
  have hlength := a.length_sortAttributes
  by_cases hshort : a.existAttributes.length < 2 ^ 32
  · have hpack (fuel : Nat) : a.pack fuel locals = if a.existAttributes.length < fuel then
        some (frame (a.recordBytes locals) (a.signatureBytes locals), a.sortAttributes)
        else none := by
      rw [pack, packLoop_flatMap locals (hlength ▸ hshort) (Nat.zero_le _), UInt32.toNat_zero,
        Nat.zero_add, List.drop_zero, List.nil_append, hlength]
      split
      · rw [Option.map_some, packFrame_frame]
        exact congrArg (fun records => some (frame records (a.signatureBytes locals),
          a.sortAttributes)) (flatMap_recordTags a locals)
      · rfl
    constructor
    · rintro ⟨fuel, h⟩
      rw [hpack] at h
      split at h
      · cases h
        exact ⟨hshort, rfl, rfl⟩
      · cases h
    · rintro ⟨-, rfl, rfl⟩
      exact ⟨_, (hpack _).trans (if_pos (Nat.lt_succ_self _))⟩
  · constructor
    · rintro ⟨fuel, h⟩
      rw [pack, packLoop_eq_none locals (by rw [hlength]; omega)] at h
      cases h
    · intro h
      exact absurd h.1 hshort

/-! ## 2. Objects with the same getters -/

/-- Every getter gives the same result. -/
def SameGetters (a b : AuthAttributes) : Prop :=
  ∀ (type : ValueType) (tag : AuthAttributeType) (value : type.Carrier),
    a.getValue type tag value = b.getValue type tag value

theorem getValue_congr {a b : AuthAttributes} {type : ValueType} {tag : AuthAttributeType}
    (h : a.valueMap type tag = b.valueMap type tag) (value : type.Carrier) :
    a.getValue type tag value = b.getValue type tag value := by
  rw [getValue, getValue, h]

theorem exists_carrier (type : ValueType) : Nonempty type.Carrier := by
  cases type
  · exact ⟨false⟩
  · exact ⟨(0 : UInt32)⟩
  · exact ⟨(0 : UInt64)⟩
  all_goals exact ⟨[]⟩

/-- A getter tells an unset tag from a set one by its code. -/
theorem valueMap_eq_of_getValue {a b : AuthAttributes} {type : ValueType}
    {tag : AuthAttributeType}
    (h : ∀ value, a.getValue type tag value = b.getValue type tag value) :
    a.valueMap type tag = b.valueMap type tag := by
  obtain ⟨value⟩ := exists_carrier type
  have hvalue := h value
  unfold getValue at hvalue
  cases ha : a.valueMap type tag with
  | none =>
    cases hb : b.valueMap type tag with
    | none => rfl
    | some w =>
      rw [ha, hb] at hvalue
      cases (Prod.mk.inj hvalue).1
  | some v =>
    cases hb : b.valueMap type tag with
    | none =>
      rw [ha, hb] at hvalue
      cases (Prod.mk.inj hvalue).1
    | some w =>
      rw [ha, hb] at hvalue
      rw [(Prod.mk.inj hvalue).2]

theorem sameGetters_iff {a b : AuthAttributes} :
    a.SameGetters b ↔ ∀ type tag, a.valueMap type tag = b.valueMap type tag := by
  constructor
  · intro h type tag
    exact valueMap_eq_of_getValue (h type tag)
  · intro h type tag value
    exact getValue_congr (h type tag) value

theorem SameGetters.packToBuffer_eq {a b : AuthAttributes} (h : a.SameGetters b)
    (locals : PackLocals) (tag : AuthAttributeType) (position : Option ValueType)
    (buffer : List UInt8) :
    a.packToBuffer locals tag position buffer = b.packToBuffer locals tag position buffer := by
  rcases position with _ | type
  · rfl
  · cases type with
    | boolType => simp only [packToBuffer, getBoolValue, h _ tag]
    | uint32Type => simp only [packToBuffer, getUint32Value, h _ tag]
    | uint64Type => simp only [packToBuffer, getUint64Value, h _ tag]
    | uint32ArrayType => simp only [packToBuffer, getUint32ArrayValue, h _ tag]
    | uint64ArrayType => simp only [packToBuffer, getUint64ArrayValue, h _ tag]
    | uint8ArrayType =>
      unfold packToBuffer getUint8ArrayValue
      rw [h]

theorem SameGetters.packAttribute_eq {a b : AuthAttributes} (h : a.SameGetters b)
    (locals : PackLocals) (tag : AuthAttributeType) (buffer : List UInt8) :
    a.packAttribute locals tag buffer = b.packAttribute locals tag buffer := by
  unfold packAttribute
  rw [a.findPosition_eq, b.findPosition_eq, h.packToBuffer_eq]

theorem SameGetters.signatureBytes_eq {a b : AuthAttributes} (h : a.SameGetters b)
    (locals : PackLocals) : a.signatureBytes locals = b.signatureBytes locals := by
  unfold signatureBytes
  rw [a.findPosition_eq, b.findPosition_eq, h.packToBuffer_eq]

theorem frame_inj {records records' signature : List UInt8}
    (h : frame records signature = frame records' signature) : records = records' := by
  have hlength := congrArg List.length h
  simp only [frame, List.length_append, length_leBytes] at hlength
  unfold frame at h
  -- the tags and the lengths in front have the same size
  have h₁ := (List.append_inj h rfl).2
  have h₂ := (List.append_inj h₁ (by simp only [length_leBytes])).2
  have h₃ := (List.append_inj h₂ rfl).2
  have h₄ := (List.append_inj h₃ (by simp only [length_leBytes])).2
  exact (List.append_inj h₄ (by omega)).1

/-- Records that begin with their tag tell which tags have been written, and in what order. -/
theorem flatMap_tag_inj {bytes rest : AuthAttributeType → List UInt8}
    {tags tags' : List AuthAttributeType}
    (hbytes : ∀ tag, tag ∈ tags ∨ tag ∈ tags' → bytes tag = leBytes 4 tag.toNat ++ rest tag)
    (h : tags.flatMap bytes = tags'.flatMap bytes) : tags = tags' := by
  induction tags generalizing tags' with
  | nil =>
    cases tags' with
    | nil => rfl
    | cons tag tags' =>
      have hlength := congrArg List.length h
      rw [List.flatMap_cons, hbytes tag (.inr List.mem_cons_self)] at hlength
      simp only [List.flatMap_nil, List.length_nil, List.length_append, length_leBytes] at hlength
      omega
  | cons tag tags ih =>
    cases tags' with
    | nil =>
      have hlength := congrArg List.length h
      rw [List.flatMap_cons, hbytes tag (.inl List.mem_cons_self)] at hlength
      simp only [List.flatMap_nil, List.length_nil, List.length_append, length_leBytes] at hlength
      omega
    | cons tag' tags' =>
      have htag : tag = tag' := by
        rw [List.flatMap_cons, List.flatMap_cons, hbytes tag (.inl List.mem_cons_self),
          hbytes tag' (.inr List.mem_cons_self), List.append_assoc, List.append_assoc] at h
        have hword := (List.append_inj h (by simp only [length_leBytes])).1
        exact UInt32.toNat_inj.mp (leBytes_inj tag.toNat_lt tag'.toNat_lt hword)
      subst htag
      rw [List.flatMap_cons, List.flatMap_cons] at h
      rw [ih (fun t ht => hbytes t (ht.imp (List.mem_cons_of_mem _) (List.mem_cons_of_mem _)))
        (List.append_cancel_left h)]

theorem mem_recordTags {a : AuthAttributes} {tag : AuthAttributeType} :
    tag ∈ a.recordTags ↔ tag ∈ a.existAttributes ∧ tag ≠ authSignature := by
  rw [recordTags, List.mem_insertionSort, List.mem_filter, decide_eq_true_iff]

/-- A record begins with its tag. -/
theorem packAttribute_tag (a : AuthAttributes) (locals : PackLocals) {tag : AuthAttributeType}
    {type : ValueType} (htype : typeOf tag = some type) (hne : tag ≠ authSignature) :
    a.packAttribute locals tag [] = leBytes 4 tag.toNat ++
      a.packToBuffer locals tag (typeOf tag) [] := by
  have hskip : ¬(tag = authRoot ∨ tag = authData ∨ tag = authSignature) := by
    rintro (rfl | rfl | rfl)
    · cases htype
    · cases htype
    · exact hne rfl
  rw [packAttribute, if_neg hskip, a.findPosition_eq, packToBuffer_append]
  rfl

/-- With the same getters, the same records are those of the same tags. -/
theorem SameGetters.recordBytes_eq_iff {a b : AuthAttributes} (h : a.SameGetters b)
    (locals : PackLocals) :
    a.recordBytes locals = b.recordBytes locals ↔ a.recordTags = b.recordTags := by
  have hbytes : b.recordBytes locals =
      b.recordTags.flatMap fun tag => a.packAttribute locals tag [] := by
    simp only [recordBytes, h.packAttribute_eq]
  rw [hbytes]
  constructor
  · intro hsame
    have htag : ∀ tag, tag ∈ a.recordTags ∨ tag ∈ b.recordTags → a.packAttribute locals tag [] =
        leBytes 4 tag.toNat ++ a.packToBuffer locals tag (typeOf tag) [] := by
      rintro tag (htag | htag)
      · obtain ⟨hlisted, hne⟩ := mem_recordTags.mp htag
        obtain ⟨type, htype⟩ := a.exist_typed hlisted
        exact a.packAttribute_tag locals htype hne
      · obtain ⟨hlisted, hne⟩ := mem_recordTags.mp htag
        obtain ⟨type, htype⟩ := b.exist_typed hlisted
        exact a.packAttribute_tag locals htype hne
    exact flatMap_tag_inj htag hsame
  · intro htags
    rw [recordBytes, htags]

/-- The tags are written as often as they have been set. -/
theorem recordTags_eq_iff {a b : AuthAttributes} :
    a.recordTags = b.recordTags ↔
      ∀ tag, tag ≠ authSignature → a.existAttributes.count tag = b.existAttributes.count tag := by
  have hcount (c : AuthAttributes) {tag : AuthAttributeType} (hne : tag ≠ authSignature) :
      (c.existAttributes.filter fun tag => tag ≠ authSignature).count tag =
        c.existAttributes.count tag :=
    List.count_filter (by simpa using hne)
  constructor
  · intro h tag hne
    have hsorted := congrArg (List.count tag) h
    unfold recordTags at hsorted
    rw [(List.perm_insertionSort _ _).count_eq, (List.perm_insertionSort _ _).count_eq,
      hcount a hne, hcount b hne] at hsorted
    exact hsorted
  · intro h
    apply insertionSort_congr
    apply List.perm_iff_count.mpr
    intro tag
    by_cases hne : tag = authSignature
    · subst hne
      rw [List.count_eq_zero_of_not_mem (by simp), List.count_eq_zero_of_not_mem (by simp)]
    · rw [hcount a hne, hcount b hne, h tag hne]

/-- The bytes that two objects with the same getters write are the same exactly if both return and
every tag but the signature is listed as often. -/
theorem SameGetters.packs_iff {a b : AuthAttributes} (h : a.SameGetters b) (locals : PackLocals) :
    (∃ buffer, (∃ a', a.Packs locals buffer a') ∧ ∃ b', b.Packs locals buffer b') ↔
      a.existAttributes.length < 2 ^ 32 ∧ b.existAttributes.length < 2 ^ 32 ∧
        ∀ tag, tag ≠ authSignature →
          a.existAttributes.count tag = b.existAttributes.count tag := by
  rw [← recordTags_eq_iff, ← h.recordBytes_eq_iff locals]
  constructor
  · rintro ⟨buffer, ⟨a', ha⟩, b', hb⟩
    obtain ⟨halength, rfl, -⟩ := AuthAttributes.packs_iff.mp ha
    obtain ⟨hblength, hbytes, -⟩ := AuthAttributes.packs_iff.mp hb
    rw [h.signatureBytes_eq locals] at hbytes
    exact ⟨halength, hblength, frame_inj hbytes⟩
  · rintro ⟨halength, hblength, hbytes⟩
    refine ⟨_, ⟨_, AuthAttributes.packs_iff.mpr ⟨halength, rfl, rfl⟩⟩,
      _, AuthAttributes.packs_iff.mpr ⟨hblength, ?_, rfl⟩⟩
    rw [hbytes, h.signatureBytes_eq locals]

/-! ## 3. Uninitialised locals -/

/-- A value that is there is what is written. -/
theorem packToBuffer_locals {a : AuthAttributes} {tag : AuthAttributeType} {type : ValueType}
    (h : type = .uint8ArrayType ∨ ∃ v, a.valueMap type tag = some v)
    (locals locals' : PackLocals) (buffer : List UInt8) :
    a.packToBuffer locals tag (some type) buffer =
      a.packToBuffer locals' tag (some type) buffer := by
  rcases h with rfl | ⟨v, hv⟩
  · rfl
  · cases type with
    | boolType => simp only [packToBuffer, getBoolValue, getValue, hv]
    | uint32Type => simp only [packToBuffer, getUint32Value, getValue, hv]
    | uint64Type => simp only [packToBuffer, getUint64Value, getValue, hv]
    | _ => rfl

theorem signatureBytes_locals (a : AuthAttributes) (locals locals' : PackLocals) :
    a.signatureBytes locals = a.signatureBytes locals' := by
  have htype : a.findPosition authSignature = some .uint8ArrayType := by
    rw [a.findPosition_eq]
    rfl
  unfold signatureBytes
  rw [htype]
  exact packToBuffer_locals (.inl rfl) locals locals' _

theorem Filled.recordBytes_locals {a : AuthAttributes} (ha : a.Filled)
    (locals locals' : PackLocals) : a.recordBytes locals = a.recordBytes locals' := by
  unfold recordBytes
  apply List.flatMap_congr
  intro tag htag
  obtain ⟨type, htype⟩ := a.exist_typed (mem_recordTags.mp htag).1
  have hvalue := ha.stored (mem_recordTags.mp htag).1 htype
  unfold packAttribute
  split
  · rfl
  · rw [a.findPosition_eq, htype]
    exact packToBuffer_locals (.inr hvalue) locals locals' _

/-- Where every listed tag has a value, the bytes do not depend on the locals. -/
theorem Filled.packs_locals {a a' : AuthAttributes} (ha : a.Filled) {locals : PackLocals}
    (locals' : PackLocals) {buffer : List UInt8} (h : a.Packs locals buffer a') :
    a.Packs locals' buffer a' := by
  rw [AuthAttributes.packs_iff] at h ⊢
  rw [ha.recordBytes_locals locals' locals, a.signatureBytes_locals locals' locals]
  exact h

/-! ## 4. Two histories with the same getters -/

/-- How many of the calls have stored their value. -/
def successes (calls : List SetCall) : Nat :=
  calls.countP fun c => c.Succeeds

/-- How many of the calls have stored a value for the tag. -/
def timesSet (calls : List SetCall) (tag : AuthAttributeType) : Nat :=
  calls.countP fun c => c.Succeeds ∧ c.tag = tag

theorem existAttributes_setAll_new (calls : List SetCall) :
    (new.setAll calls).existAttributes =
      (calls.filter fun c => c.Succeeds).map fun c => c.tag := by
  induction calls using List.reverseRecOn with
  | nil => rfl
  | append_singleton calls c ih =>
    rw [setAll_concat, List.filter_append, List.map_append, ← ih]
    by_cases hc : c.Succeeds
    · rw [(set_known _ hc).1, List.filter_cons_of_pos (by simpa using hc)]
      rfl
    · rw [(set_unknown _ hc).1, List.filter_cons_of_neg (by simpa using hc)]
      exact (List.append_nil _).symm

theorem length_existAttributes_setAll (calls : List SetCall) :
    (new.setAll calls).existAttributes.length = successes calls := by
  rw [existAttributes_setAll_new, List.length_map, successes, List.countP_eq_length_filter]

theorem count_existAttributes_setAll (calls : List SetCall) (tag : AuthAttributeType) :
    (new.setAll calls).existAttributes.count tag = timesSet calls tag := by
  rw [existAttributes_setAll_new, List.count, List.countP_map, List.countP_filter, timesSet]
  apply List.countP_congr
  intro c _
  simp [and_comm]

/-- `Pack` of either object returns with these bytes, whatever the uninitialised locals hold. -/
def PacksEqual (a b : AuthAttributes) : Prop :=
  ∃ buffer, ∀ locals, (∃ a', a.Packs locals buffer a') ∧ ∃ b', b.Packs locals buffer b'

theorem SameGetters.equalBytes_iff {a b : AuthAttributes} (h : a.SameGetters b) (ha : a.Filled)
    (hb : b.Filled) :
    a.PacksEqual b ↔ a.existAttributes.length < 2 ^ 32 ∧ b.existAttributes.length < 2 ^ 32 ∧
      ∀ tag, tag ≠ authSignature →
        a.existAttributes.count tag = b.existAttributes.count tag := by
  have hlocals := h.packs_iff ⟨false, 0, 0⟩
  rw [← hlocals]
  constructor
  · rintro ⟨buffer, hpacks⟩
    exact ⟨buffer, hpacks _⟩
  · rintro ⟨buffer, ⟨a', hpack⟩, b', hpack'⟩
    exact ⟨buffer, fun locals => ⟨⟨a', ha.packs_locals locals hpack⟩,
      b', hb.packs_locals locals hpack'⟩⟩

/-- **Canonical bytes.**  Two histories of `Set` calls with the same getters are packed alike
exactly if each tag but the signature has been set equally often, in fewer than `2 ^ 32` calls. -/
theorem packsEqual_iff (calls calls' : List SetCall)
    (h : (new.setAll calls).SameGetters (new.setAll calls')) :
    (new.setAll calls).PacksEqual (new.setAll calls') ↔
      successes calls < 2 ^ 32 ∧ successes calls' < 2 ^ 32 ∧
        ∀ tag, tag ≠ authSignature → timesSet calls tag = timesSet calls' tag := by
  have hequal := h.equalBytes_iff (new_filled.setAll calls) (new_filled.setAll calls')
  simp only [length_existAttributes_setAll, count_existAttributes_setAll] at hequal
  exact hequal

section SetTwice

/-- The number of attempts that are left, set once. -/
def setOnce : List SetCall :=
  [⟨.uint32Type, authRemainCount, 3⟩]

/-- The same, set again. -/
def setTwice : List SetCall :=
  [⟨.uint32Type, authRemainCount, 3⟩, ⟨.uint32Type, authRemainCount, 3⟩]

theorem setTwice_sameGetters : (new.setAll setOnce).SameGetters (new.setAll setTwice) := by
  rw [sameGetters_iff]
  intro type tag
  by_cases h : ValueType.uint32Type = type ∧ authRemainCount = tag
  · obtain ⟨rfl, rfl⟩ := h
    rfl
  · rw [setAll_of_not_mem, setAll_of_not_mem]
    · simpa [setTwice] using h
    · simpa [setOnce] using h

/-- The tag is written twice. -/
theorem setTwice_not_packsEqual :
    (new.setAll setOnce).SameGetters (new.setAll setTwice) ∧
      ¬(new.setAll setOnce).PacksEqual (new.setAll setTwice) := by
  refine ⟨setTwice_sameGetters, ?_⟩
  rintro ⟨buffer, hpacks⟩
  obtain ⟨⟨a', ha⟩, b', hb⟩ := hpacks ⟨false, 0, 0⟩
  obtain ⟨-, rfl, -⟩ := packs_iff.mp ha
  obtain ⟨-, hbytes, -⟩ := packs_iff.mp hb
  exact absurd (congrArg List.length hbytes) (by decide)

/-- Two tags, in one order and in the other. -/
def countFirst : List SetCall :=
  [⟨.uint32Type, authRemainCount, 3⟩, ⟨.uint32Type, authRemainTime, 0⟩]

def timeFirst : List SetCall :=
  [⟨.uint32Type, authRemainTime, 0⟩, ⟨.uint32Type, authRemainCount, 3⟩]

theorem countFirst_sameGetters : (new.setAll countFirst).SameGetters (new.setAll timeFirst) := by
  rw [sameGetters_iff]
  intro type tag
  by_cases hcount : ValueType.uint32Type = type ∧ authRemainCount = tag
  · obtain ⟨rfl, rfl⟩ := hcount
    rfl
  by_cases htime : ValueType.uint32Type = type ∧ authRemainTime = tag
  · obtain ⟨rfl, rfl⟩ := htime
    rfl
  -- no other tag has been set
  rw [setAll_of_not_mem, setAll_of_not_mem]
  · intro c hc
    rcases List.mem_cons.mp hc with rfl | hc
    · exact htime
    · rw [List.mem_singleton.mp hc]
      exact hcount
  · intro c hc
    rcases List.mem_cons.mp hc with rfl | hc
    · exact hcount
    · rw [List.mem_singleton.mp hc]
      exact htime

/-- The same calls in another order. -/
theorem packsEqual_iff_example : (new.setAll countFirst).PacksEqual (new.setAll timeFirst) := by
  refine (packsEqual_iff _ _ countFirst_sameGetters).mpr ⟨by decide, by decide, fun tag _ => ?_⟩
  exact (List.Perm.swap _ _ []).countP_eq _

end SetTwice

/-! ## 5. The layout -/

/-- The call whose value the tag holds. -/
def lastSet (calls : List SetCall) (tag : AuthAttributeType) : Option SetCall :=
  (calls.filter fun c => c.Succeeds ∧ c.tag = tag).getLast?

/-- One record for each successful call, with the last value of its tag. -/
def layoutRecords (calls : List SetCall) : List UInt8 :=
  let tags := (calls.filter fun c => c.Succeeds ∧ c.tag ≠ authSignature).map fun c => c.tag
  ((tags.insertionSort (· ≤ ·)).filterMap (lastSet calls)).flatMap record

def layoutSignature (calls : List SetCall) : List UInt8 :=
  ((lastSet calls authSignature).getD ⟨.uint8ArrayType, authSignature, []⟩).record

def layout (calls : List SetCall) : List UInt8 :=
  frame (layoutRecords calls) (layoutSignature calls)

/-- An object that `Set` and `Unpack` calls have built, with all `Set` calls that it has got, those
of `Unpack` among them. -/
inductive Built : List SetCall → AuthAttributes → Prop
  | new : Built [] AuthAttributes.new
  | set {calls : List SetCall} {a : AuthAttributes} (c : SetCall) :
      Built calls a → Built (calls ++ [c]) (a.set c)
  | unpack {calls sets : List SetCall} {a b : AuthAttributes} {buffer : List UInt8}
      {r : UnpackResult} : Built calls a → a.Unpacks buffer r → r.object = some b →
      a.UnpackSets buffer sets → Built (calls ++ sets) b

theorem Built.eq {calls : List SetCall} {a : AuthAttributes} (h : Built calls a) :
    a = AuthAttributes.new.setAll calls := by
  induction h with
  | new => rfl
  | set c _ ih => rw [setAll_concat, ← ih]
  | unpack _ hr hb hsets ih => rw [setAll_append, ← ih, hsets.object_eq hr hb]

theorem lastSet_concat (calls : List SetCall) (c : SetCall) (tag : AuthAttributeType) :
    lastSet (calls ++ [c]) tag =
      if c.Succeeds ∧ c.tag = tag then some c else lastSet calls tag := by
  unfold lastSet
  rw [List.filter_append]
  split
  · next hc =>
    rw [List.filter_cons_of_pos (by simpa using hc), List.filter_nil, List.getLast?_concat]
  · next hc =>
    rw [List.filter_cons_of_neg (by simpa using hc), List.filter_nil, List.append_nil]

theorem entry_set (a : AuthAttributes) (c : SetCall) (tag : AuthAttributeType) :
    (a.set c).entry tag = if c.Succeeds ∧ c.tag = tag then some c else a.entry tag := by
  split
  · next hc =>
    obtain ⟨hc, rfl⟩ := hc
    exact entry_eq_some.mpr ⟨rfl, hc, a.valueMap_set_self hc⟩
  · next hc =>
    unfold entry
    cases htype : typeOf tag with
    | none => rfl
    | some type =>
      rw [Option.bind_some, Option.bind_some, valueMap_set_of_ne]
      rintro ⟨rfl, rfl⟩
      exact hc ⟨htype, rfl⟩

theorem entry_setAll_new (calls : List SetCall) (tag : AuthAttributeType) :
    (new.setAll calls).entry tag = lastSet calls tag := by
  induction calls using List.reverseRecOn with
  | nil =>
    show new.entry tag = none
    unfold entry
    cases typeOf tag <;> rfl
  | append_singleton calls c ih => rw [setAll_concat, entry_set, lastSet_concat, ih]

theorem recordTags_setAll_new (calls : List SetCall) :
    (new.setAll calls).recordTags =
      ((calls.filter fun c => c.Succeeds ∧ c.tag ≠ authSignature).map
        fun c => c.tag).insertionSort (· ≤ ·) := by
  rw [recordTags, existAttributes_setAll_new, List.filter_map, List.filter_filter]
  congr 2
  apply List.filter_congr
  intro c _
  simp [and_comm]

theorem signatureEntry_eq (a : AuthAttributes) :
    a.signatureEntry =
      (a.entry authSignature).getD ⟨.uint8ArrayType, authSignature, []⟩ := by
  have htype : typeOf authSignature = some .uint8ArrayType := rfl
  unfold signatureEntry entry
  rw [htype, Option.bind_some]
  cases a.valueMap .uint8ArrayType authSignature <;> rfl

/-- The loop writes a record for every listed tag but the signature. -/
theorem loopEntry_of_mem {a : AuthAttributes} {tag : AuthAttributeType} (h : tag ∈ a.recordTags) :
    a.loopEntry tag = a.entry tag := by
  obtain ⟨hlisted, hne⟩ := mem_recordTags.mp h
  obtain ⟨type, htype⟩ := a.exist_typed hlisted
  refine if_neg ?_
  rintro (rfl | rfl | rfl)
  · cases htype
  · cases htype
  · exact hne rfl

theorem layoutRecords_eq (calls : List SetCall) :
    layoutRecords calls =
      ((new.setAll calls).recordTags.filterMap (new.setAll calls).entry).flatMap record := by
  rw [recordTags_setAll_new, funext (entry_setAll_new calls)]
  rfl

theorem layoutSignature_eq (calls : List SetCall) :
    layoutSignature calls = (new.setAll calls).signatureEntry.record := by
  rw [signatureEntry_eq, entry_setAll_new]
  rfl

theorem length_frame (records signature : List UInt8) :
    (frame records signature).length = 16 + records.length + signature.length := by
  simp only [frame, List.length_append, length_leBytes]
  omega

/-- No record is longer than the whole. -/
theorem packedEntries_length_lt {calls : List SetCall} (hsize : (layout calls).length < 2 ^ 32) :
    ∀ c ∈ (new.setAll calls).packedEntries, c.record.length < 2 ^ 32 := by
  intro c hc
  rw [layout, length_frame] at hsize
  rcases List.mem_append.mp hc with hc | hc
  · obtain ⟨tag, htag, hentry⟩ := List.mem_filterMap.mp hc
    have hne : tag ≠ authSignature := by
      rintro rfl
      cases hentry
    have hmem := mem_recordTags.mpr ⟨htag, hne⟩
    rw [loopEntry_of_mem hmem] at hentry
    have hrecord : c ∈ (new.setAll calls).recordTags.filterMap (new.setAll calls).entry :=
      List.mem_filterMap.mpr ⟨tag, hmem, hentry⟩
    have hle := List.single_le_sum (l := ((new.setAll calls).recordTags.filterMap
      (new.setAll calls).entry).map fun c => c.record.length) (fun _ _ => Nat.zero_le _) _
        (List.mem_map_of_mem hrecord)
    rw [layoutRecords_eq, List.length_flatMap] at hsize
    omega
  · rw [List.mem_singleton.mp hc, ← layoutSignature_eq]
    omega

theorem recordBytes_layout {calls : List SetCall} (hsize : (layout calls).length < 2 ^ 32)
    (locals : PackLocals) : (new.setAll calls).recordBytes locals = layoutRecords calls := by
  rw [layoutRecords_eq, List.filterMap_eq_flatMap_toList, List.flatMap_assoc, recordBytes]
  apply List.flatMap_congr
  intro tag htag
  rw [packAttribute_eq (new_filled.setAll calls) locals (mem_recordTags.mp htag).1
    (packedEntries_length_lt hsize), ← loopEntry_of_mem htag]

theorem signatureBytes_layout {calls : List SetCall} (hsize : (layout calls).length < 2 ^ 32)
    (locals : PackLocals) : (new.setAll calls).signatureBytes locals = layoutSignature calls := by
  have hsignature :=
    packSignature_eq (packedEntries_length_lt hsize _ (signatureEntry_mem _)) locals []
  rw [List.nil_append] at hsignature
  rw [layoutSignature_eq, signatureBytes, hsignature]

/-- The first `Pack` has sorted the tags already. -/
theorem recordBytes_sortAttributes (a : AuthAttributes) (locals : PackLocals) :
    a.sortAttributes.recordBytes locals = a.recordBytes locals := by
  have htags : a.sortAttributes.recordTags = a.recordTags :=
    insertionSort_congr ((List.perm_insertionSort _ _).filter _)
  rw [recordBytes, htags]
  rfl

/-- `Pack` returns with these bytes, and a second `Pack` does so too, whatever the uninitialised
locals hold. -/
def WritesTwice (a : AuthAttributes) (bytes : List UInt8) : Prop :=
  ∀ locals, ∃ a', (∀ buffer b, a.Packs locals buffer b ↔ buffer = bytes ∧ b = a') ∧
    ∀ locals', ∃ a'', ∀ buffer b, a'.Packs locals' buffer b ↔ buffer = bytes ∧ b = a''

/-- **Layout.**  An object that `Set` and `Unpack` calls have built is packed in the layout of these
calls, twice, exactly if fewer than `2 ^ 32` of them have stored a value. -/
theorem writesTwice_iff {calls : List SetCall} {a : AuthAttributes} (h : Built calls a)
    (hsize : (layout calls).length < 2 ^ 32) :
    a.WritesTwice (layout calls) ↔ successes calls < 2 ^ 32 := by
  rw [h.eq]
  constructor
  · intro hwrites
    obtain ⟨a', hpacks, -⟩ := hwrites ⟨false, 0, 0⟩
    have hlength := (packs_iff.mp ((hpacks _ _).mpr ⟨rfl, rfl⟩)).1
    rw [length_existAttributes_setAll] at hlength
    exact hlength
  · intro hsuccesses locals
    have hlength : (new.setAll calls).existAttributes.length < 2 ^ 32 := by
      rw [length_existAttributes_setAll]
      exact hsuccesses
    refine ⟨(new.setAll calls).sortAttributes, fun buffer b => ?_, fun locals' =>
      ⟨(new.setAll calls).sortAttributes.sortAttributes, fun buffer b => ?_⟩⟩
    · rw [packs_iff, recordBytes_layout hsize, signatureBytes_layout hsize, and_iff_right hlength]
      rfl
    · have hsorted : (new.setAll calls).sortAttributes.signatureBytes locals' =
          (new.setAll calls).signatureBytes locals' := rfl
      rw [packs_iff, recordBytes_sortAttributes, hsorted, recordBytes_layout hsize,
        signatureBytes_layout hsize, length_sortAttributes, and_iff_right hlength]
      rfl

section ManySignatures

/-- So many calls for the signature that the 32-bit index never meets the number of tags. -/
def manySignatures : List SetCall :=
  List.replicate (2 ^ 32) ⟨.uint8ArrayType, authSignature, [7]⟩

theorem built_setAll (calls : List SetCall) : Built calls (new.setAll calls) := by
  induction calls using List.reverseRecOn with
  | nil => exact .new
  | append_singleton calls c ih =>
    rw [setAll_concat]
    exact .set c ih

theorem mem_manySignatures {c : SetCall} (hc : c ∈ manySignatures) :
    c.Succeeds ∧ c.tag = authSignature := by
  rw [List.eq_of_mem_replicate hc]
  decide

theorem successes_manySignatures : successes manySignatures = 2 ^ 32 := by
  rw [successes, List.countP_eq_length.mpr fun c hc => by simpa using (mem_manySignatures hc).1,
    manySignatures, List.length_replicate]

theorem lastSet_manySignatures :
    lastSet manySignatures authSignature = some ⟨.uint8ArrayType, authSignature, [7]⟩ := by
  unfold lastSet
  rw [List.filter_eq_self.mpr fun c hc => by simpa using mem_manySignatures hc, manySignatures,
    List.getLast?_replicate, if_neg (by decide)]

theorem layoutRecords_manySignatures : layoutRecords manySignatures = [] := by
  have htags : manySignatures.filter (fun c => c.Succeeds ∧ c.tag ≠ authSignature) = [] := by
    rw [List.filter_eq_nil_iff]
    intro c hc
    rw [List.eq_of_mem_replicate hc]
    decide
  unfold layoutRecords
  rw [htags]
  rfl

theorem length_layout_manySignatures : (layout manySignatures).length = 25 := by
  rw [layout, length_frame, layoutRecords_manySignatures, layoutSignature, lastSet_manySignatures]
  rfl

theorem not_packs_manySignatures (locals : PackLocals) (buffer : List UInt8) (a' : AuthAttributes) :
    ¬(new.setAll manySignatures).Packs locals buffer a' := by
  intro hpack
  have hlength := (packs_iff.mp hpack).1
  rw [length_existAttributes_setAll, successes_manySignatures] at hlength
  exact absurd hlength (Nat.lt_irrefl _)

/-- The packed size is 25 bytes, and `Pack` does not return. -/
theorem manySignatures_never :
    Built manySignatures (new.setAll manySignatures) ∧ (layout manySignatures).length = 25 ∧
      ¬∃ locals buffer a', (new.setAll manySignatures).Packs locals buffer a' := by
  refine ⟨built_setAll _, length_layout_manySignatures, ?_⟩
  rintro ⟨locals, buffer, a', hpack⟩
  exact not_packs_manySignatures locals buffer a' hpack

/-- Two calls for one tag. -/
theorem writesTwice_example : (new.setAll setTwice).WritesTwice (layout setTwice) :=
  (writesTwice_iff (built_setAll setTwice) (by decide)).mpr (by decide)

end ManySignatures

/-! ## 6. The round trip -/

/-- The bytes of the layout are what has to be packed. -/
theorem packedSize_setAll_new (calls : List SetCall) :
    (new.setAll calls).packedSize = (layout calls).length := by
  have hrecords : ((new.setAll calls).existAttributes.filterMap (new.setAll calls).loopEntry).Perm
      ((new.setAll calls).recordTags.filterMap (new.setAll calls).entry) := by
    rw [← List.filterMap_congr fun tag htag => loopEntry_of_mem htag]
    have hskip : (new.setAll calls).existAttributes.filterMap (new.setAll calls).loopEntry =
        ((new.setAll calls).existAttributes.filter fun tag => tag ≠ authSignature).filterMap
          (new.setAll calls).loopEntry := by
      rw [List.filterMap_filter]
      refine List.filterMap_congr fun tag _ => ?_
      by_cases htag : tag = authSignature
      · subst htag
        rfl
      · rw [if_pos (by simpa using htag)]
    rw [hskip]
    exact ((List.perm_insertionSort _ _).symm).filterMap _
  rw [layout, length_frame, layoutRecords_eq, layoutSignature_eq, List.length_flatMap, packedSize,
    packedEntries, List.map_append, List.sum_append, (hrecords.map _).sum_eq, List.map_singleton,
    List.sum_singleton, Nat.add_assoc]

/-- Whatever the uninitialised locals hold, `Pack` returns one buffer, of the packed size, and a
fresh object unpacks it to the same getters, except that empty byte arrays are unset. -/
def RoundTrips (a : AuthAttributes) : Prop :=
  ∀ locals, ∃ buffer a' b, (∀ buffer₁ a₁, a.Packs locals buffer₁ a₁ ↔ buffer₁ = buffer ∧ a₁ = a') ∧
    buffer.length = a.packedSize ∧ new.Unpacks buffer (.this b) ∧
    ∀ (type : ValueType) (tag : AuthAttributeType) (value : type.Carrier),
      a'.getValue type tag value = a.getValue type tag value ∧
      b.getValue type tag value =
        if (a.valueMap type tag).any (isEmptyUint8Array type) then (.fail, value)
        else a.getValue type tag value

/-- **Pack and Unpack.**  An object that any `Set` calls have filled makes the round trip exactly if
fewer than `2 ^ 32` of them have stored a value. -/
theorem roundTrips_iff (calls : List SetCall) (hsize : (new.setAll calls).packedSize < 2 ^ 32) :
    (new.setAll calls).RoundTrips ↔ successes calls < 2 ^ 32 := by
  constructor
  · intro h
    obtain ⟨buffer, a', b, hpacks, -⟩ := h ⟨false, 0, 0⟩
    have hlength := (unpack_pack calls ⟨false, 0, 0⟩ hsize).1.mp ⟨_, _, (hpacks _ _).mpr ⟨rfl, rfl⟩⟩
    rwa [length_existAttributes_setAll] at hlength
  · intro hsuccesses locals
    have hlength : (new.setAll calls).existAttributes.length < 2 ^ 32 := by
      rwa [length_existAttributes_setAll]
    obtain ⟨hreturns, hunpacks⟩ := unpack_pack calls locals hsize
    obtain ⟨buffer, a', hpack⟩ := hreturns.mpr hlength
    obtain ⟨hbuffer, b, hunpack, hgetters⟩ := hunpacks buffer a' hpack
    refine ⟨buffer, a', b, fun buffer₁ a₁ => ⟨fun hpack₁ => ?_, ?_⟩, hbuffer, hunpack, hgetters⟩
    · obtain ⟨-, rfl, rfl⟩ := packs_iff.mp hpack
      exact (packs_iff.mp hpack₁).2
    · rintro ⟨rfl, rfl⟩
      exact hpack

/-- A repeated tag, an empty byte array and an array that is not empty. -/
theorem roundTrips_iff_example :
    (new.setAll [⟨.uint32Type, authRemainCount, 5⟩, ⟨.uint8ArrayType, authResult, []⟩,
      ⟨.uint32Type, authRemainCount, 3⟩,
      ⟨.uint64ArrayType, authTemplateIdList, [7, 8]⟩]).RoundTrips :=
  (roundTrips_iff _ (by decide)).mpr (by decide)

/-- The size is within the bound, and nothing comes back. -/
theorem manySignatures_not_roundTrips :
    ¬∀ calls : List SetCall, (new.setAll calls).packedSize < 2 ^ 32 →
      (new.setAll calls).RoundTrips := by
  intro h
  have hsize : (new.setAll manySignatures).packedSize < 2 ^ 32 := by
    rw [packedSize_setAll_new, length_layout_manySignatures]
    decide
  obtain ⟨buffer, a', b, hpacks, -⟩ := h manySignatures hsize ⟨false, 0, 0⟩
  exact not_packs_manySignatures _ buffer a' ((hpacks _ _).mpr ⟨rfl, rfl⟩)

end AuthAttributes
end UserIam.CoAuth
