import UserIam.CoAuth.AttributesRoundTrip

/-!
# Truncated messages

What `Unpack` makes of the first bytes of a message that `Pack` has written.  The lengths in the two
headers are skipped, so a cut shows only where it splits a record.
-/

namespace UserIam.CoAuth.AuthAttributes

open Bytes SetCall

/-! ## 1. Where a cut falls -/

/-- A cut behind the headers lies within a record, or in front of its first byte. -/
theorem take_records {entries : List SetCall} {n : Nat}
    (h : n < (entries.flatMap record).length) :
    ∃ (whole : List SetCall) (c : SetCall) (rest : List SetCall) (m : Nat),
      entries = whole ++ c :: rest ∧ m < c.record.length ∧
      n = (whole.flatMap record).length + m ∧
      (entries.flatMap record).take n = whole.flatMap record ++ c.record.take m := by
  induction entries generalizing n with
  | nil => cases h
  | cons c entries ih =>
    rw [List.flatMap_cons, List.length_append] at h
    by_cases hfirst : n < c.record.length
    · refine ⟨[], c, entries, n, rfl, hfirst, by simp, ?_⟩
      rw [List.flatMap_cons, List.take_append_of_le_length (Nat.le_of_lt hfirst)]
      rfl
    · obtain ⟨whole, c', rest, m, rfl, hm, hn, htake⟩ := ih (n := n - c.record.length) (by omega)
      refine ⟨c :: whole, c', rest, m, rfl, hm, ?_, ?_⟩
      · rw [List.flatMap_cons, List.length_append]
        omega
      · rw [List.flatMap_cons, List.take_append, List.take_of_length_le (by omega), htake,
          List.flatMap_cons, List.append_assoc]

/-- The first bytes of a message, up to some record. -/
def EndsAtRecord (entries : List SetCall) (n : Nat) : Prop :=
  ∃ whole, whole <+: entries ∧ n = 16 + (whole.flatMap record).length

theorem length_records_le {entries entries' : List SetCall} (h : entries <+: entries') :
    (entries.flatMap record).length ≤ (entries'.flatMap record).length := by
  obtain ⟨rest, rfl⟩ := h
  rw [List.flatMap_append, List.length_append]
  exact Nat.le_add_right _ _

/-- A cut within a record is not the end of another one. -/
theorem not_endsAtRecord {whole rest : List SetCall} {c : SetCall} {m : Nat} (hm : 0 < m)
    (hm' : m < c.record.length) :
    ¬EndsAtRecord (whole ++ c :: rest) (16 + ((whole.flatMap record).length + m)) := by
  rintro ⟨whole', hwhole', hn⟩
  by_cases hlength : whole'.length ≤ whole.length
  · have hle := length_records_le
      (List.prefix_of_prefix_length_le hwhole' (List.prefix_append _ _) hlength)
    omega
  · have hnext : whole ++ [c] <+: whole ++ c :: rest := ⟨rest, by simp⟩
    have hle := length_records_le (List.prefix_of_prefix_length_le hnext hwhole' (by simp; omega))
    rw [List.flatMap_append, List.length_append, List.flatMap_singleton] at hle
    omega

/-! ## 2. Short reads -/

theorem getUint32FromUint8_short {data : List UInt8} {begin : UInt32}
    (h : data.length < begin.toNat + 4) : getUint32FromUint8 data begin = algorithmInfo := by
  rw [getUint32FromUint8, if_pos (by omega)]

theorem checkLengthPass_of_lt (type : Option ValueType) {currIndex dataLength bufferLength : UInt32}
    (h : bufferLength.toNat < (currIndex + dataLength).toNat) :
    checkLengthPass type currIndex dataLength bufferLength = false := by
  unfold checkLengthPass
  rw [if_pos (UInt32.lt_iff_toNat_lt.mpr h)]

/-- A known tag whose value would end behind the buffer. -/
theorem unpackStep_nullptr (a : AuthAttributes) {buffer : List UInt8} {cursor tag len : UInt32}
    {type : ValueType} (htag : getUint32FromUint8 buffer cursor = tag)
    (hknown : typeOf tag = some type)
    (hlen : getUint32FromUint8 buffer (cursor + 4) = len)
    (hbuffer : buffer.length < 2 ^ 32)
    (hend : buffer.length < (cursor + 4 + 4 + len).toNat) :
    a.unpackStep buffer cursor = .nullptr a := by
  have hbuffer' : (UInt32.ofNat buffer.length).toNat = buffer.length :=
    UInt32.toNat_ofNat_of_lt' hbuffer
  have hcheck := checkLengthPass_of_lt (some type) (hbuffer'.symm ▸ hend)
  simp only [unpackStep, unpackTag, htag, hlen, a.position_known hknown, hcheck]
  rfl

/-- One round of the loop over a record that is cut: within the tag, within the length, or within
the value. -/
theorem unpackStep_cut (a : AuthAttributes) {pre : List UInt8} {c : SetCall} {cursor : UInt32}
    {m : Nat} (hknown : typeOf c.tag = some c.type) (hcursor : cursor.toNat = pre.length)
    (hm : m < c.record.length) (hfit : (pre ++ c.record).length + 100030 < 2 ^ 32) :
    a.unpackStep (pre ++ c.record.take m) cursor = .nullptr a := by
  rw [List.length_append, length_record] at hfit
  have hlength : (pre ++ c.record.take m).length = pre.length + m := by
    rw [List.length_append, List.length_take_of_le (Nat.le_of_lt hm)]
  have hrecord := length_record c
  have hcursor₁ : (cursor + 4).toNat = pre.length + 4 :=
    toNat_add_of_lt (k := 4) hcursor (by omega)
  have hcursor₂ : (cursor + 4 + 4).toNat = pre.length + 8 :=
    toNat_add_of_lt (k := 4) hcursor₁ (by omega)
  have hsentinel : (cursor + 4 + 4 + algorithmInfo).toNat = pre.length + 8 + 100030 :=
    toNat_add_of_lt (k := 100030) hcursor₂ (by omega)
  -- A read that is too short gives the tag of the algorithm information, and 100030 as a length.
  by_cases htag : m < 4
  · refine a.unpackStep_nullptr (getUint32FromUint8_short (by omega))
      (rfl : typeOf algorithmInfo = _) (getUint32FromUint8_short (by omega)) (by omega) (by omega)
  -- the tag is there
  have hread : getUint32FromUint8 (pre ++ c.record.take m) cursor = c.tag := by
    rw [record, List.take_append, List.take_of_length_le (by rw [length_leBytes]; omega)]
    exact getUint32FromUint8_window _ hcursor c.tag
  by_cases hlen : m < 8
  · exact a.unpackStep_nullptr hread hknown (getUint32FromUint8_short (by omega)) (by omega)
      (by omega)
  -- the length is there too, and the value is shorter
  have hpayload : (UInt32.ofNat (payload c.type c.value).length).toNat =
      (payload c.type c.value).length := UInt32.toNat_ofNat_of_lt' (show _ < 2 ^ 32 by omega)
  have hread' : getUint32FromUint8 (pre ++ c.record.take m) (cursor + 4) =
      UInt32.ofNat (payload c.type c.value).length := by
    have htake : c.record.take m = leBytes 4 c.tag.toNat ++
        (leBytes 4 (payload c.type c.value).length ++ (payload c.type c.value).take (m - 8)) := by
      rw [record, List.take_append, List.take_of_length_le (by rw [length_leBytes]; omega),
        List.take_append, List.take_of_length_le (by simp only [length_leBytes]; omega)]
      simp only [length_leBytes, Nat.sub_sub]
    have hpre : (cursor + 4).toNat = (pre ++ leBytes 4 c.tag.toNat).length := by
      rw [List.length_append, length_leBytes, hcursor₁]
    have hwindow := getUint32FromUint8_window ((payload c.type c.value).take (m - 8)) hpre
      (UInt32.ofNat (payload c.type c.value).length)
    rw [hpayload, List.append_assoc] at hwindow
    rw [htake]
    exact hwindow
  have hend : (cursor + 4 + 4 + UInt32.ofNat (payload c.type c.value).length).toNat =
      pre.length + 8 + (payload c.type c.value).length := toNat_add_of_lt hcursor₂ (by omega)
  exact a.unpackStep_nullptr hread hknown hread' (by omega) (by omega)

/-- Near the end of the 32-bit range the sentinel length wraps, and the check lets it pass. -/
theorem unpackStep_wraps (a : AuthAttributes) {pre cut : List UInt8} {cursor : UInt32}
    (hcursor : cursor.toNat = pre.length) (hcut : cut.length < 4) (hfit : pre.length + 8 < 2 ^ 32)
    (hwraps : 2 ^ 32 ≤ pre.length + 8 + 100030) :
    a.unpackStep (pre ++ cut) cursor = .undefined := by
  have hlength : (pre ++ cut).length = pre.length + cut.length := List.length_append
  have hcursor₁ : (cursor + 4).toNat = pre.length + 4 :=
    toNat_add_of_lt (k := 4) hcursor (by omega)
  have hcursor₂ : (cursor + 4 + 4).toNat = pre.length + 8 :=
    toNat_add_of_lt (k := 4) hcursor₁ (by omega)
  have htag : getUint32FromUint8 (pre ++ cut) cursor = algorithmInfo :=
    getUint32FromUint8_short (by omega)
  have hlen : getUint32FromUint8 (pre ++ cut) (cursor + 4) = algorithmInfo :=
    getUint32FromUint8_short (by omega)
  have hsentinel : algorithmInfo.toNat = 100030 := rfl
  have hbuffer : (UInt32.ofNat (pre ++ cut).length).toNat = pre.length + cut.length := by
    rw [hlength]
    exact UInt32.toNat_ofNat_of_lt' (show _ < 2 ^ 32 by omega)
  have hpass : ¬cursor + 4 + 4 + algorithmInfo > UInt32.ofNat (pre ++ cut).length := by
    rw [gt_iff_lt, UInt32.lt_iff_toNat_lt, UInt32.toNat_add, hcursor₂, hsentinel, hbuffer]
    omega
  have hcheck : checkLengthPass (some .uint8ArrayType) (cursor + 4 + 4) algorithmInfo
      (UInt32.ofNat (pre ++ cut).length) = true := by
    unfold checkLengthPass
    rw [if_neg hpass]
  have hposition := a.position_known (rfl : typeOf algorithmInfo = some .uint8ArrayType)
  simp only [unpackStep, unpackTag, htag, hlen, hposition, hcheck, if_true]
  show a.unpackUint8ArrayType _ _ _ _ = _
  rw [unpackUint8ArrayType, if_neg (by decide), hcursor₂, hsentinel, if_neg (by omega)]

/-! ## 3. The whole message -/

/-- A message that is not longer than the headers. -/
theorem unpack_headers (a : AuthAttributes) {p : List UInt8} (hne : p ≠ []) (h : p.length ≤ 16) :
    a.Unpacks p (.this a) := by
  refine ⟨1, ?_⟩
  rw [unpack, if_neg (by simpa using hne)]
  show unpackLoop p 1 a 16 = _
  rw [unpackLoop, if_neg (by simpa using h)]

/-- The result of a round that leaves the loop. -/
def UnpackStep.result : UnpackStep → Option UnpackResult
  | .next .. => none
  | .nullptr a => some (.nullptr a)
  | .undefined => some .undefined

/-- The loop gets to the cut, and the round there decides. -/
theorem unpacks_of_step (a : AuthAttributes) {whole : List SetCall}
    (hknown : ∀ c ∈ whole, typeOf c.tag = some c.type) {header cut : List UInt8}
    (hheader : header.length = 16) (hcut : cut ≠ [])
    (hfit : (header ++ (whole.flatMap record ++ cut)).length < 2 ^ 32) {r : UnpackResult}
    (hstep : ∀ cursor : UInt32, cursor.toNat = (header ++ whole.flatMap record).length →
      ((whole.foldl store a).unpackStep (header ++ whole.flatMap record ++ cut) cursor).result =
        some r) :
    a.Unpacks (header ++ (whole.flatMap record ++ cut)) r := by
  have hne : (header ++ (whole.flatMap record ++ cut)).isEmpty = false := by
    cases header with
    | nil => cases hheader
    | cons => rfl
  obtain ⟨cursor, hcursor, hloop⟩ :=
    unpackLoop_append hknown a (show (16 : UInt32).toNat = _ by rw [hheader]; rfl) hfit 1
  have hmore : cursor.toNat < (header ++ (whole.flatMap record ++ cut)).length := by
    have hpos := List.length_pos_iff.mpr hcut
    simp only [hcursor, List.length_append]
    omega
  have hresult := hstep cursor hcursor
  rw [List.append_assoc] at hresult
  refine ⟨whole.length + 1, ?_⟩
  rw [unpack, if_neg (by rw [hne]; decide)]
  refine hloop.trans ?_
  rw [unpackLoop, if_pos hmore]
  cases hround : (whole.foldl store a).unpackStep (header ++ (whole.flatMap record ++ cut)) cursor
  all_goals
    rw [hround] at hresult
    exact hresult

/-- A message that ends within a record. -/
theorem unpack_cut (a : AuthAttributes) {whole : List SetCall} {c : SetCall} {m : Nat}
    (hknown : ∀ d ∈ whole ++ [c], typeOf d.tag = some d.type) {header : List UInt8}
    (hheader : header.length = 16) (hm : 0 < m) (hm' : m < c.record.length)
    (hfit : (header ++ (whole ++ [c]).flatMap record).length + 100030 < 2 ^ 32) :
    a.Unpacks (header ++ (whole.flatMap record ++ c.record.take m))
      (.nullptr (whole.foldl store a)) := by
  rw [List.flatMap_append, List.flatMap_singleton, ← List.append_assoc] at hfit
  have hcut : (c.record.take m).length = m := List.length_take_of_le (Nat.le_of_lt hm')
  refine a.unpacks_of_step (fun d hd => hknown d (List.mem_append_left _ hd)) hheader ?_ ?_
    fun cursor hcursor => ?_
  · rw [← List.length_pos_iff, hcut]
    exact hm
  · simp only [List.length_append, hcut] at hfit ⊢
    omega
  · rw [unpackStep_cut _ (hknown c (List.mem_append_right _ (List.mem_singleton_self c))) hcursor
      hm' hfit]
    rfl

theorem Unpacks.not_nullptr {a b b' : AuthAttributes} {p : List UInt8}
    (h : a.Unpacks p (.this b)) : ¬a.Unpacks p (.nullptr b') := by
  intro h'
  cases h.unique h'

/-- **Truncated messages.**  Of a message that `Pack` has written, the first bytes are rejected
exactly if they are more than the two headers and end within a record; otherwise they are accepted
as a smaller message. -/
theorem unpack_truncated (calls : List SetCall) (locals : PackLocals)
    (hsize : (new.setAll calls).packedSize + 100030 < 2 ^ 32) {buffer : List UInt8}
    {a' : AuthAttributes} (hpack : (new.setAll calls).Packs locals buffer a') {p : List UInt8}
    (hne : p ≠ []) (hp : p <+: buffer) (hstrict : p ≠ buffer) :
    ((∃ b, new.Unpacks p (.nullptr b)) ↔ 16 < p.length ∧ ¬EndsAtRecord a'.packedEntries p.length) ∧
    ((∃ b, new.Unpacks p (.this b)) ↔ p.length ≤ 16 ∨ EndsAtRecord a'.packedEntries p.length) := by
  have ha : (new.setAll calls).Filled := new_filled.setAll calls
  have haccepted {b : AuthAttributes} (h : new.Unpacks p (.this b))
      (hwhole : p.length ≤ 16 ∨ EndsAtRecord a'.packedEntries p.length) :
      ((∃ b, new.Unpacks p (.nullptr b)) ↔
        16 < p.length ∧ ¬EndsAtRecord a'.packedEntries p.length) ∧
      ((∃ b, new.Unpacks p (.this b)) ↔ p.length ≤ 16 ∨ EndsAtRecord a'.packedEntries p.length) :=
    ⟨iff_of_false (fun ⟨_, h'⟩ => h.not_nullptr h')
      fun hcut => hwhole.elim (Nat.not_le_of_lt hcut.1) hcut.2, iff_of_true ⟨b, h⟩ hwhole⟩
  by_cases hshort : p.length ≤ 16
  · exact haccepted (unpack_headers new hne hshort) (.inl hshort)
  have hfit := hpack.length_eq ha (by omega)
  obtain ⟨-, header, hheader, rfl⟩ := hpack.eq ha (by omega)
  have hknown : ∀ c ∈ a'.packedEntries, typeOf c.tag = some c.type :=
    fun c hc => typeOf_of_mem_packedEntries hc
  have hlength : p.length < (header ++ a'.packedEntries.flatMap record).length :=
    Nat.lt_of_not_le fun hle => hstrict (hp.eq_of_length_le hle)
  rw [List.length_append, hheader] at hlength
  -- The records before the cut, and the one that it falls into.
  obtain ⟨whole, c, rest, m, hentries, hm, hn, htake⟩ :=
    take_records (show p.length - 16 < (a'.packedEntries.flatMap record).length by omega)
  have hp' : p = header ++ (whole.flatMap record ++ c.record.take m) := by
    have heq := List.prefix_iff_eq_take.mp hp
    rwa [List.take_append, List.take_of_length_le (by omega), hheader, htake] at heq
  have hwithin : whole ++ [c] <+: a'.packedEntries := ⟨rest, by simp [hentries]⟩
  rw [List.length_append, hheader] at hfit
  have hrecords := length_records_le hwithin
  rcases Nat.eq_zero_or_pos m with rfl | hpos
  · -- the cut is in front of a record
    rw [List.take_zero, List.append_nil] at hp'
    have hwhole : EndsAtRecord a'.packedEntries p.length :=
      ⟨whole, (List.prefix_append _ _).trans hwithin, by omega⟩
    have hknown' : ∀ d ∈ whole, typeOf d.tag = some d.type :=
      fun d hd => hknown d (hwithin.subset (List.mem_append_left _ hd))
    have hunpack := unpack_records hknown' new hheader (by rw [← hp']; omega)
    rw [← hp'] at hunpack
    exact haccepted hunpack (.inr hwhole)
  · have hunpack := unpack_cut new (fun d hd => hknown d (hwithin.subset hd)) hheader hpos hm
      (by rw [List.length_append, hheader]; omega)
    rw [← hp'] at hunpack
    have hinside : ¬EndsAtRecord a'.packedEntries p.length := by
      have hn' : p.length = 16 + ((whole.flatMap record).length + m) := by omega
      rw [hentries, hn']
      exact not_endsAtRecord hpos hm
    refine ⟨iff_of_true ⟨_, hunpack⟩ ⟨by omega, hinside⟩, iff_of_false ?_ ?_⟩
    · rintro ⟨b, h⟩
      exact h.not_nullptr hunpack
    · exact fun h => h.elim hshort hinside

/-- The bound on the size cannot be dropped: of a message without a signature that is larger, the
cut within the tag of the signature is not noticed, and bytes behind the message are read. -/
theorem unpack_truncated_wraps (calls : List SetCall) (locals : PackLocals)
    (hsignature : (new.setAll calls).valueMap .uint8ArrayType authSignature = none)
    (hsize : (new.setAll calls).packedSize < 2 ^ 32)
    (hwraps : 2 ^ 32 ≤ (new.setAll calls).packedSize + 100030) {buffer : List UInt8}
    {a' : AuthAttributes} (hpack : (new.setAll calls).Packs locals buffer a') {m : Nat}
    (hm : 0 < m) (hm' : m < 4) :
    new.Unpacks (buffer.take ((new.setAll calls).packedSize - 8 + m)) .undefined := by
  have ha : (new.setAll calls).Filled := new_filled.setAll calls
  have hlength := hpack.length_eq ha hsize
  obtain ⟨rfl, header, hheader, rfl⟩ := hpack.eq ha hsize
  -- The signature is last, and eight bytes long when it has not been set.
  have hentry : (new.setAll calls).sortAttributes.signatureEntry.record.length = 8 := by
    have hunset : (new.setAll calls).sortAttributes.signatureEntry =
        ⟨.uint8ArrayType, authSignature, []⟩ := by
      rw [signatureEntry]
      exact congrArg _ (congrArg (Option.getD · []) hsignature)
    rw [hunset]
    rfl
  obtain ⟨front, hfront⟩ : ∃ front, (new.setAll calls).sortAttributes.packedEntries =
      front ++ [(new.setAll calls).sortAttributes.signatureEntry] := ⟨_, rfl⟩
  have hknown : ∀ c ∈ front, typeOf c.tag = some c.type := fun c hc =>
    typeOf_of_mem_packedEntries (hfront ▸ List.mem_append_left _ hc)
  rw [hfront, List.flatMap_append, List.flatMap_singleton] at hlength ⊢
  generalize (new.setAll calls).sortAttributes.signatureEntry.record = signature at *
  rw [List.length_append, List.length_append, hheader, hentry] at hlength
  have htake : (header ++ (front.flatMap record ++ signature)).take
      ((new.setAll calls).packedSize - 8 + m) =
        header ++ (front.flatMap record ++ signature.take m) := by
    rw [List.take_append, List.take_of_length_le (by omega), List.take_append,
      List.take_of_length_le (by omega)]
    congr 3
    omega
  have hcut : (signature.take m).length = m := List.length_take_of_le (by omega)
  rw [htake]
  refine new.unpacks_of_step hknown hheader ?_ ?_ fun cursor hcursor => ?_
  · rw [← List.length_pos_iff, hcut]
    exact hm
  · simp only [List.length_append, hcut]
    omega
  · rw [unpackStep_wraps _ hcursor (by omega) (by rw [List.length_append]; omega)
      (by rw [List.length_append]; omega)]
    rfl

section CodeMessage

/-- An object that holds one result code, and its message. -/
def codeCall : SetCall := ⟨.uint32Type, authResultCode, 1⟩

def codeBuffer : List UInt8 :=
  leBytes 4 100000 ++ (leBytes 4 28 ++ (leBytes 4 100020 ++ (leBytes 4 12 ++
    (codeCall.record ++ (leBytes 4 100004 ++ leBytes 4 0)))))

theorem codeCall_packs :
    ∃ a', (new.setAll [codeCall]).Packs ⟨true, 0, 0⟩ codeBuffer a' := by
  have hpack : ((new.setAll [codeCall]).pack 2 ⟨true, 0, 0⟩).map (·.1) = some codeBuffer := by
    decide +kernel
  obtain ⟨⟨buffer, a'⟩, hpack, rfl⟩ := Option.map_eq_some_iff.mp hpack
  exact ⟨a', 2, hpack⟩

/-- Without its signature, the message is accepted. -/
theorem unpack_truncated_accepted :
    ¬∀ (calls : List SetCall) (locals : PackLocals) (buffer : List UInt8) (a' : AuthAttributes),
      (new.setAll calls).Packs locals buffer a' → ∀ p : List UInt8, p ≠ [] → p <+: buffer →
        p ≠ buffer → ∃ b, new.Unpacks p (.nullptr b) := by
  intro h
  obtain ⟨a', hpack⟩ := codeCall_packs
  obtain ⟨b, hrejected⟩ := h [codeCall] _ codeBuffer a' hpack (codeBuffer.take 28) (by decide)
    (List.take_prefix _ _) (by decide)
  have haccepted : new.Unpacks (codeBuffer.take 16 ++ [codeCall].flatMap record)
      (.this ([codeCall].foldl store new)) :=
    unpack_records (by decide) new (by decide) (by decide)
  exact haccepted.not_nullptr hrejected

/-- The tag of the signature is cut in two. -/
theorem unpack_truncated_example :
    ∃ a', (new.setAll [codeCall]).Packs ⟨true, 0, 0⟩ codeBuffer a' ∧
      ((∃ b, new.Unpacks (codeBuffer.take 30) (.nullptr b)) ↔
        16 < (codeBuffer.take 30).length ∧
          ¬EndsAtRecord a'.packedEntries (codeBuffer.take 30).length) ∧
      ((∃ b, new.Unpacks (codeBuffer.take 30) (.this b)) ↔
        (codeBuffer.take 30).length ≤ 16 ∨
          EndsAtRecord a'.packedEntries (codeBuffer.take 30).length) := by
  obtain ⟨a', hpack⟩ := codeCall_packs
  exact ⟨a', hpack, unpack_truncated [codeCall] _ (by decide) hpack (by decide)
    (List.take_prefix _ _) (by decide)⟩

end CodeMessage

end UserIam.CoAuth.AuthAttributes
