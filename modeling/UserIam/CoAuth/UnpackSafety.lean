import UserIam.CoAuth.Truncation

/-!
# The rounds of Unpack

What the loop of `Unpack` does with a buffer of any other process: where its rounds start, how far
the position moves, and which bytes and which entries of the table a round uses.
-/

namespace UserIam.CoAuth.AuthAttributes

open Bytes

/-! ## 1. The records of a buffer -/

/-- What `authAttributesPosition_` holds. -/
abbrev Table := AuthAttributeType → Option (Option ValueType)

def recordTag (buffer : List UInt8) (position : UInt32) : AuthAttributeType :=
  getUint32FromUint8 buffer position

def recordLength (buffer : List UInt8) (position : UInt32) : UInt32 :=
  getUint32FromUint8 buffer (position + 4)

/-- Where the value of the record begins. -/
def recordValue (position : UInt32) : UInt32 :=
  position + 4 + 4

/-- The declared length as a natural number ends behind the buffer. -/
def Exceeds (buffer : List UInt8) (position : UInt32) : Prop :=
  buffer.length < (recordValue position).toNat + (recordLength buffer position).toNat

instance (buffer : List UInt8) (position : UInt32) : Decidable (Exceeds buffer position) :=
  inferInstanceAs (Decidable (_ < _))

/-- The length that the switch of `CheckLengthPass` asks for. -/
def fixedLength : Option ValueType → Option UInt32
  | some .boolType => some 1
  | some .uint32Type => some 4
  | some .uint64Type => some 8
  | _ => none

/-- The position behind a record, if the loop goes on from it. -/
def nextRecord (table : Table) (buffer : List UInt8) (position : UInt32) : Option UInt32 :=
  let dataLength := recordLength buffer position
  match table (recordTag buffer position) with
  | none => none
  | some type =>
    if checkLengthPass type (recordValue position) dataLength (UInt32.ofNat buffer.length) then
      match type with
      | none => some (recordValue position)
      | some .uint8ArrayType =>
        if Exceeds buffer position ∧ dataLength ≠ 0 then none
        else some (recordValue position + dataLength)
      | some _ => some (recordValue position + dataLength)
    else none

/-- The records of a buffer, one behind the other: the first is behind the two headers. -/
inductive RecordAt (table : Table) (buffer : List UInt8) : UInt32 → Prop
  | first : 16 < buffer.length → RecordAt table buffer 16
  | next {position position' : UInt32} : RecordAt table buffer position →
      nextRecord table buffer position = some position' → position'.toNat < buffer.length →
      RecordAt table buffer position'

theorem RecordAt.lt {table : Table} {buffer : List UInt8} {position : UInt32}
    (h : RecordAt table buffer position) : position.toNat < buffer.length := by
  cases h with
  | first h => exact h
  | next _ _ h => exact h

theorem checkLengthPass_iff {type : Option ValueType} {currIndex dataLength bufferLength : UInt32} :
    checkLengthPass type currIndex dataLength bufferLength = true ↔
      (currIndex + dataLength).toNat ≤ bufferLength.toNat ∧
        ∀ len, fixedLength type = some len → dataLength = len := by
  unfold checkLengthPass
  split
  · next hexceeds =>
    have hlt := UInt32.lt_iff_toNat_lt.mp hexceeds
    simp only [Bool.false_eq_true, false_iff]
    intro h
    omega
  · next hfits =>
    have hle := Nat.le_of_not_lt fun hlt => hfits (UInt32.lt_iff_toNat_lt.mpr hlt)
    rw [and_iff_right hle]
    rcases type with _ | type
    · simp [fixedLength]
    · cases type <;> simp [fixedLength]

theorem nextRecord_congr {table table' : Table} {buffer : List UInt8} {position : UInt32}
    (h : table (recordTag buffer position) = table' (recordTag buffer position)) :
    nextRecord table buffer position = nextRecord table' buffer position := by
  unfold nextRecord
  rw [h]

theorem nextRecord_unknown {table : Table} {buffer : List UInt8} {position : UInt32}
    (h : table (recordTag buffer position) = none) : nextRecord table buffer position = none := by
  unfold nextRecord
  rw [h]

theorem nextRecord_rejected {table : Table} {buffer : List UInt8} {position : UInt32}
    {type : Option ValueType} (h : table (recordTag buffer position) = some type)
    (hcheck : checkLengthPass type (recordValue position) (recordLength buffer position)
      (UInt32.ofNat buffer.length) = false) : nextRecord table buffer position = none := by
  simp only [nextRecord, h, hcheck]
  rfl

/-! ## 2. Rounds -/

/-- The rounds of the loop of `Unpack`: the object and the position at the start of each. -/
inductive Round (a : AuthAttributes) (buffer : List UInt8) : AuthAttributes → UInt32 → Prop
  | first : 16 < buffer.length → Round a buffer a 16
  | next {b b' : AuthAttributes} {position position' : UInt32} : Round a buffer b position →
      b.unpackStep buffer position = .next b' position' → position'.toNat < buffer.length →
      Round a buffer b' position'

/-- A setter that finds an entry for the tag leaves the table as it is. -/
theorem setValue_position (type : ValueType) {a : AuthAttributes} {tag : AuthAttributeType}
    {entry : Option ValueType} (h : a.authAttributesPosition tag = some entry)
    (value : type.Carrier) :
    (a.setValue type tag value).2.authAttributesPosition = a.authAttributesPosition := by
  have htouch : (a.touchPosition tag).authAttributesPosition = a.authAttributesPosition := by
    show Function.update a.authAttributesPosition tag _ = _
    rw [h]
    show Function.update a.authAttributesPosition tag (some entry) = _
    rw [← h, Function.update_eq_self]
  unfold setValue
  dsimp only
  split
  · exact htouch
  · exact htouch

section Step

variable {a : AuthAttributes} {buffer : List UInt8} {position : UInt32}

theorem unpackStep_unknown (h : a.authAttributesPosition (recordTag buffer position) = none) :
    a.unpackStep buffer position = .undefined := by
  have h' : a.authAttributesPosition (getUint32FromUint8 buffer position) = none := h
  simp only [unpackStep, unpackTag, h']

theorem unpackStep_known {type : Option ValueType}
    (h : a.authAttributesPosition (recordTag buffer position) = some type) :
    a.unpackStep buffer position =
      if checkLengthPass type (recordValue position) (recordLength buffer position)
          (UInt32.ofNat buffer.length) then
        a.unpackValue buffer (recordTag buffer position) type (recordValue position)
          (recordLength buffer position)
      else .nullptr a := by
  have h' : a.authAttributesPosition (getUint32FromUint8 buffer position) = some type := h
  simp only [unpackStep, unpackTag, h']
  rfl

/-- The position after the value of a record whose length has been checked. -/
theorem unpackValue_next {type : Option ValueType}
    (h : a.authAttributesPosition (recordTag buffer position) = some type)
    (hcheck : checkLengthPass type (recordValue position) (recordLength buffer position)
      (UInt32.ofNat buffer.length) = true) {position' : UInt32}
    (hnext : nextRecord a.authAttributesPosition buffer position = some position') :
    ∃ b, a.unpackValue buffer (recordTag buffer position) type (recordValue position)
        (recordLength buffer position) = .next b position' ∧
      b.authAttributesPosition = a.authAttributesPosition := by
  have hfixed := (checkLengthPass_iff.mp hcheck).2
  simp only [nextRecord, h, hcheck, if_true] at hnext
  rcases type with _ | type
  · cases hnext
    exact ⟨a, rfl, rfl⟩
  · cases type with
    -- the only type whose value is copied, so the only one for which the buffer may end too early
    | uint8ArrayType =>
      dsimp only at hnext
      split at hnext
      · cases hnext
      · next hinside =>
        cases hnext
        unfold unpackValue
        dsimp only
        unfold unpackUint8ArrayType
        -- An empty array is not stored, and the position stays in front of the next record.
        by_cases hzero : recordLength buffer position = 0
        · rw [if_pos hzero, hzero, UInt32.add_zero]
          exact ⟨a, rfl, rfl⟩
        · have hfits := Nat.le_of_not_lt fun hlt => hinside ⟨hlt, hzero⟩
          rw [if_neg hzero, if_pos hfits]
          exact ⟨_, rfl, setValue_position .uint8ArrayType h _⟩
    | boolType =>
      cases hnext
      -- The source moves by the size of the type; the check has made that the declared length.
      rw [hfixed 1 rfl]
      exact ⟨_, rfl, setValue_position .boolType h _⟩
    | uint32Type =>
      cases hnext
      rw [hfixed 4 rfl]
      exact ⟨_, rfl, setValue_position .uint32Type h _⟩
    | uint64Type =>
      cases hnext
      rw [hfixed 8 rfl]
      exact ⟨_, rfl, setValue_position .uint64Type h _⟩
    | uint32ArrayType =>
      cases hnext
      exact ⟨_, rfl, setValue_position .uint32ArrayType h _⟩
    | uint64ArrayType =>
      cases hnext
      exact ⟨_, rfl, setValue_position .uint64ArrayType h _⟩

theorem unpackStep_next {position' : UInt32}
    (hnext : nextRecord a.authAttributesPosition buffer position = some position') :
    ∃ b, a.unpackStep buffer position = .next b position' ∧
      b.authAttributesPosition = a.authAttributesPosition := by
  cases h : a.authAttributesPosition (recordTag buffer position) with
  | none =>
    rw [nextRecord_unknown h] at hnext
    cases hnext
  | some type =>
    cases hcheck : checkLengthPass type (recordValue position) (recordLength buffer position)
        (UInt32.ofNat buffer.length) with
    | false =>
      rw [nextRecord_rejected h hcheck] at hnext
      cases hnext
    | true =>
      rw [unpackStep_known h, if_pos hcheck]
      exact unpackValue_next h hcheck hnext

/-- Where the loop does not go on, it leaves: the length is refused, or the behaviour is
undefined. -/
theorem unpackStep_last (hnext : nextRecord a.authAttributesPosition buffer position = none) :
    a.unpackStep buffer position = .nullptr a ∨ a.unpackStep buffer position = .undefined := by
  cases h : a.authAttributesPosition (recordTag buffer position) with
  | none => exact .inr (unpackStep_unknown h)
  | some type =>
    rw [unpackStep_known h]
    split
    · next hcheck =>
      right
      -- A checked length ends the walk only where a copy would leave the buffer.
      simp only [nextRecord, h, hcheck, if_true] at hnext
      rcases type with _ | type
      · cases hnext
      · cases type with
        | uint8ArrayType =>
          dsimp only at hnext
          split at hnext
          · next hoverrun =>
            unfold unpackValue
            dsimp only
            unfold unpackUint8ArrayType
            rw [if_neg hoverrun.2, if_neg (Nat.not_le_of_lt hoverrun.1)]
          · cases hnext
        | boolType => cases hnext
        | uint32Type => cases hnext
        | uint64Type => cases hnext
        | uint32ArrayType => cases hnext
        | uint64ArrayType => cases hnext
    · exact .inl rfl

theorem nextRecord_of_unpackStep {b : AuthAttributes} {position' : UInt32}
    (hstep : a.unpackStep buffer position = .next b position') :
    nextRecord a.authAttributesPosition buffer position = some position' ∧
      b.authAttributesPosition = a.authAttributesPosition := by
  cases hnext : nextRecord a.authAttributesPosition buffer position with
  | none =>
    rcases unpackStep_last hnext with h | h
    all_goals
      rw [h] at hstep
      cases hstep
  | some position'' =>
    obtain ⟨b', hstep', hposition⟩ := unpackStep_next hnext
    rw [hstep'] at hstep
    cases hstep
    exact ⟨rfl, hposition⟩

end Step

/-- The rounds are at the records. -/
theorem Round.recordAt {a b : AuthAttributes} {buffer : List UInt8} {position : UInt32}
    (h : a.Round buffer b position) :
    RecordAt a.authAttributesPosition buffer position ∧
      b.authAttributesPosition = a.authAttributesPosition := by
  induction h with
  | first hmore => exact ⟨.first hmore, rfl⟩
  | next _ hstep hmore ih =>
    obtain ⟨hnext, hposition⟩ := nextRecord_of_unpackStep hstep
    rw [ih.2] at hnext
    exact ⟨.next ih.1 hnext hmore, hposition.trans ih.2⟩

theorem RecordAt.round {a : AuthAttributes} {buffer : List UInt8} {position : UInt32}
    (h : RecordAt a.authAttributesPosition buffer position) :
    ∃ b, a.Round buffer b position ∧ b.authAttributesPosition = a.authAttributesPosition := by
  induction h with
  | first hmore => exact ⟨a, .first hmore, rfl⟩
  | next _ hnext hmore ih =>
    obtain ⟨b, hround, hposition⟩ := ih
    rw [← hposition] at hnext
    obtain ⟨b', hstep, hposition'⟩ := unpackStep_next hnext
    exact ⟨b', .next hround hstep hmore, hposition'.trans hposition⟩

/-! ## 3. Unknown tags -/

/-- A buffer whose records carry only tags that the constructor knows. -/
def KnownTags (buffer : List UInt8) : Prop :=
  ∀ position, RecordAt new.authAttributesPosition buffer position →
    ∃ type, typeOf (recordTag buffer position) = some type

/-- Whatever has happened to the object, a known tag has its entry. -/
theorem nextRecord_new (a : AuthAttributes) {buffer : List UInt8} {position : UInt32}
    {type : ValueType} (h : typeOf (recordTag buffer position) = some type) :
    nextRecord a.authAttributesPosition buffer position =
      nextRecord new.authAttributesPosition buffer position := by
  apply nextRecord_congr
  rw [a.position_known h, new.position_known h]

theorem RecordAt.of_known (a : AuthAttributes) {buffer : List UInt8} (h : KnownTags buffer)
    {position : UInt32} (hrecord : RecordAt a.authAttributesPosition buffer position) :
    RecordAt new.authAttributesPosition buffer position := by
  induction hrecord with
  | first hmore => exact .first hmore
  | next _ hnext hmore ih =>
    obtain ⟨type, hknown⟩ := h _ ih
    -- The two tables may differ at unknown tags only, and the walk has met none so far.
    rw [nextRecord_new a hknown] at hnext
    exact .next ih hnext hmore

/-- Every tag that the loop looks up has an entry with a value type, and a buffer with any other tag
is refused at that record. -/
def LookupsTyped (a : AuthAttributes) (buffer : List UInt8) : Prop :=
  ∀ b position, a.Round buffer b position →
    (∃ type, b.authAttributesPosition (recordTag buffer position) = some (some type)) ∧
    ((∀ type, b.authAttributesPosition (recordTag buffer position) ≠ some (some type)) →
      b.unpackStep buffer position = .nullptr b)

theorem LookupsTyped.round {a : AuthAttributes} {buffer : List UInt8} (h : a.LookupsTyped buffer)
    {position : UInt32} (hrecord : RecordAt new.authAttributesPosition buffer position) :
    ∃ b, a.Round buffer b position := by
  induction hrecord with
  | first hmore => exact ⟨a, .first hmore⟩
  | next _ hnext hmore ih =>
    obtain ⟨b, hround⟩ := ih
    obtain ⟨type, hentry⟩ := (h b _ hround).1
    rw [← nextRecord_new b (b.position_typed hentry)] at hnext
    obtain ⟨b', hstep, -⟩ := unpackStep_next hnext
    exact ⟨b', .next hround hstep hmore⟩

/-- **Unknown tags.**  No history of the object matters: they are never interpreted exactly for the
buffers whose records carry only known tags. -/
theorem lookupsTyped_iff (a : AuthAttributes) (buffer : List UInt8) :
    a.LookupsTyped buffer ↔ KnownTags buffer := by
  constructor
  · intro htyped position hrecord
    -- A walk with the constructor's table is one with the object's, as long as every tag is typed.
    obtain ⟨b, hround⟩ := htyped.round hrecord
    obtain ⟨type, hentry⟩ := (htyped b _ hround).1
    exact ⟨type, b.position_typed hentry⟩
  · intro hknown b position hround
    obtain ⟨hrecord, -⟩ := hround.recordAt
    obtain ⟨type, htype⟩ := hknown position (hrecord.of_known a hknown)
    have hentry := b.position_known htype
    exact ⟨⟨type, hentry⟩, fun hother => absurd hentry (hother type)⟩

section UnknownTag

/-- One record, whose tag is 5, without a value. -/
def unknownBuffer : List UInt8 :=
  leBytes 4 100000 ++ (leBytes 4 16 ++ (leBytes 4 100020 ++ (leBytes 4 8 ++
    (leBytes 4 5 ++ leBytes 4 0))))

/-- The new object on which a `Set` call for the tag has failed. -/
def touchedObject : AuthAttributes := (new.setBoolValue 5 true).2

/-- A new object dereferences the end iterator; after the failed call, the buffer is accepted. -/
theorem unknown_lookedUp :
    ¬new.LookupsTyped unknownBuffer ∧ ¬touchedObject.LookupsTyped unknownBuffer ∧
      new.Unpacks unknownBuffer .undefined ∧
      touchedObject.Unpacks unknownBuffer (.this touchedObject) := by
  have hunknown (a : AuthAttributes) : ¬a.LookupsTyped unknownBuffer := by
    intro h
    obtain ⟨type, hentry⟩ := (h a 16 (.first (by decide))).1
    -- no object ever has a value type for the tag
    exact absurd (a.position_typed hentry) (by cases type <;> decide)
  refine ⟨hunknown _, hunknown _, ⟨1, rfl⟩, ⟨2, rfl⟩⟩

end UnknownTag

/-! ## 4. Bytes behind the buffer -/

/-- The 32-bit sum of the position and the declared length wraps, and `CheckLengthPass` takes it for
a position in the buffer. -/
def WrapsInside (buffer : List UInt8) (position : UInt32) : Prop :=
  2 ^ 32 ≤ position.toNat + 8 + (recordLength buffer position).toNat ∧
    position.toNat + 8 + (recordLength buffer position).toNat ≤ buffer.length + 2 ^ 32

theorem toNat_recordValue {buffer : List UInt8} (hsize : buffer.length < 2 ^ 31)
    {position : UInt32} (h : position.toNat < buffer.length) :
    (recordValue position).toNat = position.toNat + 8 := by
  have hlength : (position + 4).toNat = position.toNat + 4 :=
    toNat_add_of_lt (k := 4) rfl (by omega)
  exact toNat_add_of_lt (k := 4) hlength (by omega)

/-- What the comparison of `CheckLengthPass` says about natural numbers. -/
theorem checkLengthPass_length {buffer : List UInt8} (hsize : buffer.length < 2 ^ 31)
    {position : UInt32} (h : position.toNat < buffer.length) {type : Option ValueType}
    (hcheck : checkLengthPass type (recordValue position) (recordLength buffer position)
      (UInt32.ofNat buffer.length) = true) :
    (position.toNat + 8 + (recordLength buffer position).toNat) % 2 ^ 32 ≤ buffer.length := by
  have hle := (checkLengthPass_iff.mp hcheck).1
  rw [UInt32.toNat_add, toNat_recordValue hsize h,
    UInt32.toNat_ofNat_of_lt' (show _ < 2 ^ 32 by omega)] at hle
  exact hle

theorem checkLengthPass_wrapsInside {buffer : List UInt8} (hsize : buffer.length < 2 ^ 31)
    {position : UInt32} (h : position.toNat < buffer.length) {type : Option ValueType}
    (htype : fixedLength type = none) (hwraps : WrapsInside buffer position) :
    checkLengthPass type (recordValue position) (recordLength buffer position)
      (UInt32.ofNat buffer.length) = true := by
  rw [checkLengthPass_iff, UInt32.toNat_add, toNat_recordValue hsize h,
    UInt32.toNat_ofNat_of_lt' (show _ < 2 ^ 32 by omega)]
  obtain ⟨hwraps, hinside⟩ := hwraps
  refine ⟨?_, by simp [htype]⟩
  omega

/-- A value that passes ends in the buffer, or its length wraps. -/
theorem checkLengthPass_inside {buffer : List UInt8} (hsize : buffer.length < 2 ^ 31)
    {position : UInt32} (h : position.toNat < buffer.length) {type : Option ValueType}
    (hcheck : checkLengthPass type (recordValue position) (recordLength buffer position)
      (UInt32.ofNat buffer.length) = true) :
    ¬Exceeds buffer position ∨ fixedLength type = none ∧ WrapsInside buffer position := by
  have hle := checkLengthPass_length hsize h hcheck
  have hlen := (recordLength buffer position).toNat_lt
  unfold Exceeds WrapsInside
  rw [toNat_recordValue hsize h]
  cases htype : fixedLength type with
  | none =>
    simp only [true_and]
    omega
  | some len =>
    -- a fixed length is too short to wrap
    left
    have hfixed := (checkLengthPass_iff.mp hcheck).2 len htype
    have hshort : len.toNat ≤ 8 := by
      rcases type with _ | type
      · cases htype
      · cases type
        all_goals
          cases htype
        all_goals decide
    rw [hfixed] at hle ⊢
    omega

theorem WrapsInside.exceeds {buffer : List UInt8} (hsize : buffer.length < 2 ^ 31)
    {position : UInt32} (h : position.toNat < buffer.length)
    (hwraps : WrapsInside buffer position) :
    Exceeds buffer position := by
  obtain ⟨hwraps, -⟩ := hwraps
  unfold Exceeds
  rw [toNat_recordValue hsize h]
  omega

/-- The range of the value, and the words that the array loops read in it. -/
structure InsideBuffer (buffer : List UInt8) (position : UInt32) : Prop where
  range : (recordValue position).toNat + (recordLength buffer position).toNat ≤ buffer.length
  words : ∀ size ∈ [4, 8], ∀ i < (recordLength buffer position).toNat / size,
    (recordValue position + UInt32.ofNat (i * size)).toNat + size ≤ buffer.length

theorem insideBuffer_iff {buffer : List UInt8} (hsize : buffer.length < 2 ^ 31)
    {position : UInt32} : InsideBuffer buffer position ↔ ¬Exceeds buffer position := by
  unfold Exceeds
  constructor
  · intro h
    exact Nat.not_lt_of_le h.range
  · intro h
    refine ⟨by omega, fun size hmem i hi => ?_⟩
    have hpos : 0 < size := by
      rcases List.mem_cons.mp hmem with rfl | hmem
      · decide
      · rw [List.mem_singleton.mp hmem]
        decide
    -- the last byte of the word, before the position wraps
    have hword : (i + 1) * size ≤ (recordLength buffer position).toNat :=
      (Nat.mul_le_mul_right size hi).trans (Nat.div_mul_le_self _ _)
    rw [Nat.add_mul, Nat.one_mul] at hword
    rw [toNat_add_of_lt (k := i * size) rfl (by omega)]
    omega

/-- In every round in which `CheckLengthPass` returns true, the value is in the buffer. -/
def ReadsInside (a : AuthAttributes) (buffer : List UInt8) : Prop :=
  ∀ b position type, a.Round buffer b position →
    b.authAttributesPosition (recordTag buffer position) = some type →
    checkLengthPass type (recordValue position) (recordLength buffer position)
      (UInt32.ofNat buffer.length) = true → InsideBuffer buffer position

/-- **Reads.**  The check keeps the reads in the buffer exactly if no record of an array type, or of
a tag that a failed setter has left in the table, has a length that wraps. -/
theorem readsInside_iff (a : AuthAttributes) {buffer : List UInt8}
    (hsize : buffer.length < 2 ^ 31) :
    a.ReadsInside buffer ↔
      ∀ position type, RecordAt a.authAttributesPosition buffer position →
        a.authAttributesPosition (recordTag buffer position) = some type →
        fixedLength type = none → ¬WrapsInside buffer position := by
  constructor
  · intro hreads position type hrecord hentry htype hwraps
    obtain ⟨b, hround, hposition⟩ := hrecord.round
    rw [← hposition] at hentry
    -- The check lets the record through, so its round is one of those that are promised.
    have hinside := hreads b position type hround hentry
      (checkLengthPass_wrapsInside hsize hrecord.lt htype hwraps)
    exact (insideBuffer_iff hsize).mp hinside (hwraps.exceeds hsize hrecord.lt)
  · intro hwraps b position type hround hentry hcheck
    obtain ⟨hrecord, hposition⟩ := hround.recordAt
    rw [hposition] at hentry
    apply (insideBuffer_iff hsize).mpr
    rcases checkLengthPass_inside hsize hrecord.lt hcheck with h | ⟨htype, h⟩
    · exact h
    · exact absurd h (hwraps position type hrecord hentry htype)

section LongValue

/-- A uint8 array without a value, whose length makes the 32-bit sum wrap. -/
def longBuffer : List UInt8 :=
  leBytes 4 100000 ++ (leBytes 4 16 ++ (leBytes 4 100020 ++ (leBytes 4 8 ++
    (leBytes 4 100028 ++ leBytes 4 4294967288))))

/-- The check passes, and the range begins at the end of the buffer. -/
theorem longBuffer_not_readsInside : ¬new.ReadsInside longBuffer := by
  intro h
  have hinside := h new 16 (some .uint8ArrayType) (.first (by decide)) (by decide +kernel)
    (by decide +kernel)
  exact absurd hinside.range (by decide +kernel)

/-- A message with one record; the record is the last one. -/
theorem recordAt_code {position : UInt32}
    (h : RecordAt new.authAttributesPosition (codeBuffer.take 28) position) : position = 16 := by
  induction h with
  | first _ => rfl
  | next _ hnext hmore ih =>
    subst ih
    have hend : nextRecord new.authAttributesPosition (codeBuffer.take 28) 16 = some 28 := by
      decide +kernel
    rw [hend] at hnext
    cases hnext
    exact absurd hmore (by decide)

theorem readsInside_example : new.ReadsInside (codeBuffer.take 28) := by
  apply (readsInside_iff new (by decide)).mpr
  intro position type hrecord hentry htype
  have h := recordAt_code hrecord
  subst h
  have hcode : new.authAttributesPosition (recordTag (codeBuffer.take 28) 16) =
      some (some .uint32Type) := by decide +kernel
  rw [hcode] at hentry
  cases hentry
  cases htype

end LongValue

/-! ## 5. Termination -/

/-- `Unpack` returns a pointer, and each of its rounds leaves the position larger. -/
structure Advances (a : AuthAttributes) (buffer : List UInt8) : Prop where
  returns : (∃ b, a.Unpacks buffer (.this b)) ∨ ∃ b, a.Unpacks buffer (.nullptr b)
  larger : ∀ {b b' position position'}, a.Round buffer b position →
    b.unpackStep buffer position = .next b' position' → position < position'

/-- The length of an array brings the 32-bit position back to the record, or in front of it. -/
def TurnsBack (buffer : List UInt8) (position : UInt32) : Prop :=
  2 ^ 32 ≤ position.toNat + 8 + (recordLength buffer position).toNat ∧
    (recordLength buffer position).toNat + 8 ≤ 2 ^ 32

/-- A record that `Unpack` gets past, or that it refuses. -/
structure Forward (table : Table) (buffer : List UInt8) (position : UInt32) : Prop where
  known : ∃ type, table (recordTag buffer position) = some type
  inside : table (recordTag buffer position) = some (some .uint8ArrayType) →
    ¬WrapsInside buffer position
  ahead : ∀ type ∈ [ValueType.uint32ArrayType, ValueType.uint64ArrayType],
    table (recordTag buffer position) = some (some type) → ¬TurnsBack buffer position

theorem nextRecord_array {table : Table} {buffer : List UInt8} {position : UInt32}
    {type : ValueType} (htype : type ∈ [ValueType.uint32ArrayType, ValueType.uint64ArrayType])
    (h : table (recordTag buffer position) = some (some type))
    (hcheck : checkLengthPass (some type) (recordValue position) (recordLength buffer position)
      (UInt32.ofNat buffer.length) = true) :
    nextRecord table buffer position =
      some (recordValue position + recordLength buffer position) := by
  simp only [nextRecord, h, hcheck, if_true]
  rcases List.mem_cons.mp htype with rfl | htype
  · rfl
  · rw [List.mem_singleton.mp htype]

/-- The record turns the loop back. -/
theorem nextRecord_turnsBack {table : Table} {buffer : List UInt8}
    (hsize : buffer.length < 2 ^ 31) {position : UInt32} (hmore : position.toNat < buffer.length)
    {type : ValueType} (htype : type ∈ [ValueType.uint32ArrayType, ValueType.uint64ArrayType])
    (h : table (recordTag buffer position) = some (some type))
    (hback : TurnsBack buffer position) :
    ∃ position', nextRecord table buffer position = some position' ∧ ¬position < position' := by
  obtain ⟨hwraps, hshort⟩ := hback
  have hfixed : fixedLength (some type) = none := by
    rcases List.mem_cons.mp htype with rfl | htype
    · rfl
    · rw [List.mem_singleton.mp htype]
      rfl
  have hcheck := checkLengthPass_wrapsInside hsize hmore hfixed ⟨hwraps, by omega⟩
  refine ⟨_, nextRecord_array htype h hcheck, ?_⟩
  rw [UInt32.lt_iff_toNat_lt, UInt32.toNat_add, toNat_recordValue hsize hmore]
  omega

theorem nextRecord_cases {table : Table} {buffer : List UInt8} {position position' : UInt32}
    {entry : Option ValueType} (h : table (recordTag buffer position) = some entry)
    (hnext : nextRecord table buffer position = some position') :
    entry = none ∧ position' = recordValue position ∨
      ∃ type, entry = some type ∧
        position' = recordValue position + recordLength buffer position ∧
        (type = .uint8ArrayType →
          ¬(Exceeds buffer position ∧ recordLength buffer position ≠ 0)) := by
  simp only [nextRecord, h] at hnext
  split at hnext
  · rcases entry with _ | type
    · cases hnext
      exact .inl ⟨rfl, rfl⟩
    · refine .inr ⟨type, rfl, ?_⟩
      cases type with
      | uint8ArrayType =>
        dsimp only at hnext
        split at hnext
        · cases hnext
        · next hinside =>
          cases hnext
          exact ⟨rfl, fun _ => hinside⟩
      | _ =>
        cases hnext
        exact ⟨rfl, by simp⟩
  · cases hnext

theorem lt_recordValue {buffer : List UInt8} (hsize : buffer.length < 2 ^ 31) {position : UInt32}
    (hmore : position.toNat < buffer.length) : position < recordValue position := by
  rw [UInt32.lt_iff_toNat_lt, toNat_recordValue hsize hmore]
  omega

theorem Forward.lt {table : Table} {buffer : List UInt8} (hsize : buffer.length < 2 ^ 31)
    {position position' : UInt32} (hmore : position.toNat < buffer.length)
    (h : Forward table buffer position)
    (hnext : nextRecord table buffer position = some position') :
    position < position' := by
  have hvalue := toNat_recordValue hsize hmore
  have hlen := (recordLength buffer position).toNat_lt
  obtain ⟨entry, hentry⟩ := h.known
  rcases nextRecord_cases hentry hnext with ⟨-, rfl⟩ | ⟨type, rfl, rfl, huint8⟩
  · exact lt_recordValue hsize hmore
  rw [UInt32.lt_iff_toNat_lt, UInt32.toNat_add, hvalue]
  cases hcheck : checkLengthPass (some type) (recordValue position) (recordLength buffer position)
      (UInt32.ofNat buffer.length) with
  | false =>
    rw [nextRecord_rejected hentry hcheck] at hnext
    cases hnext
  | true =>
    rcases checkLengthPass_inside hsize hmore hcheck with hinside | ⟨hfixed, hwraps⟩
    -- no wrap: the position after the value is the natural sum
    · unfold Exceeds at hinside
      omega
    · -- the length wraps, so the tag is that of an array
      have hexceeds := hwraps.exceeds hsize hmore
      obtain ⟨hsum, -⟩ := hwraps
      have hahead (hback : ¬TurnsBack buffer position) :
          2 ^ 32 < (recordLength buffer position).toNat + 8 :=
        Nat.lt_of_not_le fun hle => hback ⟨hsum, hle⟩
      cases type with
      | uint8ArrayType =>
        -- A copy that wraps leaves the buffer, so the walk has ended there.
        refine absurd ⟨hexceeds, fun hzero => ?_⟩ (huint8 rfl)
        rw [hzero] at hsum
        have hzero : (0 : UInt32).toNat = 0 := rfl
        omega
      | uint32ArrayType =>
        have hfar := hahead (h.ahead _ (by simp) hentry)
        omega
      | uint64ArrayType =>
        have hfar := hahead (h.ahead _ (by simp) hentry)
        omega
      | boolType => cases hfixed
      | uint32Type => cases hfixed
      | uint64Type => cases hfixed

/-- The loop does not read behind the buffer, and uses no entry that is not there. -/
theorem Forward.ne_undefined {a : AuthAttributes} {buffer : List UInt8}
    (hsize : buffer.length < 2 ^ 31) {position : UInt32} (hmore : position.toNat < buffer.length)
    (h : Forward a.authAttributesPosition buffer position) :
    a.unpackStep buffer position ≠ .undefined := by
  obtain ⟨entry, hentry⟩ := h.known
  rw [unpackStep_known hentry]
  split
  · next hcheck =>
    rcases entry with _ | type
    · simp [unpackValue]
    · cases type with
      | uint8ArrayType =>
        show a.unpackUint8ArrayType _ _ _ _ ≠ _
        unfold unpackUint8ArrayType
        split
        · simp
        · rcases checkLengthPass_inside hsize hmore hcheck with hinside | ⟨-, hwraps⟩
          · rw [if_pos (Nat.le_of_not_lt hinside)]
            simp
          · exact absurd hwraps (h.inside hentry)
      | _ => simp [unpackValue, unpackUint32ArrayType, unpackUint64ArrayType]
  · simp

theorem Round.unpacks {a b : AuthAttributes} {buffer : List UInt8} {position : UInt32}
    (h : a.Round buffer b position) (fuel : Nat) {r : UnpackResult}
    (hloop : unpackLoop buffer fuel b position = some r) : a.Unpacks buffer r := by
  induction h generalizing fuel with
  | first hmore =>
    refine ⟨fuel, ?_⟩
    have hne : buffer.isEmpty = false := by
      cases buffer with
      | nil => cases hmore
      | cons => rfl
    rw [unpack, if_neg (by rw [hne]; decide)]
    exact hloop
  | next hround hstep _ ih =>
    -- One round more in front of the loop costs one unit of fuel.
    apply ih (fuel + 1)
    rw [unpackLoop, if_pos hround.recordAt.1.lt, hstep]
    exact hloop

/-- With all records behind the position in order, the loop returns. -/
theorem Round.returns {a : AuthAttributes} {buffer : List UInt8} (hsize : buffer.length < 2 ^ 31)
    (h : ∀ position, RecordAt a.authAttributesPosition buffer position →
      Forward a.authAttributesPosition buffer position) (k : Nat) {b : AuthAttributes}
    {position : UInt32} (hround : a.Round buffer b position)
    (hk : buffer.length - position.toNat ≤ k) :
    (∃ b', a.Unpacks buffer (.this b')) ∨ ∃ b', a.Unpacks buffer (.nullptr b') := by
  -- on the number of bytes behind the position, which every round makes smaller
  induction k generalizing b position with
  | zero =>
    have hmore := hround.recordAt.1.lt
    omega
  | succ k ih =>
    obtain ⟨hrecord, hposition⟩ := hround.recordAt
    have hmore := hrecord.lt
    have hforward := h position hrecord
    rw [← hposition] at hforward
    cases hstep : b.unpackStep buffer position with
    | undefined => exact absurd hstep (hforward.ne_undefined hsize hmore)
    | nullptr b' =>
      refine .inr ⟨b', hround.unpacks 1 ?_⟩
      rw [unpackLoop, if_pos hmore, hstep]
    | next b' position' =>
      by_cases hmore' : position'.toNat < buffer.length
      · apply ih (.next hround hstep hmore')
        have hlt := hforward.lt hsize hmore (nextRecord_of_unpackStep hstep).1
        rw [UInt32.lt_iff_toNat_lt] at hlt
        omega
      · refine .inl ⟨b', hround.unpacks 2 ?_⟩
        rw [unpackLoop, if_pos hmore, hstep]
        dsimp only
        rw [unpackLoop, if_neg hmore']

/-- **Termination.**  `Unpack` returns, each round getting further, exactly if every record that the
loop comes to has an entry in the table and no array length of 32-bit wrap-around takes it back or
behind the buffer. -/
theorem advances_iff (a : AuthAttributes) {buffer : List UInt8} (hsize : buffer.length < 2 ^ 31) :
    a.Advances buffer ↔
      ∀ position, RecordAt a.authAttributesPosition buffer position →
        Forward a.authAttributesPosition buffer position := by
  constructor
  · intro hadvances position hrecord
    obtain ⟨b, hround, hposition⟩ := hrecord.round
    have hmore := hrecord.lt
    -- A round with undefined behaviour is not a return, and the result is unique.
    have hdefined : b.unpackStep buffer position ≠ .undefined := by
      intro hstep
      have hundefined : a.Unpacks buffer .undefined := by
        apply hround.unpacks 1
        rw [unpackLoop, if_pos hmore, hstep]
      rcases hadvances.returns with ⟨b', h⟩ | ⟨b', h⟩
      all_goals cases h.unique hundefined
    refine ⟨?_, ?_, ?_⟩
    · rw [← hposition]
      cases hentry : b.authAttributesPosition (recordTag buffer position) with
      | none => exact absurd (unpackStep_unknown hentry) hdefined
      | some entry => exact ⟨entry, rfl⟩
    · intro hentry hwraps
      rw [← hposition] at hentry
      apply hdefined
      have hexceeds := hwraps.exceeds hsize hmore
      have hne : recordLength buffer position ≠ 0 := by
        intro hzero
        unfold WrapsInside at hwraps
        rw [hzero] at hwraps
        have hzero : (0 : UInt32).toNat = 0 := rfl
        omega
      rw [unpackStep_known hentry, if_pos (checkLengthPass_wrapsInside hsize hmore rfl hwraps)]
      show b.unpackUint8ArrayType _ _ _ _ = _
      rw [unpackUint8ArrayType, if_neg hne, if_neg (Nat.not_le_of_lt hexceeds)]
    · intro type htype hentry hback
      rw [← hposition] at hentry
      -- An array that turns back contradicts the growth, not the return.
      obtain ⟨position', hnext, hnot⟩ := nextRecord_turnsBack hsize hmore htype hentry hback
      obtain ⟨b', hstep, -⟩ := unpackStep_next hnext
      exact hnot (hadvances.larger hround hstep)
  · intro h
    refine ⟨?_, ?_⟩
    -- Without a byte behind the two headers there is no round at all.
    · rcases Nat.lt_or_ge 16 buffer.length with hmore | hshort
      · exact Round.returns hsize h _ (.first hmore) le_rfl
      · by_cases hne : buffer = []
        · rw [hne]
          exact .inr ⟨a, 0, rfl⟩
        · exact .inl ⟨a, a.unpack_headers hne hshort⟩
    · intro b b' position position' hround hstep
      obtain ⟨hrecord, hposition⟩ := hround.recordAt
      obtain ⟨hnext, -⟩ := nextRecord_of_unpackStep hstep
      rw [hposition] at hnext
      exact (h position hrecord).lt hsize hrecord.lt hnext

section TurningBack

/-- A list of template ids without a value, whose length brings the position back to the record. -/
def turningBuffer : List UInt8 :=
  leBytes 4 100000 ++ (leBytes 4 16 ++ (leBytes 4 100020 ++ (leBytes 4 8 ++
    (leBytes 4 100007 ++ leBytes 4 4294967288))))

theorem unpackLoop_turningBuffer (fuel : Nat) (a : AuthAttributes) :
    unpackLoop turningBuffer fuel a 16 = none := by
  -- The object may have changed after a round, the position has not.
  induction fuel generalizing a with
  | zero => rfl
  | succ fuel ih =>
    have hnext : nextRecord a.authAttributesPosition turningBuffer 16 = some 16 := by
      have htype : typeOf (recordTag turningBuffer 16) = some .uint64ArrayType := by
        decide +kernel
      rw [nextRecord_new a htype]
      decide +kernel
    obtain ⟨b, hstep, -⟩ := unpackStep_next hnext
    rw [unpackLoop, if_pos (by decide), hstep]
    exact ih b

/-- The loop stays at the record for ever. -/
theorem turningBuffer_not_advances :
    ¬new.Advances turningBuffer ∧ ¬∃ r, new.Unpacks turningBuffer r := by
  have hnever : ¬∃ r, new.Unpacks turningBuffer r := by
    rintro ⟨r, fuel, h⟩
    rw [unpack, if_neg (by decide)] at h
    have hloop : unpackLoop turningBuffer fuel new 16 = some r := h
    rw [unpackLoop_turningBuffer] at hloop
    cases hloop
  refine ⟨fun h => ?_, hnever⟩
  rcases h.returns with ⟨b, h⟩ | ⟨b, h⟩
  all_goals exact hnever ⟨_, h⟩

theorem advances_example : new.Advances (codeBuffer.take 28) := by
  apply (advances_iff new (by decide)).mpr
  intro position hrecord
  have h := recordAt_code hrecord
  subst h
  have hcode : new.authAttributesPosition (recordTag (codeBuffer.take 28) 16) =
      some (some .uint32Type) := by decide +kernel
  refine ⟨⟨_, hcode⟩, ?_, ?_⟩
  · rw [hcode]
    simp
  · rw [hcode]
    simp

end TurningBack

end UserIam.CoAuth.AuthAttributes
