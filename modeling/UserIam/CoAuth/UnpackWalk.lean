import UserIam.CoAuth.ExecutorMessengerIpc
import UserIam.CoAuth.UnpackSafety

/-!
# What Unpack stores

`Unpack` stores the records that its loop gets past, one `Set` call for each.  Whatever it returns,
the object has made these calls.
-/

namespace UserIam.CoAuth.AuthAttributes

open Bytes SetCall

/-! ## 1. The call of a record -/

/-- The value that the switch stores: an empty byte array is not stored. -/
def storedValue (buffer : List UInt8) (begin dataLength : UInt32) :
    (type : ValueType) → Option type.Carrier
  | .boolType => some (getBoolFromUint8 buffer begin)
  | .uint32Type => some (getUint32FromUint8 buffer begin)
  | .uint64Type => some (getUint64FromUint8 buffer begin)
  | .uint32ArrayType => some (getUint32ArrayFromUint8 buffer begin dataLength)
  | .uint64ArrayType => some (getUint64ArrayFromUint8 buffer begin dataLength)
  | .uint8ArrayType =>
    if dataLength = 0 then none
    else some ((buffer.drop begin.toNat).take dataLength.toNat)

/-- The `Set` call that `Unpack` makes for a record. -/
def recordSet (buffer : List UInt8) (position : UInt32) : Option SetCall :=
  (typeOf (recordTag buffer position)).bind fun type =>
    (storedValue buffer (recordValue position) (recordLength buffer position) type).map
      fun value => ⟨type, recordTag buffer position, value⟩

theorem recordSet_eq {buffer : List UInt8} {position : UInt32} {type : ValueType}
    (h : typeOf (recordTag buffer position) = some type) :
    recordSet buffer position =
      (storedValue buffer (recordValue position) (recordLength buffer position) type).map
        fun value => ⟨type, recordTag buffer position, value⟩ := by
  rw [recordSet, h, Option.bind_some]

theorem recordSet_typed {buffer : List UInt8} {position : UInt32} {c : SetCall}
    (h : recordSet buffer position = some c) : typeOf c.tag = some c.type := by
  obtain ⟨type, htype, hvalue⟩ := Option.bind_eq_some_iff.mp h
  obtain ⟨value, -, rfl⟩ := Option.map_eq_some_iff.mp hvalue
  exact htype

/-- One case of the switch for each type. -/
theorem unpackValue_sets {a b : AuthAttributes} {buffer : List UInt8}
    {position position' : UInt32} {type : Option ValueType}
    (htype : a.authAttributesPosition (recordTag buffer position) = some type)
    (h : a.unpackValue buffer (recordTag buffer position) type (recordValue position)
      (recordLength buffer position) = .next b position') :
    b = a.setAll (recordSet buffer position).toList := by
  rcases type with _ | type
  -- an entry without a type: nothing is stored
  · have hunknown : typeOf (recordTag buffer position) = none := by
      cases hknown : typeOf (recordTag buffer position) with
      | none => rfl
      | some type => cases htype.symm.trans (a.position_known hknown)
    cases h
    rw [recordSet, hunknown]
    rfl
  · rw [recordSet_eq (a.position_typed htype)]
    cases type with
    | uint8ArrayType =>
      unfold unpackValue at h
      dsimp only at h
      unfold unpackUint8ArrayType at h
      unfold storedValue
      split at h
      · next hzero =>
        cases h
        rw [if_pos hzero]
        rfl
      · next hne =>
        rw [if_neg hne]
        split at h
        · cases h
          rfl
        · cases h
    | _ =>
      cases h
      rfl

/-- A round stores its record. -/
theorem unpackStep_sets {a b : AuthAttributes} {buffer : List UInt8} {position position' : UInt32}
    (h : a.unpackStep buffer position = .next b position') :
    b = a.setAll (recordSet buffer position).toList := by
  cases htype : a.authAttributesPosition (recordTag buffer position) with
  | none =>
    rw [unpackStep_unknown htype] at h
    cases h
  | some type =>
    rw [unpackStep_known htype] at h
    split at h
    · exact unpackValue_sets htype h
    · cases h

theorem unpackValue_ne_nullptr (a b : AuthAttributes) (buffer : List UInt8)
    (tag : AuthAttributeType) (type : Option ValueType) (begin dataLength : UInt32) :
    a.unpackValue buffer tag type begin dataLength ≠ .nullptr b := by
  intro h
  rcases type with _ | type
  · cases h
  · cases type with
    | uint8ArrayType =>
      unfold unpackValue at h
      dsimp only at h
      unfold unpackUint8ArrayType at h
      split at h
      · cases h
      · split at h
        · cases h
        · cases h
    | _ => cases h

/-- Only the length check makes a round return null, and it leaves the object as it is. -/
theorem unpackStep_refused {a b : AuthAttributes} {buffer : List UInt8} {position : UInt32}
    (h : a.unpackStep buffer position = .nullptr b) :
    b = a ∧ ∃ type, a.authAttributesPosition (recordTag buffer position) = some type ∧
      checkLengthPass type (recordValue position) (recordLength buffer position)
        (UInt32.ofNat buffer.length) = false := by
  cases htype : a.authAttributesPosition (recordTag buffer position) with
  | none =>
    rw [unpackStep_unknown htype] at h
    cases h
  | some type =>
    rw [unpackStep_known htype] at h
    split at h
    · exact absurd h (unpackValue_ne_nullptr a b buffer _ type _ _)
    · next hcheck =>
      cases h
      exact ⟨rfl, type, rfl, by simpa using hcheck⟩

/-! ## 2. The walk of the loop -/

/-- The loop has got past these records and stands at the position. -/
inductive Walk (table : Table) (buffer : List UInt8) : List UInt32 → UInt32 → Prop
  | first : Walk table buffer [] 16
  | next {positions : List UInt32} {position position' : UInt32} :
      Walk table buffer positions position → position.toNat < buffer.length →
      nextRecord table buffer position = some position' →
      Walk table buffer (positions ++ [position]) position'

/-- The length check fails for the record at the position. -/
def Refused (table : Table) (buffer : List UInt8) (position : UInt32) : Prop :=
  position.toNat < buffer.length ∧ ∃ type, table (recordTag buffer position) = some type ∧
    checkLengthPass type (recordValue position) (recordLength buffer position)
      (UInt32.ofNat buffer.length) = false

/-- The `Set` calls for records. -/
def recordSets (buffer : List UInt8) (positions : List UInt32) : List SetCall :=
  positions.filterMap (recordSet buffer)

theorem recordSets_typed {buffer : List UInt8} {positions : List UInt32} {c : SetCall}
    (h : c ∈ recordSets buffer positions) : typeOf c.tag = some c.type := by
  obtain ⟨position, -, hset⟩ := List.mem_filterMap.mp h
  exact recordSet_typed hset

theorem setAll_append (a : AuthAttributes) (calls calls' : List SetCall) :
    a.setAll (calls ++ calls') = (a.setAll calls).setAll calls' :=
  List.foldl_append

theorem setAll_recordSets_concat (a : AuthAttributes) (buffer : List UInt8)
    (positions : List UInt32) (position : UInt32) :
    a.setAll (recordSets buffer (positions ++ [position])) =
      (a.setAll (recordSets buffer positions)).setAll (recordSet buffer position).toList := by
  rw [recordSets, List.filterMap_append, setAll_append, List.filterMap_cons, List.filterMap_nil]
  cases recordSet buffer position <;> rfl

/-- The loop along a walk: one unit of fuel for each record. -/
theorem Walk.loop {a : AuthAttributes} {buffer : List UInt8} {positions : List UInt32}
    {position : UInt32} (h : Walk a.authAttributesPosition buffer positions position)
    (fuel : Nat) :
    (a.setAll (recordSets buffer positions)).authAttributesPosition = a.authAttributesPosition ∧
      unpackLoop buffer (positions.length + fuel) a 16 =
        unpackLoop buffer fuel (a.setAll (recordSets buffer positions)) position := by
  induction h generalizing fuel with
  | first =>
    refine ⟨rfl, ?_⟩
    rw [List.length_nil, Nat.zero_add]
    rfl
  | @next positions position position' _ hmore hnext ih =>
    obtain ⟨htable, hloop⟩ := ih (fuel + 1)
    rw [← htable] at hnext
    obtain ⟨b, hstep, hposition⟩ := unpackStep_next hnext
    have hb := unpackStep_sets hstep
    rw [← setAll_recordSets_concat] at hb
    subst hb
    refine ⟨hposition.trans htable, ?_⟩
    rw [List.length_append, List.length_singleton, Nat.add_assoc, Nat.add_comm 1, hloop,
      unpackLoop, if_pos hmore, hstep]

/-- What the loop returns from a point of the walk. -/
inductive WalkEnds (a : AuthAttributes) (buffer : List UInt8) (positions : List UInt32)
    (position : UInt32) : UnpackResult → Prop
  | this : buffer.length ≤ position.toNat →
      WalkEnds a buffer positions position (.this (a.setAll (recordSets buffer positions)))
  | nullptr : Refused a.authAttributesPosition buffer position →
      WalkEnds a buffer positions position (.nullptr (a.setAll (recordSets buffer positions)))

theorem unpack_eq_loop (a : AuthAttributes) {buffer : List UInt8} (hne : buffer ≠ [])
    (fuel : Nat) : a.unpack fuel buffer = unpackLoop buffer fuel a 16 := by
  rw [unpack, if_neg (by simpa using hne)]
  rfl

/-- A walk that has come to its end is what `Unpack` returns. -/
theorem Walk.unpacks {a : AuthAttributes} {buffer : List UInt8} (hne : buffer ≠ [])
    {positions : List UInt32} {position : UInt32}
    (h : Walk a.authAttributesPosition buffer positions position) {r : UnpackResult}
    (hend : WalkEnds a buffer positions position r) : a.Unpacks buffer r := by
  obtain ⟨htable, hloop⟩ := h.loop 1
  refine ⟨positions.length + 1, ?_⟩
  rw [unpack_eq_loop a hne, hloop, unpackLoop]
  cases hend with
  | this hdone => rw [if_neg (Nat.not_lt_of_le hdone)]
  | nullptr hrefused =>
    obtain ⟨hmore, type, htype, hcheck⟩ := hrefused
    rw [← htable] at htype
    rw [if_pos hmore, unpackStep_known htype, if_neg (by rw [hcheck]; decide)]

theorem unpackLoop_walk {a : AuthAttributes} {buffer : List UInt8} {positions : List UInt32}
    {position : UInt32} (h : Walk a.authAttributesPosition buffer positions position)
    {fuel : Nat} {r : UnpackResult}
    (hloop : unpackLoop buffer fuel (a.setAll (recordSets buffer positions)) position = some r)
    (hdefined : r ≠ .undefined) :
    ∃ positions' position', Walk a.authAttributesPosition buffer positions' position' ∧
      WalkEnds a buffer positions' position' r := by
  -- on the rounds that are left; each makes the walk longer by its record
  induction fuel generalizing positions position with
  | zero => cases hloop
  | succ fuel ih =>
    rw [unpackLoop] at hloop
    split at hloop
    · next hmore =>
      have htable := (h.loop 0).1
      cases hstep : (a.setAll (recordSets buffer positions)).unpackStep buffer position with
      | next b position' =>
        have hb := unpackStep_sets hstep
        rw [← setAll_recordSets_concat] at hb
        subst hb
        obtain ⟨hnext, -⟩ := nextRecord_of_unpackStep hstep
        rw [htable] at hnext
        rw [hstep] at hloop
        exact ih (.next h hmore hnext) hloop
      | nullptr b =>
        rw [hstep] at hloop
        cases hloop
        obtain ⟨rfl, type, htype, hcheck⟩ := unpackStep_refused hstep
        exact ⟨positions, position, h, .nullptr ⟨hmore, type, htable ▸ htype, hcheck⟩⟩
      | undefined =>
        rw [hstep] at hloop
        cases hloop
        exact absurd rfl hdefined
    · next hdone =>
      cases hloop
      exact ⟨positions, position, h, .this (Nat.le_of_not_lt hdone)⟩

/-- `Unpack` returns exactly what a walk ends with. -/
theorem unpacks_iff_walk {a : AuthAttributes} {buffer : List UInt8} (hne : buffer ≠ [])
    {r : UnpackResult} (hdefined : r ≠ .undefined) :
    a.Unpacks buffer r ↔
      ∃ positions position, Walk a.authAttributesPosition buffer positions position ∧
        WalkEnds a buffer positions position r := by
  constructor
  · rintro ⟨fuel, h⟩
    rw [unpack_eq_loop a hne] at h
    exact unpackLoop_walk .first h hdefined
  · rintro ⟨positions, position, hwalk, hend⟩
    exact hwalk.unpacks hne hend

/-! ## 3. The calls of Unpack -/

/-- The `Set` calls that `Unpack` makes before it returns a pointer. -/
def UnpackSets (a : AuthAttributes) (buffer : List UInt8) (sets : List SetCall) : Prop :=
  buffer = [] ∧ sets = [] ∨
    buffer ≠ [] ∧ ∃ positions position, Walk a.authAttributesPosition buffer positions position ∧
      (buffer.length ≤ position.toNat ∨ Refused a.authAttributesPosition buffer position) ∧
      sets = recordSets buffer positions

theorem UnpackSets.typed {a : AuthAttributes} {buffer : List UInt8} {sets : List SetCall}
    (h : a.UnpackSets buffer sets) {c : SetCall} (hc : c ∈ sets) : typeOf c.tag = some c.type := by
  rcases h with ⟨-, rfl⟩ | ⟨-, positions, position, -, -, rfl⟩
  · cases hc
  · exact recordSets_typed hc

/-- The object behind the pointer has made these calls, and no others. -/
theorem UnpackSets.object_eq {a b : AuthAttributes} {buffer : List UInt8} {sets : List SetCall}
    (h : a.UnpackSets buffer sets) {r : UnpackResult} (hr : a.Unpacks buffer r)
    (hb : r.object = some b) : b = a.setAll sets := by
  rcases h with ⟨rfl, rfl⟩ | ⟨hne, positions, position, hwalk, hend, rfl⟩
  · have hempty : a.Unpacks [] (.nullptr a) := ⟨0, rfl⟩
    rw [hr.unique hempty] at hb
    exact (Option.some.inj hb).symm
  · rcases hend with hdone | hrefused
    · rw [hr.unique (hwalk.unpacks hne (.this hdone))] at hb
      exact (Option.some.inj hb).symm
    · rw [hr.unique (hwalk.unpacks hne (.nullptr hrefused))] at hb
      exact (Option.some.inj hb).symm

/-- Whenever `Unpack` returns a pointer, it has made some calls. -/
theorem Unpacks.sets {a b : AuthAttributes} {buffer : List UInt8} {r : UnpackResult}
    (h : a.Unpacks buffer r) (hb : r.object = some b) :
    ∃ sets, a.UnpackSets buffer sets ∧ b = a.setAll sets := by
  have hsets : ∃ sets, a.UnpackSets buffer sets := by
    by_cases hne : buffer = []
    · exact ⟨[], .inl ⟨hne, rfl⟩⟩
    · have hdefined : r ≠ .undefined := by
        intro hr
        rw [hr] at hb
        cases hb
      obtain ⟨positions, position, hwalk, hend⟩ := (unpacks_iff_walk hne hdefined).mp h
      refine ⟨_, .inr ⟨hne, positions, position, hwalk, ?_, rfl⟩⟩
      cases hend with
      | this hdone => exact .inl hdone
      | nullptr hrefused => exact .inr hrefused
  obtain ⟨sets, hsets⟩ := hsets
  exact ⟨sets, hsets, hsets.object_eq h hb⟩

end UserIam.CoAuth.AuthAttributes
