import Mathlib.Data.List.Sort
import UserIam.Bytes.LittleEndian
import UserIam.Defines

/-!
# AuthAttributes

The tag-length-value container that executors and services exchange: the six value maps, the table
of tags, `Pack` and `Unpack`.  All lengths and positions are 32-bit numbers that wrap, as in the
source; words are written in the little-endian order of the host.
-/

namespace UserIam.CoAuth

open Bytes

/-! ## 1. Tags and value types -/

abbrev AuthAttributeType := UInt32

def authRoot : AuthAttributeType := 100000
def authResultCode : AuthAttributeType := 100001
def authSignature : AuthAttributeType := 100004
def authIdentifyMode : AuthAttributeType := 100005
def authTemplateId : AuthAttributeType := 100006
def authTemplateIdList : AuthAttributeType := 100007
def authRemainCount : AuthAttributeType := 100009
def authRemainTime : AuthAttributeType := 100010
def authScheduleId : AuthAttributeType := 100014
def authCallerName : AuthAttributeType := 100015
def authScheduleVersion : AuthAttributeType := 100016
def authLockOutTemplate : AuthAttributeType := 100018
def authUnlockTemplate : AuthAttributeType := 100019
def authData : AuthAttributeType := 100020
def authSubtype : AuthAttributeType := 100021
def authScheduleMode : AuthAttributeType := 100022
def authPropertyMode : AuthAttributeType := 100023
def authType : AuthAttributeType := 100024
def authCredentialId : AuthAttributeType := 100025
def authController : AuthAttributeType := 100026
def authCallerUid : AuthAttributeType := 100027
def authResult : AuthAttributeType := 100028
def algorithmInfo : AuthAttributeType := 100030

inductive ValueType where
  | boolType
  | uint32Type
  | uint64Type
  | uint32ArrayType
  | uint8ArrayType
  | uint64ArrayType
  deriving DecidableEq, Repr

@[reducible] def ValueType.Carrier : ValueType → Type
  | .boolType => Bool
  | .uint32Type => UInt32
  | .uint64Type => UInt64
  | .uint32ArrayType => List UInt32
  | .uint8ArrayType => List UInt8
  | .uint64ArrayType => List UInt64

/-- The table that the constructor fills in. -/
def initialPosition : List (AuthAttributeType × ValueType) :=
  [(authResultCode, .uint32Type),
   (authResultCode, .uint32Type),
   (authSignature, .uint8ArrayType),
   (authIdentifyMode, .uint32Type),
   (authTemplateId, .uint64Type),
   (authTemplateIdList, .uint64ArrayType),
   (authRemainCount, .uint32Type),
   (authRemainTime, .uint32Type),
   (authScheduleId, .uint64Type),
   (authCallerName, .uint8ArrayType),
   (authScheduleVersion, .uint32Type),
   (authLockOutTemplate, .uint64Type),
   (authUnlockTemplate, .uint64Type),
   (authSubtype, .uint64Type),
   (authScheduleMode, .uint32Type),
   (authPropertyMode, .uint32Type),
   (authType, .uint32Type),
   (authCredentialId, .uint64Type),
   (authController, .boolType),
   (authCallerUid, .uint64Type),
   (authResult, .uint8ArrayType),
   (algorithmInfo, .uint8ArrayType)]

/-- The value type that the constructor gives a tag. -/
def typeOf (tag : AuthAttributeType) : Option ValueType :=
  initialPosition.lookup tag

/-! ## 2. The container -/

/-- The six value maps are one family.  An entry of `authAttributesPosition` holds `none` when
`operator[]` has created it for a tag that the constructor does not know: no value type is zero. -/
structure AuthAttributes where
  valueMap : (type : ValueType) → AuthAttributeType → Option type.Carrier
  authAttributesPosition : AuthAttributeType → Option (Option ValueType)
  existAttributes : List AuthAttributeType
  position_known : ∀ {tag type}, typeOf tag = some type →
    authAttributesPosition tag = some (some type)
  position_typed : ∀ {tag type}, authAttributesPosition tag = some (some type) →
    typeOf tag = some type
  exist_typed : ∀ {tag}, tag ∈ existAttributes → ∃ type, typeOf tag = some type

namespace AuthAttributes

def new : AuthAttributes where
  valueMap _ _ := none
  authAttributesPosition tag := (typeOf tag).map some
  existAttributes := []
  position_known h := by rw [h]; rfl
  position_typed h := by simpa using h
  exist_typed h := by cases h

/-- Only the values go: the tags stay in `existAttributes`. -/
def clear (a : AuthAttributes) : AuthAttributes :=
  { a with valueMap := fun _ _ => none }

def getValue (type : ValueType) (a : AuthAttributes) (attrType : AuthAttributeType)
    (value : type.Carrier) : ResultCode × type.Carrier :=
  match a.valueMap type attrType with
  | none => (.fail, value)
  | some v => (.success, v)

def getBoolValue := getValue .boolType
def getUint32Value := getValue .uint32Type
def getUint64Value := getValue .uint64Type
def getUint32ArrayValue := getValue .uint32ArrayType
def getUint64ArrayValue := getValue .uint64ArrayType
def getUint8ArrayValue := getValue .uint8ArrayType

/-- `authAttributesPosition_[attrType]` creates the entry that is missing. -/
def touchPosition (a : AuthAttributes) (attrType : AuthAttributeType) : AuthAttributes where
  valueMap := a.valueMap
  authAttributesPosition :=
    Function.update a.authAttributesPosition attrType
      (some ((a.authAttributesPosition attrType).getD none))
  existAttributes := a.existAttributes
  -- an entry that is there stays as it is
  position_known {tag type} h := by
    have hpos := a.position_known h
    by_cases ht : tag = attrType
    · subst ht
      rw [Function.update_self, hpos]
      rfl
    · rw [Function.update_of_ne ht, hpos]
  -- the entry that is created has no type
  position_typed {tag type} h := by
    by_cases ht : tag = attrType
    · subst ht
      rw [Function.update_self] at h
      cases hp : a.authAttributesPosition tag with
      | none => simp [hp] at h
      | some entry =>
        rw [hp] at h
        exact a.position_typed (hp.trans h)
    · rw [Function.update_of_ne ht] at h
      exact a.position_typed h
  exist_typed := a.exist_typed

/-- The write of a `Set` call once the type of the tag has been checked. -/
def putValue (type : ValueType) (a : AuthAttributes) (attrType : AuthAttributeType)
    (value : type.Carrier) (h : a.authAttributesPosition attrType = some (some type)) :
    AuthAttributes where
  valueMap :=
    Function.update a.valueMap type (Function.update (a.valueMap type) attrType (some value))
  authAttributesPosition := a.authAttributesPosition
  existAttributes := a.existAttributes ++ [attrType]
  position_known := a.position_known
  position_typed := a.position_typed
  exist_typed {tag} ht := by
    rw [List.mem_append, List.mem_singleton] at ht
    rcases ht with ht | rfl
    · exact a.exist_typed ht
    · exact ⟨type, a.position_typed h⟩

def setValue (type : ValueType) (a : AuthAttributes) (attrType : AuthAttributeType)
    (value : type.Carrier) : ResultCode × AuthAttributes :=
  let a := a.touchPosition attrType
  if h : a.authAttributesPosition attrType = some (some type) then
    (.success, a.putValue type attrType value h)
  -- the entry that has been created stays
  else (.fail, a)

def setBoolValue := setValue .boolType
def setUint32Value := setValue .uint32Type
def setUint64Value := setValue .uint64Type
def setUint32ArrayValue := setValue .uint32ArrayType
def setUint64ArrayValue := setValue .uint64ArrayType
def setUint8ArrayValue := setValue .uint8ArrayType

/-! ## 3. Pack -/

/-- The locals of `PackToBuffer` that a failing getter leaves uninitialised. -/
structure PackLocals where
  boolValue : Bool
  uint32Value : UInt32
  uint64Value : UInt64

def writeDataLength (buffer : List UInt8) (dataLength : UInt32) : List UInt8 :=
  buffer ++ leBytes 4 dataLength.toNat

def write32Array (uint32ArrayValue : List UInt32) (buffer : List UInt8) : List UInt8 :=
  buffer ++ uint32ArrayValue.flatMap fun v => leBytes 4 v.toNat

def write64Array (uint64ArrayValue : List UInt64) (buffer : List UInt8) : List UInt8 :=
  buffer ++ uint64ArrayValue.flatMap fun v => leBytes 8 v.toNat

/-- The length and the value of a tag; `position` is the type in its table entry. -/
def packToBuffer (a : AuthAttributes) (locals : PackLocals) (tag : AuthAttributeType)
    (position : Option ValueType) (buffer : List UInt8) : List UInt8 :=
  match position with
  | some .boolType =>
    let (_, boolValue) := a.getBoolValue tag locals.boolValue
    writeDataLength buffer 1 ++ [cond boolValue 1 0]
  | some .uint32Type =>
    let (_, uint32Value) := a.getUint32Value tag locals.uint32Value
    writeDataLength buffer 4 ++ leBytes 4 uint32Value.toNat
  | some .uint64Type =>
    let (_, uint64Value) := a.getUint64Value tag locals.uint64Value
    writeDataLength buffer 8 ++ leBytes 8 uint64Value.toNat
  | some .uint32ArrayType =>
    let (_, uint32ArrayValue) := a.getUint32ArrayValue tag []
    write32Array uint32ArrayValue
      (writeDataLength buffer (UInt32.ofNat (4 * uint32ArrayValue.length)))
  | some .uint64ArrayType =>
    let (_, uint64ArrayValue) := a.getUint64ArrayValue tag []
    write64Array uint64ArrayValue
      (writeDataLength buffer (UInt32.ofNat (8 * uint64ArrayValue.length)))
  | some .uint8ArrayType =>
    let (code, uint8ArrayValue) := a.getUint8ArrayValue tag []
    -- the only type whose getter is checked
    if code ≠ 0 then writeDataLength buffer 0
    else
      let dataLength := UInt32.ofNat uint8ArrayValue.length
      writeDataLength buffer dataLength ++ uint8ArrayValue.take dataLength.toNat
  -- the default of the switch
  | none => buffer

def writeTag (buffer : List UInt8) (tag : AuthAttributeType) : List UInt8 :=
  buffer ++ leBytes 4 tag.toNat

/-- The table entry that `authAttributesPosition_.find` points to. -/
def findPosition (a : AuthAttributes) (tag : AuthAttributeType) : Option ValueType :=
  (a.authAttributesPosition tag).join

/-- The body of the loop of `Pack`. -/
def packAttribute (a : AuthAttributes) (locals : PackLocals) (tag : AuthAttributeType)
    (buffer : List UInt8) : List UInt8 :=
  if tag = authRoot ∨ tag = authData ∨ tag = authSignature then buffer
  else a.packToBuffer locals tag (a.findPosition tag) (writeTag buffer tag)

/-- `for (uint32_t i = 0; i != existAttributes_.size(); i++)`: the index has 32 bits, the size has
more. -/
def packLoop (a : AuthAttributes) (locals : PackLocals) :
    Nat → UInt32 → List UInt8 → Option (List UInt8)
  | 0, _, _ => none
  | fuel + 1, i, buffer =>
    -- with 2^32 tags the index starts again and never meets the size
    if i.toNat ≠ a.existAttributes.length then
      a.existAttributes[i.toNat]?.bind fun tag =>
        packLoop a locals fuel (i + 1) (a.packAttribute locals tag buffer)
    else some buffer

/-- What `Pack` puts around the attributes: the data header in front, the signature behind, and the
root header in front of both. -/
def packFrame (a : AuthAttributes) (locals : PackLocals) (buffer : List UInt8) : List UInt8 :=
  let authDataLength := UInt32.ofNat buffer.length
  let buffer := leBytes 4 authDataLength.toNat ++ buffer
  let buffer := leBytes 4 authData.toNat ++ buffer
  -- the signature, whether it has been set or not
  let buffer := writeTag buffer authSignature
  let buffer := a.packToBuffer locals authSignature (a.findPosition authSignature) buffer
  -- from here on around the signature too
  let authDataLength := UInt32.ofNat buffer.length
  let buffer := leBytes 4 authDataLength.toNat ++ buffer
  leBytes 4 authRoot.toNat ++ buffer

/-- `sort(existAttributes_.begin(), existAttributes_.end())` -/
def sortAttributes (a : AuthAttributes) : AuthAttributes :=
  { a with
    existAttributes := a.existAttributes.insertionSort (· ≤ ·)
    exist_typed := fun h => a.exist_typed ((List.mem_insertionSort _).mp h) }

def pack (fuel : Nat) (a : AuthAttributes) (locals : PackLocals) :
    Option (List UInt8 × AuthAttributes) :=
  let a := a.sortAttributes
  (a.packLoop locals fuel 0 []).map fun buffer => (a.packFrame locals buffer, a)

/-- `Pack` returns with this buffer and leaves the object in this state. -/
def Packs (a : AuthAttributes) (locals : PackLocals) (buffer : List UInt8) (a' : AuthAttributes) :
    Prop :=
  ∃ fuel, a.pack fuel locals = some (buffer, a')

/-! ## 4. Unpack -/

def getUint32FromUint8 (data : List UInt8) (begin : UInt32) : AuthAttributeType :=
  if begin.toNat ≥ data.length ∨ data.length - begin.toNat < 4 then algorithmInfo
  else UInt32.ofNat (readLe 4 data begin.toNat)

def getBoolFromUint8 (data : List UInt8) (begin : UInt32) : Bool :=
  if begin.toNat ≥ data.length ∨ data.length - begin.toNat < 1 then false
  else readLe 1 data begin.toNat ≠ 0

def getUint64FromUint8 (data : List UInt8) (begin : UInt32) : UInt64 :=
  if begin.toNat ≥ data.length ∨ data.length - begin.toNat < 8 then 0
  else UInt64.ofNat (readLe 8 data begin.toNat)

def getUint32ArrayFromUint8 (data : List UInt8) (begin len : UInt32) : List UInt32 :=
  (List.range (len.toNat / 4)).map fun i => getUint32FromUint8 data (begin + UInt32.ofNat (i * 4))

def getUint64ArrayFromUint8 (data : List UInt8) (begin len : UInt32) : List UInt64 :=
  (List.range (len.toNat / 8)).map fun i => getUint64FromUint8 data (begin + UInt32.ofNat (i * 8))

/-- The tag, the length, and the position behind them. -/
def unpackTag (buffer : List UInt8) (authDataLength : UInt32) :
    AuthAttributeType × UInt32 × UInt32 :=
  let tag := getUint32FromUint8 buffer authDataLength
  let authDataLength := authDataLength + 4
  let dataLength := getUint32FromUint8 buffer authDataLength
  (tag, dataLength, authDataLength + 4)

def checkLengthPass (type : Option ValueType) (currIndex dataLength bufferLength : UInt32) : Bool :=
  -- a 32-bit sum, which may wrap
  if currIndex + dataLength > bufferLength then false
  else
    match type with
    | some .boolType => dataLength = 1
    | some .uint32Type => dataLength = 4
    | some .uint64Type => dataLength = 8
    -- arrays have any length
    | _ => true

/-- How one round of the loop of `Unpack` ends.  `undefined` stands for undefined behaviour: the end
iterator of the table is dereferenced, or bytes behind the buffer are copied. -/
inductive UnpackStep where
  | next (a : AuthAttributes) (authDataLength : UInt32)
  | nullptr (a : AuthAttributes)
  | undefined

def unpackUint32ArrayType (a : AuthAttributes) (buffer : List UInt8) (tag : AuthAttributeType)
    (authDataLength dataLength : UInt32) : UnpackStep :=
  let uint32ArrayValue := getUint32ArrayFromUint8 buffer authDataLength dataLength
  .next (a.setUint32ArrayValue tag uint32ArrayValue).2 (authDataLength + dataLength)

def unpackUint64ArrayType (a : AuthAttributes) (buffer : List UInt8) (tag : AuthAttributeType)
    (authDataLength dataLength : UInt32) : UnpackStep :=
  let uint64ArrayValue := getUint64ArrayFromUint8 buffer authDataLength dataLength
  .next (a.setUint64ArrayValue tag uint64ArrayValue).2 (authDataLength + dataLength)

/-- An empty array is not stored. -/
def unpackUint8ArrayType (a : AuthAttributes) (buffer : List UInt8) (tag : AuthAttributeType)
    (authDataLength dataLength : UInt32) : UnpackStep :=
  if dataLength = 0 then .next a authDataLength
  else if authDataLength.toNat + dataLength.toNat ≤ buffer.length then
    let uint8ArrayValue := (buffer.drop authDataLength.toNat).take dataLength.toNat
    .next (a.setUint8ArrayValue tag uint8ArrayValue).2 (authDataLength + dataLength)
  else .undefined

/-- The switch of `Unpack`.  A type that no constant names leaves the position on the value. -/
def unpackValue (a : AuthAttributes) (buffer : List UInt8) (tag : AuthAttributeType)
    (type : Option ValueType) (authDataLength dataLength : UInt32) : UnpackStep :=
  match type with
  | some .boolType =>
    .next (a.setBoolValue tag (getBoolFromUint8 buffer authDataLength)).2 (authDataLength + 1)
  | some .uint32Type =>
    .next (a.setUint32Value tag (getUint32FromUint8 buffer authDataLength)).2 (authDataLength + 4)
  | some .uint64Type =>
    .next (a.setUint64Value tag (getUint64FromUint8 buffer authDataLength)).2 (authDataLength + 8)
  | some .uint32ArrayType => a.unpackUint32ArrayType buffer tag authDataLength dataLength
  | some .uint64ArrayType => a.unpackUint64ArrayType buffer tag authDataLength dataLength
  | some .uint8ArrayType => a.unpackUint8ArrayType buffer tag authDataLength dataLength
  | none => .next a authDataLength

/-- The body of the loop of `Unpack`. -/
def unpackStep (a : AuthAttributes) (buffer : List UInt8) (authDataLength : UInt32) : UnpackStep :=
  let (tag, dataLength, authDataLength) := unpackTag buffer authDataLength
  match a.authAttributesPosition tag with
  -- the iterator is not compared with the end
  | none => .undefined
  | some type =>
    if checkLengthPass type authDataLength dataLength (UInt32.ofNat buffer.length) then
      a.unpackValue buffer tag type authDataLength dataLength
    else .nullptr a

/-- The pointer that `Unpack` returns, with the state of the object behind it. -/
inductive UnpackResult where
  | this (a : AuthAttributes)
  | nullptr (a : AuthAttributes)
  | undefined

/-- `while (authDataLength < buffer.size())` -/
def unpackLoop (buffer : List UInt8) : Nat → AuthAttributes → UInt32 → Option UnpackResult
  | 0, _, _ => none
  | fuel + 1, a, authDataLength =>
    if authDataLength.toNat < buffer.length then
      match a.unpackStep buffer authDataLength with
      | .next a authDataLength => unpackLoop buffer fuel a authDataLength
      | .nullptr a => some (.nullptr a)
      | .undefined => some .undefined
    else some (.this a)

def unpack (fuel : Nat) (a : AuthAttributes) (buffer : List UInt8) : Option UnpackResult :=
  if buffer.isEmpty then some (.nullptr a)
  else
    -- the root and the data header
    let (_, _, authDataLength) := unpackTag buffer 0
    let (_, _, authDataLength) := unpackTag buffer authDataLength
    unpackLoop buffer fuel a authDataLength

/-- `Unpack` returns with this result. -/
def Unpacks (a : AuthAttributes) (buffer : List UInt8) (r : UnpackResult) : Prop :=
  ∃ fuel, a.unpack fuel buffer = some r

end AuthAttributes

end UserIam.CoAuth
