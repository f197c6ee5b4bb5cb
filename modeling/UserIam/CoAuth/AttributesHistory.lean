import UserIam.CoAuth.PackLayout

/-!
# The list of tags beside the values

An object keeps the tags that have been set in a list of their own.  `clear` empties the values and
not the list, and what `Pack` then writes for a listed tag is what its locals happen to hold.
-/

namespace UserIam.CoAuth.AuthAttributes

open Bytes SetCall

/-! ## 1. Histories -/

inductive AttributesOp where
  | set (c : SetCall)
  | unpack (buffer : List UInt8)
  | pack (locals : PackLocals)
  | clear

/-- The object after a call that has returned. -/
inductive Performs : AuthAttributes → AttributesOp → AuthAttributes → Prop
  | set (a : AuthAttributes) (c : SetCall) : Performs a (.set c) (a.set c)
  | unpack {a b : AuthAttributes} {buffer : List UInt8} {r : UnpackResult} :
      a.Unpacks buffer r → r.object = some b → Performs a (.unpack buffer) b
  | pack {a b : AuthAttributes} {locals : PackLocals} {buffer : List UInt8} :
      a.Packs locals buffer b → Performs a (.pack locals) b
  | clear (a : AuthAttributes) : Performs a .clear a.clear

/-- The calls on a new object, each with the object in front of it, and the object behind the
last. -/
inductive History : List (AuthAttributes × AttributesOp) → AuthAttributes → Prop
  | new : History [] AuthAttributes.new
  | call {trace : List (AuthAttributes × AttributesOp)} {a b : AuthAttributes}
      {op : AttributesOp} :
      History trace a → Performs a op b → History (trace ++ [(a, op)]) b

/-- All states of the object. -/
def states (trace : List (AuthAttributes × AttributesOp)) (a : AuthAttributes) :
    List AuthAttributes :=
  trace.map Prod.fst ++ [a]

theorem states_concat (trace : List (AuthAttributes × AttributesOp)) (a b : AuthAttributes)
    (op : AttributesOp) : states (trace ++ [(a, op)]) b = states trace a ++ [b] := by
  simp [states]

/-- A call leaves one of the states behind. -/
theorem History.performs {trace : List (AuthAttributes × AttributesOp)} {a s : AuthAttributes}
    {op : AttributesOp} (h : History trace a) (hs : (s, op) ∈ trace) :
    ∃ b ∈ states trace a, Performs s op b := by
  induction h with
  | new => cases hs
  | @call trace a b _ _ hperforms ih =>
    rw [states_concat]
    rcases List.mem_append.mp hs with hs | hs
    · obtain ⟨b', hb', hperforms'⟩ := ih hs
      exact ⟨b', List.mem_append_left _ hb', hperforms'⟩
    · cases List.mem_singleton.mp hs
      exact ⟨b, List.mem_append_right _ (List.mem_singleton.mpr rfl), hperforms⟩

/-! ## 2. Presence -/

/-- A tag is listed exactly when the getter of its type finds a value, and `Pack` does not write
what its locals hold. -/
structure PresenceAgrees (a : AuthAttributes) : Prop where
  listed : ∀ tag, tag ∈ a.existAttributes ↔
    ∃ type, typeOf tag = some type ∧ ∀ value, (a.getValue type tag value).1 = .success
  locals : ∀ locals locals' buffer b, a.Packs locals buffer b → a.Packs locals' buffer b

theorem getValue_success {a : AuthAttributes} {type : ValueType} {tag : AuthAttributeType}
    {v : type.Carrier} (h : a.valueMap type tag = some v) (value : type.Carrier) :
    (a.getValue type tag value).1 = .success := by
  rw [getValue, h]

/-- A getter that succeeds has found a value. -/
theorem exists_value {a : AuthAttributes} {type : ValueType} {tag : AuthAttributeType}
    {value : type.Carrier} (h : (a.getValue type tag value).1 = .success) :
    ∃ v, a.valueMap type tag = some v := by
  unfold getValue at h
  cases hv : a.valueMap type tag with
  | none =>
    rw [hv] at h
    cases h
  | some v => exact ⟨v, rfl⟩

theorem Filled.presenceAgrees {a : AuthAttributes} (ha : a.Filled) : a.PresenceAgrees where
  listed tag := by
    constructor
    · intro htag
      obtain ⟨type, htype⟩ := a.exist_typed htag
      obtain ⟨v, hv⟩ := ha.stored htag htype
      exact ⟨type, htype, getValue_success hv⟩
    · rintro ⟨type, -, hsuccess⟩
      obtain ⟨value⟩ := exists_carrier type
      obtain ⟨v, hv⟩ := exists_value (hsuccess value)
      exact (ha.listed hv).1
  locals _ locals' _ _ h := ha.packs_locals locals' h

/-- After `clear`, no getter succeeds. -/
theorem presenceAgrees_clear {a : AuthAttributes} (h : a.clear.PresenceAgrees) :
    a.existAttributes = [] := by
  apply List.eq_nil_iff_forall_not_mem.mpr
  intro tag htag
  obtain ⟨type, -, hsuccess⟩ := (h.listed tag).mp htag
  obtain ⟨value⟩ := exists_carrier type
  obtain ⟨v, hv⟩ := exists_value (hsuccess value)
  cases hv

theorem Filled.clear {a : AuthAttributes} (h : a.existAttributes = []) : a.clear.Filled := by
  constructor
  · intro tag type htag _
    have hlisted : tag ∈ a.existAttributes := htag
    rw [h] at hlisted
    cases hlisted
  · intro tag type v hv
    cases hv

/-- Every call but one keeps the list and the values together. -/
theorem Filled.performs {a b : AuthAttributes} {op : AttributesOp} (ha : a.Filled)
    (h : Performs a op b) (hclear : op = .clear → a.existAttributes = []) : b.Filled := by
  cases h with
  | set c => exact ha.set c
  | unpack hr hb =>
    obtain ⟨sets, -, rfl⟩ := hr.sets hb
    exact ha.setAll sets
  | pack hpack =>
    obtain ⟨-, -, rfl⟩ := packs_iff.mp hpack
    exact ha.sortAttributes
  | clear => exact Filled.clear (hclear rfl)

theorem History.filled {trace : List (AuthAttributes × AttributesOp)} {a : AuthAttributes}
    (h : History trace a) (hclear : ∀ s, (s, .clear) ∈ trace → s.existAttributes = []) :
    ∀ s ∈ states trace a, s.Filled := by
  induction h with
  | new =>
    intro s hs
    rw [List.mem_singleton.mp hs]
    exact new_filled
  | @call trace a b op _ hperforms ih =>
    have hbefore := ih fun s hs => hclear s (List.mem_append_left _ hs)
    have ha : a.Filled := hbefore a (List.mem_append_right _ (List.mem_singleton.mpr rfl))
    intro s hs
    rw [states_concat] at hs
    rcases List.mem_append.mp hs with hs | hs
    · exact hbefore s hs
    · rw [List.mem_singleton.mp hs]
      apply ha.performs hperforms
      rintro rfl
      exact hclear a (List.mem_append_right _ (List.mem_singleton.mpr rfl))

/-- **Presence.**  In all states of a history the list agrees with the values, exactly if `clear` is
called only while no tag is listed. -/
theorem presence_iff {trace : List (AuthAttributes × AttributesOp)} {a : AuthAttributes}
    (h : History trace a) :
    (∀ s ∈ states trace a, s.PresenceAgrees) ↔
      ∀ s, (s, .clear) ∈ trace → s.existAttributes = [] := by
  constructor
  · intro hagrees s hs
    obtain ⟨b, hb, hperforms⟩ := h.performs hs
    cases hperforms
    exact presenceAgrees_clear (hagrees _ hb)
  · intro hclear s hs
    exact (h.filled hclear s hs).presenceAgrees

section Cleared

/-- The number of attempts that are left is set, and the object is cleared. -/
def clearedTrace : List (AuthAttributes × AttributesOp) :=
  [(new, .set ⟨.uint32Type, authRemainCount, 3⟩),
   (new.set ⟨.uint32Type, authRemainCount, 3⟩, .clear)]

def clearedObject : AuthAttributes :=
  (new.set ⟨.uint32Type, authRemainCount, 3⟩).clear

/-- The tag is still listed, its getter fails, and `Pack` writes the local. -/
theorem cleared_not_presenceAgrees :
    History clearedTrace clearedObject ∧ ¬clearedObject.PresenceAgrees ∧
      authRemainCount ∈ clearedObject.existAttributes ∧
      (clearedObject.getUint32Value authRemainCount 0).1 = .fail ∧
      ∀ n, ∃ b, clearedObject.Packs ⟨false, n, 0⟩
        (frame (leBytes 4 authRemainCount.toNat ++ (leBytes 4 4 ++ leBytes 4 n.toNat))
          (leBytes 4 authSignature.toNat ++ leBytes 4 0)) b := by
  have hlisted : (new.set ⟨.uint32Type, authRemainCount, 3⟩).existAttributes ≠ [] := by decide
  refine ⟨.call (.call .new (.set _ _)) (.clear _), fun h => hlisted (presenceAgrees_clear h),
    by decide, rfl, fun n => ?_⟩
  exact ⟨_, packs_iff.mpr ⟨by decide, rfl, rfl⟩⟩

/-- Cleared first, then set and packed. -/
theorem presence_iff_example :
    let a := new.clear.set ⟨.uint32Type, authRemainCount, 3⟩
    let trace : List (AuthAttributes × AttributesOp) :=
      [(new, .clear), (new.clear, .set ⟨.uint32Type, authRemainCount, 3⟩)]
    (∀ s ∈ states trace a, s.PresenceAgrees) ↔
      ∀ s, (s, .clear) ∈ trace → s.existAttributes = [] :=
  presence_iff (.call (.call .new (.clear _)) (.set _ _))

end Cleared

end UserIam.CoAuth.AuthAttributes
