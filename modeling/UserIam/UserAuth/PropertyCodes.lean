import UserIam.CoAuth.AttributesRoundTrip
import UserIam.Conc.Trace
import UserIam.UserAuth.UserAuthAdapter

/-!
# The two codes of a property query

A query of an executor's properties returns a code and leaves another one in its result.  One caller
tests the code that is returned; the other hands the result to its client.
-/

namespace UserIam.UserAuth

open Conc
open CoAuth (AuthAttributes)

/-! ## 1. What is asked and what is supplied -/

/-- `UserAuthCallbackImplIdmGetProp::OnGetInfo`; it returns what the client is given. -/
def onGetInfoGetProp (callerUid : UInt64) (pkgName : List UInt8) (request : GetPropertyRequest) :
    List UserIDM.CredentialInfo → UserAuthProg ExecutorProperty
  | [] => return { result := .fail }
  | info :: _ => do
    -- the code is only logged
    let (_, executorProperty) ← getExecutorProp callerUid pkgName info.templateId request {}
    return executorProperty

/-- The value that the executor supplies for a key; there is none for a key that does not exist. -/
def supplied (pAuthAttributes : AuthAttributes) (key : UInt32) : Option UInt64 :=
  if key = authSubTypeKey then pAuthAttributes.valueMap .uint64Type CoAuth.authSubtype
  else if key = remainTimesKey then
    (pAuthAttributes.valueMap .uint32Type CoAuth.authRemainCount).map UInt32.toUInt64
  else if key = freezingTimeKey then
    (pAuthAttributes.valueMap .uint32Type CoAuth.authRemainTime).map UInt32.toUInt64
  else none

/-- The field of a key. -/
def ExecutorProperty.field (result : ExecutorProperty) (key : UInt32) : Option UInt64 :=
  if key = authSubTypeKey then some result.authSubType
  else if key = remainTimesKey then some result.remainTimes.toUInt64
  else if key = freezingTimeKey then some result.freezingTime.toUInt64
  else none

/-- The code that is returned and the one in the result are both `SUCCESS` or both not, and with
`SUCCESS` the requested fields hold what the executor has supplied. -/
structure CodesAgree (keys : List UInt32) (pAuthAttributes : AuthAttributes)
    (a : ResultCode × ExecutorProperty) : Prop where
  codes : a.1 = .success ↔ a.2.result = .success
  fields : a.1 = .success →
    ∀ key ∈ keys, ∃ value, supplied pAuthAttributes key = some value ∧ a.2.field key = some value

variable {pAuthAttributes : AuthAttributes} {result : ExecutorProperty} {key : UInt32}
  {keys : List UInt32} {request : GetPropertyRequest}

/-! ## 2. The loop over the keys -/

theorem getValue_none {type : CoAuth.ValueType} {tag : CoAuth.AuthAttributeType}
    {value : type.Carrier} (h : pAuthAttributes.valueMap type tag = none) :
    pAuthAttributes.getValue type tag value = (.fail, value) := by
  rw [AuthAttributes.getValue, h]

theorem getValue_some {type : CoAuth.ValueType} {tag : CoAuth.AuthAttributeType}
    {value v : type.Carrier} (h : pAuthAttributes.valueMap type tag = some v) :
    pAuthAttributes.getValue type tag value = (.success, v) := by
  rw [AuthAttributes.getValue, h]

variable (result keys) in
/-- A key without a value ends the loop. -/
theorem eachExecutorProp_missing (h : supplied pAuthAttributes key = none) :
    ∃ ret, ret ≠ .success ∧ eachExecutorProp pAuthAttributes result (key :: keys) =
      (ret, { result with result := ret }) := by
  have hfail : ResultCode.fail ≠ .success := by decide
  unfold supplied at h
  unfold eachExecutorProp
  split at h
  · next hkey =>
    refine ⟨.fail, hfail, ?_⟩
    rw [if_pos hkey, AuthAttributes.getUint64Value, getValue_none h]
    exact if_pos hfail
  · next hkey =>
    rw [if_neg hkey]
    split at h
    · next hkey =>
      refine ⟨.fail, hfail, ?_⟩
      rw [if_pos hkey, AuthAttributes.getUint32Value, getValue_none (Option.map_eq_none_iff.mp h)]
      exact if_pos hfail
    · next hkey =>
      rw [if_neg hkey]
      split at h
      · next hkey =>
        refine ⟨.fail, hfail, ?_⟩
        rw [if_pos hkey, AuthAttributes.getUint32Value, getValue_none (Option.map_eq_none_iff.mp h)]
        exact if_pos hfail
      · next hkey =>
        rw [if_neg hkey]
        exact ⟨.invalidParameters, by decide, rfl⟩

variable (result keys) in
/-- A key with a value fills its field in. -/
theorem eachExecutorProp_supplied {value : UInt64} (h : supplied pAuthAttributes key = some value) :
    ∃ result', eachExecutorProp pAuthAttributes result (key :: keys) =
        eachExecutorProp pAuthAttributes result' keys ∧
      result'.field key = some value ∧ ∀ key' ≠ key, result'.field key' = result.field key' := by
  have hsuccess : ¬ResultCode.success ≠ .success := not_not.mpr rfl
  unfold supplied at h
  rw [eachExecutorProp]
  split at h
  · next hkey =>
    subst hkey
    refine ⟨{ result with authSubType := value }, ?_, rfl, fun key' hne => ?_⟩
    · rw [if_pos rfl, AuthAttributes.getUint64Value, getValue_some h]
      exact if_neg hsuccess
    · simp [ExecutorProperty.field, hne]
  · next hsub =>
    rw [if_neg hsub]
    split at h
    · next hkey =>
      subst hkey
      obtain ⟨v, hv, rfl⟩ := Option.map_eq_some_iff.mp h
      refine ⟨{ result with remainTimes := v }, ?_, rfl, fun key' hne => ?_⟩
      · rw [if_pos rfl, AuthAttributes.getUint32Value, getValue_some hv]
        exact if_neg hsuccess
      · simp [ExecutorProperty.field, hne]
    · next htimes =>
      rw [if_neg htimes]
      split at h
      · next hkey =>
        subst hkey
        obtain ⟨v, hv, rfl⟩ := Option.map_eq_some_iff.mp h
        refine ⟨{ result with freezingTime := v }, ?_, rfl, fun key' hne => ?_⟩
        · rw [if_pos rfl, AuthAttributes.getUint32Value, getValue_some hv]
          exact if_neg hsuccess
        · simp [ExecutorProperty.field, hne]
      · cases h

/-- The loop succeeds exactly if every key has a value. -/
theorem eachExecutorProp_success :
    (eachExecutorProp pAuthAttributes result keys).1 = .success ↔
      ∀ key ∈ keys, (supplied pAuthAttributes key).isSome = true := by
  induction keys generalizing result with
  | nil => simp [eachExecutorProp]
  | cons key keys ih =>
    rw [List.forall_mem_cons]
    cases hvalue : supplied pAuthAttributes key with
    | none =>
      obtain ⟨ret, hret, heq⟩ := eachExecutorProp_missing result keys hvalue
      rw [heq]
      simp [hret]
    | some value =>
      obtain ⟨result', heq, -⟩ := eachExecutorProp_supplied result keys hvalue
      rw [heq, ih]
      simp

/-- A loop that fails leaves its code in the result. -/
theorem eachExecutorProp_failure
    (h : (eachExecutorProp pAuthAttributes result keys).1 ≠ .success) :
    (eachExecutorProp pAuthAttributes result keys).2.result =
      (eachExecutorProp pAuthAttributes result keys).1 := by
  induction keys generalizing result with
  | nil => exact absurd rfl h
  | cons key keys ih =>
    cases hvalue : supplied pAuthAttributes key with
    | none =>
      obtain ⟨ret, -, heq⟩ := eachExecutorProp_missing result keys hvalue
      rw [heq]
    | some value =>
      obtain ⟨result', heq, -⟩ := eachExecutorProp_supplied result keys hvalue
      rw [heq] at h ⊢
      exact ih h

/-- A loop that succeeds has filled in the requested fields; a field that is requested again is
given the same value again. -/
theorem eachExecutorProp_fields
    (h : (eachExecutorProp pAuthAttributes result keys).1 = .success) {value : UInt64}
    (hkey : supplied pAuthAttributes key = some value)
    (hmem : key ∈ keys ∨ result.field key = some value) :
    (eachExecutorProp pAuthAttributes result keys).2.field key = some value := by
  induction keys generalizing result with
  | nil => exact hmem.resolve_left List.not_mem_nil
  | cons first keys ih =>
    cases hfirst : supplied pAuthAttributes first with
    | none =>
      obtain ⟨ret, hret, heq⟩ := eachExecutorProp_missing result keys hfirst
      rw [heq] at h
      exact absurd h hret
    | some value' =>
      obtain ⟨result', heq, hfield, hother⟩ :=
        eachExecutorProp_supplied result keys hfirst
      rw [heq] at h ⊢
      apply ih h
      -- the field is filled in by this round, or was filled in or is to be by another
      by_cases hsame : key = first
      · subst hsame
        rw [hkey] at hfirst
        exact .inr (hfirst ▸ hfield)
      · rw [hother key hsame]
        exact hmem.imp_left fun hmem => (List.mem_cons.mp hmem).resolve_left hsame

/-! ## 3. The query -/

theorem setValue_known (a : AuthAttributes) {type : CoAuth.ValueType}
    {tag : CoAuth.AuthAttributeType} (h : CoAuth.typeOf tag = some type) (value : type.Carrier) :
    (a.setValue type tag value).1 = .success := by
  have hpos := ((a.touchPosition tag).position_iff tag type).mpr h
  simp only [AuthAttributes.setValue, hpos, dite_true]

/-- What a query ends with when the executor has answered. -/
def answered (request : GetPropertyRequest) (result : ExecutorProperty)
    (r : ResultCode × AuthAttributes) : ResultCode × ExecutorProperty :=
  if r.1 ≠ .success then (r.1, { result with result := r.1 })
  else
    let each := getEachExecutorProp request result r.2
    (r.1, if each.1 ≠ .success then each.2 else { each.2 with result := .success })

/-- **A query** asks once, and every answer decides how it ends. -/
theorem getExecutorProp_eq (callerUid : UInt64) (pkgName : List UInt8) (templateId : UInt64)
    (request : GetPropertyRequest) (result : ExecutorProperty) :
    ∃ conditions, getExecutorProp callerUid pkgName templateId request result =
      .call (.getExecutorProp conditions) fun r => .ret (answered request result r) := by
  have h32 (a : AuthAttributes) {tag : CoAuth.AuthAttributeType} (v : UInt32)
      (htag : CoAuth.typeOf tag = some .uint32Type) : ¬(a.setUint32Value tag v).1 ≠ .success :=
    not_not.mpr (setValue_known a htag v)
  have h64 (a : AuthAttributes) {tag : CoAuth.AuthAttributeType} (v : UInt64)
      (htag : CoAuth.typeOf tag = some .uint64Type) : ¬(a.setUint64Value tag v).1 ≠ .success :=
    not_not.mpr (setValue_known a htag v)
  have harray (a : AuthAttributes) {tag : CoAuth.AuthAttributeType} (v : List UInt8)
      (htag : CoAuth.typeOf tag = some .uint8ArrayType) :
      ¬(a.setUint8ArrayValue tag v).1 ≠ .success :=
    not_not.mpr (setValue_known a htag v)
  unfold getExecutorProp
  -- the five setters succeed, because the tags have the types of the values
  dsimp only
  rw [if_neg (h32 _ _ rfl), if_neg (h32 _ _ rfl), if_neg (h64 _ _ rfl), if_neg (h64 _ _ rfl),
    if_neg (harray _ _ rfl)]
  refine ⟨_, congrArg (Prog.call _) (funext fun r => ?_)⟩
  show (if r.1 ≠ .success then _ else _) = _
  unfold answered
  split
  · rfl
  · dsimp only
    split <;> rfl

/-- The executor may answer anything. -/
theorem trace_answered (callerUid : UInt64) (pkgName : List UInt8) (templateId : UInt64)
    (request : GetPropertyRequest) (result : ExecutorProperty) (r : ResultCode × AuthAttributes) :
    ∃ conditions, (getExecutorProp callerUid pkgName templateId request result).Trace
      (answered request result r) [⟨.getExecutorProp conditions, r⟩] := by
  obtain ⟨conditions, heq⟩ := getExecutorProp_eq callerUid pkgName templateId request result
  refine ⟨conditions, ?_⟩
  rw [heq]
  exact Prog.trace_call.mpr ⟨r, [], .ret _, rfl⟩

section Query

variable {callerUid : UInt64} {pkgName : List UInt8} {templateId : UInt64}
  {a : ResultCode × ExecutorProperty} {es : List ((o : UserAuthOp) × UserAuthRes o)}

/-- The code that is returned is the executor's; the code in the result also tells whether every
requested value was there. -/
theorem getExecutorProp_codes
    (h : (getExecutorProp callerUid pkgName templateId request result).Trace a es) :
    ∃ conditions r, es = [⟨.getExecutorProp conditions, r⟩] ∧ a.1 = r.1 ∧
      (a.2.result = .success ↔
        r.1 = .success ∧ ∀ key ∈ request.keys, (supplied r.2 key).isSome = true) ∧
      (a.2.result = .success → ∀ key ∈ request.keys, a.2.field key = supplied r.2 key) := by
  obtain ⟨conditions, heq⟩ := getExecutorProp_eq callerUid pkgName templateId request result
  rw [heq] at h
  obtain ⟨r, es', hret, rfl⟩ := Prog.trace_call.mp h
  obtain ⟨rfl, rfl⟩ := Prog.trace_ret.mp hret
  refine ⟨conditions, r, rfl, ?_⟩
  unfold answered
  split
  · next hret =>
    exact ⟨rfl, ⟨fun h => absurd h hret, fun h => absurd h.1 hret⟩, fun h => absurd h hret⟩
  · next hret =>
    dsimp only
    split
    -- the loop has stopped: its code is in the result, the executor's is returned
    · next heach =>
      have hcode : (getEachExecutorProp request result r.2).2.result ≠ .success := by
        intro h
        exact heach ((eachExecutorProp_failure heach).symm.trans h)
      refine ⟨rfl, ⟨fun h => absurd h hcode, fun h => ?_⟩, fun h => absurd h hcode⟩
      exact absurd (eachExecutorProp_success.mpr h.2) heach
    · next heach =>
      have hkeys := eachExecutorProp_success.mp (not_not.mp heach)
      refine ⟨rfl, ⟨fun _ => ⟨not_not.mp hret, hkeys⟩, fun _ => rfl⟩, fun _ key hkey => ?_⟩
      obtain ⟨value, hvalue⟩ := Option.isSome_iff_exists.mp (hkeys key hkey)
      rw [hvalue]
      exact eachExecutorProp_fields (not_not.mp heach) hvalue (.inl hkey)

/-- **When the two codes agree.**  The executor has failed, or has supplied the value of every
requested key. -/
theorem codesAgree_iff
    (h : (getExecutorProp callerUid pkgName templateId request result).Trace a es) :
    ∃ conditions r, es = [⟨.getExecutorProp conditions, r⟩] ∧
      (CodesAgree request.keys r.2 a ↔
        r.1 ≠ .success ∨ ∀ key ∈ request.keys, (supplied r.2 key).isSome = true) := by
  obtain ⟨conditions, r, hes, hret, hcode, hfields⟩ := getExecutorProp_codes h
  refine ⟨conditions, r, hes, fun hagree => ?_, fun hwhen => ⟨?_, fun hsuccess key hkey => ?_⟩⟩
  -- with the executor's success the result has to be one too
  · by_cases hsuccess : r.1 = .success
    · exact .inr (hcode.mp (hagree.codes.mp (hret.trans hsuccess))).2
    · exact .inl hsuccess
  · rw [hcode, hret]
    exact ⟨fun hsuccess => ⟨hsuccess, hwhen.resolve_left (not_not.mpr hsuccess)⟩, And.left⟩
  · rw [hret] at hsuccess
    have hkeys := hwhen.resolve_left (not_not.mpr hsuccess)
    obtain ⟨value, hvalue⟩ := Option.isSome_iff_exists.mp (hkeys key hkey)
    exact ⟨value, hvalue, (hfields (hcode.mpr ⟨hsuccess, hkeys⟩) key hkey).trans hvalue⟩

end Query

/-- The executor answers without the count that it is asked for: the code that is returned is
`SUCCESS`, the one in the result is not. -/
theorem codesAgree_counterexample :
    ¬∀ (callerUid : UInt64) (pkgName : List UInt8) (templateId : UInt64)
      (request : GetPropertyRequest) (result : ExecutorProperty)
      (a : ResultCode × ExecutorProperty) (conditions : AuthAttributes)
      (r : ResultCode × AuthAttributes),
      (getExecutorProp callerUid pkgName templateId request result).Trace a
        [⟨.getExecutorProp conditions, r⟩] → CodesAgree request.keys r.2 a := by
  intro h
  obtain ⟨conditions, htrace⟩ :=
    trace_answered 1 [] 1 ⟨.face, [remainTimesKey]⟩ {} (.success, .new)
  have hagree := h 1 [] 1 _ {} _ conditions _ htrace
  exact absurd (hagree.codes.mp rfl) (by decide)

/-- What the end of an authentication asks for, and an executor that supplies it. -/
def tries : GetPropertyRequest := ⟨.face, [remainTimesKey, freezingTimeKey]⟩

def triesLeft : AuthAttributes :=
  ((AuthAttributes.new.setUint32Value CoAuth.authRemainCount 3).2.setUint32Value
    CoAuth.authRemainTime 0).2

theorem codesAgree_iff_example :
    CodesAgree tries.keys triesLeft (answered tries {} (.success, triesLeft)) := by
  obtain ⟨conditions, htrace⟩ := trace_answered 1 [] 1 tries {} (.success, triesLeft)
  obtain ⟨conditions', r, hes, hiff⟩ := codesAgree_iff htrace
  cases hes
  refine hiff.mpr (.inr ?_)
  exact List.forall_mem_cons.mpr ⟨by decide, List.forall_mem_singleton.mpr (by decide)⟩

end UserIam.UserAuth
