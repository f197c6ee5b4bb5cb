import Mathlib.Data.List.Induction
import Mathlib.Data.List.Perm.Subperm
import UserIam.CoAuth.FinishCount
import UserIam.Conc.Alone

/-!
# What a success stands for

`Finish` counts calls.  It neither asks who calls nor remembers a code, so the code of the last call
is the code of the schedule.
-/

namespace UserIam.CoAuth

open Conc Machine

/-! ## 1. One call after the other -/

/-- A `Finish` of the `executor`-th executor of a schedule; the executor is not a parameter of the
call. -/
structure FinishCall where
  executor : Nat
  srcType : Int32
  resultCode : ResultCode
  finalResult : Option AuthAttributes

variable {service : CoAuthService} {S : UInt64} {t : Nat} {s s' : CoAuthState}
  {es : List CoAuthEvent} {ret : ResultCode}

/-- The call runs from its first to its last step. -/
def FinishCall.Runs (service : CoAuthService) (S : UInt64) (call : FinishCall) (t : Nat)
    (s : CoAuthState) (es : List CoAuthEvent) (s' : CoAuthState) : Prop :=
  ∃ ret, (coAuth service).Alone t (finish service S call.resultCode call.finalResult) s ret es s'

/-- The calls run one after another. -/
inductive Finishes (service : CoAuthService) (S : UInt64) (s : CoAuthState) :
    List FinishCall → CoAuthState → Prop where
  | nil : Finishes service S s [] s
  | concat {calls : List FinishCall} {call : FinishCall} {t : Nat} {es : List CoAuthEvent}
      {s₁ s₂ : CoAuthState} (h : Finishes service S s calls s₁)
      (hcall : call.Runs service S t s₁ es s₂) : Finishes service S s (calls ++ [call]) s₂

/-- The callback of the schedule is told `SUCCESS`. -/
def isSuccess (S : UInt64) : CoAuthEvent → Bool
  | .op _ (.onFinish id _ resultCode _) _ => id = S && resultCode = ResultCode.success.toUInt32
  | _ => false

def Succeeds (S : UInt64) (es : List CoAuthEvent) : Prop := es.any (isSuccess S) = true

@[simp] theorem not_succeeds_nil : ¬Succeeds S [] := by
  simp [Succeeds]

@[simp] theorem succeeds_cons {e : CoAuthEvent} :
    Succeeds S (e :: es) ↔ isSuccess S e = true ∨ Succeeds S es := by
  simp [Succeeds]

@[simp] theorem succeeds_append {es' : List CoAuthEvent} :
    Succeeds S (es ++ es') ↔ Succeeds S es ∨ Succeeds S es' := by
  simp only [Succeeds, List.any_append, Bool.or_eq_true]

/-! ## 2. One call -/

theorem toUInt32_eq_success {resultCode : ResultCode} :
    resultCode.toUInt32 = ResultCode.success.toUInt32 ↔ resultCode = .success := by
  constructor
  · intro h
    have heq := congrArg UInt32.toInt32 h
    simpa using heq
  · rintro rfl
    rfl

theorem alone_monitorRemoveCall
    (h : (coAuth service).Alone t (monitorRemoveCall service S) s () es s') :
    s'.pool = s.pool ∧ ¬Succeeds S es := by
  unfold monitorRemoveCall at h
  split at h
  · obtain ⟨env, es', -, hrest, rfl⟩ := alone_call.mp h
    obtain ⟨-, rfl, rfl⟩ := alone_ret.mp hrest
    exact ⟨rfl, by simp [isSuccess]⟩
  · obtain ⟨-, rfl, rfl⟩ := alone_ret.mp h
    exact ⟨rfl, by simp⟩

/-- Without the schedule the call ends with the look-up. -/
theorem alone_finishLast_none {resultCode : ResultCode} {finalResult : Option AuthAttributes}
    (hnone : s.pool.scheResPool S = none)
    (h : (coAuth service).Alone t (finishLast S resultCode finalResult) s ret es s') :
    ret = .fail ∧ s' = s ∧ es = [.op t (.findScheduleCallback S) (.fail, none)] := by
  obtain ⟨env, es', -, hrest, rfl⟩ := alone_op_bind.mp h
  have hfind : ((coAuth service).handle t (.findScheduleCallback S) env s).1 = (.fail, none) := by
    show s.pool.findScheduleCallback S = _
    rw [AuthResPool.findScheduleCallback, hnone]
  rw [hfind] at hrest ⊢
  obtain ⟨rfl, rfl, rfl⟩ := alone_ret.mp hrest
  exact ⟨rfl, rfl, rfl⟩

theorem alone_onFinish_delete {callback : CoAuthCallback} {code : UInt32} {token : List UInt8}
    {r : ResultCode}
    (h : (coAuth service).Alone t (do
      let _ ← atomic (.onFinish S callback code token)
      let _ ← atomic (.deleteScheduleCallback S)
      pure r) s ret es s') :
    s'.pool.scheResPool S = none ∧ ∃ deleted, es =
      [.op t (.onFinish S callback code token) (), .op t (.deleteScheduleCallback S) deleted] := by
  obtain ⟨env, es₁, -, hnext, rfl⟩ := alone_op_bind.mp h
  obtain ⟨env', es₂, -, hlast, rfl⟩ := alone_op_bind.mp hnext
  obtain ⟨-, rfl, rfl⟩ := alone_ret.mp hlast
  exact ⟨AuthResPool.deleteScheduleCallback_self _ _, _, rfl⟩

/-- The code and the token with which the last call of a schedule tells the callback. -/
def finishAnswer (resultCode : ResultCode) : Option AuthAttributes → UInt32 × List UInt8
  | none => (ResultCode.fail.toUInt32, [])
  | some finalResult => (resultCode.toUInt32, finishToken resultCode finalResult)

/-- The last call tells the callback how the schedule has ended, and then the schedule is gone. -/
theorem alone_finishLast_events {resultCode : ResultCode} {finalResult : Option AuthAttributes}
    {register : ScheduleRegister} {callback : CoAuthCallback}
    (hpool : s.pool.scheResPool S = some register) (hcallback : register.callback = some callback)
    (h : (coAuth service).Alone t (finishLast S resultCode finalResult) s ret es s') :
    s'.pool.scheResPool S = none ∧ ∃ found deleted, es =
      [.op t (.findScheduleCallback S) found,
       .op t (.onFinish S callback (finishAnswer resultCode finalResult).1
         (finishAnswer resultCode finalResult).2) (),
       .op t (.deleteScheduleCallback S) deleted] := by
  obtain ⟨env, es', -, hrest, rfl⟩ := alone_op_bind.mp h
  have hfind : ((coAuth service).handle t (.findScheduleCallback S) env s).1 =
      (.success, some callback) := by
    show s.pool.findScheduleCallback S = _
    rw [AuthResPool.findScheduleCallback, hpool, ← hcallback]
  rw [hfind] at hrest
  dsimp only at hrest
  rw [if_neg (by simp)] at hrest
  cases finalResult with
  | none =>
    obtain ⟨hnone, deleted, rfl⟩ := alone_onFinish_delete hrest
    exact ⟨hnone, _, deleted, rfl⟩
  | some finalResult =>
    obtain ⟨hnone, deleted, rfl⟩ := alone_onFinish_delete hrest
    exact ⟨hnone, _, deleted, rfl⟩

/-- The last call ends the schedule with its own code, or with `FAIL` when it has no result. -/
theorem alone_finishLast {resultCode : ResultCode} {finalResult : Option AuthAttributes}
    {register : ScheduleRegister} {callback : CoAuthCallback}
    (hpool : s.pool.scheResPool S = some register) (hcallback : register.callback = some callback)
    (h : (coAuth service).Alone t (finishLast S resultCode finalResult) s ret es s') :
    s'.pool.scheResPool S = none ∧
      (Succeeds S es ↔ resultCode = .success ∧ finalResult ≠ none) := by
  obtain ⟨hnone, found, deleted, rfl⟩ := alone_finishLast_events hpool hcallback h
  refine ⟨hnone, ?_⟩
  cases finalResult with
  | none =>
    have hfail : ResultCode.fail.toUInt32 ≠ ResultCode.success.toUInt32 := by decide
    simp [finishAnswer, isSuccess, hfail]
  | some finalResult => simp [finishAnswer, isSuccess, toUInt32_eq_success]

/-- A `Finish` of a schedule that is not in the pool. -/
theorem FinishCall.Runs.of_none {call : FinishCall} (hnone : s.pool.scheResPool S = none)
    (h : call.Runs service S t s es s') : s'.pool.scheResPool S = none ∧ ¬Succeeds S es := by
  obtain ⟨ret, h⟩ := h
  unfold finish at h
  split at h
  · obtain ⟨-, rfl, rfl⟩ := alone_ret.mp h
    exact ⟨hnone, by simp⟩
  · obtain ⟨env, es₁, -, hrest, rfl⟩ := alone_op_bind.mp h
    split at hrest
    · -- the count that is read is whatever the variable contained
      obtain ⟨env₁, es₂, -, hlast, rfl⟩ := alone_op_bind.mp hrest
      obtain ⟨-, rfl, rfl⟩ := alone_ret.mp hlast
      have hminus := AuthResPool.scheduleCountMinus_self s.pool S
      rw [hnone] at hminus
      exact ⟨hminus, by simp [isSuccess]⟩
    · obtain ⟨_, s₁, es₂, es₃, hremove, hlast, rfl⟩ := alone_bind.mp hrest
      obtain ⟨hpool, hquiet⟩ := alone_monitorRemoveCall hremove
      have hnone₁ : s₁.pool.scheResPool S = none := by
        rw [hpool]
        exact hnone
      obtain ⟨-, rfl, rfl⟩ := alone_finishLast_none hnone₁ hlast
      exact ⟨hnone₁, by simp [isSuccess, hquiet]⟩

section Pool

variable {call : FinishCall} {register : ScheduleRegister}

/-- A `Finish` of a schedule that waits for other calls. -/
theorem FinishCall.Runs.of_more (hservice : service.scheResPool = true)
    (hpool : s.pool.scheResPool S = some register) (hmore : register.executorNum > 1)
    (h : call.Runs service S t s es s') :
    s'.pool.scheResPool S = some { register with executorNum := register.executorNum - 1 } ∧
      ¬Succeeds S es := by
  obtain ⟨ret, h⟩ := h
  unfold finish at h
  rw [if_neg (by simp [hservice])] at h
  obtain ⟨env, es₁, -, hrest, rfl⟩ := alone_op_bind.mp h
  have hcount : ((coAuth service).handle t (.getScheduleCount S) env s).1 =
      register.executorNum := by
    show (s.pool.getScheduleCount S env.scheduleCount).2 = _
    rw [AuthResPool.getScheduleCount, hpool]
  rw [hcount, if_pos hmore] at hrest
  obtain ⟨env₁, es₂, -, hlast, rfl⟩ := alone_op_bind.mp hrest
  obtain ⟨-, rfl, rfl⟩ := alone_ret.mp hlast
  have hminus := AuthResPool.scheduleCountMinus_self s.pool S
  have hpos : ¬register.executorNum ≤ 0 := by
    rw [gt_iff_lt, UInt64.lt_iff_toNat_lt, UInt64.toNat_one] at hmore
    rw [UInt64.le_iff_toNat_le, UInt64.toNat_zero]
    omega
  rw [hpool, Option.map_some, if_neg hpos] at hminus
  exact ⟨hminus, by simp [isSuccess]⟩

/-- What comes before the end in the call that reads a count of one or less. -/
theorem alone_finish_last {resultCode : ResultCode} {finalResult : Option AuthAttributes}
    (hservice : service.scheResPool = true) (hpool : s.pool.scheResPool S = some register)
    (hlast : ¬register.executorNum > 1)
    (h : (coAuth service).Alone t (finish service S resultCode finalResult) s ret es s') :
    ∃ s₁ es₁ es₂, s₁.pool.scheResPool S = some register ∧
      (∀ t' o r, .op t' o r ∈ es₁ → o = .getScheduleCount S ∨ o = .removeTask S) ∧
      (coAuth service).Alone t (finishLast S resultCode finalResult) s₁ ret es₂ s' ∧
      es = es₁ ++ es₂ := by
  unfold finish at h
  rw [if_neg (by simp [hservice])] at h
  obtain ⟨env, es₁, -, hrest, rfl⟩ := alone_op_bind.mp h
  have hcount : ((coAuth service).handle t (.getScheduleCount S) env s).1 =
      register.executorNum := by
    show (s.pool.getScheduleCount S env.scheduleCount).2 = _
    rw [AuthResPool.getScheduleCount, hpool]
  rw [hcount, if_neg hlast] at hrest
  obtain ⟨_, s₁, es₂, es₃, hremove, hend, rfl⟩ := alone_bind.mp hrest
  refine ⟨s₁, _ :: es₂, es₃, ?_, fun t' o r hop => ?_, hend, rfl⟩
  · rw [(alone_monitorRemoveCall hremove).1]
    exact hpool
  · rcases List.mem_cons.mp hop with heq | hop
    · cases heq
      exact .inl rfl
    · exact .inr (hremove.ops (monitorRemoveCall_all (P := (· = .removeTask S)) rfl) hop)

/-- The `Finish` that ends the schedule. -/
theorem FinishCall.Runs.of_last {callback : CoAuthCallback} (hservice : service.scheResPool = true)
    (hpool : s.pool.scheResPool S = some register) (hcallback : register.callback = some callback)
    (hlast : ¬register.executorNum > 1) (h : call.Runs service S t s es s') :
    s'.pool.scheResPool S = none ∧
      (Succeeds S es ↔ call.resultCode = .success ∧ call.finalResult ≠ none) := by
  obtain ⟨ret, h⟩ := h
  obtain ⟨s₁, es₁, es₂, hpool₁, hops, hend, rfl⟩ := alone_finish_last hservice hpool hlast h
  obtain ⟨hnone, hiff⟩ := alone_finishLast hpool₁ hcallback hend
  have hquiet : ¬Succeeds S es₁ := by
    intro hsuccess
    obtain ⟨e, he, hmark⟩ := List.any_eq_true.mp hsuccess
    cases e with
    | spawn => cases hmark
    | op t' o r => rcases hops t' o r he with rfl | rfl <;> cases hmark
  refine ⟨hnone, ?_⟩
  rw [← hiff]
  simp [hquiet]

end Pool

/-! ## 3. All calls -/

theorem FinishCall.exists_runs (service : CoAuthService) (S : UInt64) (call : FinishCall)
    (t : Nat) (s : CoAuthState) : ∃ es s', call.Runs service S t s es s' := by
  have : Inhabited CoAuthEnv := ⟨{}⟩
  have henabled : ∀ o env s, (coAuth service).enabled t o env s = true := fun _ _ _ => rfl
  obtain ⟨ret, es, s', h⟩ := Alone.exists_of_enabled henabled
    (finish service S call.resultCode call.finalResult) s
  exact ⟨es, s', ret, h⟩

theorem Finishes.exists (service : CoAuthService) (S : UInt64) (s : CoAuthState)
    (calls : List FinishCall) : ∃ s', Finishes service S s calls s' := by
  induction calls using List.reverseRecOn with
  | nil => exact ⟨s, .nil⟩
  | append_singleton calls call ih =>
    obtain ⟨s₁, h⟩ := ih
    obtain ⟨es, s₂, hcall⟩ := call.exists_runs service S 0 s₁
    exact ⟨s₂, .concat h hcall⟩

section Sequence

variable {info : ScheduleInfo} {callback : CoAuthCallback} {calls : List FinishCall}
  (hservice : service.scheResPool = true) (hnone : s.pool.scheResPool S = none)
  (hsize : info.executors.length < 2 ^ 64)

/-- The count while the schedule waits for more than one call, which the last one does not. -/
theorem executorNum_gt_one {k n : Nat} (hn : n < 2 ^ 64) :
    UInt64.ofNat (n - k) > 1 ↔ k + 1 < n := by
  have hlt : n - k < 2 ^ 64 := by omega
  rw [gt_iff_lt, UInt64.lt_iff_toNat_lt, UInt64.toNat_one, UInt64.toNat_ofNat_of_lt' hlt]
  omega

include hservice hnone hsize

/-- The entry of the schedule after some of its calls. -/
theorem Finishes.pool (h : Finishes service S (s.inserted S info callback) calls s') :
    s'.pool.scheResPool S =
      if calls.length < max info.executors.length 1 then
        some ⟨UInt64.ofNat (info.executors.length - calls.length), info, some callback⟩
      else none := by
  induction h with
  | nil =>
    rw [if_pos (by simp)]
    exact (AuthResPool.insertSchedule_self _ _ _ _).trans (by rw [hnone]; rfl)
  | @concat calls call t es s₁ s₂ _ hcall ih =>
    rw [List.length_append, List.length_singleton]
    by_cases hwaits : calls.length < max info.executors.length 1
    · rw [if_pos hwaits] at ih
      by_cases hmore : calls.length + 1 < info.executors.length
      · have hgt := (executorNum_gt_one hsize).mpr hmore
        rw [(hcall.of_more hservice ih hgt).1, if_pos (by omega)]
        have hsub : UInt64.ofNat (info.executors.length - calls.length) - 1 =
            UInt64.ofNat (info.executors.length - (calls.length + 1)) := by
          have hlt : info.executors.length - calls.length < 2 ^ 64 := by omega
          have hlt' : info.executors.length - (calls.length + 1) < 2 ^ 64 := by omega
          rw [← UInt64.toNat_inj, UInt64.toNat_sub_of_le, UInt64.toNat_ofNat_of_lt' hlt,
            UInt64.toNat_ofNat_of_lt' hlt', UInt64.toNat_one]
          · omega
          · exact UInt64.le_of_lt hgt
        rw [hsub]
      · have hlast := fun h => hmore ((executorNum_gt_one hsize).mp h)
        rw [(hcall.of_last hservice ih rfl hlast).1, if_neg (by omega)]
    · rw [if_neg hwaits] at ih
      rw [(hcall.of_none ih).1, if_neg (by omega)]

/-- Which call tells the callback `SUCCESS`: the one that makes as many as there are executors, with
its own code. -/
theorem Finishes.succeeds_iff {call : FinishCall} {s₁ : CoAuthState}
    (h : Finishes service S (s.inserted S info callback) calls s₁)
    (hcall : call.Runs service S t s₁ es s') :
    Succeeds S es ↔ calls.length + 1 = max info.executors.length 1 ∧
      call.resultCode = .success ∧ call.finalResult ≠ none := by
  have hpool := h.pool hservice hnone hsize
  by_cases hwaits : calls.length < max info.executors.length 1
  · rw [if_pos hwaits] at hpool
    by_cases hmore : calls.length + 1 < info.executors.length
    · have hgt := (executorNum_gt_one hsize).mpr hmore
      have hquiet := (hcall.of_more hservice hpool hgt).2
      exact ⟨fun h => absurd h hquiet, fun h => by omega⟩
    · have hlast := fun h => hmore ((executorNum_gt_one hsize).mp h)
      rw [(hcall.of_last hservice hpool rfl hlast).2]
      exact ⟨fun h => ⟨by omega, h⟩, fun h => h.2⟩
  · rw [if_neg hwaits] at hpool
    exact ⟨fun h => absurd h (hcall.of_none hpool).2, fun h => by omega⟩

end Sequence

/-! ## 4. Attested successes -/

/-- When the callback is told `SUCCESS`, each of the `n` executors has finished with `SUCCESS`. -/
def Attested (service : CoAuthService) (S : UInt64) (s : CoAuthState) (n : Nat)
    (calls : List FinishCall) : Prop :=
  ∀ pre call post t s₁ es s₂, calls = pre ++ call :: post → Finishes service S s pre s₁ →
    call.Runs service S t s₁ es s₂ → Succeeds S es →
      ∀ k < n, ∃ call' ∈ pre ++ [call], call'.executor = k ∧ call'.resultCode = .success

/-- Each of the `n` executors calls once, and all with `SUCCESS`. -/
def OneFromEach (n : Nat) (calls : List FinishCall) : Prop :=
  (calls.map (·.executor)).Perm (List.range n) ∧ ∀ call ∈ calls, call.resultCode = .success

/-- As many calls as executors hold a success of each executor only if they hold nothing else. -/
theorem oneFromEach_iff {n : Nat} {calls : List FinishCall} (hlength : calls.length = n) :
    OneFromEach n calls ↔
      ∀ k < n, ∃ call ∈ calls, call.executor = k ∧ call.resultCode = .success := by
  constructor
  · rintro ⟨hperm, hsuccess⟩ k hk
    obtain ⟨call, hcall, rfl⟩ :=
      List.mem_map.mp (hperm.mem_iff.mpr (List.mem_range.mpr hk))
    exact ⟨call, hcall, rfl, hsuccess call hcall⟩
  · intro h
    have hsub : (List.range n).Subperm
        ((calls.filter (·.resultCode = .success)).map (·.executor)) := by
      refine List.nodup_range.subperm fun k hk => ?_
      obtain ⟨call, hcall, rfl, hsuccess⟩ := h k (List.mem_range.mp hk)
      exact List.mem_map.mpr ⟨call, List.mem_filter.mpr ⟨hcall, by simpa using hsuccess⟩, rfl⟩
    have hle : n ≤ (calls.filter (·.resultCode = .success)).length := by
      simpa using hsub.length_le
    have hfilter : calls.filter (·.resultCode = .success) = calls :=
      List.filter_sublist.eq_of_length_le (by omega)
    rw [hfilter] at hsub
    refine ⟨(hsub.perm_of_length_le (by simp [hlength])).symm, fun call hcall => ?_⟩
    rw [← hfilter] at hcall
    simpa using (List.mem_filter.mp hcall).2

/-- **Masked failures.**  A success of a schedule with `n` executors is attested exactly if the
`n`-th call is no success with a result, or the first `n` calls are one success of each
executor. -/
theorem attested_iff (service : CoAuthService) (s : CoAuthState) (S : UInt64) (info : ScheduleInfo)
    (callback : CoAuthCallback) (calls : List FinishCall) (hservice : service.scheResPool = true)
    (hnone : s.pool.scheResPool S = none) (hsize : info.executors.length < 2 ^ 64) :
    Attested service S (s.inserted S info callback) info.executors.length calls ↔
      ∀ last, calls[info.executors.length - 1]? = some last → last.resultCode = .success →
        last.finalResult ≠ none →
          OneFromEach info.executors.length (calls.take info.executors.length) := by
  constructor
  · intro h last hlast hsuccess hresult
    by_cases hzero : info.executors.length = 0
    · rw [hzero]
      exact ⟨by simp, by simp⟩
    -- all calls but the last run, and then the last one
    obtain ⟨hlt, hget⟩ := List.getElem?_eq_some_iff.mp hlast
    have htake : calls.take info.executors.length =
        calls.take (info.executors.length - 1) ++ [last] := by
      have hsucc : info.executors.length - 1 + 1 = info.executors.length := by omega
      rw [← hsucc, List.take_succ_eq_append_getElem hlt, hget]
      simp
    have hsplit : calls = calls.take (info.executors.length - 1) ++ last ::
        calls.drop info.executors.length := by
      rw [← List.singleton_append, ← List.append_assoc, ← htake, List.take_append_drop]
    obtain ⟨s₁, hpre⟩ := Finishes.exists service S (s.inserted S info callback)
      (calls.take (info.executors.length - 1))
    obtain ⟨es, s₂, hcall⟩ := last.exists_runs service S 0 s₁
    have hlength : (calls.take (info.executors.length - 1)).length = info.executors.length - 1 := by
      rw [List.length_take]
      omega
    have hsucceeds : Succeeds S es :=
      (hpre.succeeds_iff hservice hnone hsize hcall).mpr ⟨by omega, hsuccess, hresult⟩
    have hattested := h _ last _ 0 s₁ es s₂ hsplit hpre hcall hsucceeds
    rw [← htake] at hattested
    exact (oneFromEach_iff (by rw [List.length_take]; omega)).mpr hattested
  · rintro h pre call post t s₁ es s₂ rfl hpre hcall hsucceeds k hk
    obtain ⟨hlength, hsuccess, hresult⟩ :=
      (hpre.succeeds_iff hservice hnone hsize hcall).mp hsucceeds
    have hindex : info.executors.length - 1 = pre.length := by omega
    have hfirst : (pre ++ call :: post).take info.executors.length = pre ++ [call] := by
      have hsucc : info.executors.length = pre.length + 1 := by omega
      rw [hsucc, List.take_append, List.take_of_length_le (by omega)]
      simp
    have hone := h call (by rw [hindex]; simp) hsuccess hresult
    rw [hfirst] at hone
    exact (oneFromEach_iff (by simp; omega)).mp hone k hk

/-! ### A failure that is masked -/

/-- A schedule of two executors. -/
def twoExecutors : ScheduleInfo := ⟨7, [⟨1, .pin, []⟩, ⟨2, .face, []⟩], 0, 0, 0⟩

/-- The first executor fails and the second succeeds: the callback is told `SUCCESS`. -/
theorem attested_masked :
    ¬∀ (service : CoAuthService) (s : CoAuthState) (S : UInt64) (info : ScheduleInfo)
      (callback : CoAuthCallback) (calls : List FinishCall), service.scheResPool = true →
      s.pool.scheResPool S = none → 1 ≤ info.executors.length →
      info.executors.length < 2 ^ 64 →
      Attested service S (s.inserted S info callback) info.executors.length calls := by
  intro h
  have hattested := h ⟨true, true, true⟩ .initial 7 twoExecutors 9
    [⟨0, 0, .fail, some .new⟩, ⟨1, 0, .success, some .new⟩] rfl rfl (by decide) (by decide)
  have hrun : ((coAuth ⟨true, true, true⟩).alone 0 (finish ⟨true, true, true⟩ 7 .fail (some .new))
      (CoAuthState.initial.inserted 7 twoExecutors 9) [{}, {}]).map (fun r =>
        ((coAuth ⟨true, true, true⟩).alone 0 (finish ⟨true, true, true⟩ 7 .success (some .new))
          r.2.2 [{}, {}, {}, {}, {}]).map fun r => r.2.1.any (isSuccess 7)) =
      some (some true) := by decide
  obtain ⟨⟨ret₁, es₁, s₁⟩, hfirst, hrun⟩ := Option.map_eq_some_iff.mp hrun
  obtain ⟨⟨ret₂, es₂, s₂⟩, hsecond, hsucceeds⟩ := Option.map_eq_some_iff.mp hrun
  have hpre : Finishes ⟨true, true, true⟩ 7 (CoAuthState.initial.inserted 7 twoExecutors 9)
      ([] ++ [⟨0, 0, .fail, some .new⟩]) s₁ := .concat .nil ⟨ret₁, .of_alone hfirst⟩
  obtain ⟨call, hcall, hexecutor, hsuccess⟩ := hattested _ _ [] 0 s₁ es₂ s₂ rfl hpre
    ⟨ret₂, .of_alone hsecond⟩ hsucceeds 0 (by decide)
  simp only [List.nil_append, List.singleton_append, List.mem_pair] at hcall
  rcases hcall with rfl | rfl
  · exact absurd hsuccess (by decide)
  · cases hexecutor

/-- Both executors succeed. -/
theorem attested_iff_example :
    Attested ⟨true, true, true⟩ 7 (CoAuthState.initial.inserted 7 twoExecutors 9) 2
      [⟨1, 0, .success, some .new⟩, ⟨0, 0, .success, some .new⟩] := by
  refine (attested_iff ⟨true, true, true⟩ .initial 7 twoExecutors 9 _ rfl rfl (by decide)).mpr ?_
  intro last _ _ _
  exact ⟨List.Perm.swap _ _ _, by decide⟩

/-! ## 5. A schedule that is not in the pool -/

/-- The operations in which a callback of the schedule or of an executor is called. -/
def CoAuthOp.callsOut : CoAuthOp → Bool
  | .onBeginExecute .. | .onEndExecute .. | .onFinish .. | .onAcquireInfo .. => true
  | _ => false

/-- The call fails, calls nobody and leaves the pool alone. -/
structure RefusedUnknown (s : CoAuthState) (ret : ResultCode) (es : List CoAuthEvent)
    (s' : CoAuthState) : Prop where
  fail : ret = .fail
  quiet : ∀ t o r, .op t o r ∈ es → o.callsOut = false
  pool : s'.pool = s.pool

section Unknown

variable {resultCode : ResultCode} {finalResult : Option AuthAttributes} {scheCount : UInt64}

/-- The pool has no count to read or to lower: the call reads what its variable contains. -/
theorem alone_finish_unknown (hservice : service.scheResPool = true)
    (hunknown : s.pool.scheResPool S = none)
    (h : (coAuth service).Alone t (finish service S resultCode finalResult) s ret es s') :
    ∃ read, .op t (.getScheduleCount S) read ∈ es ∧ s'.pool = s.pool ∧
      (∀ t o r, .op t o r ∈ es → o.callsOut = false) ∧
      ret = if read > 1 then .success else .fail := by
  unfold finish at h
  rw [if_neg (by simp [hservice])] at h
  obtain ⟨env, es₁, -, hrest, rfl⟩ := alone_op_bind.mp h
  refine ⟨_, List.mem_cons_self, ?_⟩
  split at hrest
  · next hmore =>
    obtain ⟨env₁, es₂, -, hlast, rfl⟩ := alone_op_bind.mp hrest
    obtain ⟨rfl, rfl, rfl⟩ := alone_ret.mp hlast
    refine ⟨?_, fun t o r hop => ?_, (if_pos hmore).symm⟩
    · show (s.pool.scheduleCountMinus S).2 = _
      rw [AuthResPool.scheduleCountMinus, hunknown]
    · simp only [List.mem_cons, List.not_mem_nil, or_false] at hop
      rcases hop with heq | heq
      · cases heq
        rfl
      · cases heq
        rfl
  · next hfew =>
    obtain ⟨_, s₁, es₂, es₃, hremove, hlast, rfl⟩ := alone_bind.mp hrest
    have hpool : s₁.pool = s.pool := (alone_monitorRemoveCall hremove).1
    have hunknown₁ : s₁.pool.scheResPool S = none := by
      rw [hpool]
      exact hunknown
    obtain ⟨rfl, rfl, rfl⟩ := alone_finishLast_none hunknown₁ hlast
    refine ⟨hpool, fun t o r hop => ?_, (if_neg hfew).symm⟩
    simp only [List.mem_cons, List.mem_append, List.not_mem_nil, or_false] at hop
    rcases hop with heq | hop | heq
    · cases heq
      rfl
    · rw [hremove.ops (monitorRemoveCall_all (P := (· = .removeTask S)) rfl) hop]
      rfl
    · cases heq
      rfl

/-- **A schedule that is not in the pool.**  `Finish` of it is refused without effect exactly if
the service has no pool, or the uninitialised `scheCount` happens to contain at most one. -/
theorem refusedUnknown_iff (hunknown : s.pool.scheResPool S = none)
    (h : (coAuth service).Alone t (finish service S resultCode finalResult) s ret es s')
    (hcontent : ∀ read, .op t (.getScheduleCount S) read ∈ es → read = scheCount) :
    RefusedUnknown s ret es s' ↔ service.scheResPool = false ∨ scheCount ≤ 1 := by
  cases hservice : service.scheResPool with
  | false =>
    refine iff_of_true ?_ (.inl rfl)
    unfold finish at h
    rw [if_pos (by simp [hservice])] at h
    obtain ⟨rfl, rfl, rfl⟩ := alone_ret.mp h
    exact ⟨rfl, fun _ _ _ hop => absurd hop List.not_mem_nil, rfl⟩
  | true =>
    obtain ⟨read, hread, hpool, hquiet, rfl⟩ := alone_finish_unknown hservice hunknown h
    obtain rfl := hcontent read hread
    constructor
    · intro hrefused
      right
      by_contra hmore
      have hfail := hrefused.fail
      rw [if_pos (UInt64.not_le.mp hmore)] at hfail
      exact absurd hfail (by decide)
    · intro hfew
      have hle : read ≤ 1 := hfew.resolve_left Bool.noConfusion
      exact ⟨if_neg (UInt64.not_lt.mpr hle), hquiet, hpool⟩

end Unknown

/-- The pool is empty and the variable contains 2. -/
theorem finish_unknown_run : ∃ s', (coAuth ⟨true, true, true⟩).Alone 0
    (finish ⟨true, true, true⟩ 7 .fail none) ⟨.empty, []⟩ .success
      [.op 0 (.getScheduleCount 7) 2, .op 0 (.scheduleCountMinus 7) .fail] s' := by
  have hrun : (coAuth ⟨true, true, true⟩).alone 0 (finish ⟨true, true, true⟩ 7 .fail none)
      ⟨.empty, []⟩ [{ scheduleCount := 2 }, {}] = some (.success,
        [.op 0 (.getScheduleCount 7) 2, .op 0 (.scheduleCountMinus 7) .fail],
        ⟨(AuthResPool.empty.scheduleCountMinus 7).2, []⟩) := rfl
  exact ⟨_, .of_alone hrun⟩

theorem finish_unknown_not_refused : ∃ es s', (coAuth ⟨true, true, true⟩).Alone 0
    (finish ⟨true, true, true⟩ 7 .fail none) ⟨.empty, []⟩ .success es s' ∧
      ¬RefusedUnknown ⟨.empty, []⟩ .success es s' := by
  obtain ⟨s', hrun⟩ := finish_unknown_run
  refine ⟨_, s', hrun, fun hrefused => ?_⟩
  exact absurd hrefused.fail (by decide)

/-- The pool is empty and the variable contains 1: the call fails and does nothing. -/
theorem refusedUnknown_iff_example : ∃ es s', (coAuth ⟨true, true, true⟩).Alone 0
    (finish ⟨true, true, true⟩ 7 .fail none) ⟨.empty, []⟩ .fail es s' ∧
      RefusedUnknown ⟨.empty, []⟩ .fail es s' := by
  have hrun : (coAuth ⟨true, true, true⟩).alone 0 (finish ⟨true, true, true⟩ 7 .fail none)
      ⟨.empty, []⟩ [{ scheduleCount := 1 }, {}, {}] = some (.fail,
        [.op 0 (.getScheduleCount 7) 1, .op 0 (.removeTask 7) (),
          .op 0 (.findScheduleCallback 7) (.fail, none)], ⟨.empty, []⟩) := rfl
  have hcontent (read : UInt64) (hread : (.op 0 (.getScheduleCount 7) read : CoAuthEvent) ∈
      [.op 0 (.getScheduleCount 7) 1, .op 0 (.removeTask 7) (),
        .op 0 (.findScheduleCallback 7) (ResultCode.fail, none)]) : read = 1 := by
    simpa using hread
  exact ⟨_, _, .of_alone hrun,
    (refusedUnknown_iff rfl (.of_alone hrun) hcontent).mpr (.inr UInt64.le_rfl)⟩

end UserIam.CoAuth
