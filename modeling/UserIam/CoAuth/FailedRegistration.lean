import UserIam.CoAuth.ExecutorRegistry

/-!
# What a failed registration leaves behind

`Register` asks the HDI to add the executor before it makes sure that it can watch the executor's
process and answer the executor.  A death notice takes back both the entry in the pool and the
executor in the HDI; `Register` itself takes back neither.
-/

namespace UserIam.CoAuth

open AuthResManager

variable {manager : AuthResManager} {env : RegisterEnv} {executorInfo : Option ResAuthExecutor}
  {inner : Option ExecutorCallback} {id : UInt64}

/-! ## 1. How far a registration gets -/

/-- What the HDI answers to the registration, if it is asked. -/
def hdiAnswer (env : RegisterEnv) :
    Option ResAuthExecutor → Option ExecutorCallback → Option AddExecutorResult
  | some executorInfo, some _ =>
    (getExecutorRegisterInfo executorInfo).bind fun info =>
      if !env.hdiInterface then none else some (env.addExecutor info)
  | _, _ => none

/-- The id of the executor that the HDI has added for the registration. -/
def hdiAdded (env : RegisterEnv) (executorInfo : Option ResAuthExecutor)
    (callback : Option ExecutorCallback) : Option UInt64 :=
  (hdiAnswer env executorInfo callback).bind fun added =>
    if added.result ≠ .success then none else some added.executorId

/-- The recipient of the death notice can be allocated and is taken by the callback's object. -/
def RegisterEnv.Watched (env : RegisterEnv) : Prop :=
  env.deathRecipient = true ∧ env.asObject = true ∧ env.addDeathRecipient = true

theorem hdiAdded_some_some (executorInfo : ResAuthExecutor) (callback : ExecutorCallback) :
    hdiAdded env (some executorInfo) (some callback) =
      (getExecutorRegisterInfo executorInfo).bind fun info =>
        if env.hdiInterface = true ∧ (env.addExecutor info).result = .success then
          some (env.addExecutor info).executorId
        else none := by
  rw [hdiAdded, hdiAnswer]
  cases getExecutorRegisterInfo executorInfo with
  | none => rfl
  | some info =>
    rw [Option.bind_some, Option.bind_some]
    cases env.hdiInterface with
    | false => simp
    | true => simp [ite_not]

/-- A registration gets to the insertion if the HDI has added the executor and it is watched. -/
theorem admitted_isSome_iff :
    (∃ callback, admitted env executorInfo inner = some (id, callback)) ↔
      hdiAdded env executorInfo inner = some id ∧ env.Watched := by
  rcases executorInfo with _ | executorInfo <;> rcases inner with _ | callback
  · simp [admitted, hdiAdded, hdiAnswer]
  · simp [admitted, hdiAdded, hdiAnswer]
  · simp [admitted, hdiAdded, hdiAnswer]
  rw [hdiAdded_some_some, admitted]
  cases getExecutorRegisterInfo executorInfo with
  | none => simp
  | some info =>
    simp only [Option.bind_some, Option.ite_none_right_eq_some, Option.some.injEq, Prod.mk.injEq,
      RegisterEnv.Watched]
    constructor
    · rintro ⟨_, ⟨hhdi, hresult, hwatched⟩, rfl, -⟩
      exact ⟨⟨⟨hhdi, hresult⟩, rfl⟩, hwatched⟩
    · rintro ⟨⟨⟨hhdi, hresult⟩, rfl⟩, hwatched⟩
      exact ⟨callback, ⟨hhdi, hresult, hwatched⟩, rfl, rfl⟩

theorem not_admitted (h : ∀ id, ¬(hdiAdded env executorInfo inner = some id ∧ env.Watched)) :
    admitted env executorInfo inner = none := by
  rw [Option.eq_none_iff_forall_ne_some]
  rintro ⟨id, callback⟩ hadmitted
  exact h id (admitted_isSome_iff.mp ⟨callback, hadmitted⟩)

/-! ## 2. What it leaves -/

/-- `Register` never asks the HDI to delete an executor. -/
theorem register_deleted (manager : AuthResManager) (env : RegisterEnv)
    (executorInfo : Option ResAuthExecutor) (inner : Option ExecutorCallback) :
    (manager.register env executorInfo inner).2.deleted = manager.deleted := by
  rcases executorInfo with _ | executorInfo <;> rcases inner with _ | callback
  · rfl
  · rfl
  · rfl
  rw [register]
  cases getExecutorRegisterInfo executorInfo with
  | none => rfl
  | some info =>
    dsimp only
    repeat' split
    all_goals rfl

/-- The pool is as before, and the HDI has been asked to delete what it has added. -/
structure LeavesNothing (manager manager' : AuthResManager) (added : Option UInt64) : Prop where
  pool : manager'.coAuthResPool = manager.coAuthResPool
  hdi : ∀ id, added = some id →
    ∃ deleted, manager'.deleted = manager.deleted ++ deleted ∧ id ∈ deleted

/-- **Failed registration.**  A `Register` that answers with the invalid id leaves nothing behind
exactly if the HDI has added no executor, or the registration does not fail after that: the executor
is watched, there is a messenger, and the HDI has not given out the invalid id. -/
theorem failedRegister_leavesNothing_iff (manager : AuthResManager) (env : RegisterEnv)
    (executorInfo : Option ResAuthExecutor) (callback : Option ExecutorCallback) :
    ((manager.register env executorInfo callback).1 = invalidExecutorId →
        LeavesNothing manager (manager.register env executorInfo callback).2
          (hdiAdded env executorInfo callback)) ↔
      hdiAdded env executorInfo callback = none ∨ env.Watched ∧ env.messenger = true ∧
        hdiAdded env executorInfo callback ≠ some invalidExecutorId := by
  cases hadded : hdiAdded env executorInfo callback with
  | none =>
    have hnot : admitted env executorInfo callback = none := not_admitted fun id h => by
      rw [hadded] at h
      cases h.1
    rw [register_of_not_admitted hnot]
    exact iff_of_true (fun _ => ⟨rfl, fun _ h => by cases h⟩) (.inl rfl)
  | some id =>
    have hremains : ¬LeavesNothing manager (manager.register env executorInfo callback).2
        (some id) := by
      intro hleaves
      obtain ⟨deleted, hdeleted, hmem⟩ := hleaves.hdi id rfl
      rw [register_deleted, List.self_eq_append_right] at hdeleted
      rw [hdeleted] at hmem
      cases hmem
    rw [imp_iff_not hremains]
    simp only [reduceCtorEq, false_or, ne_eq, Option.some.injEq]
    by_cases hwatched : env.Watched
    · obtain ⟨callback', hadmitted⟩ := admitted_isSome_iff.mpr ⟨hadded, hwatched⟩
      rw [(register_of_admitted manager hadmitted).2.1]
      cases env.messenger with
      | false => simp
      | true => simp [hwatched]
    · have hnot : admitted env executorInfo callback = none :=
        not_admitted fun id h => hwatched h.2
      rw [register_of_not_admitted hnot]
      exact iff_of_false (fun h => h rfl) fun h => hwatched h.1

/-- The executor's process dies before it can be watched: the executor stays in the HDI. -/
theorem failedRegister_leavesExecutor :
    (AuthResManager.initial.register
        ⟨true, fun _ => ⟨.success, 7, [], []⟩, true, true, false, true⟩
        (some ⟨⟨.pin⟩, 0, 0, 0, List.replicate 32 0⟩) (some 11)).1 = invalidExecutorId ∧
      ¬LeavesNothing .initial (AuthResManager.initial.register
        ⟨true, fun _ => ⟨.success, 7, [], []⟩, true, true, false, true⟩
        (some ⟨⟨.pin⟩, 0, 0, 0, List.replicate 32 0⟩) (some 11)).2
        (hdiAdded ⟨true, fun _ => ⟨.success, 7, [], []⟩, true, true, false, true⟩
          (some ⟨⟨.pin⟩, 0, 0, 0, List.replicate 32 0⟩) (some 11)) := by
  refine ⟨rfl, fun hleaves => ?_⟩
  obtain ⟨deleted, hdeleted, hmem⟩ := hleaves.hdi 7 rfl
  rw [show deleted = [] from hdeleted.symm] at hmem
  cases hmem

end UserIam.CoAuth
