import UserIam.CoAuth.AuthResPool

/-!
# AuthResManager

How executors come into the pool and leave it: `Register` asks the HDI for an id, watches the
executor's process and inserts the callback; a death notice deletes what is registered under the id.
-/

namespace UserIam.CoAuth

/-! ## 1. Registration -/

def invalidExecutorId : UInt64 := 0

def publicKeyLen : Nat := 32

/-- What a registration reads of an executor; the pool reads its type only. -/
structure ResAuthExecutor extends AuthExecutor where
  authAbility : UInt64
  executorSecLevel : UInt32
  executorType : UInt32
  publicKey : List UInt8

/-- What the HDI is asked to add. -/
structure ExecutorRegisterInfo where
  authType : AuthType
  executorRole : UInt32
  executorMatcher : UInt32
  esl : UInt32
  publicKey : List UInt8

def getExecutorRegisterInfo (executorInfo : ResAuthExecutor) : Option ExecutorRegisterInfo :=
  if executorInfo.publicKey.length ≠ publicKeyLen then none
  else
    some
      { authType := executorInfo.authType
        executorRole := executorInfo.executorType
        executorMatcher := executorInfo.authAbility.toUInt32
        esl := executorInfo.executorSecLevel
        publicKey := executorInfo.publicKey }

structure AddExecutorResult where
  result : ResultCode
  executorId : UInt64
  frameworksPublicKey : List UInt8
  templateIds : List UInt64

/-- What the surroundings of one `Register` do: whether the HDI is there and what it answers,
whether the recipient and the messenger can be allocated, whether the callback has a remote object
and whether that object takes the recipient. -/
structure RegisterEnv where
  hdiInterface : Bool
  addExecutor : ExecutorRegisterInfo → AddExecutorResult
  deathRecipient : Bool
  asObject : Bool
  addDeathRecipient : Bool
  messenger : Bool

/-- A recipient together with the callback whose remote object it watches. -/
structure ResIExecutorCallbackDeathRecipient where
  executorID : UInt64
  callback : ExecutorCallback
  deriving DecidableEq

/-- `recipients` are the recipients that watch an object, `ready` what the callbacks have been sent,
`deleted` the ids that the HDI has been asked to delete. -/
structure AuthResManager where
  coAuthResPool : AuthResPool
  recipients : List ResIExecutorCallbackDeathRecipient
  ready : List (ExecutorCallback × List UInt8 × List UInt64)
  deleted : List UInt64

namespace AuthResManager

def initial : AuthResManager := ⟨.empty, [], [], []⟩

def register (manager : AuthResManager) (env : RegisterEnv) :
    Option ResAuthExecutor → Option ExecutorCallback → UInt64 × AuthResManager
  | some executorInfo, some callback =>
    match getExecutorRegisterInfo executorInfo with
    | none => (invalidExecutorId, manager)
    | some info =>
      if !env.hdiInterface then (invalidExecutorId, manager)
      else
        let added := env.addExecutor info
        if added.result ≠ .success then (invalidExecutorId, manager)
        else if !env.deathRecipient || !env.asObject then (invalidExecutorId, manager)
        else if !env.addDeathRecipient then (invalidExecutorId, manager)
        else
          let executorId := added.executorId
          let manager :=
            { manager with
              recipients := manager.recipients ++ [⟨executorId, callback⟩]
              coAuthResPool := (manager.coAuthResPool.insertExecutor executorId
                (some executorInfo.toAuthExecutor) (some callback)).2 }
          -- the executor is in the pool, though it is told that it is not
          if !env.messenger then (invalidExecutorId, manager)
          else
            (executorId, { manager with
              ready := manager.ready ++
                [(callback, added.frameworksPublicKey, added.templateIds)] })
  | _, _ => (invalidExecutorId, manager)

/-- `remote` is whether the pointer to the dead object is there. -/
def onRemoteDied (manager : AuthResManager) (recipient : ResIExecutorCallbackDeathRecipient)
    (remote hdiInterface : Bool) : AuthResManager :=
  if !remote then manager
  else
    let manager := { manager with
      coAuthResPool := (manager.coAuthResPool.deleteExecutorCallback recipient.executorID).2 }
    if !hdiInterface then manager
    else { manager with deleted := manager.deleted ++ [recipient.executorID] }

def findExecutorCallback (manager : AuthResManager) (executorID : UInt64) :
    ResultCode × Option ExecutorCallback :=
  manager.coAuthResPool.findExecutorCallbackById executorID

end AuthResManager

/-! ## 2. The pool as a map -/

section Map

variable {pool : AuthResPool} {executorID id : UInt64} {register : ExecutorRegister}

def AuthResPool.executor (pool : AuthResPool) (id : UInt64) : Option ExecutorRegister :=
  pool.authResPool.lookup id

theorem lookup_isSome_iff {entries : List (UInt64 × ExecutorRegister)} :
    (entries.lookup id).isSome = entries.any (·.1 = id) := by
  induction entries with
  | nil => rfl
  | cons entry entries ih =>
    rw [List.lookup_cons, List.any_cons]
    by_cases h : id = entry.1
    · simp [h]
    · simp [beq_false_of_ne h, Ne.symm h, ih]

theorem lookup_orderedInsert {entries : List (UInt64 × ExecutorRegister)}
    (h : entries.any (·.1 = executorID) = false) :
    (entries.orderedInsert (·.1 ≤ ·.1) (executorID, register)).lookup id =
      if id = executorID then some register else entries.lookup id := by
  induction entries with
  | nil =>
    by_cases hid : id = executorID
    · simp [hid]
    · simp [hid, beq_false_of_ne hid, List.lookup_cons]
  | cons entry entries ih =>
    rw [List.any_cons, Bool.or_eq_false_iff] at h
    have hne : entry.1 ≠ executorID := by simpa using h.1
    rw [List.orderedInsert_cons]
    split
    · by_cases hid : id = executorID
      · simp [hid]
      · rw [List.lookup_cons, beq_false_of_ne hid, if_neg hid]
    · rw [List.lookup_cons, ih h.2, List.lookup_cons]
      by_cases hid : id = entry.1
      · simp [hid, hne]
      · simp [beq_false_of_ne hid]

theorem lookup_filter_ne {entries : List (UInt64 × ExecutorRegister)} :
    (entries.filter (·.1 ≠ executorID)).lookup id =
      if id = executorID then none else entries.lookup id := by
  induction entries with
  | nil => simp
  | cons entry entries ih =>
    by_cases hentry : entry.1 = executorID
    · rw [List.filter_cons_of_neg (by simpa using hentry), ih, List.lookup_cons]
      by_cases hid : id = executorID
      · simp [hid]
      · have hne : id ≠ entry.1 := fun h => hid (h.trans hentry)
        simp [hid, beq_false_of_ne hne]
    · rw [List.filter_cons_of_pos (by simpa using hentry), List.lookup_cons, ih, List.lookup_cons]
      by_cases hid : id = entry.1
      · simp [hid, hentry]
      · simp [beq_false_of_ne hid]

/-- An insertion does not touch an entry that exists. -/
theorem AuthResPool.executor_insert (info : Option AuthExecutor)
    (callback : Option ExecutorCallback) :
    (pool.insertExecutor executorID info callback).2.executor id =
      if id = executorID then some ((pool.executor id).getD ⟨info, callback⟩)
      else pool.executor id := by
  rw [insertExecutor]
  split
  · next h =>
    rw [← lookup_isSome_iff] at h
    by_cases hid : id = executorID
    · subst hid
      obtain ⟨register, hregister⟩ := Option.isSome_iff_exists.mp h
      rw [if_pos rfl, executor, hregister, Option.getD_some]
    · rw [if_neg hid]
  · next h =>
    have hnone : pool.authResPool.any (·.1 = executorID) = false := Bool.eq_false_iff.mpr h
    rw [executor, lookup_orderedInsert hnone, executor]
    by_cases hid : id = executorID
    · subst hid
      have hlookup : pool.authResPool.lookup id = none := by
        rw [← Option.not_isSome_iff_eq_none, lookup_isSome_iff, hnone]
        exact Bool.false_ne_true
      rw [if_pos rfl, if_pos rfl, hlookup, Option.getD_none]
    · rw [if_neg hid, if_neg hid]

theorem AuthResPool.executor_delete :
    (pool.deleteExecutorCallback executorID).2.executor id =
      if id = executorID then none else pool.executor id := by
  rw [deleteExecutorCallback]
  split
  · exact lookup_filter_ne
  · next h =>
    split
    · next hid =>
      subst hid
      rw [executor, ← Option.not_isSome_iff_eq_none, lookup_isSome_iff]
      exact h
    · rfl

theorem AuthResPool.findExecutorCallbackById_eq :
    pool.findExecutorCallbackById id =
      (pool.executor id).elim (.fail, none) fun register => (.success, register.callback) := by
  rw [findExecutorCallbackById, executor]
  cases pool.authResPool.lookup id <;> rfl

end Map

end UserIam.CoAuth
