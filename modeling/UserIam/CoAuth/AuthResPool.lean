import UserIam.CoAuth.AuthAttributes

/-!
# AuthResPool

The two maps of the service: registered executors and running schedules.  Every method holds one
mutex from its first to its last line, so a method is one function of the pool.
-/

namespace UserIam.CoAuth

/-- The identity of an executor's callback object. -/
abbrev ExecutorCallback := Nat

/-- The identity of the callback object that is told how a schedule ends. -/
abbrev CoAuthCallback := Nat

structure AuthExecutor where
  authType : AuthType

structure ExecutorInfo where
  executorId : UInt64
  authType : AuthType
  publicKey : List UInt8

structure ScheduleInfo where
  scheduleId : UInt64
  executors : List ExecutorInfo
  templateId : UInt64
  authSubType : UInt64
  scheduleMode : UInt32

/-- Both pointers may be null. -/
structure ExecutorRegister where
  executorInfo : Option AuthExecutor
  callback : Option ExecutorCallback

structure ScheduleRegister where
  executorNum : UInt64
  scheduleInfo : ScheduleInfo
  callback : Option CoAuthCallback

/-- `authResPool` lists the map in the order of its keys, which is the order in which it is searched
by type. -/
structure AuthResPool where
  authResPool : List (UInt64 × ExecutorRegister)
  scheResPool : UInt64 → Option ScheduleRegister

namespace AuthResPool

def empty : AuthResPool := ⟨[], fun _ => none⟩

/-! ## 1. Executors -/

/-- `Insert(executorID, executorInfo, callback)`; an entry that exists stays as it is. -/
def insertExecutor (pool : AuthResPool) (executorID : UInt64) (executorInfo : Option AuthExecutor)
    (callback : Option ExecutorCallback) : ResultCode × AuthResPool :=
  if pool.authResPool.any (·.1 = executorID) then (.success, pool)
  else
    (.success, { pool with
      authResPool := pool.authResPool.orderedInsert (·.1 ≤ ·.1)
        (executorID, ⟨executorInfo, callback⟩) })

/-- `FindExecutorCallback(executorID, callback)` -/
def findExecutorCallbackById (pool : AuthResPool) (executorID : UInt64) :
    ResultCode × Option ExecutorCallback :=
  match pool.authResPool.lookup executorID with
  | none => (.fail, none)
  | some register => (.success, register.callback)

/-- `FindExecutorCallback(authType2Find, callback)`; the first executor of the type is taken. -/
def findExecutorCallback (pool : AuthResPool) (authType2Find : AuthType) :
    ResultCode × Option ExecutorCallback :=
  match pool.authResPool.find? fun entry =>
    entry.2.executorInfo.any fun info => info.authType = authType2Find with
  | none => (.fail, none)
  | some entry => (.success, entry.2.callback)

def deleteExecutorCallback (pool : AuthResPool) (executorID : UInt64) : ResultCode × AuthResPool :=
  if pool.authResPool.any (·.1 = executorID) then
    (.success, { pool with authResPool := pool.authResPool.filter (·.1 ≠ executorID) })
  else (.fail, pool)

/-! ## 2. Schedules -/

/-- `Insert(scheduleId, info, callback)`; an entry that exists stays as it is. -/
def insertSchedule (pool : AuthResPool) (scheduleId : UInt64) (info : ScheduleInfo)
    (callback : Option CoAuthCallback) : ResultCode × AuthResPool :=
  match pool.scheResPool scheduleId with
  | some _ => (.success, pool)
  | none =>
    (.success, { pool with
      scheResPool := Function.update pool.scheResPool scheduleId
        (some ⟨UInt64.ofNat info.executors.length, info, callback⟩) })

def findScheduleCallback (pool : AuthResPool) (scheduleId : UInt64) :
    ResultCode × Option CoAuthCallback :=
  match pool.scheResPool scheduleId with
  | none => (.fail, none)
  | some register => (.success, register.callback)

def scheduleCountMinus (pool : AuthResPool) (scheduleId : UInt64) : ResultCode × AuthResPool :=
  match pool.scheResPool scheduleId with
  | none => (.fail, pool)
  | some register =>
    if register.executorNum ≤ 0 then (.fail, pool)
    else
      (.success, { pool with
        scheResPool := Function.update pool.scheResPool scheduleId
          (some { register with executorNum := register.executorNum - 1 }) })

/-- The count goes to a variable of the caller, which keeps its value when the call fails. -/
def getScheduleCount (pool : AuthResPool) (scheduleId scheduleCount : UInt64) :
    ResultCode × UInt64 :=
  match pool.scheResPool scheduleId with
  | none => (.fail, scheduleCount)
  | some register => (.success, register.executorNum)

def getScheduleInfo (pool : AuthResPool) (scheduleId : UInt64) : ResultCode × Option ScheduleInfo :=
  match pool.scheResPool scheduleId with
  | none => (.fail, none)
  | some register => (.success, some register.scheduleInfo)

def deleteScheduleCallback (pool : AuthResPool) (scheduleId : UInt64) : ResultCode × AuthResPool :=
  match pool.scheResPool scheduleId with
  | none => (.fail, pool)
  | some _ =>
    (.success, { pool with scheResPool := Function.update pool.scheResPool scheduleId none })

/-! ## 3. What a method does to one schedule -/

variable (pool : AuthResPool) (scheduleId other : UInt64)

@[simp] theorem insertExecutor_scheResPool (executorID : UInt64)
    (executorInfo : Option AuthExecutor) (callback : Option ExecutorCallback) :
    (pool.insertExecutor executorID executorInfo callback).2.scheResPool = pool.scheResPool := by
  rw [insertExecutor]
  split <;> rfl

@[simp] theorem deleteExecutorCallback_scheResPool (executorID : UInt64) :
    (pool.deleteExecutorCallback executorID).2.scheResPool = pool.scheResPool := by
  rw [deleteExecutorCallback]
  split <;> rfl

theorem insertSchedule_self (info : ScheduleInfo) (callback : Option CoAuthCallback) :
    (pool.insertSchedule scheduleId info callback).2.scheResPool scheduleId =
      some ((pool.scheResPool scheduleId).getD
        ⟨UInt64.ofNat info.executors.length, info, callback⟩) := by
  rw [insertSchedule]
  split
  · next register h => rw [h, Option.getD_some]
  · next h =>
    rw [h, Option.getD_none]
    exact Function.update_self _ _ _

theorem insertSchedule_of_ne (h : other ≠ scheduleId) (info : ScheduleInfo)
    (callback : Option CoAuthCallback) :
    (pool.insertSchedule other info callback).2.scheResPool scheduleId =
      pool.scheResPool scheduleId := by
  rw [insertSchedule]
  split
  · rfl
  · exact Function.update_of_ne h.symm _ _

theorem scheduleCountMinus_self :
    (pool.scheduleCountMinus scheduleId).2.scheResPool scheduleId =
      (pool.scheResPool scheduleId).map fun register =>
        if register.executorNum ≤ 0 then register
        else { register with executorNum := register.executorNum - 1 } := by
  rw [scheduleCountMinus]
  split
  · next h => rw [h, Option.map_none]
  · next register h =>
    rw [h, Option.map_some]
    split
    · exact h
    · exact Function.update_self _ _ _

theorem scheduleCountMinus_of_ne (h : other ≠ scheduleId) :
    (pool.scheduleCountMinus other).2.scheResPool scheduleId = pool.scheResPool scheduleId := by
  rw [scheduleCountMinus]
  split
  · rfl
  · split
    · rfl
    · exact Function.update_of_ne h.symm _ _

theorem deleteScheduleCallback_self :
    (pool.deleteScheduleCallback scheduleId).2.scheResPool scheduleId = none := by
  rw [deleteScheduleCallback]
  split
  · next h => exact h
  · exact Function.update_self _ _ _

theorem deleteScheduleCallback_of_ne (h : other ≠ scheduleId) :
    (pool.deleteScheduleCallback other).2.scheResPool scheduleId = pool.scheResPool scheduleId := by
  rw [deleteScheduleCallback]
  split
  · rfl
  · exact Function.update_of_ne h.symm _ _

end AuthResPool

end UserIam.CoAuth
