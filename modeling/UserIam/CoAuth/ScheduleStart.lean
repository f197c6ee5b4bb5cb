import UserIam.CoAuth.FinishSuccess
import UserIam.Conc.Trace

/-!
# How a schedule is started

`CoAuthHandle` fixes the number of executors before it looks them up, asks the ones that it finds
one after another, and finishes the schedule when one of them fails.  Executors are looked up by
their type.
-/

namespace UserIam.CoAuth

open Conc Conc.Prog Machine

/-! ## 1. What a start does -/

abbrev CoAuthStep := (o : CoAuthOp) × CoAuthRes o

/-- A call of `OnBeginExecute`, and what it has returned. -/
structure Start where
  executor : ExecutorCallback
  scheduleId : UInt64
  publicKey : List UInt8
  result : ResultCode
  deriving DecidableEq

def startOf : CoAuthStep → Option Start
  | ⟨.onBeginExecute executor scheduleId publicKey _, result⟩ =>
    some ⟨executor, scheduleId, publicKey, result⟩
  | _ => none

def starts (es : List CoAuthStep) : List Start :=
  es.filterMap startOf

def onFinishCode : CoAuthStep → Option UInt32
  | ⟨.onFinish _ _ resultCode _, _⟩ => some resultCode
  | _ => none

/-- The codes with which callbacks have been told that a schedule has ended. -/
def finishes (es : List CoAuthStep) : List UInt32 :=
  es.filterMap onFinishCode

theorem starts_append (es es' : List CoAuthStep) : starts (es ++ es') = starts es ++ starts es' :=
  List.filterMap_append

theorem finishes_append (es es' : List CoAuthStep) :
    finishes (es ++ es') = finishes es ++ finishes es' :=
  List.filterMap_append

/-- The last failure of the executors that have been asked. -/
def executeResult (executeRet : ResultCode) (asked : List Start) : ResultCode :=
  asked.foldl (fun ret start => if start.result ≠ .success then start.result else ret) executeRet

theorem executeResult_success {executeRet : ResultCode} {asked : List Start} :
    executeResult executeRet asked = .success ↔
      executeRet = .success ∧ ∀ start ∈ asked, start.result = .success := by
  induction asked generalizing executeRet with
  | nil => simp [executeResult]
  | cons start asked ih =>
    rw [executeResult, List.foldl_cons]
    refine ih.trans ?_
    rw [List.forall_mem_cons]
    by_cases hstart : start.result = .success
    · rw [if_neg (not_not.mpr hstart)]
      simp [hstart]
    · rw [if_pos hstart]
      simp [hstart]

section Trace

variable {service : CoAuthService} {info : ScheduleInfo} {id : UInt64} {authInfo : AuthInfo}
  {es : List CoAuthStep}

/-- Whatever the pool and the executors answer, the loop asks, and keeps the last failure. -/
theorem trace_beginExecute {executors : List ExecutorInfo} {executeRet ret : ResultCode}
    (h : (beginExecute info id authInfo executors executeRet).Trace ret es) :
    ret = executeResult executeRet (starts es) ∧ finishes es = [] := by
  induction executors generalizing executeRet es with
  | nil =>
    obtain ⟨rfl, rfl⟩ := trace_ret.mp h
    exact ⟨rfl, rfl⟩
  | cons executor executors ih =>
    rw [beginExecute] at h
    obtain ⟨⟨findRet, executorCallback⟩, es₁, hrest, rfl⟩ := trace_op_bind.mp h
    cases executorCallback with
    -- a missing executor is skipped
    | none =>
      obtain ⟨hret, hfinishes⟩ := ih hrest
      exact ⟨hret, hfinishes⟩
    | some executorCallback =>
      dsimp only at hrest
      split at hrest
      · obtain ⟨hret, hfinishes⟩ := ih hrest
        exact ⟨hret, hfinishes⟩
      · obtain ⟨result, es₂, hnext, rfl⟩ := trace_op_bind.mp hrest
        obtain ⟨hret, hfinishes⟩ := ih hnext
        exact ⟨hret, hfinishes⟩

/-- A program with one kind of operation, which neither asks an executor nor tells a callback. -/
theorem trace_of_one {p : CoAuthProg Unit} {o : CoAuthOp} (hp : p.All (· = o))
    (hstart : ∀ r, startOf ⟨o, r⟩ = none) (hfinish : ∀ r, onFinishCode ⟨o, r⟩ = none)
    (h : p.Trace () es) : starts es = [] ∧ finishes es = [] := by
  have hall : ∀ e ∈ es, startOf e = none ∧ onFinishCode e = none := by
    rintro ⟨o', r⟩ he
    obtain rfl : o' = o := h.ops hp he
    exact ⟨hstart r, hfinish r⟩
  exact ⟨List.filterMap_eq_nil_iff.mpr fun e he => (hall e he).1,
    List.filterMap_eq_nil_iff.mpr fun e he => (hall e he).2⟩

/-- The end of `CoAuthHandle`: a failure is told to the callback, and the schedule is deleted. -/
theorem trace_finishBegin {callback : CoAuthCallback} {executeRet : ResultCode}
    (h : (if executeRet ≠ .success then do
        let _ ← atomic (.onFinish id callback executeRet.toUInt32 [])
        let _ ← atomic (.deleteScheduleCallback id)
        monitorRemoveCall service id
      else pure () : CoAuthProg Unit).Trace () es) :
    starts es = [] ∧
      finishes es = if executeRet ≠ .success then [executeRet.toUInt32] else [] := by
  split at h
  · next hfailed =>
    obtain ⟨_, es₁, hnext, rfl⟩ := trace_op_bind.mp h
    obtain ⟨_, es₂, hlast, rfl⟩ := trace_op_bind.mp hnext
    obtain ⟨hstarts, hfinishes⟩ :=
      trace_of_one (monitorRemoveCall_all rfl) (fun _ => rfl) (fun _ => rfl) hlast
    rw [if_pos hfailed]
    exact ⟨hstarts, congrArg (executeRet.toUInt32 :: ·) hfinishes⟩
  · next hsuccess =>
    obtain ⟨-, rfl⟩ := trace_ret.mp h
    rw [if_neg hsuccess]
    exact ⟨rfl, rfl⟩

/-- From the stored schedule on: only the loop asks executors, and only its result is told. -/
theorem trace_begun {callback : CoAuthCallback} {executeRet : ResultCode}
    {es₁ es₂ es₃ : List CoAuthStep} (hmonitor : (monitorCall service info.scheduleId).Trace () es₁)
    (hexecute : (beginExecute info info.scheduleId authInfo info.executors .success).Trace
      executeRet es₂)
    (hend : (if executeRet ≠ .success then do
        let _ ← atomic (.onFinish info.scheduleId callback executeRet.toUInt32 [])
        let _ ← atomic (.deleteScheduleCallback info.scheduleId)
        monitorRemoveCall service info.scheduleId
      else pure () : CoAuthProg Unit).Trace () es₃) :
    starts (es₁ ++ (es₂ ++ es₃)) = starts es₂ ∧
      finishes (es₁ ++ (es₂ ++ es₃)) = if executeResult .success (starts es₂) ≠ .success then
        [(executeResult .success (starts es₂)).toUInt32] else [] := by
  obtain ⟨hstarts₁, hfinishes₁⟩ :=
    trace_of_one (monitorCall_all rfl) (fun _ => rfl) (fun _ => rfl) hmonitor
  obtain ⟨rfl, hfinishes₂⟩ := trace_beginExecute hexecute
  obtain ⟨hstarts₃, hfinishes₃⟩ := trace_finishBegin hend
  constructor
  · rw [starts_append, starts_append, hstarts₁, hstarts₃, List.nil_append, List.append_nil]
  · rw [finishes_append, finishes_append, hfinishes₁, hfinishes₂, hfinishes₃, List.nil_append,
      List.nil_append]

/-- `CoAuthHandle` with a callback: no executor is asked and the callback is told why, or the
callback is told the last failure of the executors, if there is one. -/
theorem trace_beginSchedule {callback : CoAuthCallback}
    (h : (beginSchedule service info authInfo (some callback)).Trace () es) :
    (starts es = [] ∧ ∃ code, code ≠ ResultCode.success ∧ finishes es = [code.toUInt32]) ∨
      finishes es = if executeResult .success (starts es) ≠ .success then
        [(executeResult .success (starts es)).toUInt32] else [] := by
  unfold beginSchedule at h
  dsimp only at h
  split at h
  · left
    obtain ⟨_, es', hrest, rfl⟩ := trace_call.mp h
    obtain ⟨-, rfl⟩ := trace_ret.mp hrest
    exact ⟨rfl, .fail, by decide, rfl⟩
  split at h
  · left
    obtain ⟨_, es', hrest, rfl⟩ := trace_call.mp h
    obtain ⟨-, rfl⟩ := trace_ret.mp hrest
    exact ⟨rfl, .fail, by decide, rfl⟩
  obtain ⟨saveRet, es₁, hsaved, rfl⟩ := trace_op_bind.mp h
  split at hsaved
  · next hfailed =>
    left
    obtain ⟨_, es', hrest, rfl⟩ := trace_call.mp hsaved
    obtain ⟨-, rfl⟩ := trace_ret.mp hrest
    exact ⟨rfl, saveRet, hfailed, rfl⟩
  · right
    obtain ⟨_, es₂, es₃, hmonitor, hbegin, rfl⟩ := trace_bind.mp hsaved
    obtain ⟨executeRet, es₄, es₅, hexecute, hend, rfl⟩ := trace_bind.mp hbegin
    obtain ⟨hstarts, hfinishes⟩ := trace_begun hmonitor hexecute hend
    show finishes (es₂ ++ (es₄ ++ es₅)) =
      if executeResult .success (starts (es₂ ++ (es₄ ++ es₅))) ≠ .success then
        [(executeResult .success (starts (es₂ ++ (es₄ ++ es₅)))).toUInt32] else []
    rw [hstarts, hfinishes]

end Trace

/-! ## 2. Rollback -/

/-- Every executor that has started is told to stop, later on. -/
def RolledBack (id : UInt64) (es : List CoAuthStep) : Prop :=
  ∀ pre post executor publicKey commandAttrs,
    es = pre ++ ⟨.onBeginExecute executor id publicKey commandAttrs, .success⟩ :: post →
      ∃ commandAttrs' result, ⟨.onEndExecute executor id commandAttrs', result⟩ ∈ post

def CoAuthOp.tellsEnd : CoAuthOp → Bool
  | .onEndExecute .. => true
  | _ => false

/-- `CoAuthHandle` never tells an executor to stop. -/
theorem beginSchedule_not_tellsEnd (service : CoAuthService) (info : ScheduleInfo)
    (authInfo : AuthInfo) (callback : Option CoAuthCallback) :
    (beginSchedule service info authInfo callback).All fun o => o.tellsEnd = false :=
  beginSchedule_all (P := fun o => o.tellsEnd = false) (fun _ => rfl) rfl (fun _ => rfl) rfl rfl
    (fun _ _ _ => rfl) (fun _ _ => rfl) rfl authInfo callback

theorem mem_starts {es : List CoAuthStep} {start : Start} :
    start ∈ starts es ↔ ∃ commandAttrs, ⟨.onBeginExecute start.executor start.scheduleId
      start.publicKey commandAttrs, start.result⟩ ∈ es := by
  rw [starts, List.mem_filterMap]
  constructor
  · rintro ⟨⟨o, r⟩, hmem, hstart⟩
    cases o with
    | onBeginExecute executor id key attrs =>
      cases hstart
      exact ⟨attrs, hmem⟩
    | _ => cases hstart
  · rintro ⟨attrs, hmem⟩
    exact ⟨_, hmem, rfl⟩

section Rollback

variable {service : CoAuthService} {info : ScheduleInfo} {authInfo : AuthInfo}
  {callback : Option CoAuthCallback} {es : List CoAuthStep}

/-- The executors are asked for this schedule. -/
theorem start_scheduleId (h : (beginSchedule service info authInfo callback).Trace () es)
    {start : Start} (hstart : start ∈ starts es) : start.scheduleId = info.scheduleId := by
  obtain ⟨attrs, hmem⟩ := mem_starts.mp hstart
  exact h.ops (beginSchedule_about info authInfo callback) hmem _ rfl

/-- Only an executor that has failed makes `CoAuthHandle` finish a schedule that it has begun. -/
theorem finishes_of_starts (h : (beginSchedule service info authInfo callback).Trace () es)
    (hasked : starts es ≠ []) :
    (∃ code ∈ finishes es, code ≠ ResultCode.success.toUInt32) ↔
      ∃ start ∈ starts es, start.result ≠ .success := by
  cases callback with
  | none =>
    obtain ⟨-, rfl⟩ := trace_ret.mp h
    exact absurd rfl hasked
  | some callback =>
    have hfinishes := (trace_beginSchedule h).resolve_left fun hnone => hasked hnone.1
    rw [hfinishes]
    split
    · next hfailed =>
      have hresult : ∃ start ∈ starts es, start.result ≠ .success := by
        by_contra hnone
        push Not at hnone
        exact hfailed (executeResult_success.mpr ⟨rfl, hnone⟩)
      refine ⟨fun _ => hresult, fun _ => ⟨_, List.mem_singleton.mpr rfl, ?_⟩⟩
      exact fun hcode => hfailed (toUInt32_eq_success.mp hcode)
    · next hdone =>
      have hall := (executeResult_success.mp (not_not.mp hdone)).2
      constructor
      · rintro ⟨code, hcode, -⟩
        cases hcode
      · rintro ⟨start, hstart, hfailed⟩
        exact absurd (hall start hstart) hfailed

/-- Where an executor has started, no step of the call tells it to stop. -/
theorem not_rolledBack (h : (beginSchedule service info authInfo callback).Trace () es)
    {start : Start} (hstart : start ∈ starts es) (hsuccess : start.result = .success) :
    ¬RolledBack info.scheduleId es := by
  intro hrolled
  obtain ⟨attrs, hmem⟩ := mem_starts.mp hstart
  rw [hsuccess, start_scheduleId h hstart] at hmem
  obtain ⟨pre, post, rfl⟩ := List.append_of_mem hmem
  obtain ⟨attrs', result, hend⟩ := hrolled pre post _ _ _ rfl
  have htells := h.ops (beginSchedule_not_tellsEnd service info authInfo callback)
    (List.mem_append_right _ (List.mem_cons_of_mem _ hend))
  cases htells

/-- **Rollback.**  When `CoAuthHandle` tells the callback of a failure, all executors that have
started are told to stop, exactly if the executors that it has asked have all started or all
failed. -/
theorem rolledBack_iff (h : (beginSchedule service info authInfo callback).Trace () es) :
    ((∃ code ∈ finishes es, code ≠ ResultCode.success.toUInt32) →
        RolledBack info.scheduleId es) ↔
      (∀ start ∈ starts es, start.result = .success) ∨
        ∀ start ∈ starts es, start.result ≠ .success := by
  constructor
  · intro hrolled
    by_contra hmixed
    rw [not_or] at hmixed
    push Not at hmixed
    obtain ⟨hfailed, start, hstart, hsuccess⟩ := hmixed
    have hfinish := (finishes_of_starts h (List.ne_nil_of_mem hstart)).mpr hfailed
    exact not_rolledBack h hstart hsuccess (hrolled hfinish)
  · intro hsame hfinish pre post executor publicKey attrs hes
    have hstart : (⟨executor, info.scheduleId, publicKey, .success⟩ : Start) ∈ starts es :=
      mem_starts.mpr ⟨attrs, by rw [hes]; simp⟩
    rcases hsame with hall | hnone
    · obtain ⟨start, hfailed, hresult⟩ :=
        (finishes_of_starts h (List.ne_nil_of_mem hstart)).mp hfinish
      exact absurd (hall start hfailed) hresult
    · exact absurd rfl (hnone _ hstart)

end Rollback

section OneFails

/-- The executors of both types are registered. -/
def twoRegistered : CoAuthState :=
  ⟨⟨[(1, ⟨some ⟨.pin⟩, some 11⟩), (2, ⟨some ⟨.face⟩, some 12⟩)], fun _ => none⟩, []⟩

/-- The first executor starts and the second one fails. -/
theorem oneFails_run : ∃ es s', (coAuth ⟨true, true, true⟩).Alone 0
    (beginSchedule ⟨true, true, true⟩ twoExecutors ⟨[], 0⟩ (some 9)) twoRegistered () es s' ∧
      starts (steps es) = [⟨11, 7, [], .success⟩, ⟨12, 7, [], .fail⟩] ∧
      finishes (steps es) = [ResultCode.fail.toUInt32] := by
  have hrun : ((coAuth ⟨true, true, true⟩).alone 0
      (beginSchedule ⟨true, true, true⟩ twoExecutors ⟨[], 0⟩ (some 9)) twoRegistered
      [{}, {}, {}, {}, {}, ⟨.fail, 0⟩, {}, {}, {}]).map
        (fun r => (starts (steps r.2.1), finishes (steps r.2.1))) =
      some ([⟨11, 7, [], .success⟩, ⟨12, 7, [], .fail⟩], [ResultCode.fail.toUInt32]) := by decide
  obtain ⟨⟨ret, es, s'⟩, hrun, hevents⟩ := Option.map_eq_some_iff.mp hrun
  exact ⟨es, s', .of_alone hrun, (Prod.mk.inj hevents).1, (Prod.mk.inj hevents).2⟩

/-- The first executor is not told to stop. -/
theorem oneFails_not_rolledBack : ∃ es,
    (beginSchedule ⟨true, true, true⟩ twoExecutors ⟨[], 0⟩ (some 9)).Trace () es ∧
      ¬((∃ code ∈ finishes es, code ≠ ResultCode.success.toUInt32) → RolledBack 7 es) := by
  obtain ⟨es, s', hrun, hstarts, hfinishes⟩ := oneFails_run
  refine ⟨steps es, hrun.trace, fun hrolled => ?_⟩
  have hstart : (⟨11, 7, [], .success⟩ : Start) ∈ starts (steps es) := by
    rw [hstarts]
    exact List.mem_cons_self
  refine not_rolledBack hrun.trace hstart rfl (hrolled ?_)
  rw [hfinishes]
  exact ⟨_, List.mem_singleton.mpr rfl, by decide⟩

/-- Both executors fail: the callback is told so, and none is left to be told to stop. -/
theorem rolledBack_iff_example : ∃ es,
    (beginSchedule ⟨true, true, true⟩ twoExecutors ⟨[], 0⟩ (some 9)).Trace () es ∧
      finishes es = [ResultCode.fail.toUInt32] ∧ RolledBack 7 es := by
  have hrun : ((coAuth ⟨true, true, true⟩).alone 0
      (beginSchedule ⟨true, true, true⟩ twoExecutors ⟨[], 0⟩ (some 9)) twoRegistered
      [{}, {}, {}, ⟨.fail, 0⟩, {}, ⟨.fail, 0⟩, {}, {}, {}]).map
        (fun r => (starts (steps r.2.1), finishes (steps r.2.1))) =
      some ([⟨11, 7, [], .fail⟩, ⟨12, 7, [], .fail⟩], [ResultCode.fail.toUInt32]) := by decide
  obtain ⟨⟨ret, es, s'⟩, hrun, hevents⟩ := Option.map_eq_some_iff.mp hrun
  obtain ⟨hstarts, hfinishes⟩ := Prod.mk.inj hevents
  have htrace := (Machine.Alone.of_alone hrun).trace
  refine ⟨steps es, htrace, hfinishes, (rolledBack_iff htrace).mpr (.inr ?_) ?_⟩
  · rw [show starts (steps es) = _ from hstarts]
    decide
  · rw [show finishes (steps es) = _ from hfinishes]
    exact ⟨_, List.mem_singleton.mpr rfl, by decide⟩

end OneFails

/-! ## 3. The executors that are found -/

/-- The callbacks that the look-up by type gives for a list of executors, and their public keys. -/
def AuthResPool.found (pool : AuthResPool) (id : UInt64) (executors : List ExecutorInfo) :
    List (ExecutorCallback × UInt64 × List UInt8) :=
  executors.filterMap fun executor =>
    (pool.findExecutorCallback executor.authType).2.map fun callback =>
      (callback, id, executor.publicKey)

/-- Whom a start has gone to. -/
def Start.target (start : Start) : ExecutorCallback × UInt64 × List UInt8 :=
  (start.executor, start.scheduleId, start.publicKey)

theorem findExecutorCallback_success {pool : AuthResPool} {authType : AuthType}
    {callback : ExecutorCallback} (h : (pool.findExecutorCallback authType).2 = some callback) :
    pool.findExecutorCallback authType = (.success, some callback) := by
  unfold AuthResPool.findExecutorCallback at h ⊢
  split at h
  · cases h
  · exact congrArg (ResultCode.success, ·) h

section Alone

variable {service : CoAuthService} {info : ScheduleInfo} {id : UInt64} {authInfo : AuthInfo}
  {t : Nat} {s s' : CoAuthState} {es : List CoAuthEvent} {ret : ResultCode}

/-- The loop leaves the state as it is and asks every executor that is found, in the order of the
list. -/
theorem alone_beginExecute {executors : List ExecutorInfo} {executeRet : ResultCode}
    (h : (coAuth service).Alone t (beginExecute info id authInfo executors executeRet) s ret es
      s') :
    s' = s ∧ (starts (steps es)).map Start.target = s.pool.found id executors := by
  induction executors generalizing executeRet es with
  | nil =>
    obtain ⟨-, rfl, rfl⟩ := alone_ret.mp h
    exact ⟨rfl, rfl⟩
  | cons executor executors ih =>
    rw [beginExecute] at h
    obtain ⟨env, es₁, -, hrest, rfl⟩ := alone_op_bind.mp h
    have hhandle : (coAuth service).handle t (.findExecutorCallback executor.authType) env s =
        (s.pool.findExecutorCallback executor.authType, s) := rfl
    rw [hhandle] at hrest
    unfold AuthResPool.found
    cases hfind : (s.pool.findExecutorCallback executor.authType).2 with
    -- a missing executor is skipped
    | none =>
      rw [List.filterMap_cons_none (by rw [hfind]; rfl)]
      generalize s.pool.findExecutorCallback executor.authType = found at hrest hfind
      obtain ⟨findRet, executorCallback⟩ := found
      cases hfind
      obtain ⟨hstate, htargets⟩ := ih hrest
      exact ⟨hstate, htargets⟩
    | some callback =>
      rw [findExecutorCallback_success hfind] at hrest
      dsimp only at hrest
      rw [if_neg (by decide)] at hrest
      obtain ⟨env₁, es₂, -, hnext, rfl⟩ := alone_op_bind.mp hrest
      obtain ⟨hstate, htargets⟩ := ih hnext
      rw [List.filterMap_cons_some (by rw [hfind]; rfl)]
      exact ⟨hstate, congrArg ((callback, id, executor.publicKey) :: ·) htargets⟩

theorem insertSchedule_success (pool : AuthResPool) (callback : Option CoAuthCallback) :
    (pool.insertSchedule id info callback).1 = .success := by
  rw [AuthResPool.insertSchedule]
  split <;> rfl

theorem insertSchedule_found (pool : AuthResPool) (callback : Option CoAuthCallback)
    (executors : List ExecutorInfo) :
    (pool.insertSchedule id info callback).2.found id executors = pool.found id executors := by
  rw [AuthResPool.insertSchedule]
  split <;> rfl

theorem alone_monitorCall_pool
    (h : (coAuth service).Alone t (monitorCall service id) s () es s') : s'.pool = s.pool := by
  refine Alone.of_all (P := (· = .postHighPriorityTask id)) (R := fun s' => s'.pool = s.pool) ?_
    (monitorCall_all rfl) h rfl
  rintro _ env s₁ rfl hpool
  exact hpool

/-- Once the schedule is stored, every executor that is found is asked; without a failure the pool
stays. -/
theorem alone_begun {callback : CoAuthCallback}
    (h : (coAuth service).Alone t (do
        monitorCall service info.scheduleId
        let executeRet ← beginExecute info info.scheduleId authInfo info.executors .success
        if executeRet ≠ .success then
          let _ ← atomic (.onFinish info.scheduleId callback executeRet.toUInt32 [])
          let _ ← atomic (.deleteScheduleCallback info.scheduleId)
          monitorRemoveCall service info.scheduleId
        else pure ()) s () es s') :
    (starts (steps es)).map Start.target = s.pool.found info.scheduleId info.executors ∧
      (finishes (steps es) = [] ↔ ∀ start ∈ starts (steps es), start.result = .success) ∧
      (finishes (steps es) = [] → s'.pool = s.pool) := by
  obtain ⟨_, s₂, es₂, es₃, hmonitor, hbegin, rfl⟩ := alone_bind.mp h
  obtain ⟨executeRet, s₃, es₄, es₅, hexecute, hend, rfl⟩ := alone_bind.mp hbegin
  obtain ⟨hstarts, hfinishes⟩ := trace_begun hmonitor.trace hexecute.trace hend.trace
  obtain ⟨rfl, htargets⟩ := alone_beginExecute hexecute
  have hpool : s₃.pool = s.pool := alone_monitorCall_pool hmonitor
  have hret := (trace_beginExecute hexecute.trace).1
  have hsuccess : executeResult .success (starts (steps es₄)) = .success ↔
      ∀ start ∈ starts (steps es₄), start.result = .success := by
    rw [executeResult_success]
    exact and_iff_right rfl
  rw [steps_append, steps_append, hstarts, hfinishes]
  refine ⟨htargets.trans (by rw [hpool]), ?_, fun hdone => ?_⟩
  · rw [← hsuccess]
    by_cases hall : executeResult .success (starts (steps es₄)) = .success
    · simp [hall]
    · simp [hall]
  · have hall : executeRet = .success := by
      rw [hret]
      by_contra hfailed
      rw [if_pos hfailed] at hdone
      cases hdone
    rw [if_neg (not_not.mpr hall)] at hend
    obtain ⟨-, -, rfl⟩ := alone_ret.mp hend
    exact hpool

/-- `CoAuthHandle` alone: it tells the callback that there is nothing to ask, or it stores the
schedule and asks every executor that is found; without a failure the entry stays. -/
theorem alone_beginSchedule {callback : CoAuthCallback}
    (h : (coAuth service).Alone t (beginSchedule service info authInfo (some callback)) s () es
      s') :
    (info.executors = [] ∨ service.coAuthResMgrPtr = false) ∧ finishes (steps es) ≠ [] ∨
      info.executors ≠ [] ∧ service.coAuthResMgrPtr = true ∧
        (starts (steps es)).map Start.target = s.pool.found info.scheduleId info.executors ∧
        (finishes (steps es) = [] ↔ ∀ start ∈ starts (steps es), start.result = .success) ∧
        (finishes (steps es) = [] →
          s'.pool = (s.pool.insertSchedule info.scheduleId info (some callback)).2) := by
  unfold beginSchedule at h
  dsimp only at h
  split at h
  · next hempty =>
    left
    obtain ⟨env, es', -, hrest, rfl⟩ := alone_call.mp h
    obtain ⟨-, rfl, rfl⟩ := alone_ret.mp hrest
    exact ⟨.inl (List.length_eq_zero_iff.mp hempty), by simp [finishes, onFinishCode]⟩
  · next hsome =>
    split at h
    · next hmissing =>
      left
      obtain ⟨env, es', -, hrest, rfl⟩ := alone_call.mp h
      obtain ⟨-, rfl, rfl⟩ := alone_ret.mp hrest
      exact ⟨.inr (by simpa using hmissing), by simp [finishes, onFinishCode]⟩
    · next hmanager =>
      right
      obtain ⟨env, es₁, -, hsaved, rfl⟩ := alone_op_bind.mp h
      have hcode : ((coAuth service).handle t
          (.saveScheduleCallback info.scheduleId info (some callback)) env s).1 = .success :=
        insertSchedule_success s.pool _
      rw [hcode, if_neg (not_not.mpr rfl)] at hsaved
      obtain ⟨htargets, hfinishes, hpool⟩ := alone_begun hsaved
      refine ⟨fun hempty => hsome (List.length_eq_zero_iff.mpr hempty), by simpa using hmanager,
        ?_, hfinishes, hpool⟩
      rw [← insertSchedule_found s.pool (some callback) info.executors]
      exact htargets

end Alone

/-! ## 4. The expected number of calls -/

/-- The count that `CoAuthHandle` leaves in the pool: that of an entry which is there already, or
the number of executors. -/
def AuthResPool.storedCount (pool : AuthResPool) (info : ScheduleInfo) : UInt64 :=
  ((pool.scheResPool info.scheduleId).map (·.executorNum)).getD
    (UInt64.ofNat info.executors.length)

/-- How many executors of a list are found. -/
def AuthResPool.present (pool : AuthResPool) (executors : List ExecutorInfo) : Nat :=
  executors.countP fun executor => (pool.findExecutorCallback executor.authType).2.isSome

/-- If no callback has been told of an end, the schedule waits for as many calls as executors have
started, and for one at least. -/
def CountsStarted (info : ScheduleInfo) (es : List CoAuthStep) (pool : AuthResPool) : Prop :=
  finishes es = [] → ∃ register, pool.scheResPool info.scheduleId = some register ∧
    register.executorNum.toNat = (starts es).countP (fun start => start.result = .success) ∧
    1 ≤ register.executorNum.toNat

theorem length_found (pool : AuthResPool) (id : UInt64) (executors : List ExecutorInfo) :
    (pool.found id executors).length = pool.present executors := by
  rw [AuthResPool.found, List.length_filterMap_eq_countP, AuthResPool.present]
  apply List.countP_congr
  intro executor _
  rw [Option.isSome_map]

section Count

variable {service : CoAuthService} {info : ScheduleInfo} {authInfo : AuthInfo}
  {callback : Option CoAuthCallback} {t : Nat} {s s' : CoAuthState} {es : List CoAuthEvent}

theorem storedCount_insertSchedule (pool : AuthResPool) (info : ScheduleInfo)
    (callback : CoAuthCallback) :
    ∃ register, (pool.insertSchedule info.scheduleId info (some callback)).2.scheResPool
        info.scheduleId = some register ∧ register.executorNum = pool.storedCount info := by
  refine ⟨_, AuthResPool.insertSchedule_self .., ?_⟩
  unfold AuthResPool.storedCount
  cases pool.scheResPool info.scheduleId <;> rfl

theorem countsStarted_of_register {es : List CoAuthStep} {pool : AuthResPool}
    {register : ScheduleRegister} (hdone : finishes es = [])
    (hregister : pool.scheResPool info.scheduleId = some register) :
    CountsStarted info es pool ↔
      register.executorNum.toNat = (starts es).countP (fun start => start.result = .success) ∧
        1 ≤ register.executorNum.toNat := by
  constructor
  · intro hcounts
    obtain ⟨register', hregister', hcount⟩ := hcounts hdone
    rw [hregister] at hregister'
    cases hregister'
    exact hcount
  · intro hcount _
    exact ⟨register, hregister, hcount⟩

/-- **The count.**  A schedule whose callback has not been told anything waits for the executors
that have started, exactly if there is a callback and the call has told it of a failure, or as many
executors are found as the stored count says, and at least one. -/
theorem countsStarted_iff
    (h : (coAuth service).Alone t (beginSchedule service info authInfo callback) s () es s') :
    CountsStarted info (steps es) s'.pool ↔
      callback ≠ none ∧ (info.executors = [] ∨ service.coAuthResMgrPtr = false ∨
        (∃ start ∈ starts (steps es), start.result ≠ .success) ∨
        (s.pool.storedCount info).toNat = s.pool.present info.executors ∧
          1 ≤ s.pool.present info.executors) := by
  cases callback with
  | none =>
    obtain ⟨-, rfl, rfl⟩ := alone_ret.mp h
    constructor
    · intro hcounts
      obtain ⟨register, -, hcount, hpos⟩ := hcounts rfl
      rw [hcount] at hpos
      cases hpos
    · intro hnone
      exact absurd rfl hnone.1
  | some callback =>
    rw [and_iff_right (Option.some_ne_none callback)]
    rcases alone_beginSchedule h with
      ⟨hnothing, hfinishes⟩ | ⟨hexecutors, hmanager, htargets, hfinishes, hpool⟩
    · refine ⟨fun _ => hnothing.imp_right .inl, fun _ hnone => absurd hnone hfinishes⟩
    · by_cases hall : ∀ start ∈ starts (steps es), start.result = .success
      · have hdone := hfinishes.mpr hall
        -- nobody has failed, so everybody who was found has started
        have hcount : (starts (steps es)).countP (fun start => start.result = .success) =
            s.pool.present info.executors := by
          rw [List.countP_eq_length.mpr fun start hstart => by simpa using hall start hstart,
            ← length_found s.pool info.scheduleId, ← htargets, List.length_map]
        have hsuccess : ¬∃ start ∈ starts (steps es), start.result ≠ .success := by
          rintro ⟨start, hstart, hfailed⟩
          exact hfailed (hall start hstart)
        obtain ⟨register, hregister, hnum⟩ := storedCount_insertSchedule s.pool info callback
        rw [← hpool hdone] at hregister
        simp only [hexecutors, hmanager, hsuccess, false_or, Bool.true_eq_false]
        rw [countsStarted_of_register hdone hregister, hnum, hcount]
        exact and_congr_right fun hsame => by rw [hsame]
      · have hfailed : ∃ start ∈ starts (steps es), start.result ≠ .success := by
          push Not at hall
          exact hall
        exact ⟨fun _ => .inr (.inr (.inl hfailed)),
          fun _ hnone => absurd (hfinishes.mp hnone) hall⟩

end Count

section OneMissing

/-- Of the two executors only the first is registered. -/
def oneRegistered : CoAuthState :=
  ⟨⟨[(1, ⟨some ⟨.pin⟩, some 11⟩)], fun _ => none⟩, []⟩

theorem oneMissing_run : ∃ es s', (coAuth ⟨true, true, true⟩).Alone 0
    (beginSchedule ⟨true, true, true⟩ twoExecutors ⟨[], 0⟩ (some 9)) oneRegistered () es s' ∧
      starts (steps es) = [⟨11, 7, [], .success⟩] ∧ finishes (steps es) = [] ∧
      (s'.pool.scheResPool 7).map (·.executorNum) = some 2 := by
  have hrun : ((coAuth ⟨true, true, true⟩).alone 0
      (beginSchedule ⟨true, true, true⟩ twoExecutors ⟨[], 0⟩ (some 9)) oneRegistered
      [{}, {}, {}, {}, {}]).map
        (fun r => (starts (steps r.2.1), finishes (steps r.2.1),
          (r.2.2.pool.scheResPool 7).map (·.executorNum))) =
      some ([⟨11, 7, [], .success⟩], [], some 2) := by decide
  obtain ⟨⟨ret, es, s'⟩, hrun, hevents⟩ := Option.map_eq_some_iff.mp hrun
  obtain ⟨hstarts, hevents⟩ := Prod.mk.inj hevents
  obtain ⟨hfinishes, hcount⟩ := Prod.mk.inj hevents
  exact ⟨es, s', .of_alone hrun, hstarts, hfinishes, hcount⟩

/-- The schedule waits for two executors and one has started. -/
theorem oneMissing_not_countsStarted : ∃ es s', (coAuth ⟨true, true, true⟩).Alone 0
    (beginSchedule ⟨true, true, true⟩ twoExecutors ⟨[], 0⟩ (some 9)) oneRegistered () es s' ∧
      ¬CountsStarted twoExecutors (steps es) s'.pool := by
  obtain ⟨es, s', hrun, hstarts, hfinishes, hcount⟩ := oneMissing_run
  refine ⟨es, s', hrun, fun hcounts => ?_⟩
  obtain ⟨register, hregister, hsame, -⟩ := hcounts hfinishes
  have htwo : register.executorNum = 2 := by
    rw [show s'.pool.scheResPool 7 = some register from hregister] at hcount
    exact Option.some.inj hcount
  rw [htwo, hstarts] at hsame
  cases hsame

/-- With both executors registered it waits for the two that have started. -/
theorem countsStarted_iff_example : ∃ es s', (coAuth ⟨true, true, true⟩).Alone 0
    (beginSchedule ⟨true, true, true⟩ twoExecutors ⟨[], 0⟩ (some 9)) twoRegistered () es s' ∧
      (starts (steps es)).map (·.result) = [.success, .success] ∧ finishes (steps es) = [] ∧
      CountsStarted twoExecutors (steps es) s'.pool := by
  have hrun : ((coAuth ⟨true, true, true⟩).alone 0
      (beginSchedule ⟨true, true, true⟩ twoExecutors ⟨[], 0⟩ (some 9)) twoRegistered
      [{}, {}, {}, {}, {}, {}]).map
        (fun r => ((starts (steps r.2.1)).map (·.result), finishes (steps r.2.1))) =
      some ([.success, .success], []) := by decide
  obtain ⟨⟨ret, es, s'⟩, hrun, hevents⟩ := Option.map_eq_some_iff.mp hrun
  obtain ⟨hstarts, hfinishes⟩ := Prod.mk.inj hevents
  refine ⟨es, s', .of_alone hrun, hstarts, hfinishes, (countsStarted_iff (.of_alone hrun)).mpr ?_⟩
  exact ⟨by decide, .inr (.inr (.inr (by decide)))⟩

end OneMissing

/-! ## 5. Whom the calls go to -/

def endOf : CoAuthStep → Option (ExecutorCallback × UInt64)
  | ⟨.onEndExecute executor scheduleId _, _⟩ => some (executor, scheduleId)
  | _ => none

/-- The calls of `OnEndExecute`. -/
def ends (es : List CoAuthStep) : List (ExecutorCallback × UInt64) :=
  es.filterMap endOf

/-- The callback that is registered under the id of a schedule's entry. -/
def AuthResPool.registered (pool : AuthResPool) (executor : ExecutorInfo) :
    Option ExecutorCallback :=
  (pool.findExecutorCallbackById executor.executorId).2

/-- The calls for a schedule go, entry by entry, to the callback registered under the entry's id,
with the entry's public key. -/
structure Addressed (service : CoAuthService) (s : CoAuthState) (info : ScheduleInfo)
    (authInfo : AuthInfo) : Prop where
  begins : ∀ {t executeRet ret es s'}, (coAuth service).Alone t
    (beginExecute info info.scheduleId authInfo info.executors executeRet) s ret es s' →
    (starts (steps es)).map (fun start =>
        (some start.executor, start.scheduleId, start.publicKey)) =
      info.executors.map fun executor =>
        (s.pool.registered executor, info.scheduleId, executor.publicKey)
  cancels : ∀ {register t ret es s'}, service.coAuthResMgrPtr = true →
    s.pool.scheResPool info.scheduleId = some register → register.scheduleInfo = info →
    (coAuth service).Alone t (cancel service info.scheduleId) s ret es s' →
    (ends (steps es)).map (fun e => (some e.1, e.2)) =
      info.executors.map fun executor => (s.pool.registered executor, info.scheduleId)

/-- A list of results is complete and right exactly if every look-up gives the right one. -/
theorem filterMap_eq_map_iff {α β γ : Type} {look right : α → Option β} (rest : α → γ)
    {entries : List α} (hright : ∀ e ∈ entries, (right e).isSome) :
    (entries.filterMap fun e => (look e).map fun b => (some b, rest e)) =
        entries.map (fun e => (right e, rest e)) ↔
      ∀ e ∈ entries, look e = right e := by
  induction entries with
  | nil => simp
  | cons e entries ih =>
    have hentries := ih fun e' he' => hright e' (List.mem_cons_of_mem _ he')
    rw [List.forall_mem_cons, ← hentries, List.map_cons]
    cases hlook : look e with
    | none =>
      rw [List.filterMap_cons_none (by rw [hlook]; rfl)]
      constructor
      -- one result is missing
      · intro hsame
        have hlength := congrArg List.length hsame
        have hle := List.length_filterMap_le
          (fun e => (look e).map fun b => (some b, rest e)) entries
        rw [List.length_cons, List.length_map] at hlength
        omega
      · rintro ⟨hnone, -⟩
        have hsome := hright e List.mem_cons_self
        rw [← hnone] at hsome
        cases hsome
    | some b =>
      rw [List.filterMap_cons_some (by rw [hlook]; rfl), List.cons_eq_cons, Prod.mk.injEq]
      simp only [and_true]

section Addressing

variable {service : CoAuthService} {info : ScheduleInfo} {id : UInt64} {authInfo : AuthInfo}
  {t : Nat} {s s' : CoAuthState} {es : List CoAuthEvent} {ret : ResultCode}

/-- The loop of `Cancel` tells every executor that is found. -/
theorem alone_endExecute {executors : List ExecutorInfo} {executeRet : ResultCode}
    (h : (coAuth service).Alone t (endExecute info id executors executeRet) s ret es s') :
    ends (steps es) = executors.filterMap fun executor =>
      (s.pool.findExecutorCallback executor.authType).2.map fun callback => (callback, id) := by
  induction executors generalizing executeRet es with
  | nil =>
    obtain ⟨-, rfl, rfl⟩ := alone_ret.mp h
    rfl
  | cons executor executors ih =>
    rw [endExecute] at h
    obtain ⟨env, es₁, -, hrest, rfl⟩ := alone_op_bind.mp h
    have hhandle : (coAuth service).handle t (.findExecutorCallback executor.authType) env s =
        (s.pool.findExecutorCallback executor.authType, s) := rfl
    rw [hhandle] at hrest
    cases hfind : (s.pool.findExecutorCallback executor.authType).2 with
    | none =>
      rw [List.filterMap_cons_none (by rw [hfind]; rfl)]
      generalize s.pool.findExecutorCallback executor.authType = found at hrest hfind
      obtain ⟨onceRet, executorCallback⟩ := found
      cases hfind
      have hends := ih hrest
      exact hends
    | some callback =>
      rw [findExecutorCallback_success hfind] at hrest
      dsimp only at hrest
      rw [if_neg (show ¬(ResultCode.success ≠ 0) by decide)] at hrest
      obtain ⟨env₁, es₂, -, hnext, rfl⟩ := alone_op_bind.mp hrest
      rw [List.filterMap_cons_some (by rw [hfind]; rfl)]
      exact congrArg ((callback, id) :: ·) (ih hnext)

/-- `Cancel` of a schedule that is in the pool. -/
theorem alone_cancel {register : ScheduleRegister} (hmanager : service.coAuthResMgrPtr = true)
    (hregister : s.pool.scheResPool id = some register)
    (h : (coAuth service).Alone t (cancel service id) s ret es s') :
    ends (steps es) = register.scheduleInfo.executors.filterMap fun executor =>
      (s.pool.findExecutorCallback executor.authType).2.map fun callback => (callback, id) := by
  unfold cancel at h
  rw [if_neg (by simp [hmanager])] at h
  obtain ⟨env, es₁, -, hrest, rfl⟩ := alone_op_bind.mp h
  have hfind : (coAuth service).handle t (.findScheduleInfo id) env s =
      ((.success, some register.scheduleInfo), s) := by
    show (s.pool.getScheduleInfo id, s) = _
    rw [AuthResPool.getScheduleInfo, hregister]
  rw [hfind] at hrest
  dsimp only at hrest
  rw [if_neg (not_not.mpr rfl)] at hrest
  split at hrest
  · next hempty =>
    obtain ⟨-, rfl, -⟩ := alone_ret.mp hrest
    rw [List.length_eq_zero_iff.mp hempty]
    rfl
  · have hends := alone_endExecute hrest
    exact hends

/-- **Addressing.**  With all executors of a schedule registered, its calls go to the callbacks
under their ids exactly if the look-up by type gives those: each executor has the callback of the
first executor of its type. -/
theorem addressed_iff (service : CoAuthService) (s : CoAuthState) (info : ScheduleInfo)
    (authInfo : AuthInfo)
    (hregistered : ∀ executor ∈ info.executors, (s.pool.registered executor).isSome) :
    Addressed service s info authInfo ↔ ∀ executor ∈ info.executors,
      (s.pool.findExecutorCallback executor.authType).2 = s.pool.registered executor := by
  have hbegins {t executeRet ret es s'} (h : (coAuth service).Alone t
      (beginExecute info info.scheduleId authInfo info.executors executeRet) s ret es s') :
      (starts (steps es)).map (fun start =>
          (some start.executor, start.scheduleId, start.publicKey)) =
        info.executors.filterMap fun executor =>
          (s.pool.findExecutorCallback executor.authType).2.map fun callback =>
            (some callback, info.scheduleId, executor.publicKey) := by
    have htargets := congrArg (List.map fun target : ExecutorCallback × UInt64 × List UInt8 =>
      (some target.1, target.2)) (alone_beginExecute h).2
    rw [List.map_map, AuthResPool.found, List.map_filterMap] at htargets
    simp only [Option.map_map] at htargets
    exact htargets
  constructor
  · intro haddressed
    have : Inhabited CoAuthEnv := ⟨{}⟩
    have henabled : ∀ o env s, (coAuth service).enabled 0 o env s = true := fun _ _ _ => rfl
    obtain ⟨ret, es, s', hrun⟩ := Alone.exists_of_enabled henabled
      (beginExecute info info.scheduleId authInfo info.executors .success) s
    have htargets := (hbegins hrun).symm.trans (haddressed.begins hrun)
    exact (filterMap_eq_map_iff (fun executor => (info.scheduleId, executor.publicKey))
      hregistered).mp htargets
  · intro hfound
    refine ⟨fun hrun => ?_, fun hmanager hregister hinfo hrun => ?_⟩
    · rw [hbegins hrun]
      exact (filterMap_eq_map_iff (fun executor => (info.scheduleId, executor.publicKey))
        hregistered).mpr hfound
    · rw [alone_cancel hmanager hregister hrun, hinfo, List.map_filterMap]
      simp only [Option.map_map]
      exact (filterMap_eq_map_iff (fun _ => info.scheduleId) hregistered).mpr hfound

end Addressing

section SameType

/-- A collector and a verifier of one type. -/
def collectorAndVerifier : CoAuthState :=
  ⟨⟨[(1, ⟨some ⟨.pin⟩, some 11⟩), (2, ⟨some ⟨.pin⟩, some 12⟩)], fun _ => none⟩, []⟩

def collectAndVerify : ScheduleInfo :=
  { scheduleId := 7, scheduleMode := 0, authSubType := 0, templateId := 0,
    executors := [⟨1, .pin, [1]⟩, ⟨2, .pin, [2]⟩] }

/-- Both calls go to the collector, the second one with the verifier's key. -/
theorem sameType_not_addressed :
    ¬Addressed ⟨true, true, true⟩ collectorAndVerifier collectAndVerify ⟨[], 0⟩ := by
  intro haddressed
  have hrun : ((coAuth ⟨true, true, true⟩).alone 0
      (beginExecute collectAndVerify 7 ⟨[], 0⟩ collectAndVerify.executors .success)
      collectorAndVerifier [{}, {}, {}, {}]).map (fun r => starts (steps r.2.1)) =
        some [⟨11, 7, [1], .success⟩, ⟨11, 7, [2], .success⟩] := by decide
  obtain ⟨⟨ret, es, s'⟩, hrun, hstarts⟩ := Option.map_eq_some_iff.mp hrun
  have htargets := haddressed.begins (.of_alone hrun)
  rw [show starts (steps es) = _ from hstarts] at htargets
  revert htargets
  decide

/-- One executor of each type. -/
theorem addressed_iff_example :
    Addressed ⟨true, true, true⟩ twoRegistered twoExecutors ⟨[], 0⟩ ↔
      ∀ executor ∈ twoExecutors.executors,
        (twoRegistered.pool.findExecutorCallback executor.authType).2 =
          twoRegistered.pool.registered executor :=
  addressed_iff ⟨true, true, true⟩ twoRegistered twoExecutors ⟨[], 0⟩ (by decide)

end SameType

end UserIam.CoAuth
