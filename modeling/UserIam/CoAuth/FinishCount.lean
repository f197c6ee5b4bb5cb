import Mathlib.Data.List.Perm.Subperm
import UserIam.CoAuth.CoAuthManager

/-!
# Which Finish is the last one

`Finish` reads the number of outstanding executors in one step and decrements it in another.  A
schedule is finished when one of its calls reads the number after all the others have decremented
it, and hangs otherwise.
-/

namespace UserIam.CoAuth

open Conc

variable {service : CoAuthService} {S : UInt64}

/-! ## 1. What happened to the schedule -/

def isMinus (S : UInt64) : CoAuthEvent → Bool
  | .op _ (.scheduleCountMinus id) _ => id = S
  | _ => false

def isDelete (S : UInt64) : CoAuthEvent → Bool
  | .op _ (.deleteScheduleCallback id) _ => id = S
  | _ => false

def isOnFinish (S : UInt64) : CoAuthEvent → Bool
  | .op _ (.onFinish id ..) _ => id = S
  | _ => false

def CoAuthCall.finishes (S : UInt64) : CoAuthCall → Bool
  | .finish id .. => id = S
  | _ => false

def CoAuthCall.disturbs (S : UInt64) : CoAuthCall → Bool
  | .beginSchedule info .. => info.scheduleId = S
  | .timeOut id => id = S
  | .cancel id => id = S
  | _ => false

/-- Only `Finish` calls are made on the schedule: it is not begun again, cancelled or timed out. -/
def onlyFinishes (S : UInt64) (_ : CoAuthWorld) : CoAuthMove → Prop
  | .spawn _ call => call.disturbs S = false
  | .op .. => True

instance (S : UInt64) (w : CoAuthWorld) : (mv : CoAuthMove) → Decidable (onlyFinishes S w mv)
  | .spawn _ call => inferInstanceAs (Decidable (call.disturbs S = false))
  | .op .. => isTrue trivial

/-- The service just after it has put the schedule into the pool. -/
def CoAuthState.inserted (s : CoAuthState) (S : UInt64) (info : ScheduleInfo)
    (callback : CoAuthCallback) : CoAuthState :=
  { s with pool := (s.pool.insertSchedule S info (some callback)).2 }

/-! ## 2. The count -/

/-- What an event says about the schedule, given the events before it: the count that is read and
the callback that is found while the schedule has not been deleted, and that only `Finish` calls
count, finish and delete. -/
def countFact (S : UInt64) (n : Nat) (callback : CoAuthCallback) (pre : List CoAuthEvent) :
    CoAuthEvent → Prop
  | .op t (.getScheduleCount id) v => id = S →
    ((∃ call, .spawn t call ∈ pre ∧ call.finishes S) ∧
      (pre.any (isDelete S) = false → v.toNat = n - pre.countP (isMinus S)))
  | .op _ (.findScheduleCallback id) r => id = S →
    r = if pre.any (isDelete S) then (.fail, none) else (.success, some callback)
  | .op t (.scheduleCountMinus id) _ => id = S → ∃ call, .spawn t call ∈ pre ∧ call.finishes S
  | .op t (.onFinish id ..) _ => id = S → ∃ call, .spawn t call ∈ pre ∧ call.finishes S
  | .op t (.deleteScheduleCallback id) _ => id = S → ∃ call, .spawn t call ∈ pre ∧ call.finishes S
  | _ => True

structure CountInv (S : UInt64) (n : Nat) (callback : CoAuthCallback) (w : CoAuthWorld) : Prop where
  facts : w.Each (countFact S n callback)
  gone : w.trace.any (isDelete S) = true → w.state.pool.scheResPool S = none
  count : w.trace.any (isDelete S) = false → ∃ register,
    w.state.pool.scheResPool S = some register ∧ register.callback = some callback ∧
      register.executorNum.toNat = n - w.trace.countP (isMinus S)

/-- The operations that only the `Finish` calls of the schedule perform on it. -/
def counts (S : UInt64) : CoAuthOp → Bool
  | .getScheduleCount id => id = S
  | .scheduleCountMinus id => id = S
  | .onFinish id .. => id = S
  | .deleteScheduleCallback id => id = S
  | _ => false

def saves (S : UInt64) : CoAuthOp → Bool
  | .saveScheduleCallback id .. => id = S
  | _ => false

variable {n : Nat} {callback : CoAuthCallback} {w : CoAuthWorld} {t : Nat}

/-- `executorNum--` behind its check. -/
theorem toNat_countMinus (executorNum : UInt64) :
    (if executorNum ≤ 0 then executorNum else executorNum - 1).toNat = executorNum.toNat - 1 := by
  split
  · next hzero =>
    rw [UInt64.le_iff_toNat_le, UInt64.toNat_zero] at hzero
    omega
  · next hpos =>
    rw [UInt64.le_iff_toNat_le, UInt64.toNat_zero] at hpos
    have hone : (1 : UInt64).toNat = 1 := rfl
    rw [UInt64.toNat_sub_of_le _ _ (by rw [UInt64.le_iff_toNat_le]; omega), hone]

theorem CountInv.findScheduleCallback (h : CountInv S n callback w) :
    w.state.pool.findScheduleCallback S =
      if w.trace.any (isDelete S) then (.fail, none) else (.success, some callback) := by
  rw [AuthResPool.findScheduleCallback]
  cases hdel : w.trace.any (isDelete S) with
  | true => rw [h.gone hdel, if_pos rfl]
  | false =>
    obtain ⟨register, hpool, hcallback, -⟩ := h.count hdel
    rw [hpool, if_neg (by decide), ← hcallback]

theorem CountInv.getScheduleCount (h : CountInv S n callback w)
    (hdel : w.trace.any (isDelete S) = false) (v : UInt64) :
    (w.state.pool.getScheduleCount S v).2.toNat = n - w.trace.countP (isMinus S) := by
  obtain ⟨register, hpool, -, hcount⟩ := h.count hdel
  rw [AuthResPool.getScheduleCount, hpool, ← hcount]

/-- An event that neither counts nor deletes keeps what is known of the pool entry. -/
theorem CountInv.push {s : CoAuthState} {e : CoAuthEvent} (h : CountInv S n callback w)
    (hfact : countFact S n callback w.trace e)
    (hgone : isDelete S e = true ∨ w.trace.any (isDelete S) = true → s.pool.scheResPool S = none)
    (hcount : isDelete S e = false → w.trace.any (isDelete S) = false → ∃ register,
      s.pool.scheResPool S = some register ∧ register.callback = some callback ∧
        register.executorNum.toNat =
          n - (w.trace.countP (isMinus S) + if isMinus S e then 1 else 0)) :
    CountInv S n callback (w.push s e) := by
  refine ⟨World.each_push.mpr ⟨h.facts, hfact⟩, fun hdel => ?_, fun hdel => ?_⟩
  · rw [World.push_trace, List.any_append, Bool.or_eq_true, List.any_cons, List.any_nil,
      Bool.or_false] at hdel
    exact hgone hdel.symm
  · rw [World.push_trace, List.any_append, Bool.or_eq_false_iff, List.any_cons, List.any_nil,
      Bool.or_false] at hdel
    rw [World.push_trace, List.countP_append, List.countP_singleton]
    exact hcount hdel.2 hdel.1

theorem CountInv.push_same {s : CoAuthState} {e : CoAuthEvent} (h : CountInv S n callback w)
    (hfact : countFact S n callback w.trace e) (hdelete : isDelete S e = false)
    (hminus : isMinus S e = false) (hpool : s.pool.scheResPool S = w.state.pool.scheResPool S) :
    CountInv S n callback (w.push s e) := by
  refine h.push hfact (fun hdel => ?_) fun _ hdel => ?_
  · rw [hdelete] at hdel
    exact hpool.trans (h.gone (hdel.resolve_left (by decide)))
  · rw [hminus, hpool]
    exact h.count hdel

/-- **One step.**  Every operation keeps the count, as long as only `Finish` calls count and nobody
saves the schedule again. -/
theorem CountInv.step (h : CountInv S n callback w) {o : CoAuthOp} (env : CoAuthEnv)
    (hsaves : saves S o = false)
    (hcounts : counts S o = true → ∃ call, .spawn t call ∈ w.trace ∧ call.finishes S) :
    CountInv S n callback ((coAuth service).perform w t o env) := by
  cases o with
  | saveScheduleCallback id info callback =>
    have hne : id ≠ S := by simpa [saves] using hsaves
    exact h.push_same trivial rfl rfl (AuthResPool.insertSchedule_of_ne _ _ _ hne _ _)
  | findScheduleCallback id =>
    refine h.push_same (fun hid => ?_) rfl rfl rfl
    subst hid
    exact h.findScheduleCallback
  | getScheduleCount id =>
    refine h.push_same (fun hid => ⟨hcounts (decide_eq_true hid), fun hdel => ?_⟩) rfl rfl rfl
    subst hid
    exact h.getScheduleCount hdel _
  -- the only operation that both reads and changes the count
  | scheduleCountMinus id =>
    by_cases hid : id = S
    · subst hid
      refine h.push (fun hid => hcounts (decide_eq_true hid)) (fun hdel => ?_) fun _ hdel => ?_
      -- The entry has been deleted before, so there is nothing to count down.
      · have hpool := h.gone (hdel.resolve_left (by simp [isDelete]))
        refine (AuthResPool.scheduleCountMinus_self _ _).trans ?_
        rw [hpool, Option.map_none]
      · obtain ⟨register, hpool, hcallback, hcount⟩ := h.count hdel
        refine ⟨_, (AuthResPool.scheduleCountMinus_self _ _).trans (by rw [hpool, Option.map_some]),
          ?_, ?_⟩
        · split <;> exact hcallback
        · have hminus : isMinus id (.op t (.scheduleCountMinus id)
              ((coAuth service).answer w t (.scheduleCountMinus id) env)) = true :=
            decide_eq_true rfl
          have hnum := toNat_countMinus register.executorNum
          rw [if_pos hminus, ← Nat.sub_sub, ← hcount, ← hnum]
          split <;> rfl
    · refine h.push_same (fun hid' => absurd hid' hid) rfl (decide_eq_false hid) ?_
      exact AuthResPool.scheduleCountMinus_of_ne _ _ _ hid
  | deleteScheduleCallback id =>
    by_cases hid : id = S
    · subst hid
      refine h.push (fun hid => hcounts (decide_eq_true hid)) (fun _ => ?_) fun hdel => ?_
      · exact AuthResPool.deleteScheduleCallback_self _ _
      · simp [isDelete] at hdel
    · refine h.push_same (fun hid' => absurd hid' hid) (decide_eq_false hid) rfl ?_
      exact AuthResPool.deleteScheduleCallback_of_ne _ _ _ hid
  | onFinish id => exact h.push_same (fun hid => hcounts (decide_eq_true hid)) rfl rfl rfl
  | insertExecutor executorID info callback =>
    refine h.push_same trivial rfl rfl ?_
    exact congrFun (AuthResPool.insertExecutor_scheResPool _ _ _ _) S
  | deleteExecutorCallback executorID =>
    refine h.push_same trivial rfl rfl ?_
    exact congrFun (AuthResPool.deleteExecutorCallback_scheResPool _ _) S
  | _ => exact h.push_same trivial rfl rfl rfl

/-! ## 3. Programs -/

abbrev KeepsCount (service : CoAuthService) (S : UInt64) (n : Nat) (callback : CoAuthCallback)
    (t : Nat) {α : Type} (p : CoAuthProg α) (Q : α → List CoAuthEvent → Prop)
    (h : List CoAuthEvent) : Prop :=
  (coAuth service).Keeps (onlyFinishes S) (CountInv S n callback) t p Q h

/-- The code and the token that a `Finish` call hands to `OnFinish`. -/
def finishCode (resultCode : ResultCode) : Option AuthAttributes → ResultCode
  | none => .fail
  | some _ => resultCode

def finishResult (resultCode : ResultCode) : Option AuthAttributes → List UInt8
  | none => []
  | some finalResult => finishToken resultCode finalResult

/-- What a `Finish` call of the schedule has done when it returns. -/
inductive FinishRun (service : CoAuthService) (S : UInt64) (t : Nat) (resultCode : ResultCode)
    (finalResult : Option AuthAttributes) : List CoAuthEvent → Prop where
  | noPool (h : service.scheResPool = false) : FinishRun service S t resultCode finalResult []
  | counted {v : UInt64} {r : ResultCode} (hv : v > 1) :
    FinishRun service S t resultCode finalResult
      [.op t (.getScheduleCount S) v, .op t (.scheduleCountMinus S) r]
  | unknown {v : UInt64} {mid : List CoAuthEvent} {code : ResultCode} (hv : ¬v > 1)
      (hmid : ∀ e ∈ mid, e = .op t (.removeTask S) ()) :
    FinishRun service S t resultCode finalResult
      (.op t (.getScheduleCount S) v :: (mid ++ [.op t (.findScheduleCallback S) (code, none)]))
  | told {v : UInt64} {mid : List CoAuthEvent} {callback : CoAuthCallback} {r : ResultCode}
      (hv : ¬v > 1) (hmid : ∀ e ∈ mid, e = .op t (.removeTask S) ()) :
    FinishRun service S t resultCode finalResult
      (.op t (.getScheduleCount S) v :: (mid ++ [.op t (.findScheduleCallback S)
          (.success, some callback),
        .op t (.onFinish S callback (finishCode resultCode finalResult).toUInt32
          (finishResult resultCode finalResult)) (),
        .op t (.deleteScheduleCallback S) r]))

/-- The history of a returned thread, when it is a `Finish` of the schedule. -/
def FinishDone (service : CoAuthService) (S : UInt64) (h : List CoAuthEvent) : Prop :=
  ∀ t srcType resultCode finalResult rest,
    h = .spawn t (.finish S srcType resultCode finalResult) :: rest →
    FinishRun service S t resultCode finalResult rest

theorem keepsCount_call {α : Type} {o : CoAuthOp} {k : CoAuthRes o → CoAuthProg α}
    {Q : α → List CoAuthEvent → Prop} {call : CoAuthCall} {rest : List CoAuthEvent}
    (hsaves : saves S o = false) (hcall : call.finishes S)
    (hk : ∀ r, KeepsCount service S n callback t (k r) Q
      (.spawn t call :: (rest ++ [Event.op t o r]))) :
    KeepsCount service S n callback t (.call o k) Q (.spawn t call :: rest) := by
  rintro w env hinv hown - -
  have hspawn : .spawn t call ∈ w.trace := by
    have hmem : .spawn t call ∈ w.own t := hown ▸ List.mem_cons_self
    exact (World.mem_own.mp hmem).1
  exact ⟨hinv.step env hsaves fun _ => ⟨call, hspawn, hcall⟩, hk _⟩

/-- The lookup finds the callback with `SUCCESS`, or nothing. -/
theorem keepsCount_find {α : Type}
    {k : ResultCode × Option CoAuthCallback → CoAuthProg α}
    {Q : α → List CoAuthEvent → Prop} {call : CoAuthCall} {rest : List CoAuthEvent}
    (hcall : call.finishes S)
    (hnone : ∀ code, KeepsCount service S n callback t (k (code, none)) Q
      (.spawn t call :: (rest ++ [(.op t (.findScheduleCallback S) (code, none) : CoAuthEvent)])))
    (hfound : KeepsCount service S n callback t (k (.success, some callback)) Q
      (.spawn t call ::
        (rest ++ [(.op t (.findScheduleCallback S) (.success, some callback) : CoAuthEvent)]))) :
    KeepsCount service S n callback t (.call (.findScheduleCallback S) k) Q
      (.spawn t call :: rest) := by
  rintro w env hinv hown - -
  have hspawn : .spawn t call ∈ w.trace := by
    have hmem : .spawn t call ∈ w.own t := hown ▸ List.mem_cons_self
    exact (World.mem_own.mp hmem).1
  have hanswer : (coAuth service).answer w t (.findScheduleCallback S) env =
      if w.trace.any (isDelete S) then (.fail, none) else (.success, some callback) :=
    hinv.findScheduleCallback
  refine ⟨hinv.step env rfl fun _ => ⟨call, hspawn, hcall⟩, ?_⟩
  rw [hanswer]
  split
  · exact hnone _
  · exact hfound

/-- The programs of `Finish` step by step. -/
theorem discard_finishLast (resultCode : ResultCode) (finalResult : Option AuthAttributes) :
    Prog.discard (finishLast S resultCode finalResult) =
      .call (.findScheduleCallback S) fun r =>
        match r with
        | (_, none) => .ret ()
        | (findRet, some callback) =>
          if findRet ≠ .success then .ret ()
          else .call (.onFinish S callback (finishCode resultCode finalResult).toUInt32
              (finishResult resultCode finalResult)) fun _ =>
            .call (.deleteScheduleCallback S) fun _ => .ret () := by
  refine congrArg (Prog.call (CoAuthOp.findScheduleCallback S)) (funext fun r => ?_)
  obtain ⟨findRet, _ | callback⟩ := r
  · rfl
  · dsimp only [Prog.bind]
    split
    · rfl
    · cases finalResult <;> rfl

theorem discard_finish (hpool : service.scheResPool = true) (resultCode : ResultCode)
    (finalResult : Option AuthAttributes) :
    Prog.discard (finish service S resultCode finalResult) =
      .call (.getScheduleCount S) fun v =>
        if v > 1 then .call (.scheduleCountMinus S) fun _ => .ret ()
        else monitorRemoveCall service S >>= fun _ =>
          Prog.discard (finishLast S resultCode finalResult) := by
  rw [Prog.discard, finish, hpool]
  refine congrArg (Prog.call (CoAuthOp.getScheduleCount S)) (funext fun v => ?_)
  dsimp only [Prog.bind]
  split
  · rfl
  · exact Prog.bind_assoc _ _ _

theorem keepsCount_finish (srcType : Int32) (resultCode : ResultCode)
    (finalResult : Option AuthAttributes) :
    KeepsCount service S n callback t (Prog.discard (finish service S resultCode finalResult))
      (fun _ => FinishDone service S) [.spawn t (.finish S srcType resultCode finalResult)] := by
  have hcall : (CoAuthCall.finish S srcType resultCode finalResult).finishes S = true :=
    decide_eq_true rfl
  have hdone : ∀ rest, FinishRun service S t resultCode finalResult rest →
      FinishDone service S (.spawn t (.finish S srcType resultCode finalResult) :: rest) := by
    rintro rest hrun t' srcType' resultCode' finalResult' rest' h
    cases h
    exact hrun
  cases hpool : service.scheResPool with
  | false =>
    rw [Prog.discard, finish, hpool]
    exact hdone _ (.noPool hpool)
  | true =>
    rw [discard_finish hpool]
    refine keepsCount_call rfl hcall fun v => ?_
    split
    · next hv => exact keepsCount_call rfl hcall fun r => hdone _ (.counted hv)
    · next hv =>
      -- the call that reads one or less, with or without a timer to remove
      have hlast : ∀ mid, (∀ e ∈ mid, e = (.op t (.removeTask S) () : CoAuthEvent)) →
          KeepsCount service S n callback t (Prog.discard (finishLast S resultCode finalResult))
            (fun _ => FinishDone service S)
            (.spawn t (.finish S srcType resultCode finalResult) ::
              (.op t (.getScheduleCount S) v :: mid)) := by
        intro mid hmid
        rw [discard_finishLast]
        refine keepsCount_find hcall (fun code => hdone _ (.unknown hv hmid)) ?_
        refine keepsCount_call rfl hcall fun _ => keepsCount_call rfl hcall fun r => ?_
        simp only [List.cons_append, List.append_assoc]
        exact hdone _ (.told hv hmid)
      rw [monitorRemoveCall]
      split
      · exact keepsCount_call rfl hcall fun _ => hlast [_] (by simp)
      · exact hlast [] (by simp)

theorem not_counts_of_ne {o : CoAuthOp} (h : o.schedule ≠ some S) :
    saves S o = false ∧ counts S o = false := by
  cases o <;> simp_all [saves, counts, CoAuthOp.schedule]

theorem not_counts_of_relays {o : CoAuthOp} (h : o.relays = true) :
    saves S o = false ∧ counts S o = false := by
  cases o <;> first | exact ⟨rfl, rfl⟩ | cases h

/-- A call that is not a `Finish` of the schedule. -/
theorem keepsCount_other {call : CoAuthCall} (hcall : call.finishes S = false)
    (hbody : (coAuthBody service call).All fun o => saves S o = false ∧ counts S o = false) :
    KeepsCount service S n callback t (coAuthBody service call) (fun _ => FinishDone service S)
      [.spawn t call] := by
  refine Machine.Keeps.mono (Q := fun _ h => h.head? = some (.spawn t call))
    (Machine.Keeps.of_all (fun w env o ho hinv hR _ _ => ⟨?_, ?_⟩) hbody rfl) ?_
  · refine hinv.step env ho.1 fun hcounts => ?_
    rw [ho.2] at hcounts
    cases hcounts
  · rw [List.head?_append, hR, Option.some_or]
  · rintro _ h hR t' srcType resultCode finalResult rest rfl
    cases hR
    rw [show (CoAuthCall.finish S srcType resultCode finalResult).finishes S = true from
      decide_eq_true rfl] at hcall
    cases hcall

theorem keepsCount_spawn (w : CoAuthWorld) (call : CoAuthCall) (s : CoAuthState)
    (hinv : CountInv S n callback w) (hok : onlyFinishes S w (.spawn t call))
    (hs : coAuthAccept w.state call = some s) :
    CountInv S n callback (w.push s (.spawn t call)) ∧
      KeepsCount service S n callback t (coAuthBody service call) (fun _ => FinishDone service S)
        [.spawn t call] := by
  refine ⟨hinv.push_same trivial rfl rfl (by rw [coAuthAccept_pool hs]), ?_⟩
  by_cases hcall : call.schedule = some S
  · cases call with
    | finish id srcType resultCode finalResult =>
      obtain rfl : id = S := Option.some.inj hcall
      exact keepsCount_finish srcType resultCode finalResult
    | sendData id transNum srcType dstType message =>
      exact keepsCount_other rfl (((sendData_relays id message).mono fun _ ho =>
        not_counts_of_relays ho.1).bind fun _ => trivial)
    | beginSchedule info => exact absurd (Option.some.inj hcall) (of_decide_eq_false hok)
    | timeOut id => exact absurd (Option.some.inj hcall) (of_decide_eq_false hok)
    | cancel id => exact absurd (Option.some.inj hcall) (of_decide_eq_false hok)
    | register => cases hcall
    | onRemoteDied => cases hcall
  · refine keepsCount_other ?_ ((coAuthBody_about hcall).mono fun _ => not_counts_of_ne)
    cases call with
    | finish => exact decide_eq_false fun hid => hcall (congrArg some hid)
    | _ => rfl

theorem countInv_inserted (s : CoAuthState) (info : ScheduleInfo)
    (hnone : s.pool.scheResPool S = none) (hsize : info.executors.length < 2 ^ 64) :
    CountInv S info.executors.length callback ⟨s.inserted S info callback, []⟩ := by
  refine ⟨fun pre e post h => ?_, fun h => ?_, fun _ => ?_⟩
  · cases pre <;> cases h
  · cases h
  · refine ⟨_, AuthResPool.insertSchedule_self _ _ _ _, ?_, ?_⟩
    · rw [hnone]
      rfl
    · rw [hnone, Option.getD_none, UInt64.toNat_ofNat_of_lt' hsize]
      rfl

/-- What holds in every run of `Finish` calls on an inserted schedule. -/
theorem countInv_reachable {s : CoAuthState} {info : ScheduleInfo}
    (hnone : s.pool.scheResPool S = none) (hsize : info.executors.length < 2 ^ 64)
    {c : CoAuthConfig}
    (hc : (coAuth service).Reachable (onlyFinishes S) (s.inserted S info callback) c) :
    CountInv S info.executors.length callback c.world ∧
      ∀ t, c.threads[t]? = some (.ret ()) → FinishDone service S (c.world.own t) := by
  have hspawn : ∀ w t call s, CountInv S info.executors.length callback w → w.Fresh t →
      onlyFinishes S w (.spawn t call) → (coAuth service).accept call w.state = some s →
      CountInv S info.executors.length callback (w.push s (.spawn t call)) ∧
        KeepsCount service S info.executors.length callback t (coAuthBody service call)
          (fun _ => FinishDone service S) [.spawn t call] :=
    fun w t call s hinv _ => keepsCount_spawn w call s hinv
  have hkeeps := Machine.reachable_keeps (Q := FinishDone service S)
    (countInv_inserted s info hnone hsize) hspawn hc
  exact ⟨hkeeps.1, fun t ht => (hkeeps.2 t _ ht).of_returned rfl⟩

/-! ## 4. Complete runs -/

/-- The `Finish` calls of the schedule. -/
def finishers (S : UInt64) (w : CoAuthWorld) : List Nat :=
  w.spawned (CoAuthCall.finishes S)

/-- All `n` calls on the schedule have been made and have returned. -/
structure Complete (service : CoAuthService) (S : UInt64) (n : Nat) (callback : CoAuthCallback)
    (w : CoAuthWorld) : Prop where
  inv : CountInv S n callback w
  nodup : (finishers S w).Nodup
  length : (finishers S w).length = n
  run : ∀ {t srcType resultCode finalResult},
    .spawn t (.finish S srcType resultCode finalResult) ∈ w.trace →
    ∃ rest, w.own t = .spawn t (.finish S srcType resultCode finalResult) :: rest ∧
      FinishRun service S t resultCode finalResult rest

theorem mem_finishers {w : CoAuthWorld} {t : Nat} :
    t ∈ finishers S w ↔ ∃ srcType resultCode finalResult,
      .spawn t (.finish S srcType resultCode finalResult) ∈ w.trace := by
  rw [finishers, World.mem_spawned]
  constructor
  · rintro ⟨call, hcall, hfinishes⟩
    cases call with
    | finish id srcType resultCode finalResult =>
      obtain rfl : id = S := of_decide_eq_true hfinishes
      exact ⟨srcType, resultCode, finalResult, hcall⟩
    | _ => cases hfinishes
  · rintro ⟨srcType, resultCode, finalResult, hcall⟩
    exact ⟨_, hcall, decide_eq_true rfl⟩

theorem FinishRun.counted_or {resultCode : ResultCode} {finalResult : Option AuthAttributes}
    {rest : List CoAuthEvent} (h : FinishRun service S t resultCode finalResult rest) :
    (∃ v r, v > 1 ∧ rest = [.op t (.getScheduleCount S) v, .op t (.scheduleCountMinus S) r]) ∨
      ∀ e ∈ rest, isMinus S e = false := by
  cases h with
  | noPool => exact .inr (by simp)
  | counted hv => exact .inl ⟨_, _, hv, rfl⟩
  | unknown hv hmid =>
    refine .inr (List.forall_mem_cons.mpr ⟨rfl, List.forall_mem_append.mpr ⟨fun e he => ?_, ?_⟩⟩)
    · rw [hmid e he]
      rfl
    · simp [isMinus]
  | told hv hmid =>
    refine .inr (List.forall_mem_cons.mpr ⟨rfl, List.forall_mem_append.mpr ⟨fun e he => ?_, ?_⟩⟩)
    · rw [hmid e he]
      rfl
    · simp [isMinus]

/-- A call that has told the callback. -/
def Told (S : UInt64) (t : Nat) (resultCode : ResultCode) (finalResult : Option AuthAttributes)
    (rest : List CoAuthEvent) : Prop :=
  ∃ (v : UInt64) (mid : List CoAuthEvent) (callback : CoAuthCallback) (r : ResultCode),
    ¬v > 1 ∧ (∀ e ∈ mid, e = .op t (.removeTask S) ()) ∧
    rest = .op t (.getScheduleCount S) v :: (mid ++ [.op t (.findScheduleCallback S)
        (.success, some callback),
      .op t (.onFinish S callback (finishCode resultCode finalResult).toUInt32
        (finishResult resultCode finalResult)) (),
      .op t (.deleteScheduleCallback S) r])

theorem FinishRun.told_or {resultCode : ResultCode} {finalResult : Option AuthAttributes}
    {rest : List CoAuthEvent} (h : FinishRun service S t resultCode finalResult rest) :
    Told S t resultCode finalResult rest ∨
      ∀ e ∈ rest, isOnFinish S e = false ∧ isDelete S e = false := by
  cases h with
  | noPool => exact .inr (by simp)
  | counted hv => exact .inr (by simp [isOnFinish, isDelete])
  | unknown hv hmid =>
    refine .inr (List.forall_mem_cons.mpr
      ⟨⟨rfl, rfl⟩, List.forall_mem_append.mpr ⟨fun e he => ?_, ?_⟩⟩)
    · rw [hmid e he]
      exact ⟨rfl, rfl⟩
    · simp [isOnFinish, isDelete]
  | told hv hmid => exact .inl ⟨_, _, _, _, hv, hmid, rfl⟩

theorem FinishRun.reads {resultCode : ResultCode} {finalResult : Option AuthAttributes}
    {rest : List CoAuthEvent} (h : FinishRun service S t resultCode finalResult rest) :
    rest = [] ∨ ∃ v tail, rest = .op t (.getScheduleCount S) v :: tail ∧
      ∀ v', .op t (.getScheduleCount S) v' ∉ tail := by
  cases h with
  | noPool => exact .inl rfl
  | counted hv => exact .inr ⟨_, _, rfl, by simp⟩
  | unknown hv hmid =>
    refine .inr ⟨_, _, rfl, fun v' hmem => ?_⟩
    rcases List.mem_append.mp hmem with hmem | hmem
    · cases hmid _ hmem
    · simp at hmem
  | told hv hmid =>
    refine .inr ⟨_, _, rfl, fun v' hmem => ?_⟩
    rcases List.mem_append.mp hmem with hmem | hmem
    · cases hmid _ hmem
    · simp at hmem

theorem eq_of_isMinus {e : CoAuthEvent} (h : isMinus S e = true) :
    ∃ r, e = .op e.tid (.scheduleCountMinus S) r := by
  rcases e with ⟨t, call⟩ | ⟨t, o, r⟩
  · cases h
  · cases o with
    | scheduleCountMinus id =>
      obtain rfl : id = S := of_decide_eq_true h
      exact ⟨r, rfl⟩
    | _ => cases h

/-- What a call has done before it reads the count, and after. -/
theorem FinishRun.own_of_read {pre post : List CoAuthEvent} {t : Nat} {v : UInt64}
    (hsplit : w.trace = pre ++ .op t (.getScheduleCount S) v :: post) {resultCode : ResultCode}
    {finalResult : Option AuthAttributes} {call : CoAuthCall} {rest : List CoAuthEvent}
    (hown : w.own t = .spawn t call :: rest)
    (hrun : FinishRun service S t resultCode finalResult rest) :
    pre.filter (fun e => e.tid == t) = [.spawn t call] ∧
      ∃ tail, rest = .op t (.getScheduleCount S) v :: tail := by
  have hfilter : w.own t = pre.filter (fun e => e.tid == t) ++
      .op t (.getScheduleCount S) v :: post.filter fun e => e.tid == t := by
    rw [World.own, hsplit, List.filter_append, List.filter_cons_of_pos (by simp)]
  rw [hown] at hfilter
  cases hpre : pre.filter fun e => e.tid == t with
  | nil =>
    rw [hpre] at hfilter
    cases hfilter
  | cons e head =>
    rw [hpre, List.cons_append, List.cons.injEq] at hfilter
    obtain ⟨rfl, hrest⟩ := hfilter
    cases head with
    | nil => exact ⟨rfl, _, hrest⟩
    | cons e head =>
      exfalso
      rcases hrun.reads with rfl | ⟨v', tail, rfl, htail⟩
      · cases hrest
      · rw [List.cons_append, List.cons.injEq] at hrest
        have hmem : .op t (.getScheduleCount S) v ∈ tail := by
          rw [hrest.2]
          exact List.mem_append_right _ List.mem_cons_self
        exact htail v hmem

/-- The calls that have counted. -/
def minusers (S : UInt64) (trace : List CoAuthEvent) : List Nat :=
  (trace.filter (isMinus S)).map Event.tid

theorem length_minusers (pre : List CoAuthEvent) :
    (minusers S pre).length = pre.countP (isMinus S) := by
  rw [minusers, List.length_map, List.countP_eq_length_filter]

theorem mem_minusers {trace : List CoAuthEvent} {t : Nat} :
    t ∈ minusers S trace ↔ ∃ r, .op t (.scheduleCountMinus S) r ∈ trace := by
  constructor
  · intro ht
    obtain ⟨e, he, rfl⟩ := List.mem_map.mp ht
    obtain ⟨he, hminus⟩ := List.mem_filter.mp he
    obtain ⟨r, hr⟩ := eq_of_isMinus hminus
    exact ⟨r, hr ▸ he⟩
  · rintro ⟨r, hr⟩
    exact List.mem_map.mpr ⟨_, List.mem_filter.mpr ⟨hr, decide_eq_true rfl⟩, rfl⟩

namespace Complete

variable (h : Complete service S n callback w)
include h

theorem run_of_spawn {t : Nat} {call : CoAuthCall} (hcall : .spawn t call ∈ w.trace)
    (hfinishes : call.finishes S) :
    ∃ srcType resultCode finalResult rest,
      .spawn t (.finish S srcType resultCode finalResult) ∈ w.trace ∧
      w.own t = .spawn t (.finish S srcType resultCode finalResult) :: rest ∧
      FinishRun service S t resultCode finalResult rest := by
  have hmem : t ∈ finishers S w := World.mem_spawned.mpr ⟨call, hcall, hfinishes⟩
  obtain ⟨srcType, resultCode, finalResult, hspawn⟩ := mem_finishers.mp hmem
  obtain ⟨rest, hown, hrun⟩ := h.run hspawn
  exact ⟨srcType, resultCode, finalResult, rest, hspawn, hown, hrun⟩

/-- A call that has counted has done nothing else. -/
theorem own_of_minus {e : CoAuthEvent} (he : e ∈ w.trace) (hminus : isMinus S e = true) :
    ∃ call v r, v > 1 ∧ w.own e.tid =
      [.spawn e.tid call, .op e.tid (.getScheduleCount S) v,
        .op e.tid (.scheduleCountMinus S) r] := by
  obtain ⟨pre, post, hsplit⟩ := List.append_of_mem he
  have hmine := World.mem_own_tid he
  obtain ⟨r, hr⟩ := eq_of_isMinus hminus
  rw [hr] at hsplit
  obtain ⟨call, hcall, hfinishes⟩ := h.inv.facts pre _ post hsplit rfl
  obtain ⟨srcType, resultCode, finalResult, rest, -, hown, hrun⟩ :=
    h.run_of_spawn (hsplit ▸ List.mem_append_left _ hcall) hfinishes
  rcases hrun.counted_or with ⟨v, r', hv, rfl⟩ | hrest
  · exact ⟨_, v, r', hv, hown⟩
  · rw [hown, List.mem_cons] at hmine
    rcases hmine with hmine | hmine
    · rw [hmine] at hminus
      cases hminus
    · rw [hrest e hmine] at hminus
      cases hminus

/-- A call that has told the callback or deleted the schedule has the whole history of one. -/
theorem own_of_told {e : CoAuthEvent} (he : e ∈ w.trace)
    (htold : isOnFinish S e = true ∨ isDelete S e = true) :
    ∃ srcType resultCode finalResult rest,
      .spawn e.tid (.finish S srcType resultCode finalResult) ∈ w.trace ∧
      w.own e.tid = .spawn e.tid (.finish S srcType resultCode finalResult) :: rest ∧
      Told S e.tid resultCode finalResult rest := by
  obtain ⟨pre, post, hsplit⟩ := List.append_of_mem he
  have hmine := World.mem_own_tid he
  have hspawn : ∃ call, .spawn e.tid call ∈ pre ∧ call.finishes S := by
    have hfact := h.inv.facts pre e post hsplit
    rcases e with ⟨t, call⟩ | ⟨t, o, r⟩
    · rcases htold with h | h <;> cases h
    · cases o with
      | onFinish id => exact hfact (of_decide_eq_true (htold.resolve_right (by simp [isDelete])))
      | deleteScheduleCallback id =>
        exact hfact (of_decide_eq_true (htold.resolve_left (by simp [isOnFinish])))
      | _ => rcases htold with h | h <;> cases h
  obtain ⟨call, hcall, hfinishes⟩ := hspawn
  obtain ⟨srcType, resultCode, finalResult, rest, hspawn, hown, hrun⟩ :=
    h.run_of_spawn (hsplit ▸ List.mem_append_left _ hcall) hfinishes
  rcases hrun.told_or with hrest | hrest
  · exact ⟨_, _, _, _, hspawn, hown, hrest⟩
  · rw [hown, List.mem_cons] at hmine
    rcases hmine with hmine | hmine
    · rw [hmine] at htold
      rcases htold with h | h <;> cases h
    · obtain ⟨h₁, h₂⟩ := hrest e hmine
      rw [h₁, h₂] at htold
      rcases htold with h | h <;> cases h

/-- A call counts once. -/
theorem countP_minus_own_le (t : Nat) : (w.own t).countP (isMinus S) ≤ 1 := by
  by_cases hzero : (w.own t).countP (isMinus S) = 0
  · omega
  · obtain ⟨e, he, hminus⟩ := List.countP_pos_iff.mp (Nat.pos_of_ne_zero hzero)
    obtain ⟨hmem, rfl⟩ := World.mem_own.mp he
    obtain ⟨call, v, r, -, hown⟩ := h.own_of_minus hmem hminus
    rw [hown]
    simp [isMinus]

theorem minusers_nodup : (minusers S w.trace).Nodup := by
  rw [List.nodup_iff_count_le_one]
  intro t
  have hcount : (minusers S w.trace).count t = (w.own t).countP (isMinus S) := by
    rw [minusers, List.count_eq_countP, List.countP_map, List.countP_filter, World.own,
      List.countP_filter]
    exact List.countP_congr fun e _ => by simp [and_comm]
  rw [hcount]
  exact h.countP_minus_own_le t

theorem minusers_subset : minusers S w.trace ⊆ finishers S w := by
  intro t ht
  obtain ⟨e, he, rfl⟩ := List.mem_map.mp ht
  obtain ⟨he, hminus⟩ := List.mem_filter.mp he
  obtain ⟨pre, post, hsplit⟩ := List.append_of_mem he
  obtain ⟨r, hr⟩ := eq_of_isMinus hminus
  rw [hr] at hsplit
  obtain ⟨call, hcall, hfinishes⟩ := h.inv.facts pre _ post hsplit rfl
  exact World.mem_spawned.mpr ⟨call, hsplit ▸ List.mem_append_left _ hcall, hfinishes⟩

/-- A call that has not counted and sees at most one executor left knows that all others have
counted. -/
theorem all_counted_of_le {pre post : List CoAuthEvent} (hsplit : w.trace = pre ++ post) {t : Nat}
    (ht : t ∈ finishers S w) (hmine : t ∉ minusers S w.trace)
    (hn : n ≤ pre.countP (isMinus S) + 1) :
    ∀ t' ∈ finishers S w, t' ≠ t → t' ∈ minusers S pre := by
  have hsub : (minusers S pre).Sublist (minusers S w.trace) := by
    rw [hsplit]
    exact ((List.sublist_append_left pre post).filter _).map _
  have hnodup : (t :: minusers S pre).Nodup :=
    List.nodup_cons.mpr ⟨fun hmem => hmine (hsub.subset hmem), h.minusers_nodup.sublist hsub⟩
  have hsubset : t :: minusers S pre ⊆ finishers S w :=
    List.cons_subset.mpr ⟨ht, fun _ hmem => h.minusers_subset (hsub.subset hmem)⟩
  have hperm := (List.subperm_of_subset hnodup hsubset).perm_of_length_le (by
    rw [h.length, List.length_cons, length_minusers]
    exact hn)
  intro t' ht' hne
  exact List.mem_of_ne_of_mem hne (hperm.mem_iff.mpr ht')

theorem le_of_all_counted {pre : List CoAuthEvent} {t : Nat}
    (hall : ∀ t' ∈ finishers S w, t' ≠ t → t' ∈ minusers S pre) :
    n ≤ pre.countP (isMinus S) + 1 := by
  have hback : finishers S w ⊆ t :: minusers S pre := by
    intro t' ht'
    by_cases hne : t' = t
    · exact hne ▸ List.mem_cons_self
    · exact List.mem_cons_of_mem _ (hall t' ht' hne)
  have hle := (List.subperm_of_subset h.nodup hback).length_le
  rw [h.length, List.length_cons, length_minusers] at hle
  exact hle

/-- A call that has counted has not told the callback. -/
theorem told_not_minuser {t : Nat} {resultCode : ResultCode} {finalResult : Option AuthAttributes}
    {call : CoAuthCall} {rest : List CoAuthEvent} (hown : w.own t = .spawn t call :: rest)
    (htold : Told S t resultCode finalResult rest) : t ∉ minusers S w.trace := by
  intro hmem
  obtain ⟨r, hr⟩ := mem_minusers.mp hmem
  obtain ⟨call', v', r', hv', hown'⟩ := h.own_of_minus hr (decide_eq_true rfl)
  obtain ⟨v, mid, callback', r, hv, hmid, rfl⟩ := htold
  rw [Event.tid_op, hown, List.cons.injEq, List.cons.injEq] at hown'
  obtain ⟨-, hread, -⟩ := hown'
  cases hread
  exact hv hv'

/-- Where a call that tells the callback has read its count: nothing had been deleted by then, so
the count was the number of calls that had not counted yet. -/
theorem split_of_told {t : Nat} {resultCode : ResultCode} {finalResult : Option AuthAttributes}
    {call : CoAuthCall} {rest : List CoAuthEvent} (hown : w.own t = .spawn t call :: rest)
    (htold : Told S t resultCode finalResult rest) :
    ∃ (pre : List CoAuthEvent) (v : UInt64) (post : List CoAuthEvent),
      w.trace = pre ++ .op t (.getScheduleCount S) v :: post ∧
      n ≤ pre.countP (isMinus S) + 1 := by
  obtain ⟨v, mid, callback', r, hv, hmid, rfl⟩ := htold
  obtain ⟨pre, post, hsplit, hpre, hpost⟩ := World.split_of_filter (show w.own t =
    [Event.spawn t call] ++ .op t (.getScheduleCount S) v :: _ from hown)
  obtain ⟨mid', post', rfl, -, -⟩ := World.split_of_filter hpost
  have hsplit' : w.trace = (pre ++ .op t (.getScheduleCount S) v :: mid') ++
      .op t (.findScheduleCallback S) (.success, some callback') :: post' := by
    rw [hsplit, List.append_assoc, List.cons_append]
  have hfind := h.inv.facts _ _ _ hsplit' rfl
  have hdel : pre.any (isDelete S) = false := by
    cases hany : pre.any (isDelete S) with
    | false => rfl
    | true =>
      rw [List.any_append, hany, Bool.true_or, if_pos rfl] at hfind
      cases hfind
  have hread := (h.inv.facts pre _ _ hsplit rfl).2 hdel
  refine ⟨pre, v, _, hsplit, ?_⟩
  rw [gt_iff_lt, UInt64.lt_iff_toNat_lt, UInt64.toNat_one] at hv
  omega

/-- When all others have counted, whatever ends the schedule is done by the last call. -/
theorem tid_of_all_counted {t : Nat}
    (hall : ∀ t' ∈ finishers S w, t' ≠ t → t' ∈ minusers S w.trace) {e : CoAuthEvent}
    (he : e ∈ w.trace) (hend : isOnFinish S e = true ∨ isDelete S e = true) : e.tid = t := by
  by_contra hne
  obtain ⟨srcType, resultCode, finalResult, rest, hspawn, hown, htold⟩ := h.own_of_told he hend
  exact h.told_not_minuser hown htold (hall _ (mem_finishers.mpr ⟨_, _, _, hspawn⟩) hne)

end Complete

/-- Somebody's `OnFinish` ends the schedule, once, with the code and the token of the call that
makes it, and the schedule is no longer in the pool. -/
def FinishedOnce (S : UInt64) (callback : CoAuthCallback) (w : CoAuthWorld) : Prop :=
  ∃ t srcType resultCode finalResult,
    .spawn t (.finish S srcType resultCode finalResult) ∈ w.trace ∧
    w.trace.filter (isOnFinish S) = [.op t (.onFinish S callback resultCode.toUInt32
      (finishResult resultCode finalResult)) ()] ∧
    w.state.pool.scheResPool S = none

/-- The call has read the count after every other `Finish` call had decremented it. -/
def ReadsLast (S : UInt64) (w : CoAuthWorld) (t : Nat) : Prop :=
  ∃ pre v post, w.trace = pre ++ .op t (.getScheduleCount S) v :: post ∧
    ∀ t' ∈ finishers S w, t' ≠ t → ∃ r, .op t' (.scheduleCountMinus S) r ∈ pre

theorem toUInt32_inj {a b : ResultCode} : a.toUInt32 = b.toUInt32 ↔ a = b :=
  ⟨fun h => congrArg Int32.ofUInt32 h, congrArg _⟩

theorem finishCode_eq {resultCode : ResultCode} {finalResult : Option AuthAttributes} :
    finishCode resultCode finalResult = resultCode ↔ finalResult ≠ none ∨ resultCode = .fail := by
  cases finalResult with
  | none => simp [finishCode, eq_comm]
  | some finalResult => simp [finishCode]

namespace Told

variable {resultCode : ResultCode} {finalResult : Option AuthAttributes} {call : CoAuthCall}
  {rest : List CoAuthEvent}

/-- The one `OnFinish` of a call that tells the callback, and its deletion of the schedule. -/
theorem filter_own (call : CoAuthCall) (h : Told S t resultCode finalResult rest) :
    ∃ callback, (.op t (.findScheduleCallback S) (.success, some callback) : CoAuthEvent) ∈ rest ∧
      (.spawn t call :: rest : List CoAuthEvent).filter (isOnFinish S) =
        [.op t (.onFinish S callback (finishCode resultCode finalResult).toUInt32
          (finishResult resultCode finalResult)) ()] ∧
      ∃ e ∈ rest, isDelete S e = true := by
  obtain ⟨v, mid, callback, r, -, hmid, rfl⟩ := h
  have hnone : mid.filter (isOnFinish S) = [] := by
    refine List.filter_eq_nil_iff.mpr fun e he => ?_
    rw [hmid e he]
    exact Bool.false_ne_true
  refine ⟨callback, by simp, ?_, .op t (.deleteScheduleCallback S) r, by simp, by simp [isDelete]⟩
  rw [List.filter_cons_of_neg (by simp [isOnFinish]),
    List.filter_cons_of_neg (by simp [isOnFinish]), List.filter_append, hnone]
  simp [isOnFinish]

end Told

/-- A schedule that is finished is finished by the call that reads last. -/
theorem Complete.readsLast_of_finished (h : Complete service S n callback w)
    (hfinished : FinishedOnce S callback w) :
    ∃ t srcType resultCode finalResult,
      .spawn t (.finish S srcType resultCode finalResult) ∈ w.trace ∧
      (finalResult ≠ none ∨ resultCode = .fail) ∧ ReadsLast S w t := by
  obtain ⟨t, srcType, resultCode, finalResult, hspawn, hfilter, -⟩ := hfinished
  obtain ⟨hmem, hfinish⟩ := List.mem_filter.mp (hfilter ▸ List.mem_singleton_self _)
  obtain ⟨_, _, _, rest, -, hown, htold⟩ := h.own_of_told hmem (.inl hfinish)
  obtain ⟨rest', hown', -⟩ := h.run hspawn
  rw [Event.tid_op, hown', List.cons.injEq] at hown
  obtain ⟨hcall, rfl⟩ := hown
  cases hcall
  simp only [Event.tid_op] at htold
  refine ⟨t, srcType, resultCode, finalResult, hspawn, ?_, ?_⟩
  · obtain ⟨callback', -, hmine, -⟩ :=
      htold.filter_own (.finish S srcType resultCode finalResult)
    have hin : (.op t (.onFinish S callback resultCode.toUInt32
        (finishResult resultCode finalResult)) () : CoAuthEvent) ∈
        (.spawn t (.finish S srcType resultCode finalResult) :: rest').filter (isOnFinish S) :=
      List.mem_filter.mpr ⟨hown' ▸ World.mem_own.mpr ⟨hmem, rfl⟩, hfinish⟩
    rw [hmine, List.mem_singleton, Event.op.injEq, CoAuthOp.onFinish.injEq] at hin
    exact finishCode_eq.mp (toUInt32_inj.mp hin.2.1.2.2.1.symm)
  · obtain ⟨pre, v, post, hsplit, hn⟩ := h.split_of_told hown' htold
    refine ⟨pre, v, post, hsplit, fun t' ht' hne => mem_minusers.mp ?_⟩
    exact h.all_counted_of_le hsplit (mem_finishers.mpr ⟨_, _, _, hspawn⟩)
      (h.told_not_minuser hown' htold) hn t' ht' hne

/-- When some call reads last, it tells the callback. -/
theorem Complete.told_of_readsLast (h : Complete service S n callback w) {t : Nat}
    {srcType : Int32} {resultCode : ResultCode} {finalResult : Option AuthAttributes}
    (hspawn : .spawn t (.finish S srcType resultCode finalResult) ∈ w.trace)
    (hlast : ReadsLast S w t) :
    ∃ rest, w.own t = .spawn t (.finish S srcType resultCode finalResult) :: rest ∧
      Told S t resultCode finalResult rest := by
  obtain ⟨pre, v, post, hsplit, hall⟩ := hlast
  obtain ⟨rest, hown, hrun⟩ := h.run hspawn
  obtain ⟨hpre, tail, htail⟩ := hrun.own_of_read hsplit hown
  -- All other calls have counted down before this one reads.
  have hcounted : ∀ t' ∈ finishers S w, t' ≠ t → t' ∈ minusers S pre :=
    fun t' ht' hne => mem_minusers.mpr (hall t' ht' hne)
  have hcounted' : ∀ t' ∈ finishers S w, t' ≠ t → t' ∈ minusers S w.trace := by
    intro t' ht' hne
    obtain ⟨r, hr⟩ := hall t' ht' hne
    exact mem_minusers.mpr ⟨r, hsplit ▸ List.mem_append_left _ hr⟩
  -- nothing is deleted before the read: only this call deletes, and it has not begun to
  have hdel : pre.any (isDelete S) = false := by
    rw [List.any_eq_false]
    intro e he hdelete
    have htid := h.tid_of_all_counted hcounted' (hsplit ▸ List.mem_append_left _ he) (.inr hdelete)
    have hmine : e ∈ pre.filter fun e => e.tid == t := List.mem_filter.mpr ⟨he, by simp [htid]⟩
    rw [hpre, List.mem_singleton] at hmine
    rw [hmine] at hdelete
    cases hdelete
  -- so it reads what is left of `n`, which is one
  have hv : ¬v > 1 := by
    have hread := (h.inv.facts pre _ _ hsplit rfl).2 hdel
    have hn := h.le_of_all_counted hcounted
    rw [gt_iff_lt, UInt64.lt_iff_toNat_lt, UInt64.toNat_one]
    omega
  have hdeletes := hrun.told_or
  cases hrun with
  | noPool => cases htail
  | counted hv' =>
    cases htail
    exact absurd hv' hv
  | told hv' hmid => exact ⟨_, hown, _, _, _, _, hv', hmid, rfl⟩
  | @unknown v' mid code _ hmid =>
    rcases hdeletes with htold | hquiet
    · exact ⟨_, hown, htold⟩
    exfalso
    -- the lookup can only fail when the schedule has been deleted
    obtain ⟨pre', post', hsplit', -, -⟩ := World.split_of_filter (show w.own t =
      (.spawn t _ :: .op t (.getScheduleCount S) v' :: mid) ++
        .op t (.findScheduleCallback S) (code, none) :: [] from hown)
    have hfind := h.inv.facts _ _ _ hsplit' rfl
    cases hany : pre'.any (isDelete S) with
    | false =>
      rw [hany, if_neg (by decide)] at hfind
      cases hfind
    | true =>
      obtain ⟨e, he, hdelete⟩ := List.any_eq_true.mp hany
      have hmem : e ∈ w.trace := hsplit' ▸ List.mem_append_left _ he
      have htid := h.tid_of_all_counted hcounted' hmem (.inr hdelete)
      have hmine : e ∈ w.own t := World.mem_own.mpr ⟨hmem, htid⟩
      rw [hown, List.mem_cons] at hmine
      rcases hmine with rfl | hmine
      · cases hdelete
      · rw [(hquiet e hmine).2] at hdelete
        cases hdelete

/-- A call that reads last finishes the schedule. -/
theorem Complete.finished_of_readsLast (h : Complete service S n callback w) {t : Nat}
    {srcType : Int32} {resultCode : ResultCode} {finalResult : Option AuthAttributes}
    (hspawn : .spawn t (.finish S srcType resultCode finalResult) ∈ w.trace)
    (hcode : finalResult ≠ none ∨ resultCode = .fail) (hlast : ReadsLast S w t) :
    FinishedOnce S callback w := by
  obtain ⟨rest, hown, htold⟩ := h.told_of_readsLast hspawn hlast
  obtain ⟨callback', hfind, hmine, e, he, hdelete⟩ :=
    htold.filter_own (.finish S srcType resultCode finalResult)
  obtain ⟨pre, v, post, hsplit, hall⟩ := hlast
  have hcounted : ∀ t' ∈ finishers S w, t' ≠ t → t' ∈ minusers S w.trace := by
    intro t' ht' hne
    obtain ⟨r, hr⟩ := hall t' ht' hne
    exact mem_minusers.mpr ⟨r, hsplit ▸ List.mem_append_left _ hr⟩
  have hown_mem : ∀ e ∈ rest, e ∈ w.trace := fun e he =>
    (World.mem_own.mp (hown ▸ List.mem_cons_of_mem _ he)).1
  have hcallback : callback' = callback := by
    obtain ⟨pre', post', hsplit'⟩ := List.append_of_mem (hown_mem _ hfind)
    have hfact := h.inv.facts _ _ _ hsplit' rfl
    split at hfact
    · cases hfact
    · exact Option.some.inj (congrArg Prod.snd hfact)
  have hfilter : w.trace.filter (isOnFinish S) = (w.own t).filter (isOnFinish S) := by
    rw [World.own, List.filter_filter]
    refine List.filter_congr fun e he => ?_
    cases hfinish : isOnFinish S e with
    | false => rfl
    | true => simp [h.tid_of_all_counted hcounted he (.inl hfinish)]
  refine ⟨t, srcType, resultCode, finalResult, hspawn, ?_, ?_⟩
  · rw [hfilter, hown, hmine, hcallback, finishCode_eq.mpr hcode]
  · exact h.inv.gone (List.any_eq_true.mpr ⟨e, hown_mem e he, hdelete⟩)

/-! ## 5. When a schedule is finished -/

/-- **Completion.**  A schedule with `n` executors on which exactly `n` `Finish` calls have been
made and have returned is finished exactly if one of them read the count after all others had
decremented it, and that one came with a result or with the code `FAIL`. -/
theorem finished_iff_readsLast (service : CoAuthService) (s : CoAuthState) (S : UInt64)
    (info : ScheduleInfo) (callback : CoAuthCallback) (hnone : s.pool.scheResPool S = none)
    (hsize : info.executors.length < 2 ^ 64) {c : CoAuthConfig}
    (hc : (coAuth service).Reachable (onlyFinishes S) (s.inserted S info callback) c)
    (hcount : (finishers S c.world).length = info.executors.length)
    (hreturned : ∀ t ∈ finishers S c.world, c.threads[t]? = some (.ret ())) :
    FinishedOnce S callback c.world ↔
      ∃ t srcType resultCode finalResult,
        .spawn t (.finish S srcType resultCode finalResult) ∈ c.world.trace ∧
        (finalResult ≠ none ∨ resultCode = .fail) ∧ ReadsLast S c.world t := by
  obtain ⟨hinv, hdone⟩ := countInv_reachable hnone hsize hc
  have hcomplete : Complete service S info.executors.length callback c.world := by
    refine ⟨hinv, hc.spawned_nodup _, hcount, fun {t srcType resultCode finalResult} hspawn => ?_⟩
    have hmem := mem_finishers.mpr ⟨_, _, _, hspawn⟩
    obtain ⟨rest, hown⟩ := List.head?_eq_some_iff.mp (hc.own_head hspawn)
    exact ⟨rest, hown, hdone t (hreturned t hmem) _ _ _ _ _ hown⟩
  refine ⟨hcomplete.readsLast_of_finished, ?_⟩
  rintro ⟨t, srcType, resultCode, finalResult, hspawn, hcode, hlast⟩
  exact hcomplete.finished_of_readsLast hspawn hcode hlast

section Interleavings

/-- Two executors finish schedule 7, in an order of steps. -/
def twoFinishes (order : List Nat) : Option CoAuthConfig :=
  (coAuth ⟨true, true, true⟩).exec (onlyFinishes 7)
    ⟨⟨CoAuthState.initial.inserted 7 ⟨7, [⟨1, .pin, []⟩, ⟨2, .face, []⟩], 0, 0, 0⟩ 9, []⟩, []⟩
    ([.spawn (.finish 7 0 .success (some .new)), .spawn (.finish 7 0 .success (some .new))] ++
      order.map fun t => .run t {})

theorem twoFinishes_reachable {order : List Nat} {c : CoAuthConfig}
    (h : twoFinishes order = some c) :
    (coAuth ⟨true, true, true⟩).Reachable (onlyFinishes 7)
      (CoAuthState.initial.inserted 7 ⟨7, [⟨1, .pin, []⟩, ⟨2, .face, []⟩], 0, 0, 0⟩ 9) c :=
  Machine.Reachable.exec .init h

/-- Both calls read two and decrement: nobody is the last one. -/
theorem finish_lost :
    ¬∀ (service : CoAuthService) (s : CoAuthState) (S : UInt64) (info : ScheduleInfo)
      (callback : CoAuthCallback) (c : CoAuthConfig), s.pool.scheResPool S = none →
      1 ≤ info.executors.length → info.executors.length < 2 ^ 64 →
      (coAuth service).Reachable (onlyFinishes S) (s.inserted S info callback) c →
      (finishers S c.world).length = info.executors.length →
      (∀ t ∈ finishers S c.world, c.threads[t]? = some (.ret ())) →
      FinishedOnce S callback c.world := by
  intro h
  have hrun : (twoFinishes [0, 1, 0, 1]).map (fun c => (finishers 7 c.world,
      c.threads.map Prog.returned, c.world.trace.countP (isOnFinish 7))) =
      some ([0, 1], [true, true], 0) := by decide
  obtain ⟨c, hc, hend⟩ := Option.map_eq_some_iff.mp hrun
  obtain ⟨hfinishers, hend⟩ := Prod.mk.inj hend
  obtain ⟨hreturned, hsilent⟩ := Prod.mk.inj hend
  have hthreads : ∀ t ∈ finishers 7 c.world, c.threads[t]? = some (.ret ()) := by
    intro t ht
    rw [hfinishers] at ht
    refine Machine.getElem?_of_returned hreturned ?_
    rcases List.mem_pair.mp ht with rfl | rfl <;> rfl
  have hfinished := h ⟨true, true, true⟩ .initial 7 _ 9 c rfl (by decide) (by decide)
    (twoFinishes_reachable hc) (by rw [hfinishers]; rfl) hthreads
  obtain ⟨t, srcType, resultCode, finalResult, -, hfilter, -⟩ := hfinished
  rw [List.countP_eq_length_filter, hfilter] at hsilent
  cases hsilent

/-- One call after the other: the second one reads one and finishes the schedule. -/
theorem finished_iff_readsLast_example :
    ∃ c, twoFinishes [0, 0, 1, 1, 1, 1, 1] = some c ∧ FinishedOnce 7 9 c.world := by
  obtain ⟨c, hc⟩ : ∃ c, twoFinishes [0, 0, 1, 1, 1, 1, 1] = some c := ⟨_, rfl⟩
  have hrun : (twoFinishes [0, 0, 1, 1, 1, 1, 1]).map (fun c => (finishers 7 c.world,
      c.threads.map Prog.returned)) = some ([0, 1], [true, true]) := by decide
  rw [hc, Option.map_some, Option.some.injEq] at hrun
  obtain ⟨hfinishers, hreturned⟩ := Prod.mk.inj hrun
  have htrace : ∃ post, c.world.trace =
      [(.spawn 0 (.finish 7 0 .success (some .new)) : CoAuthEvent),
        .spawn 1 (.finish 7 0 .success (some .new)), .op 0 (.getScheduleCount 7) 2,
        .op 0 (.scheduleCountMinus 7) .success] ++ .op 1 (.getScheduleCount 7) 1 :: post := by
    cases hc
    exact ⟨_, rfl⟩
  obtain ⟨post, htrace⟩ := htrace
  refine ⟨c, hc, (finished_iff_readsLast ⟨true, true, true⟩ .initial 7 _ 9 rfl (by decide)
    (twoFinishes_reachable hc) (by rw [hfinishers]; rfl) fun t ht => ?_).mpr
    ⟨1, 0, .success, some .new, ?_, .inl (by simp), _, _, post, htrace, fun t ht hne => ?_⟩⟩
  · rw [hfinishers] at ht
    refine Machine.getElem?_of_returned hreturned ?_
    rcases List.mem_pair.mp ht with rfl | rfl <;> rfl
  · rw [htrace]
    simp
  · rw [hfinishers] at ht
    rcases List.mem_pair.mp ht with rfl | rfl
    · exact ⟨.success, by simp⟩
    · exact absurd rfl hne

end Interleavings

end UserIam.CoAuth
