import UserIam.Conc.Typestate
import UserIam.UserAuth.ContextLife
import UserIam.UserIDM.CommitOnce

/-!
# Contexts are confined

The schedules that the HDI has issued for a context, and the tokens that executors have reported for
them, do not get into the dealings of another context: what CoAuth is told to begin or to cancel,
and what the HDI is asked to judge, comes from the context's own.
-/

namespace UserIam.UserAuth

open Conc Common

/-! ## 1. What a thread knows -/

/-- The HDI has issued the schedule for the context. -/
def Issued (h : List UserAuthEvent) (contextId scheduleId : UInt64) : Prop :=
  ∃ t solution r, .op t (.beginAuthentication contextId solution) r ∈ h ∧
    r.1 = .success ∧ scheduleId ∈ r.2.map (·.scheduleId)

/-- The context that the call deals with, as far as it cancels or asks for a verdict. -/
def UserAuthCall.context : UserAuthCall → Option UInt64
  | .cancelAuth _ contextId => some contextId
  | .task _ (.run (.onFinishHandle _ self _ _)) => some self.callbackContextId
  | _ => none

/-- `issued` are schedules with their contexts that the thread knows of, `made` the callbacks that
it has made, with their contexts. -/
structure ConfinedView where
  call : UserAuthCall
  issued : UInt64 → UInt64 → Prop
  made : Nat → UInt64 → Prop

namespace ConfinedView

def learn (v : ConfinedView) (contextId : UInt64) (scheduleIds : List UInt64) : ConfinedView :=
  { v with issued := fun c s => v.issued c s ∨ c = contextId ∧ s ∈ scheduleIds }

def make (v : ConfinedView) (i : Nat) (contextId : UInt64) : ConfinedView :=
  { v with made := fun j c => v.made j c ∨ j = i ∧ c = contextId }

/-- A schedule is begun, cancelled or stored only for the context that it was issued for, and a
verdict is asked for only with the token that was handed over. -/
def may (v : ConfinedView) : UserAuthOp → Prop
  | .setScheduleIds contextId scheduleIds => ∀ s ∈ scheduleIds, v.issued contextId s
  | .beginSchedule info _ i => ∃ contextId, v.made i contextId ∧ v.issued contextId info.scheduleId
  | .cancel scheduleId => ∃ contextId, v.call.context = some contextId ∧
      v.issued contextId scheduleId
  | .updateAuthenticationResult contextId scheduleToken => ∃ p i self resultCode,
      v.call = .task p (.run (.onFinishHandle i self resultCode scheduleToken)) ∧
        contextId = self.callbackContextId
  | .postTask _ (.onFinishHandle i self resultCode scheduleToken) => ∃ scheduleId,
      v.call = .onFinish i self scheduleId resultCode scheduleToken
  | _ => True

def next (v : ConfinedView) : (o : UserAuthOp) → UserAuthRes o → Option ConfinedView
  | .beginAuthentication contextId _, r =>
    some (if r.1 = .success then v.learn contextId (r.2.map (·.scheduleId)) else v)
  | .getScheduleIds contextId, r => some (v.learn contextId (r.getD []))
  | .makeCoAuthCallback self, r => some (v.make r self.callbackContextId)
  | _, _ => some v

end ConfinedView

def confinement : Typestate UserAuthOp UserAuthRes ConfinedView where
  may := ConfinedView.may
  next := ConfinedView.next
  fact _ := True
  ends _ := True

/-! ## 2. Programs -/

/-- Operations that need no knowledge and teach nothing. -/
def UserAuthOp.plain : UserAuthOp → Bool
  | .setScheduleIds .. | .beginSchedule .. | .cancel _ | .updateAuthenticationResult .. => false
  | .postTask _ (.onFinishHandle ..) => false
  | .beginAuthentication .. | .getScheduleIds _ | .makeCoAuthCallback _ => false
  | _ => true

section Programs

variable {α β : Type} {v : ConfinedView} {o : UserAuthOp}

theorem plain_step (ho : o.plain = true) :
    v.may o ∧ ∀ r v', v.next o r = some v' → v' = v := by
  cases o with
  | postTask contextId task =>
    cases task with
    | onFinishHandle => cases ho
    | onAcquireInfoHandle => exact ⟨trivial, fun _ _ h => (Option.some.inj h).symm⟩
  | _ => first | exact ⟨trivial, fun _ _ h => (Option.some.inj h).symm⟩ | cases ho

/-- What the thread knows after a program is what it has known before, and `Q`. -/
abbrev Confined (Q : α → ConfinedView → Prop) (v : ConfinedView) (p : UserAuthProg α) : Prop :=
  confinement.Follows Q v p

theorem confined_plain {p : UserAuthProg α} (hp : p.All (·.plain = true)) :
    Confined (fun _ v' => v' = v) v p :=
  Typestate.follows_of_all trivial (hp.mono fun _ ho => plain_step ho)

theorem Confined.bind {p : UserAuthProg α} {f : α → UserAuthProg β} {Q : α → ConfinedView → Prop}
    {Q' : β → ConfinedView → Prop} (hp : Confined Q v p)
    (hf : ∀ a v', Q a v' → Confined Q' v' (f a)) : Confined Q' v (p >>= f) :=
  Typestate.Follows.bind trivial hp fun a v' _ hQ => hf a v' hQ

theorem confined_plain_bind {p : UserAuthProg α} {f : α → UserAuthProg β}
    {Q : β → ConfinedView → Prop} (hp : p.All (·.plain = true)) (hf : ∀ a, Confined Q v (f a)) :
    Confined Q v (p >>= f) :=
  (confined_plain hp).bind fun a _ hv => hv ▸ hf a

/-- An operation, with what it teaches. -/
theorem confined_call {k : UserAuthRes o → UserAuthProg α} {Q : α → ConfinedView → Prop}
    (hmay : v.may o) (hk : ∀ r v', v.next o r = some v' → Confined Q v' (k r)) :
    Confined Q v (.call o k) :=
  ⟨hmay, fun r v' hv' => ⟨trivial, hk r v' hv'⟩⟩

theorem confined_plain_call {k : UserAuthRes o → UserAuthProg α} {Q : α → ConfinedView → Prop}
    (ho : o.plain = true) (hk : ∀ r, Confined Q v (k r)) : Confined Q v (.call o k) :=
  confined_call (plain_step ho).1 fun r v' hv' => (plain_step ho).2 r v' hv' ▸ hk r

theorem confined_ite {c : Prop} [Decidable c] {p q : UserAuthProg α}
    {Q : α → ConfinedView → Prop} (hp : c → Confined Q v p) (hq : ¬c → Confined Q v q) :
    Confined Q v (if c then p else q) := by
  split
  · next h => exact hp h
  · next h => exact hq h

/-! ### Requests -/

theorem mapM_scheduleId {hdiScheduleInfos : List UserIDM.HdiScheduleInfo}
    {scheduleInfos : List CoAuth.ScheduleInfo}
    (h : hdiScheduleInfos.mapM copyScheduleInfo = some scheduleInfos) :
    scheduleInfos.map (·.scheduleId) = hdiScheduleInfos.map (·.scheduleId) := by
  induction hdiScheduleInfos generalizing scheduleInfos with
  | nil =>
    cases h
    rfl
  | cons hdiInfo rest ih =>
    rw [List.mapM_cons] at h
    obtain ⟨info, hinfo, h⟩ := Option.bind_eq_some_iff.mp h
    obtain ⟨infos, hinfos, h⟩ := Option.bind_eq_some_iff.mp h
    cases h
    rw [List.map_cons, List.map_cons, ih hinfos, UserIDM.copyScheduleInfo_scheduleId hinfo]

/-- What a solution teaches: its schedules were issued for the context. -/
def Solved (v : ConfinedView) (contextId : UInt64)
    (a : Except ResultCode (List CoAuth.ScheduleInfo)) (v' : ConfinedView) : Prop :=
  v'.call = v.call ∧ ∀ scheduleInfos, a = .ok scheduleInfos →
    ∀ info ∈ scheduleInfos, v'.issued contextId info.scheduleId

theorem generateSolution_confined (param : AuthSolution) :
    Confined (Solved v param.contextId) v (generateSolution param) := by
  have hnone {v' : ConfinedView} (hcall : v'.call = v.call) (ret : ResultCode) :
      Confined (Solved v param.contextId) v' (.ret (.error ret)) := ⟨hcall, nofun⟩
  refine confined_plain_call rfl fun found => ?_
  cases found with
  | false => exact hnone rfl _
  | true =>
    refine confined_call trivial fun r v' hv' => ?_
    obtain ⟨ret, hdiScheduleInfos⟩ := r
    have hcall : v'.call = v.call := by
      rw [← Option.some.inj hv']
      split <;> rfl
    refine confined_ite (fun hret => hnone hcall _) fun hret => ?_
    obtain rfl : ret = .success := not_not.mp hret
    have hlearnt : v' = v.learn param.contextId (hdiScheduleInfos.map (·.scheduleId)) :=
      (Option.some.inj hv').symm
    cases hcopy : hdiScheduleInfos.mapM copyScheduleInfo with
    | none => exact hnone hcall _
    | some scheduleInfos =>
      have hissued : ∀ s ∈ scheduleInfos.map (·.scheduleId), v'.issued param.contextId s := by
        intro s hs
        rw [mapM_scheduleId hcopy] at hs
        rw [hlearnt]
        exact .inr ⟨rfl, hs⟩
      refine confined_call hissued fun ret v'' hv'' => ?_
      obtain rfl : v' = v'' := Option.some.inj hv''
      refine confined_ite (fun _ => hnone hcall _) fun _ => ⟨hcall, ?_⟩
      intro infos hinfos info hinfo
      cases hinfos
      exact hissued _ (List.mem_map_of_mem hinfo)

theorem beginSchedules_confined (authInfo : CoAuth.AuthInfo) {i : Nat} {contextId : UInt64}
    (hmade : v.made i contextId) {scheduleInfos : List CoAuth.ScheduleInfo}
    (hissued : ∀ info ∈ scheduleInfos, v.issued contextId info.scheduleId) :
    Confined (fun _ _ => True) v (beginSchedules authInfo i scheduleInfos) := by
  induction scheduleInfos with
  | nil => trivial
  | cons info scheduleInfos ih =>
    rw [List.forall_mem_cons] at hissued
    refine confined_call ⟨contextId, hmade, hissued.1⟩ fun _ v' hv' => ?_
    obtain rfl : v = v' := Option.some.inj hv'
    exact ih hissued.2

theorem coAuth_confined {scheduleInfos : List CoAuth.ScheduleInfo} {coAuthInfo : CoAuthInfo}
    (callback : ClientCallback)
    (hissued : ∀ info ∈ scheduleInfos, v.issued coAuthInfo.contextID info.scheduleId) :
    Confined (fun _ _ => True) v (coAuth scheduleInfos coAuthInfo callback) := by
  refine confined_call trivial fun i v' hv' => ?_
  obtain rfl : v.make i coAuthInfo.contextID = v' := Option.some.inj hv'
  refine confined_plain_call rfl fun ret => ?_
  refine confined_ite (fun _ => trivial) fun _ => ?_
  have hmade : (v.make i coAuthInfo.contextID).made i coAuthInfo.contextID := .inr ⟨rfl, rfl⟩
  exact Confined.bind (beginSchedules_confined _ hmade hissued) fun _ _ _ => trivial

theorem getControllerData_plain (callback : ClientCallback) (authTrustLevel : AuthTrustLevel) :
    (getControllerData callback authTrustLevel).All (·.plain = true) := by
  refine Prog.all_ite.mpr ⟨fun _ => ⟨rfl, fun _ => trivial⟩, fun _ => ?_⟩
  refine ⟨rfl, fun contextId => ⟨rfl, fun ret => ?_⟩⟩
  exact Prog.all_ite.mpr ⟨fun _ => ⟨rfl, fun _ => trivial⟩, fun _ => trivial⟩

variable (kit : AccessTokenKit) (caller : Caller)

theorem auth_confined (challenge : UInt64) (authType : AuthType) (authTrustLevel : AuthTrustLevel)
    (callback : Option ClientCallback) :
    Confined (fun _ _ => True) v (auth kit caller challenge authType authTrustLevel callback) := by
  have htell (callback : ClientCallback) (ret : ResultCode) (v' : ConfinedView) :
      Confined (fun _ _ => True) v' (.call (.onResult callback ret {}) fun _ =>
        .ret (0 : UInt64)) := confined_plain_call rfl fun _ => trivial
  cases callback with
  | none => trivial
  | some callback =>
    refine confined_plain_bind (getControllerData_plain _ _) fun contextId => ?_
    cases contextId with
    | none => trivial
    | some contextId =>
      dsimp only
      split
      · exact htell _ _ _
      · cases getCallingUserId kit caller with
        | error ret => exact htell _ _ _
        | ok userId =>
          refine (generateSolution_confined _).bind fun solution v' hsolved => ?_
          cases solution with
          | error result => exact htell _ _ _
          | ok scheduleInfos =>
            refine (coAuth_confined callback (hsolved.2 _ rfl)).bind fun result v'' _ => ?_
            exact confined_ite (fun _ => htell _ _ _) fun _ => trivial

theorem authUser_confined (userId : Int32) (challenge : UInt64) (authType : AuthType)
    (authTrustLevel : AuthTrustLevel) (callback : Option ClientCallback) :
    Confined (fun _ _ => True) v
      (authUser kit caller userId challenge authType authTrustLevel callback) := by
  have htell (callback : ClientCallback) (ret : ResultCode) (v' : ConfinedView) :
      Confined (fun _ _ => True) v' (.call (.onResult callback ret {}) fun _ =>
        .ret (0 : UInt64)) := confined_plain_call rfl fun _ => trivial
  have hback (contextId : UInt64) (callback : ClientCallback) (ret : ResultCode)
      (v' : ConfinedView) : Confined (fun _ _ => True) v' (.call (.deleteContextId contextId)
        fun _ => .call (.onResult callback ret {}) fun _ => .ret (0 : UInt64)) :=
    confined_plain_call rfl fun _ => htell _ _ _
  cases callback with
  | none => trivial
  | some callback =>
    unfold authUser
    dsimp only
    split
    · exact htell _ _ _
    · refine confined_plain_bind (getControllerData_plain _ _) fun contextId => ?_
      cases contextId with
      | none => trivial
      | some contextId =>
        refine (generateSolution_confined _).bind fun solution v' hsolved => ?_
        cases solution with
        | error result => exact hback _ _ _ _
        | ok scheduleInfos =>
          refine (coAuth_confined callback (hsolved.2 _ rfl)).bind fun result v'' _ => ?_
          exact confined_ite (fun _ => hback _ _ _ _) fun _ => trivial

theorem cancelAll_confined {contextId : UInt64} (hcontext : v.call.context = some contextId)
    {scheduleIds : List UInt64} (hissued : ∀ s ∈ scheduleIds, v.issued contextId s) :
    Confined (fun _ v' => v' = v) v (cancelAll scheduleIds) := by
  induction scheduleIds with
  | nil => rfl
  | cons item scheduleIds ih =>
    rw [List.forall_mem_cons] at hissued
    refine confined_call ⟨contextId, hcontext, hissued.1⟩ fun _ v' hv' => ?_
    obtain rfl : v = v' := Option.some.inj hv'
    exact ih hissued.2

theorem cancelAuth_confined {contextId : UInt64} (hcontext : v.call.context = some contextId) :
    Confined (fun _ _ => True) v (cancelAuth kit caller contextId) := by
  have hcancel : (cancelContext contextId).All (·.plain = true) :=
    ⟨rfl, fun found => Prog.all_ite.mpr ⟨fun _ => trivial, fun _ => ⟨rfl, fun _ => trivial⟩⟩⟩
  unfold cancelAuth
  split
  · trivial
  · refine confined_plain_call rfl fun found => ?_
    cases found with
    | false => trivial
    | true =>
      refine confined_plain_bind (p := cancelContext contextId) hcancel fun ret => ?_
      refine confined_ite (fun _ => trivial) fun _ => ?_
      refine confined_call trivial fun scheduleIds v' hv' => ?_
      obtain rfl : v.learn contextId (scheduleIds.getD []) = v' := Option.some.inj hv'
      cases scheduleIds with
      | none => exact confined_plain_call rfl fun _ => trivial
      | some scheduleIds =>
        have hissued : ∀ s ∈ scheduleIds, (v.learn contextId scheduleIds).issued contextId s :=
          fun s hs => .inr ⟨rfl, hs⟩
        have hcancel : Confined (fun _ v' => v' = v.learn contextId scheduleIds)
            (v.learn contextId scheduleIds) (cancelAll scheduleIds) :=
          cancelAll_confined (v := v.learn contextId scheduleIds) hcontext hissued
        show Confined _ _ (cancelAll scheduleIds >>= fun _ => _)
        exact Confined.bind hcancel fun _ v' _ => confined_plain_call rfl fun _ => trivial

/-! ### Callbacks -/

variable {kit caller}
variable {i : Nat} {self : UserAuthCallbackImplCoAuth} {resultCode : UInt32}
  {scheduleToken : List UInt8}

theorem coAuthSetPropAuthInfo_plain (callerInfo : CallerInfo) (request : SetPropertyRequest) :
    (coAuthSetPropAuthInfo callerInfo request).All (·.plain = true) := by
  refine ⟨rfl, fun r => ?_⟩
  show (onGetInfoFreeze _ _ _ _).All _
  unfold onGetInfoFreeze setPropAuthInfo
  split
  · trivial
  · exact Prog.all_ite.mpr ⟨fun _ => trivial, fun _ => ⟨rfl, fun _ => trivial⟩⟩

theorem dealTemplates_plain (ret : ResultCode) :
    (dealTemplates self resultCode ret).All (·.plain = true) := by
  refine Prog.All.bind (Prog.all_ite.mpr ⟨fun _ => ?_, fun _ => trivial⟩) fun _ => ?_
  · exact coAuthSetPropAuthInfo_plain _ _
  · refine Prog.all_ite.mpr ⟨fun _ => ?_, fun _ => trivial⟩
    exact Prog.all_ite.mpr ⟨fun _ => coAuthSetPropAuthInfo_plain _ _, fun _ => trivial⟩

theorem getPropAuthInfoCoAuth_plain (callerInfo : CallerInfo) (ret : ResultCode)
    (authToken : List UInt8) (request : GetPropertyRequest) (callback : ClientCallback) :
    (getPropAuthInfoCoAuth callerInfo ret authToken request callback).All (·.plain = true) := by
  refine ⟨rfl, fun answer => ?_⟩
  show (onGetInfoCoAuth _ _ _ _ _ _ _).All _
  rw [onGetInfoCoAuth_eq]
  refine (queryProp_all (fun _ => rfl) _ _ _ _).bind fun _ => ?_
  exact ⟨rfl, fun _ => trivial⟩

theorem dealFinishData_confined (hcontext : v.call.context = some self.callbackContextId) :
    Confined (fun _ _ => True) v (dealFinishData i self) := by
  have hrest (v' : ConfinedView) : Confined (fun _ _ => True) v'
      (.call (.deleteContextId self.callbackContextId) fun _ =>
        .call (.deleteCoAuthCallback self.callbackContextId) fun _ =>
          .call (.setResultDone i) .ret) :=
    confined_plain_call rfl fun _ => confined_plain_call rfl fun _ =>
      confined_plain_call rfl fun _ => trivial
  refine confined_call trivial fun scheduleIds v' hv' => ?_
  obtain rfl : v.learn self.callbackContextId (scheduleIds.getD []) = v' := Option.some.inj hv'
  cases scheduleIds with
  | none => exact hrest _
  | some scheduleIds =>
    have hissued : ∀ s ∈ scheduleIds,
        (v.learn self.callbackContextId scheduleIds).issued self.callbackContextId s :=
      fun s hs => .inr ⟨rfl, hs⟩
    have hcancel : Confined (fun _ v' => v' = v.learn self.callbackContextId scheduleIds)
        (v.learn self.callbackContextId scheduleIds) (cancelAll scheduleIds) :=
      cancelAll_confined (v := v.learn self.callbackContextId scheduleIds) hcontext hissued
    show Confined _ _ (cancelAll scheduleIds >>= fun _ => _)
    exact Confined.bind hcancel fun _ v' _ => hrest v'

theorem verdict_confined {p : Nat}
    (hcall : v.call = .task p (.run (.onFinishHandle i self resultCode scheduleToken))) :
    Confined (fun _ v' => v' = v) v (verdict self resultCode scheduleToken) := by
  refine confined_ite (fun _ => ?_) fun _ => rfl
  refine confined_plain_call rfl fun found => ?_
  refine confined_ite (fun _ => rfl) fun _ => ?_
  refine confined_call ⟨p, i, self, resultCode, hcall, rfl⟩ fun r v' hv' => ?_
  obtain rfl : v = v' := Option.some.inj hv'
  exact confined_ite (fun _ => rfl) fun _ => rfl

theorem onFinishHandleLocked_confined {p : Nat}
    (hcall : v.call = .task p (.run (.onFinishHandle i self resultCode scheduleToken))) :
    Confined (fun _ _ => True) v (onFinishHandleLocked i self resultCode scheduleToken) := by
  have hcontext : v.call.context = some self.callbackContextId := by
    rw [hcall]
    rfl
  refine confined_plain_call rfl fun callbackNowCount => ?_
  refine confined_plain_call rfl fun done => ?_
  refine confined_ite (fun _ => trivial) fun _ => ?_
  refine Confined.bind (p := verdict self resultCode scheduleToken) (verdict_confined hcall)
    fun a v' hv' => ?_
  subst hv'
  refine confined_ite (fun _ => confined_ite (fun _ => ?_) fun _ => trivial) fun _ => ?_
  · exact confined_plain_call rfl fun _ => confined_plain_call rfl fun _ =>
      confined_plain_call rfl fun _ => confined_plain_call rfl fun _ => trivial
  · rw [dealVerdict_templates]
    refine confined_plain_bind (dealTemplates_plain a.1) fun _ => ?_
    refine confined_plain_bind (getPropAuthInfoCoAuth_plain _ _ _ _ _) fun _ => ?_
    exact dealFinishData_confined hcontext

/-- What a thread knows when it starts. -/
def startConfined (call : UserAuthCall) : ConfinedView := ⟨call, fun _ _ => False, fun _ _ => False⟩

theorem userAuthBody_confined (kit : AccessTokenKit) (call : UserAuthCall) :
    Confined (fun _ _ => True) (startConfined call) (userAuthBody kit call) := by
  have hdiscard {α : Type} {p : UserAuthProg α}
      (hp : Confined (fun _ _ => True) (startConfined call) p) :
      Confined (fun _ _ => True) (startConfined call) (Prog.discard p) :=
    Confined.bind hp fun _ _ _ => trivial
  have hend (p : Nat) (v : ConfinedView) :
      Confined (fun _ _ => True) v (.call (.endTask p) .ret) :=
    confined_plain_call rfl fun _ => trivial
  cases call with
  | auth => exact hdiscard (auth_confined _ _ _ _ _ _)
  | authUser => exact hdiscard (authUser_confined _ _ _ _ _ _ _)
  | cancelAuth => exact hdiscard (cancelAuth_confined _ _ rfl)
  | onFinish i self scheduleId resultCode scheduleToken =>
    refine confined_call ⟨scheduleId, rfl⟩ fun ret v' hv' => ?_
    refine confined_ite (fun _ => ?_) fun _ => trivial
    exact confined_plain_call rfl fun _ => confined_plain_call rfl fun _ => trivial
  | onAcquireInfo i self scheduleId acquire =>
    refine confined_plain_call rfl fun ret => ?_
    exact confined_ite (fun _ => confined_plain_call rfl fun _ => trivial) fun _ => trivial
  | task p task =>
    cases task with
    | ensureTransaction => exact hend p _
    | run task =>
      cases task with
      | onFinishHandle i self resultCode scheduleToken =>
        show Confined _ _ (underLock i (onFinishHandleLocked i self resultCode scheduleToken) >>=
          fun _ => .call (.endTask p) .ret)
        rw [underLock_bind]
        refine confined_plain_call rfl fun _ => ?_
        refine Confined.bind (onFinishHandleLocked_confined rfl) fun _ v' _ => ?_
        exact confined_plain_call rfl fun _ => hend p _
      | onAcquireInfoHandle i self acquire =>
        show Confined _ _ (underLock i (onAcquireInfoHandleLocked i self acquire) >>=
          fun _ => .call (.endTask p) .ret)
        rw [underLock_bind]
        have hplain : (onAcquireInfoHandleLocked i self acquire).All (·.plain = true) :=
          ⟨rfl, fun _ => Prog.all_ite.mpr ⟨fun _ => trivial, fun _ => ⟨rfl, fun _ => trivial⟩⟩⟩
        refine confined_plain_call rfl fun _ => confined_plain_bind hplain fun _ => ?_
        exact confined_plain_call rfl fun _ => hend p _

end Programs

/-! ## 3. Runs -/

/-- A finish that a thread is to handle was reported for a schedule of the callback's context. -/
def UserAuthTask.warranted (h : List UserAuthEvent) : UserAuthTask → Prop
  | .onFinishHandle i self resultCode scheduleToken => ∃ t scheduleId,
      .spawn t (.onFinish i self scheduleId resultCode scheduleToken) ∈ h ∧
        Issued h self.callbackContextId scheduleId
  | .onAcquireInfoHandle .. => True

def UserAuthCall.warranted (h : List UserAuthEvent) : UserAuthCall → Prop
  | .onFinish _ self scheduleId _ _ => Issued h self.callbackContextId scheduleId
  | .task _ (.run posted) => posted.warranted h
  | _ => True

/-- What happens is warranted by what has happened before, in the same context. -/
def Warranted (h : List UserAuthEvent) : UserAuthEvent → Prop
  | .spawn _ call => call.warranted h
  | .op _ (.beginSchedule info _ i) _ => ∃ t self,
      .op t (.makeCoAuthCallback self) i ∈ h ∧ Issued h self.callbackContextId info.scheduleId
  | .op t (.cancel scheduleId) _ => ∃ call contextId,
      .spawn t call ∈ h ∧ call.context = some contextId ∧ Issued h contextId scheduleId
  | .op _ (.updateAuthenticationResult contextId scheduleToken) _ => ∃ t i self scheduleId code,
      .spawn t (.onFinish i self scheduleId code scheduleToken) ∈ h ∧
        self.callbackContextId = contextId ∧ Issued h contextId scheduleId
  | _ => True

/-- Every event is warranted, and so is what the state keeps for the events to come. -/
structure Confining (w : UserAuthWorld) : Prop where
  contexts : ∀ contextId scheduleIds, w.state.contexts contextId = some scheduleIds →
    ∀ s ∈ scheduleIds, Issued w.trace contextId s
  made : ∀ t i self, .op t (.makeCoAuthCallback self) i ∈ w.trace →
    w.state.callbacks[i]? = some self
  begun : ∀ b ∈ w.state.begun, ∃ t self, .op t (.makeCoAuthCallback self) b.2 ∈ w.trace ∧
    Issued w.trace self.callbackContextId b.1
  tasks : w.state.groups.AllTasks (UserAuthTask.warranted w.trace)
  events : w.Each Warranted

/-- What a thread knows is true. -/
structure ConfinedLink (w : UserAuthWorld) (tid : Nat) (v : ConfinedView) : Prop where
  call : .spawn tid v.call ∈ w.trace
  issued : ∀ contextId s, v.issued contextId s → Issued w.trace contextId s
  made : ∀ i contextId, v.made i contextId →
    ∃ t self, .op t (.makeCoAuthCallback self) i ∈ w.trace ∧ self.callbackContextId = contextId

variable {kit : AccessTokenKit} {c : UserAuthConfig} {w : UserAuthWorld} {t : Nat}
  {v : ConfinedView} {h h' : List UserAuthEvent} {contextId scheduleId : UInt64}

theorem Issued.append (hissued : Issued h contextId scheduleId) (h' : List UserAuthEvent) :
    Issued (h ++ h') contextId scheduleId := by
  obtain ⟨t, solution, r, hmem, hr⟩ := hissued
  exact ⟨t, solution, r, List.mem_append_left _ hmem, hr⟩

theorem UserAuthTask.warranted.append {task : UserAuthTask} (htask : task.warranted h)
    (h' : List UserAuthEvent) : task.warranted (h ++ h') := by
  cases task with
  | onFinishHandle i self resultCode scheduleToken =>
    obtain ⟨t, scheduleId, hmem, hissued⟩ := htask
    exact ⟨t, scheduleId, List.mem_append_left _ hmem, hissued.append _⟩
  | onAcquireInfoHandle => trivial

theorem UserAuthCall.warranted.append {call : UserAuthCall} (hcall : call.warranted h)
    (h' : List UserAuthEvent) : call.warranted (h ++ h') := by
  cases call with
  | onFinish => exact Issued.append hcall _
  | task p task =>
    cases task with
    | ensureTransaction => trivial
    | run posted => exact UserAuthTask.warranted.append hcall _
  | _ => trivial

/-- The call of a thread is warranted. -/
theorem Confining.call (hw : Confining w) {call : UserAuthCall} (hcall : .spawn t call ∈ w.trace) :
    call.warranted w.trace := by
  obtain ⟨pre, post, hsplit⟩ := List.append_of_mem hcall
  have hpre : call.warranted pre := hw.events pre _ post hsplit
  rw [hsplit]
  exact hpre.append _

theorem ConfinedLink.push (hlink : ConfinedLink w t v) (s : UserAuthState) (e : UserAuthEvent) :
    ConfinedLink (w.push s e) t v where
  call := List.mem_append_left _ hlink.call
  issued contextId s hs := (hlink.issued contextId s hs).append _
  made i contextId hi := by
    obtain ⟨t', self, hmem, hself⟩ := hlink.made i contextId hi
    exact ⟨t', self, List.mem_append_left _ hmem, hself⟩

/-! ### Calls start -/

theorem userAuthAccept_warranted {call : UserAuthCall} {s : UserAuthState} (hw : Confining w)
    (hs : userAuthAccept w.state call = some s) :
    call.warranted w.trace ∧ s.groups.AllTasks (UserAuthTask.warranted w.trace) := by
  cases call with
  | onFinish i self scheduleId resultCode scheduleToken =>
    simp only [userAuthAccept, Option.ite_none_right_eq_some, Option.some.injEq] at hs
    obtain ⟨⟨hself, hbegun⟩, rfl⟩ := hs
    -- CoAuth was given the schedule with a callback of the context that it was issued for.
    obtain ⟨t, self', hmade, hissued⟩ := hw.begun _ hbegun
    obtain rfl : self' = self := Option.some.inj ((hw.made _ _ _ hmade).symm.trans hself)
    exact ⟨hissued, hw.tasks⟩
  | task p task =>
    rcases userAuthAccept_cases hs with ⟨-, hno⟩ | ⟨p', task', groups, heq, hstart, rfl⟩
    · exact absurd rfl (hno p task)
    · cases heq
      obtain ⟨htasks, htask⟩ := hw.tasks.startTask hstart
      refine ⟨?_, htasks⟩
      cases task with
      | ensureTransaction => trivial
      | run posted => exact htask posted rfl
  | _ =>
    rcases userAuthAccept_cases hs with ⟨rfl, -⟩ | ⟨p', task', groups, heq, -, -⟩
    · exact ⟨trivial, hw.tasks⟩
    · cases heq

theorem Confining.spawn {call : UserAuthCall} {s : UserAuthState} (hw : Confining w)
    (hs : userAuthAccept w.state call = some s) : Confining (w.push s (.spawn t call)) := by
  have hsame : s.contexts = w.state.contexts ∧ s.callbacks = w.state.callbacks ∧
      s.begun = w.state.begun := by
    rcases userAuthAccept_cases hs with ⟨rfl, -⟩ | ⟨p, task, groups, -, -, rfl⟩ <;>
      exact ⟨rfl, rfl, rfl⟩
  obtain ⟨hcall, htasks⟩ := userAuthAccept_warranted hw hs
  constructor
  · intro contextId scheduleIds hids id hid
    rw [World.push_state, hsame.1] at hids
    exact (hw.contexts contextId scheduleIds hids id hid).append _
  · intro t' i self hmem
    rw [World.push_state, hsame.2.1]
    exact hw.made t' i self (by simpa using hmem)
  · intro b hb
    rw [World.push_state, hsame.2.2] at hb
    obtain ⟨t', self, hmem, hissued⟩ := hw.begun b hb
    exact ⟨t', self, List.mem_append_left _ hmem, hissued.append _⟩
  · exact htasks.mono fun _ htask => htask.append _
  · exact World.each_push.mpr ⟨hw.events, hcall⟩

/-! ### Operations -/

theorem contexts_handle {s : UserAuthState} {env : UserAuthEnv} {o : UserAuthOp}
    {scheduleIds : List UInt64}
    (hids : (userAuthHandle t env s o).2.contexts contextId = some scheduleIds) :
    s.contexts contextId = some scheduleIds ∨ scheduleIds = [] ∨
      o = .setScheduleIds contextId scheduleIds := by
  cases o with
  | addContextId Y =>
    simp only [userAuthHandle] at hids
    split at hids
    · exact .inl hids
    · simp only [Function.update_apply] at hids
      split at hids
      · exact .inr (.inl (Option.some.inj hids).symm)
      · exact .inl hids
  | deleteContextId Y =>
    simp only [userAuthHandle] at hids
    split at hids
    · simp only [Function.update_apply] at hids
      split at hids
      · cases hids
      · exact .inl hids
    · exact .inl hids
  | setScheduleIds Y ids =>
    simp only [userAuthHandle] at hids
    split at hids
    · simp only [Function.update_apply] at hids
      split at hids
      · next heq =>
        cases hids
        exact .inr (.inr (heq ▸ rfl))
      · exact .inl hids
    · exact .inl hids
  | saveCoAuthCallback Y i =>
    simp only [userAuthHandle, UserAuth.saveCoAuthCallback] at hids
    split at hids
    · exact .inl hids
    · split at hids <;> exact .inl hids
  | _ => exact .inl hids

/-- What a thread may do is warranted. -/
theorem ConfinedLink.warranted (hlink : ConfinedLink w t v) (hw : Confining w) {o : UserAuthOp}
    (hmay : v.may o) (r : UserAuthRes o) : Warranted w.trace (.op t o r) := by
  cases o with
  | beginSchedule info authInfo i =>
    obtain ⟨contextId, hmade, hissued⟩ := hmay
    obtain ⟨t', self, hmem, hself⟩ := hlink.made i contextId hmade
    exact ⟨t', self, hmem, hself ▸ hlink.issued contextId _ hissued⟩
  | cancel scheduleId =>
    obtain ⟨contextId, hcontext, hissued⟩ := hmay
    exact ⟨v.call, contextId, hlink.call, hcontext, hlink.issued contextId _ hissued⟩
  | updateAuthenticationResult contextId scheduleToken =>
    obtain ⟨p, i, self, resultCode, hcall, rfl⟩ := hmay
    have hhandle := hw.call hlink.call
    rw [hcall] at hhandle
    obtain ⟨t', scheduleId, hmem, hissued⟩ := hhandle
    exact ⟨t', i, self, scheduleId, resultCode, hmem, rfl, hissued⟩
  | _ => trivial

theorem ConfinedLink.warranted_task (hlink : ConfinedLink w t v) (hw : Confining w)
    {task : UserAuthTask} (hmay : v.may (.postTask contextId task)) : task.warranted w.trace := by
  cases task with
  | onFinishHandle i self resultCode scheduleToken =>
    obtain ⟨scheduleId, hcall⟩ := hmay
    refine ⟨t, scheduleId, hcall ▸ hlink.call, ?_⟩
    have hreport := hw.call hlink.call
    rwa [hcall] at hreport
  | onAcquireInfoHandle => trivial

theorem Confining.perform {o : UserAuthOp} {env : UserAuthEnv} (hw : Confining w)
    (hlink : ConfinedLink w t v) (hmay : v.may o) :
    Confining ((userAuth kit).perform w t o env) := by
  constructor
  · intro contextId scheduleIds hids s hs
    rcases contexts_handle hids with hbefore | rfl | rfl
    · exact (hw.contexts contextId scheduleIds hbefore s hs).append _
    · cases hs
    · exact (hlink.issued contextId s (hmay s hs)).append _
  · intro t' i self hmem
    rcases List.mem_append.mp hmem with hmem | hmem
    · exact callbacks_mono t env o (hw.made t' i self hmem)
    · cases List.mem_singleton.mp hmem
      exact List.getElem?_concat_length ..
  · intro b hb
    rcases mem_begun_handle hb with hb | ⟨info, authInfo, rfl⟩
    · obtain ⟨t', self, hmem, hissued⟩ := hw.begun b hb
      exact ⟨t', self, List.mem_append_left _ hmem, hissued.append _⟩
    · rcases List.mem_append.mp hb with hb | hb
      · obtain ⟨t', self, hmem, hissued⟩ := hw.begun b hb
        exact ⟨t', self, List.mem_append_left _ hmem, hissued.append _⟩
      · obtain ⟨t', self, hmem, hissued⟩ := hlink.warranted hw hmay ()
        rw [List.mem_singleton] at hb
        rw [hb]
        exact ⟨t', self, List.mem_append_left _ hmem, hissued.append _⟩
  · refine allTasks_handle t env o (hw.tasks.mono fun _ htask => htask.append _) ?_
    rintro contextId task rfl
    exact (hlink.warranted_task hw hmay).append _
  · exact World.each_push.mpr ⟨hw.events, hlink.warranted hw hmay _⟩

/-- What a thread learns from an answer is true. -/
theorem ConfinedLink.own {o : UserAuthOp} {env : UserAuthEnv} (hlink : ConfinedLink w t v)
    (hw : Confining w) : ∃ v', v.next o ((userAuth kit).answer w t o env) = some v' ∧
      ConfinedLink ((userAuth kit).perform w t o env) t v' := by
  have hafter : ConfinedLink ((userAuth kit).perform w t o env) t v := hlink.push _ _
  cases o with
  | beginAuthentication contextId solution =>
    refine ⟨_, rfl, ?_⟩
    split
    · next hret =>
      refine ⟨hafter.call, ?_, hafter.made⟩
      rintro contextId' s (hs | ⟨rfl, hs⟩)
      · exact hafter.issued contextId' s hs
      · exact ⟨t, solution, _, List.mem_append_right _ (List.mem_singleton_self _), hret, hs⟩
    · exact hafter
  | getScheduleIds contextId =>
    refine ⟨_, rfl, hafter.call, ?_, hafter.made⟩
    rintro contextId' s (hs | ⟨rfl, hs⟩)
    · exact hafter.issued contextId' s hs
    · change s ∈ (w.state.contexts contextId').getD [] at hs
      cases hids : w.state.contexts contextId' with
      | none =>
        rw [hids] at hs
        cases hs
      | some scheduleIds =>
        rw [hids] at hs
        exact (hw.contexts contextId' scheduleIds hids s hs).append _
  | makeCoAuthCallback self =>
    refine ⟨_, rfl, hafter.call, hafter.issued, ?_⟩
    rintro i contextId (hi | ⟨rfl, rfl⟩)
    · exact hafter.made i contextId hi
    · exact ⟨t, self, List.mem_append_right _ (List.mem_singleton_self _), rfl⟩
  | _ => exact ⟨v, rfl, hafter⟩

theorem confinement_sound (kit : AccessTokenKit) :
    confinement.Sound (userAuth kit) Machine.anyMove Confining ConfinedLink where
  start {w tid call s} hw _ _ hs := by
    refine ⟨hw.spawn hs, startConfined call, ?_, trivial, ?_⟩
    · exact ⟨List.mem_append_right _ (List.mem_singleton_self _), fun _ _ => False.elim,
        fun _ _ => False.elim⟩
    · exact userAuthBody_confined kit call
  spawn hlink _ _ := hlink.push _ _
  own hw hlink _ hmay _ _ := ⟨hw.perform hlink hmay, hlink.own hw⟩
  other _ hu _ _ _ _ _ := hu.push _ _

theorem confining_initial : Confining ⟨.initial, []⟩ where
  contexts _ _ h := by cases h
  made _ _ _ h := by cases h
  begun _ h := by cases h
  tasks thread hthread := by cases hthread
  events pre e post h := by
    cases List.append_ne_nil_of_right_ne_nil pre (List.cons_ne_nil e post) h.symm

theorem confining_reachable (hc : (userAuth kit).Reachable Machine.anyMove .initial c) :
    Confining c.world :=
  ((confinement_sound kit).reachable confining_initial hc).1

/-! ## 4. Verdicts and schedules -/

variable {pre post : List UserAuthEvent}

/-- **Verdicts are confined.**  The HDI judges in a context only a token that CoAuth has reported,
to the context's callback, for a schedule that the HDI has issued for this context. -/
theorem judged_confined (kit : AccessTokenKit)
    (hc : (userAuth kit).Reachable Machine.anyMove .initial c) {scheduleToken : List UInt8}
    {r : ResultCode × List UInt8} (hsplit : c.world.trace =
      pre ++ .op t (.updateAuthenticationResult contextId scheduleToken) r :: post) :
    ∃ t' i self scheduleId code,
      .spawn t' (.onFinish i self scheduleId code scheduleToken) ∈ pre ∧
        self.callbackContextId = contextId ∧ Issued pre contextId scheduleId :=
  (confining_reachable hc).events pre _ post hsplit

/-- **Schedules are confined.**  CoAuth is told to begin a schedule only with a callback of the
context that the HDI has issued the schedule for, and to cancel one only by a call that deals with
that context. -/
theorem schedules_confined (kit : AccessTokenKit)
    (hc : (userAuth kit).Reachable Machine.anyMove .initial c) :
    (∀ pre post t info authInfo i r, c.world.trace =
        pre ++ .op t (.beginSchedule info authInfo i) r :: post →
      ∃ t' self, .op t' (.makeCoAuthCallback self) i ∈ pre ∧
        Issued pre self.callbackContextId info.scheduleId) ∧
      ∀ pre post t scheduleId r, c.world.trace = pre ++ .op t (.cancel scheduleId) r :: post →
        ∃ call contextId, .spawn t call ∈ pre ∧ call.context = some contextId ∧
          Issued pre contextId scheduleId := by
  have hevents := (confining_reachable hc).events
  exact ⟨fun pre post t info authInfo i r hsplit => hevents pre _ post hsplit,
    fun pre post t scheduleId r hsplit => hevents pre _ post hsplit⟩

/-- What the run has asked the HDI to judge. -/
def judgement : UserAuthEvent → Option (UInt64 × List UInt8)
  | .op _ (.updateAuthenticationResult contextId scheduleToken) _ => some (contextId, scheduleToken)
  | _ => none

theorem judgement_eq {e : UserAuthEvent} {scheduleToken : List UInt8}
    (h : judgement e = some (contextId, scheduleToken)) :
    ∃ t r, e = .op t (.updateAuthenticationResult contextId scheduleToken) r := by
  cases e with
  | spawn => cases h
  | op t o r =>
    cases o with
    | updateAuthenticationResult =>
      cases h
      exact ⟨t, r, rfl⟩
    | _ => cases h

/-- Schedule 7 of context 1 succeeds, and the token `[1]` is judged. -/
theorem judged_confined_example : ∃ c pre t r post,
    (userAuth scenarioKit).Reachable Machine.anyMove .initial c ∧
      c.world.trace = pre ++ .op t (.updateAuthenticationResult 1 [1]) r :: post ∧
      ∃ t' i self scheduleId code, .spawn t' (.onFinish i self scheduleId code [1]) ∈ pre ∧
        self.callbackContextId = 1 ∧ Issued pre 1 scheduleId := by
  have hrun : ((userAuth scenarioKit).exec Machine.anyMove ⟨⟨.initial, []⟩, []⟩
      (scenarioAuth [7] ++ scenarioFinish 2 7 0 ++ scenarioVerdict 3 0 {})).map
      (fun c => (c.world.trace.filterMap judgement)) = some [(1, [1])] := by decide +kernel
  obtain ⟨c, hc, hjudged⟩ := Option.map_eq_some_iff.mp hrun
  have hreach : (userAuth scenarioKit).Reachable Machine.anyMove .initial c := .exec .init hc
  have hmem : ((1, [1]) : UInt64 × List UInt8) ∈ c.world.trace.filterMap judgement :=
    hjudged ▸ List.mem_singleton_self _
  obtain ⟨e, he, hjudgement⟩ := List.mem_filterMap.mp hmem
  obtain ⟨t, r, rfl⟩ := judgement_eq hjudgement
  obtain ⟨pre, post, hsplit⟩ := List.append_of_mem he
  exact ⟨c, pre, t, r, post, hreach, hsplit, judged_confined scenarioKit hreach hsplit⟩

/-- What CoAuth is told to begin (`true`) and to cancel (`false`). -/
def scheduling : UserAuthEvent → Option (Bool × UInt64)
  | .op _ (.beginSchedule info _ _) _ => some (true, info.scheduleId)
  | .op _ (.cancel scheduleId) _ => some (false, scheduleId)
  | _ => none

/-- Schedule 7 is begun, succeeds and is cancelled with its context. -/
theorem schedules_confined_example : ∃ c,
    (userAuth scenarioKit).Reachable Machine.anyMove .initial c ∧
      c.world.trace.filterMap scheduling = [(true, 7), (false, 7)] ∧
      ∀ pre post t scheduleId r, c.world.trace = pre ++ .op t (.cancel scheduleId) r :: post →
        ∃ call contextId, .spawn t call ∈ pre ∧ call.context = some contextId ∧
          Issued pre contextId scheduleId := by
  have hrun : ((userAuth scenarioKit).exec Machine.anyMove ⟨⟨.initial, []⟩, []⟩
      (scenarioAuth [7] ++ scenarioFinish 2 7 0 ++ scenarioVerdict 3 0 {} ++ scenarioRun 3 9)).map
      (fun c => (c.world.trace.filterMap scheduling)) = some [(true, 7), (false, 7)] := by
    decide +kernel
  obtain ⟨c, hc, hscheduling⟩ := Option.map_eq_some_iff.mp hrun
  have hreach : (userAuth scenarioKit).Reachable Machine.anyMove .initial c := .exec .init hc
  exact ⟨c, hreach, hscheduling, (schedules_confined scenarioKit hreach).2⟩

end UserIam.UserAuth
