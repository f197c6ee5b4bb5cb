import UserIam.UserAuth.UserAuthSystem

/-!
# What a thread does about contexts and clients

A request draws the id of a context, adds it, makes a callback for it, saves the callback and begins
the schedules; when any of this fails it tells its client and stops.  Every other thread only tells
its client, and does so once.
-/

namespace UserIam.UserAuth

open Conc Common Machine

/-! ## 1. Marks -/

inductive LifeMark where
  | drew (contextId : UInt64)
  | added (contextId : UInt64)
  | made (i : Nat) (self : UserAuthCallbackImplCoAuth)
  | saved (contextId : UInt64) (i : Nat) (ret : ResultCode)
  | begun (i : Nat)
  | told
  deriving DecidableEq

def lifeMark : UserAuthEvent → Option LifeMark
  | .op _ .generateContextId contextId => some (.drew contextId)
  | .op _ (.addContextId contextId) _ => some (.added contextId)
  | .op _ (.makeCoAuthCallback self) i => some (.made i self)
  | .op _ (.saveCoAuthCallback contextId i) ret => some (.saved contextId i ret)
  | .op _ (.beginSchedule _ _ i) _ => some (.begun i)
  | .op _ (.onResult ..) _ => some .told
  | _ => none

/-- A request that has been neither accepted nor given up. -/
inductive Preparing : List LifeMark → Prop where
  | start : Preparing []
  | drew (contextId : UInt64) : Preparing [.drew contextId]
  | added (contextId : UInt64) : Preparing [.drew contextId, .added contextId]
  | made (i : Nat) (self : UserAuthCallbackImplCoAuth) :
      Preparing [.drew self.callbackContextId, .added self.callbackContextId, .made i self]
  | notSaved (i : Nat) (self : UserAuthCallbackImplCoAuth) {ret : ResultCode}
      (hret : ret ≠ .success) :
      Preparing [.drew self.callbackContextId, .added self.callbackContextId, .made i self,
        .saved self.callbackContextId i ret]

/-- The marks of an accepted request up to its first schedule. -/
def acceptance (i : Nat) (self : UserAuthCallbackImplCoAuth) : List LifeMark :=
  [.drew self.callbackContextId, .added self.callbackContextId, .made i self,
    .saved self.callbackContextId i .success]

/-- The marks of a thread at any time.  A callback that is saved waits for no schedule: the list
that its count is taken from is never filled. -/
inductive LifeShape : List LifeMark → Prop where
  | preparing {l : List LifeMark} (hl : Preparing l) : LifeShape l
  | failed {l : List LifeMark} (hl : Preparing l) : LifeShape (l ++ [.told])
  | accepted (i : Nat) (self : UserAuthCallbackImplCoAuth) (n : Nat)
      (hcount : self.callbackCount = 0) :
      LifeShape (acceptance i self ++ List.replicate n (.begun i))

variable {l : List LifeMark} {k : LifeMark} {i : Nat} {self : UserAuthCallbackImplCoAuth}
  {contextId : UInt64} {ret : ResultCode}

theorem Preparing.told_notMem (hl : Preparing l) : .told ∉ l := by
  cases hl <;> simp

theorem Preparing.saved_notMem (hl : Preparing l) : .saved contextId i .success ∉ l := by
  cases hl with
  | notSaved i self hret => simpa using fun _ _ => hret.symm
  | _ => simp

namespace LifeShape

/-- A thread tells a client at most once. -/
theorem count_told_le_one (hl : LifeShape l) : l.count .told ≤ 1 := by
  cases hl with
  | preparing hl => simp [List.count_eq_zero.mpr hl.told_notMem]
  | failed hl => simp [List.count_append, List.count_eq_zero.mpr hl.told_notMem]
  | accepted i self n => simp [acceptance, List.count_replicate]

/-- Marks that contain a saved callback are those of an accepted request. -/
theorem eq_of_saved (hl : LifeShape l) (hsaved : .saved contextId i .success ∈ l) :
    ∃ (self : UserAuthCallbackImplCoAuth) (n : Nat), self.callbackCount = 0 ∧
      contextId = self.callbackContextId ∧
        l = acceptance i self ++ List.replicate n (LifeMark.begun i) := by
  cases hl with
  | preparing hl => exact absurd hsaved hl.saved_notMem
  | failed hl =>
    rcases List.mem_append.mp hsaved with hsaved | hsaved
    · exact absurd hsaved hl.saved_notMem
    · simp at hsaved
  | accepted j self n hcount =>
    obtain ⟨rfl, rfl⟩ : contextId = self.callbackContextId ∧ i = j := by
      simpa [acceptance] using hsaved
    exact ⟨self, n, hcount, rfl, rfl⟩

/-- An accepted request does not tell its client. -/
theorem told_notMem (hl : LifeShape l) (hsaved : .saved contextId i .success ∈ l) :
    .told ∉ l := by
  obtain ⟨self, n, -, -, rfl⟩ := hl.eq_of_saved hsaved
  simp [acceptance]

/-- An accepted request only begins schedules. -/
theorem eq_begun (hl : LifeShape (l ++ [k])) (hsaved : .saved contextId i .success ∈ l) :
    k = .begun i := by
  obtain ⟨self, n, -, -, heq⟩ := hl.eq_of_saved (List.mem_append_left _ hsaved)
  cases n with
  | zero =>
    have hacceptance : acceptance i self = [LifeMark.drew self.callbackContextId,
        .added self.callbackContextId, .made i self] ++
          [LifeMark.saved self.callbackContextId i .success] := rfl
    rw [List.replicate_zero, List.append_nil, hacceptance] at heq
    obtain ⟨rfl, -⟩ := List.append_inj' heq rfl
    simp at hsaved
  | succ n =>
    rw [List.replicate_succ', ← List.append_assoc] at heq
    exact List.singleton_inj.mp (List.append_inj' heq rfl).2

/-- What is begun has been made and saved. -/
theorem saved_of_begun (hl : LifeShape l) (hbegun : .begun i ∈ l) :
    ∃ self : UserAuthCallbackImplCoAuth, self.callbackCount = 0 ∧ .made i self ∈ l ∧
      .saved self.callbackContextId i .success ∈ l := by
  cases hl with
  | preparing hl => cases hl <;> simp at hbegun
  | failed hl => cases hl <;> simp at hbegun
  | accepted j self n hcount =>
    obtain rfl : i = j := by simp_all [acceptance]
    exact ⟨self, hcount, by simp [acceptance], by simp [acceptance]⟩

/-- A mark of a context, in a thread that has drawn it. -/
theorem drew_mem (hl : LifeShape l)
    (hk : .added contextId ∈ l ∨ (∃ i self, .made i self ∈ l ∧ contextId = self.callbackContextId) ∨
      ∃ i ret, .saved contextId i ret ∈ l) : .drew contextId ∈ l := by
  cases hl with
  | preparing hl => cases hl <;> simp_all
  | failed hl => cases hl <;> simp_all
  | accepted i self n => simp_all [acceptance]

end LifeShape

/-! ## 2. Programs -/

abbrev AlongLife (t : Nat) {α : Type} (p : UserAuthProg α) (Q : α → List LifeMark → Prop)
    (l : List LifeMark) : Prop :=
  Along lifeMark t LifeShape p Q l

variable {t : Nat}

abbrev NoLife (t : Nat) (o : UserAuthOp) : Prop := ∀ r, lifeMark (.op t o r) = none

theorem noLife_of_quiet {o : UserAuthOp} (ho : o.quiet = true) : NoLife t o := by
  intro r
  cases o <;> first | rfl | cases ho

theorem noLife_of_neutral {o : UserAuthOp} (ho : o.neutral = true) : NoLife t o :=
  noLife_of_quiet (UserAuthOp.quiet_of_neutral ho)

/-- A program without marks keeps the shape. -/
theorem along_noLife {α : Type} {p : UserAuthProg α} (hl : LifeShape l) (hp : p.All (NoLife t)) :
    AlongLife t p (fun _ => LifeShape) l := by
  refine (Along.of_all hl hp).mono fun _ l' hl' => ?_
  subst hl'
  exact hl

theorem along_tell {α : Type} {callback : ClientCallback} {result : ResultCode}
    {extraInfo : AuthResult} {p : UserAuthProg α} (hl : Preparing l) (hp : p.All (NoLife t)) :
    AlongLife t (.call (.onResult callback result extraInfo) fun _ => p)
      (fun _ => LifeShape) l := by
  intro _
  exact ⟨.failed hl, along_noLife (.failed hl) hp⟩

theorem along_getControllerData (callback : ClientCallback) (authTrustLevel : AuthTrustLevel) :
    AlongLife t (getControllerData callback authTrustLevel)
      (fun
        | none, l => LifeShape l
        | some contextId, l => l = [.drew contextId, .added contextId]) [] := by
  unfold getControllerData
  split
  · exact fun _ => ⟨.failed .start, .failed .start⟩
  · intro contextId
    refine ⟨.preparing (.drew contextId), fun ret => ⟨.preparing (.added contextId), ?_⟩⟩
    show AlongLife t (if ret ≠ .success then _ else _) _ _
    split
    · exact fun _ => ⟨.failed (.added contextId), .failed (.added contextId)⟩
    · rfl

theorem along_beginSchedules (authInfo : CoAuth.AuthInfo) (hcount : self.callbackCount = 0)
    (scheduleInfos : List CoAuth.ScheduleInfo) {n : Nat}
    (hl : l = acceptance i self ++ List.replicate n (LifeMark.begun i)) :
    AlongLife t (beginSchedules authInfo i scheduleInfos) (fun _ => LifeShape) l := by
  induction scheduleInfos generalizing l n with
  | nil =>
    rw [hl]
    exact .accepted i self n hcount
  | cons scheduleInfo scheduleInfos ih =>
    intro _
    have hl' : l ++ [LifeMark.begun i] =
        acceptance i self ++ List.replicate (n + 1) (LifeMark.begun i) := by
      rw [hl, List.replicate_succ', List.append_assoc]
    refine ⟨?_, ih hl'⟩
    show LifeShape (l ++ [LifeMark.begun i])
    rw [hl']
    exact .accepted i self (n + 1) hcount

/-- `CoAuth` for a context that has been drawn and added accepts the request or leaves it as it
is. -/
theorem along_coAuth (scheduleInfos : List CoAuth.ScheduleInfo) {coAuthInfo : CoAuthInfo}
    (callback : ClientCallback) (hids : coAuthInfo.sessionIds = [])
    (hl : l = [.drew coAuthInfo.contextID, .added coAuthInfo.contextID]) :
    AlongLife t (coAuth scheduleInfos coAuthInfo callback)
      (fun ret l => LifeShape l ∧ (ret ≠ .success → Preparing l)) l := by
  let self := UserAuthCallbackImplCoAuth.new callback coAuthInfo
  -- The ids of the schedules are not in the request when the callback is made.
  have hcount : self.callbackCount = 0 := by
    show UInt32.ofNat coAuthInfo.sessionIds.length = 0
    rw [hids]
    rfl
  intro i
  have hmade : Preparing (l ++ [LifeMark.made i self]) := by
    rw [hl]
    exact .made i self
  refine ⟨.preparing hmade, fun ret => ?_⟩
  by_cases hret : ret = .success
  · subst hret
    have haccepted : l ++ [LifeMark.made i self] ++
        [LifeMark.saved coAuthInfo.contextID i .success] =
        acceptance i self ++ List.replicate 0 (LifeMark.begun i) := by
      rw [hl]
      rfl
    refine ⟨?_, (along_beginSchedules _ hcount scheduleInfos haccepted).bind fun _ l hl => ?_⟩
    · show LifeShape (l ++ [LifeMark.made i self] ++
        [LifeMark.saved coAuthInfo.contextID i .success])
      rw [haccepted]
      exact .accepted i self 0 hcount
    · exact ⟨hl, fun hne => absurd rfl hne⟩
  · have hsaved : Preparing (l ++ [LifeMark.made i self] ++
        [LifeMark.saved coAuthInfo.contextID i ret]) := by
      rw [hl]
      exact .notSaved i self hret
    refine ⟨.preparing hsaved, ?_⟩
    show AlongLife t (if ret ≠ .success then .ret ret else _) _ _
    rw [if_pos hret]
    exact ⟨.preparing hsaved, fun _ => hsaved⟩

theorem along_generateSolution {param : AuthSolution} {α : Type}
    {f : Except ResultCode (List CoAuth.ScheduleInfo) → UserAuthProg α}
    {Q : α → List LifeMark → Prop} (hl : Preparing l) (hf : ∀ r, AlongLife t (f r) Q l) :
    AlongLife t (generateSolution param >>= f) Q l := by
  refine (Along.of_all (.preparing hl)
    ((generateSolution_quiet _).mono fun _ => noLife_of_quiet)).bind fun r l' hl' => ?_
  subst hl'
  exact hf r

theorem along_auth (kit : AccessTokenKit) (caller : Caller) (challenge : UInt64)
    (authType : AuthType) (authTrustLevel : AuthTrustLevel) (callback : Option ClientCallback) :
    AlongLife t (auth kit caller challenge authType authTrustLevel callback)
      (fun _ => LifeShape) [] := by
  cases callback with
  | none => exact .preparing .start
  | some callback =>
    refine (along_getControllerData callback authTrustLevel).bind fun contextId l hl => ?_
    cases contextId with
    | none => exact hl
    | some contextId =>
      have hadded : Preparing l := by
        rw [hl]
        exact .added contextId
      dsimp only
      split
      · exact along_tell hadded trivial
      · cases getCallingUserId kit caller with
        | error ret => exact along_tell hadded trivial
        | ok userId =>
          refine along_generateSolution hadded fun solution => ?_
          cases solution with
          | error result => exact along_tell hadded trivial
          | ok scheduleInfos =>
            refine (along_coAuth scheduleInfos callback rfl hl).bind fun result l hl => ?_
            show AlongLife t (if result ≠ .success then _ else _) _ _
            split
            · next hne => exact along_tell (hl.2 hne) trivial
            · exact hl.1

theorem along_authUser (kit : AccessTokenKit) (caller : Caller) (userId : Int32)
    (challenge : UInt64) (authType : AuthType) (authTrustLevel : AuthTrustLevel)
    (callback : Option ClientCallback) :
    AlongLife t (authUser kit caller userId challenge authType authTrustLevel callback)
      (fun _ => LifeShape) [] := by
  cases callback with
  | none => exact .preparing .start
  | some callback =>
    unfold authUser
    dsimp only
    split
    · exact along_tell .start trivial
    · refine (along_getControllerData callback authTrustLevel).bind fun contextId l hl => ?_
      cases contextId with
      | none => exact hl
      | some contextId =>
        have hadded : Preparing l := by
          rw [hl]
          exact .added contextId
        refine along_generateSolution hadded fun solution => ?_
        cases solution with
        | error result =>
          exact .skip (.preparing hadded) (fun _ => rfl) fun _ => along_tell hadded trivial
        | ok scheduleInfos =>
          refine (along_coAuth scheduleInfos callback rfl hl).bind fun result l hl => ?_
          show AlongLife t (if result ≠ .success then _ else _) _ _
          split
          · next hne => exact .skip hl.1 (fun _ => rfl) fun _ => along_tell (hl.2 hne) trivial
          · exact hl.1

/-! ### Handles -/

theorem dealFinishData_noLife (i : Nat) (self : UserAuthCallbackImplCoAuth) :
    (dealFinishData i self).All (NoLife t) :=
  dealFinishData_all (fun _ => noLife_of_neutral) (fun _ => rfl) (fun _ => rfl) fun _ => rfl

theorem verdict_noLife (self : UserAuthCallbackImplCoAuth) (resultCode : UInt32)
    (scheduleToken : List UInt8) : (verdict self resultCode scheduleToken).All (NoLife t) :=
  verdict_all (fun _ => rfl) (fun _ => rfl) resultCode

/-- A handle tells its client at most once. -/
theorem along_handleLocked_life (i : Nat) (self : UserAuthCallbackImplCoAuth)
    (resultCode : UInt32) (scheduleToken : List UInt8) :
    AlongLife t (onFinishHandleLocked i self resultCode scheduleToken)
      (fun _ => LifeShape) [] := by
  have hstart : LifeShape [] := .preparing .start
  refine .skip hstart (fun _ => rfl) fun callbackNowCount => .skip hstart (fun _ => rfl)
    fun done => ?_
  cases done with
  | true => exact hstart
  | false =>
    refine (Along.of_all hstart (verdict_noLife self resultCode scheduleToken)).bind
      fun v l hl => ?_
    subst hl
    show AlongLife t (if v.1 = .eRetUndone then _ else _) _ _
    split
    · split
      · refine .skip hstart (fun _ => rfl) fun _ => .skip hstart (fun _ => rfl) fun _ => ?_
        exact along_tell .start ⟨fun _ => rfl, fun _ => trivial⟩
      · exact hstart
    · obtain ⟨q, hq, heq⟩ := dealVerdict_eq i self resultCode v.1 v.2
      show AlongLife t (dealVerdict i self resultCode v.1 v.2) _ _
      rw [heq]
      refine (Along.of_all hstart (hq.mono fun _ => noLife_of_neutral)).bind fun r l hl => ?_
      subst hl
      exact along_tell .start (dealFinishData_noLife i self)

theorem along_life (kit : AccessTokenKit) (t : Nat) (call : UserAuthCall) :
    AlongLife t (userAuthBody kit call) (fun _ => LifeShape) [] := by
  have hstart : LifeShape [] := .preparing .start
  cases call with
  | auth => exact (along_auth _ _ _ _ _ _).bind fun _ _ hl => hl
  | authUser => exact (along_authUser _ _ _ _ _ _ _).bind fun _ _ hl => hl
  | cancelAuth =>
    exact along_noLife hstart ((cancelAuth_quiet _ _ _).mono fun _ => noLife_of_quiet).discard
  -- a report that cannot be posted is told to the client as a failure
  | onFinish =>
    refine .skip hstart (fun _ => rfl) fun ret => ?_
    cases ret with
    | true => exact hstart
    | false => exact along_tell .start ⟨fun _ => rfl, fun _ => trivial⟩
  | onAcquireInfo =>
    refine .skip hstart (fun _ => rfl) fun ret => ?_
    cases ret with
    | true => exact hstart
    | false => exact .skip hstart (fun _ => rfl) fun _ => hstart
  | task p task =>
    cases task with
    | ensureTransaction => exact .skip hstart (fun _ => rfl) fun _ => hstart
    | run task =>
      cases task with
      | onFinishHandle i self resultCode scheduleToken =>
        show AlongLife t (underLock i _ >>= fun _ => _) _ _
        rw [underLock_bind]
        refine .skip hstart (fun _ => rfl) fun _ => ?_
        refine (along_handleLocked_life i self resultCode scheduleToken).bind fun _ l hl => ?_
        exact .skip hl (fun _ => rfl) fun _ => .skip hl (fun _ => rfl) fun _ => hl
      | onAcquireInfoHandle i self acquire =>
        refine .skip hstart (fun _ => rfl) fun _ => .skip hstart (fun _ => rfl) fun done => ?_
        have hrest : AlongLife t (atomic (.unlock i) >>= fun _ => atomic (.endTask p))
            (fun _ => LifeShape) [] :=
          .skip hstart (fun _ => rfl) fun _ => .skip hstart (fun _ => rfl) fun _ => hstart
        cases done with
        | true => exact hrest
        | false => exact .skip hstart (fun _ => rfl) fun _ => hrest

/-- **What a thread does about contexts and clients**, at any time of any run. -/
theorem lifeShape (kit : AccessTokenKit) {ok : UserAuthWorld → UserAuthMove → Prop}
    {c : UserAuthConfig} (hc : (userAuth kit).Reachable ok .initial c) (t : Nat) :
    LifeShape (c.world.marks lifeMark t) :=
  (reachable_along (Q := LifeShape) (.preparing .start)
    (fun t call => ⟨.preparing .start, along_life kit t call⟩) hc t).1

end UserIam.UserAuth
