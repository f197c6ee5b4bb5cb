import UserIam.UserIDM.PropertyRequest

/-!
# What a deletion does

The requests that delete a user or a credential: how often the client hears a result, which
executors are asked, and what becomes of the enrolment that is running.  Each deleted credential of
a type that is handled is a property request of its own, with the client of the whole request behind
it.
-/

namespace UserIam.UserIDM

open Conc Machine

/-! ## 1. The loop over the credentials -/

/-- The body of the loop of `DelExecutorPinInfoCtrl`. -/
def delExecutorOne (innerCallback : Option ClientCallback) (info : CredentialInfo) :
    UserIDMProg Unit :=
  if info.authType = .pin then
    atomic (.setExecutorProp (deletionCondition info) ⟨.pin, info.credentialId, innerCallback⟩)
  else if info.authType = .face then
    atomic (.setExecutorProp (deletionCondition info) ⟨.face, info.credentialId, innerCallback⟩)
  else return

theorem delExecutorInfo_cons (innerCallback : Option ClientCallback) (info : CredentialInfo)
    (infos : List CredentialInfo) :
    delExecutorInfo innerCallback (info :: infos) =
      delExecutorOne innerCallback info >>= fun _ => delExecutorInfo innerCallback infos := by
  rw [delExecutorInfo, delExecutorOne]
  split
  · rfl
  · split
    · rfl
    · rfl

/-- `for (uint32_t i = 0; i < info.size(); i++)`: the index has 32 bits, the size has more. -/
def delExecutorLoop (innerCallback : Option ClientCallback) (info : List CredentialInfo) :
    Nat → UInt32 → Option (UserIDMProg Unit)
  | 0, _ => none
  | fuel + 1, i =>
    if i.toNat < info.length then
      info[i.toNat]?.bind fun one =>
        (delExecutorLoop innerCallback info fuel (i + 1)).map fun rest =>
          delExecutorOne innerCallback one >>= fun _ => rest
    else some (.ret ())

/-- The loop goes through a list that is short enough for its index. -/
theorem delExecutorLoop_eq (innerCallback : Option ClientCallback) {info : List CredentialInfo}
    (hlength : info.length < 2 ^ 32) {fuel : Nat} {i : UInt32} (hi : i.toNat ≤ info.length)
    (hfuel : info.length < i.toNat + fuel) :
    delExecutorLoop innerCallback info fuel i =
      some (delExecutorInfo innerCallback (info.drop i.toNat)) := by
  induction fuel generalizing i with
  | zero => omega
  | succ fuel ih =>
    rw [delExecutorLoop]
    by_cases hmore : i.toNat < info.length
    · have hnext : (i + 1).toNat = i.toNat + 1 := by
        rw [UInt32.toNat_add, UInt32.toNat_one]
        omega
      rw [if_pos hmore, List.getElem?_eq_getElem hmore, Option.bind_some,
        ih (by omega) (by omega), hnext, List.drop_eq_getElem_cons hmore, delExecutorInfo_cons]
      rfl
    · rw [if_neg hmore, List.drop_eq_nil_of_le (by omega)]
      rfl

/-- It never ends for a longer one. -/
theorem delExecutorLoop_none (innerCallback : Option ClientCallback) {info : List CredentialInfo}
    (hlength : 2 ^ 32 ≤ info.length) (fuel : Nat) (i : UInt32) :
    delExecutorLoop innerCallback info fuel i = none := by
  induction fuel generalizing i with
  | zero => rfl
  | succ fuel ih =>
    have hmore : i.toNat < info.length := by
      have hlt := i.toNat_lt
      omega
    rw [delExecutorLoop, if_pos hmore, List.getElem?_eq_getElem hmore, Option.bind_some, ih]
    rfl

/-- The loop of the source comes to its end, and is then the recursion. -/
def LoopEnds (innerCallback : Option ClientCallback) (info : List CredentialInfo) : Prop :=
  ∃ fuel, delExecutorLoop innerCallback info fuel 0 = some (delExecutorInfo innerCallback info)

theorem loopEnds_iff (innerCallback : Option ClientCallback) (info : List CredentialInfo) :
    LoopEnds innerCallback info ↔ info.length < 2 ^ 32 := by
  constructor
  · rintro ⟨fuel, hends⟩
    by_contra hlength
    rw [delExecutorLoop_none innerCallback (by omega)] at hends
    cases hends
  · intro hlength
    exact ⟨info.length + 1,
      delExecutorLoop_eq innerCallback hlength (Nat.zero_le _) (by rw [UInt32.toNat_zero]; omega)⟩

/-- The types for which the template of a deleted user's credential is deleted. -/
def handled (info : CredentialInfo) : Bool := info.authType = .pin || info.authType = .face

variable {platform : Platform} {t : Nat} {s s' : UserIDMState} {es es' : List SyncEvent}
  {callback : ClientCallback} {rs rs' : List ResultCode}

/-- The client hears these results, among them the answers of all executors that are asked, each to
delete one of the credentials; the HDI deletes nothing. -/
structure Answered (callback : ClientCallback) (infos : List CredentialInfo)
    (rs : List ResultCode) (es : List SyncEvent) : Prop where
  hears : Hears callback rs es
  answers : ((asked es).map Prod.snd).Sublist rs
  names : ∀ q ∈ asked es, ∃ info ∈ infos, Names q.1 info
  deletes : deletions es = []

theorem Answered.append {infos infos' : List CredentialInfo} (h : Answered callback infos rs es)
    (h' : Answered callback infos' rs' es') :
    Answered callback (infos ++ infos') (rs ++ rs') (es ++ es') where
  hears := h.hears.append h'.hears
  answers := by
    rw [asked_append, List.map_append]
    exact h.answers.append h'.answers
  names := by
    intro q hq
    rw [asked_append] at hq
    rcases List.mem_append.mp hq with hq | hq
    · obtain ⟨info, hinfo, hnames⟩ := h.names q hq
      exact ⟨info, List.mem_append_left _ hinfo, hnames⟩
    · obtain ⟨info, hinfo, hnames⟩ := h'.names q hq
      exact ⟨info, List.mem_append_right _ hinfo, hnames⟩
  deletes := by
    rw [deletions_append, h.deletes, h'.deletes]
    rfl

theorem answered_nil {infos : List CredentialInfo} : Answered callback infos [] [] :=
  ⟨silent_nil.hears, List.Sublist.refl _, fun _ hq => (by cases hq), rfl⟩

theorem Requested.isAnswered {info : CredentialInfo} {result : ResultCode}
    (h : Requested t info callback result es) : Answered callback [info] [result] es :=
  ⟨h.hears, h.answers, fun _ hq => ⟨info, List.mem_singleton_self _, h.names hq⟩, h.deletions_eq⟩

theorem alone_delExecutorOne {info : CredentialInfo}
    (h : (sync platform).Alone t (synchronous (delExecutorOne (some callback) info)) s () es s') :
    if handled info then
      s'.data = s.data.deleteSessionId ∧ ∃ result, Requested t info callback result es
    else s'.data = s.data ∧ es = [] := by
  have hrequest (type : AuthType) (htype : type = .pin ∨ type = .face)
      (h : (sync platform).Alone t (synchronous (atomic (.setExecutorProp (deletionCondition info)
        ⟨type, info.credentialId, some callback⟩))) s () es s') :
      s'.data = s.data.deleteSessionId ∧ ∃ result, Requested t info callback result es := by
    rw [synchronous, Prog.interp_op] at h
    exact alone_setExecutorProp (deletionCondition_relayable info)
      (deletionCondition_names info) rfl htype h
  unfold delExecutorOne at h
  split at h
  · next hpin =>
    rw [if_pos (by simp [handled, hpin])]
    exact hrequest .pin (.inl rfl) h
  · next hpin =>
    split at h
    · next hface =>
      rw [if_pos (by simp [handled, hface])]
      exact hrequest .face (.inr rfl) h
    · next hface =>
      rw [if_neg (by simp [handled, hpin, hface])]
      obtain ⟨-, rfl, rfl⟩ := alone_ret.mp h
      exact ⟨rfl, rfl⟩

/-- One result for each credential that is handled. -/
theorem alone_delExecutorInfo {infos : List CredentialInfo}
    (h : (sync platform).Alone t (synchronous (delExecutorInfo (some callback) infos)) s () es s') :
    (∃ rs, Answered callback infos rs es ∧ rs.length = infos.countP handled) ∧
      s'.data = if infos.any handled then s.data.deleteSessionId else s.data := by
  -- on the credentials that are left; the slot stays empty once a request has emptied it
  induction infos generalizing s es with
  | nil =>
    obtain ⟨-, rfl, rfl⟩ := alone_ret.mp h
    exact ⟨⟨[], answered_nil, rfl⟩, rfl⟩
  | cons info infos ih =>
    rw [delExecutorInfo_cons, synchronous, Prog.interp_bind] at h
    obtain ⟨_, s₁, es₁, es₂, hone, hrest, rfl⟩ := alone_bind.mp h
    have hfirst := alone_delExecutorOne hone
    obtain ⟨⟨rs, hanswered, hlength⟩, hdata⟩ := ih hrest
    cases hhandled : handled info with
    | true =>
      rw [hhandled, if_pos rfl] at hfirst
      obtain ⟨hdata₁, result, hrequested⟩ := hfirst
      refine ⟨⟨[result] ++ rs, hrequested.isAnswered.append hanswered, ?_⟩, ?_⟩
      · rw [List.length_append, hlength, List.countP_cons_of_pos hhandled, List.length_singleton]
        omega
      · rw [hdata, hdata₁, List.any_cons, hhandled, Bool.true_or, if_pos rfl]
        split
        · rfl
        · rfl
    | false =>
      rw [hhandled, if_neg (by decide)] at hfirst
      obtain ⟨hdata₁, rfl⟩ := hfirst
      have hempty : Answered callback [info] [] [] := answered_nil
      refine ⟨⟨rs, hempty.append hanswered, ?_⟩, ?_⟩
      · rw [hlength, List.countP_cons_of_neg (by simp [hhandled])]
      · rw [hdata, hdata₁, List.any_cons, hhandled, Bool.false_or]

/-! ## 2. The calls of the HDI -/

/-- A call of the HDI that deletes, behind the check that the interface is there. -/
def hdiDeletion {β : Type} (o : UserIDMOp) (ret : UserIDMRes o → ResultCode)
    (value : UserIDMRes o → β) : UserIDMProg (Except ResultCode β) := do
  if !(← atomic .getHdiInterface) then return .error .generalError
  let r ← atomic o
  if ret r ≠ .success then return .error (ret r)
  return .ok (value r)

/-- The credentials that are gone, or a code that is not `SUCCESS`. -/
inductive HdiAnswer {β : Type} (infos : β → List CredentialInfo) :
    Except ResultCode β → List SyncEvent → Prop where
  | ok {value : β} {es : List SyncEvent} (hdeletions : deletions es = [infos value]) :
      HdiAnswer infos (.ok value) es
  | error {ret : ResultCode} {es : List SyncEvent} (hret : ret ≠ .success)
      (hdeletions : deletions es = []) : HdiAnswer infos (.error ret) es

theorem alone_hdiDeletion {β : Type} {o : UserIDMOp} {ret : UserIDMRes o → ResultCode}
    {value : UserIDMRes o → β} {infos : β → List CredentialInfo} {r : Except ResultCode β}
    (hunnoticed : o.unnoticed = true)
    (hdeleted : ∀ x, deletedBy (.op t (.idm o) x) =
      if ret x = .success then some (infos (value x)) else none)
    (h : (sync platform).Alone t (synchronous (hdiDeletion o ret value)) s r es s') :
    s' = s ∧ Silent es ∧ HdiAnswer infos r es := by
  have hall : (hdiDeletion o ret value).All (·.unnoticed = true) := by
    refine ⟨rfl, fun found => ?_⟩
    dsimp only [Prog.bind]
    split
    · trivial
    · refine ⟨hunnoticed, fun x => ?_⟩
      dsimp only [Prog.bind]
      split <;> trivial
  obtain ⟨rfl, hbefore⟩ := alone_unnoticed hall h
  refine ⟨rfl, hbefore.silent, ?_⟩
  obtain ⟨found, es₁, hrest, rfl⟩ := h.call_state s' fun _ => rfl
  cases found with
  -- without the HDI the code is `FAIL`
  | false =>
    obtain ⟨rfl, rfl, -⟩ := alone_ret.mp hrest
    exact .error (by decide) rfl
  | true =>
    dsimp only [Prog.bind] at hrest
    rw [if_neg (by decide), Prog.interp_bind, Prog.interp_op,
      withCoAuth_of_unnoticed hunnoticed] at hrest
    obtain ⟨x, es₂, hret, rfl⟩ := hrest.call_state s' (state_of_unnoticed hunnoticed)
    dsimp only [Prog.bind] at hret
    have hdeleted := hdeleted x
    by_cases hsuccess : ret x = .success
    · rw [if_neg (not_not.mpr hsuccess)] at hret
      obtain ⟨rfl, rfl, -⟩ := alone_ret.mp hret
      rw [if_pos hsuccess] at hdeleted
      exact .ok (List.filterMap_cons_some hdeleted)
    · rw [if_pos hsuccess] at hret
      obtain ⟨rfl, rfl, -⟩ := alone_ret.mp hret
      rw [if_neg hsuccess] at hdeleted
      exact .error hsuccess (List.filterMap_cons_none hdeleted)

theorem deleteUser_eq (userId : Int32) (authToken : List UInt8) :
    deleteUser userId authToken = hdiDeletion (.deleteUser userId authToken) Prod.fst
      (fun r => r.2.map copyCredentialFromHdi) := rfl

theorem deleteUserEnforce_eq (userId : Int32) :
    deleteUserEnforce userId = hdiDeletion (.enforceDeleteUser userId) Prod.fst
      (fun r => r.2.map copyCredentialFromHdi) := rfl

theorem deleteCredential_eq (userId : Int32) (credentialId : UInt64) (authToken : List UInt8) :
    deleteCredential userId credentialId authToken =
      hdiDeletion (.deleteCredential userId credentialId authToken) Prod.fst
        (fun r => copyCredentialFromHdi r.2) := rfl

theorem alone_deleteUser {userId : Int32} {authToken : List UInt8}
    {r : Except ResultCode (List CredentialInfo)}
    (h : (sync platform).Alone t (synchronous (deleteUser userId authToken)) s r es s') :
    s' = s ∧ Silent es ∧ HdiAnswer id r es := by
  rw [deleteUser_eq] at h
  exact alone_hdiDeletion rfl (fun _ => rfl) h

theorem alone_deleteUserEnforce {userId : Int32} {r : Except ResultCode (List CredentialInfo)}
    (h : (sync platform).Alone t (synchronous (deleteUserEnforce userId)) s r es s') :
    s' = s ∧ Silent es ∧ HdiAnswer id r es := by
  rw [deleteUserEnforce_eq] at h
  exact alone_hdiDeletion rfl (fun _ => rfl) h

theorem alone_deleteCredential {userId : Int32} {credentialId : UInt64} {authToken : List UInt8}
    {r : Except ResultCode CredentialInfo}
    (h : (sync platform).Alone t
      (synchronous (deleteCredential userId credentialId authToken)) s r es s') :
    s' = s ∧ Silent es ∧ HdiAnswer (fun info => [info]) r es := by
  rw [deleteCredential_eq] at h
  exact alone_hdiDeletion rfl (fun _ => rfl) h

/-! ## 3. Deleting a user -/

/-- What a request to delete a user shows, and what it leaves in the session: it fails before a
credential is gone, or each of the credentials that are handled gives the client a result. -/
inductive DeletesUser (callback : ClientCallback) (data data' : UserIDMModule)
    (es : List SyncEvent) : Prop where
  | fails {ret : ResultCode} (hret : ret ≠ .success) (hhears : Hears callback [ret] es)
      (hasked : asked es = []) (hdeleted : deleted es = []) (hdata : data' = data)
  | deletes {infos : List CredentialInfo} {rs : List ResultCode} (hinfos : infos ≠ [])
      (hdeletions : deletions es = [infos]) (hhears : Hears callback rs es)
      (hanswers : ((asked es).map Prod.snd).Sublist rs)
      (hnames : ∀ q ∈ asked es, ∃ info ∈ infos, Names q.1 info)
      (hlength : rs.length = infos.countP handled)
      (hdata : data' = if infos.any handled then data.deleteSessionId else data)

/-- A result that is reported before anything is deleted. -/
theorem deletesUser_of_onResult {ret : ResultCode} (hret : ret ≠ .success)
    (h : (sync platform).Alone t (synchronous (atomic (.onResult callback ret 0))) s () es s') :
    DeletesUser callback s.data s'.data es := by
  obtain ⟨-, rfl, rfl⟩ := alone_report (b := ()) h
  exact .fails hret hears_onResult rfl rfl rfl

theorem deleted_eq {infos : List CredentialInfo} (h : deletions es = [infos]) :
    deleted es = infos := by
  rw [deleted, h]
  exact List.append_nil infos

/-- What the requests do with the answer of the HDI. -/
def answerDeletion (callback : ClientCallback) :
    Except ResultCode (List CredentialInfo) → UserIDMProg ResultCode
  | .error ret => do
    atomic (.onResult callback ret 0)
    return ret
  | .ok credInfos => delExecutorPinInfoCtrl callback credInfos

theorem serviceEnforceDelUser_eq (userId : Int32) (callback : ClientCallback) :
    serviceEnforceDelUser userId (some callback) =
      deleteUserEnforce userId >>= answerDeletion callback := by
  apply congrArg (deleteUserEnforce userId >>= ·)
  funext r
  cases r <;> rfl

theorem delUserOf_eq (userId : Int32) (authToken : List UInt8) (callback : ClientCallback) :
    delUserOf userId authToken callback =
      Prog.discard (deleteUser userId authToken >>= answerDeletion callback) := by
  rw [Prog.discard, Prog.bind_assoc]
  apply congrArg (deleteUser userId authToken >>= ·)
  funext r
  cases r <;> rfl

theorem alone_answerDeletion {r : Except ResultCode (List CredentialInfo)} {a : ResultCode}
    {before : List SyncEvent} (hsilent : Silent before) (hanswer : HdiAnswer id r before)
    (h : (sync platform).Alone t (synchronous (answerDeletion callback r)) s a es s') :
    DeletesUser callback s.data s'.data (before ++ es) := by
  cases hanswer with
  | @error ret _ hret hdeletions =>
    obtain ⟨-, rfl, rfl⟩ := alone_report h
    refine .fails hret (hsilent.hears.append hears_onResult) ?_ ?_ rfl
    · rw [asked_append, hsilent.asked]
      rfl
    · rw [deleted, deletions_append, hdeletions]
      rfl
  | @ok infos _ hdeletions =>
    unfold answerDeletion delExecutorPinInfoCtrl at h
    cases infos with
    -- an empty list is reported as `FAIL`, though the HDI has succeeded
    | nil =>
      obtain ⟨-, rfl, rfl⟩ := alone_report h
      have hfail : ResultCode.fail ≠ .success := by decide
      refine .fails hfail (hsilent.hears.append hears_onResult) ?_ ?_ rfl
      · rw [asked_append, hsilent.asked]
        rfl
      · rw [deleted, deletions_append, hdeletions]
        rfl
    | cons info infos =>
      dsimp only at h
      rw [if_neg (by simp), synchronous, Prog.interp_bind] at h
      obtain ⟨_, s₁, es₁, es₂, hloop, hret, rfl⟩ := alone_bind.mp h
      obtain ⟨-, rfl, rfl⟩ := alone_ret.mp hret
      obtain ⟨⟨rs, hanswered, hlength⟩, hdata⟩ := alone_delExecutorInfo hloop
      rw [List.append_nil]
      have hasked : asked (before ++ es₁) = asked es₁ := by
        rw [asked_append, hsilent.asked, List.nil_append]
      refine .deletes (List.cons_ne_nil info infos) ?_ (hsilent.hears.append hanswered.hears) ?_ ?_
        hlength hdata
      · rw [deletions_append, hdeletions, hanswered.deletes]
        rfl
      · rw [hasked]
        exact hanswered.answers
      · rw [hasked]
        exact hanswered.names

theorem eq_typeNotSupport {caller : Caller} {ret : ResultCode}
    (h : getCallingUserId platform caller = .error ret) : ret = .typeNotSupport := by
  unfold getCallingUserId AccessTokenKit.userOf at h
  split at h
  · exact (Except.error.inj h).symm
  · dsimp only at h
    split at h
    · exact (Except.error.inj h).symm
    · cases h

/-- The requests that delete a user and have a callback. -/
inductive UserDeletion (platform : Platform) (caller : Caller) (callback : ClientCallback) :
    {α : Type} → UserIDMProg α → Prop where
  | delUser (authToken : List UInt8) :
      UserDeletion platform caller callback
        (serviceDelUser platform caller authToken (some callback))
  | delUserById (userId : Int32) (authToken : List UInt8) :
      UserDeletion platform caller callback
        (serviceDelUserById platform caller userId authToken (some callback))
  | enforceDelUser (userId : Int32) :
      UserDeletion platform caller callback (serviceEnforceDelUser userId (some callback))

theorem deletesUser_of_delUserOf {userId : Int32} {authToken : List UInt8}
    (h : (sync platform).Alone t (synchronous (delUserOf userId authToken callback)) s () es s') :
    DeletesUser callback s.data s'.data es := by
  rw [delUserOf_eq, Prog.discard, synchronous, Prog.interp_bind, Prog.interp_bind] at h
  obtain ⟨a, s₁, es₁, es₂, hrun, hret, rfl⟩ := alone_bind.mp h
  obtain ⟨-, rfl, rfl⟩ := alone_ret.mp hret
  obtain ⟨r, s₂, es₃, es₄, hdelete, hanswer, rfl⟩ := alone_bind.mp hrun
  obtain ⟨rfl, hsilent, hhdi⟩ := alone_deleteUser hdelete
  rw [List.append_nil]
  exact alone_answerDeletion hsilent hhdi hanswer

theorem UserDeletion.deletesUser {caller : Caller} {α : Type} {p : UserIDMProg α} {a : α}
    (hp : UserDeletion platform caller callback p)
    (h : (sync platform).Alone t (synchronous p) s a es s') :
    DeletesUser callback s.data s'.data es := by
  cases hp with
  | delUser authToken =>
    rw [serviceDelUser] at h
    split at h
    · exact deletesUser_of_onResult (by decide) h
    · split at h
      · next hret => exact deletesUser_of_onResult (by rw [eq_typeNotSupport hret]; decide) h
      · exact deletesUser_of_delUserOf h
  | delUserById userId authToken =>
    rw [serviceDelUserById] at h
    split at h
    · exact deletesUser_of_onResult (by decide) h
    · exact deletesUser_of_delUserOf h
  | enforceDelUser userId =>
    rw [serviceEnforceDelUser_eq, synchronous, Prog.interp_bind] at h
    obtain ⟨r, s₁, es₁, es₂, hdelete, hanswer, rfl⟩ := alone_bind.mp h
    obtain ⟨rfl, hsilent, hhdi⟩ := alone_deleteUserEnforce hdelete
    exact alone_answerDeletion hsilent hhdi hanswer

/-- The request comes to its end and the client hears one result, and a success only after the HDI
has deleted the user and all executors that were asked, each for a credential of the user, have
deleted their templates. -/
def OneVerdict (callback : ClientCallback) (es : List SyncEvent) : Prop :=
  LoopEnds (some callback) (deleted es) ∧ (results callback es).length = 1 ∧
    (.success ∈ results callback es → deletions es ≠ [] ∧
      ∀ q ∈ asked es, q.2 = .success ∧ ∃ info ∈ deleted es, Names q.1 info)

/-- **The result of deleting a user.**  The client hears one right result exactly if no credential
has been deleted, or exactly one of a type that is handled, and the index of the loop is not too
short for the others. -/
theorem deleteUser_verdict_iff {caller : Caller} {α : Type} {p : UserIDMProg α} {a : α}
    (hp : UserDeletion platform caller callback p)
    (h : (sync platform).Alone t (synchronous p) s a es s') :
    OneVerdict callback es ↔
      (deleted es).length < 2 ^ 32 ∧ (deleted es = [] ∨ (deleted es).countP handled = 1) := by
  rw [OneVerdict, loopEnds_iff]
  apply and_congr_right
  intro _
  cases hp.deletesUser h with
  | @fails ret hret hhears hasked hdeleted hdata =>
    rw [hhears.results_eq, hdeleted]
    simp [hret.symm]
  | @deletes infos rs hinfos hdeletions hhears hanswers hnames hcount hdata =>
    have hdeleted := deleted_eq hdeletions
    rw [hhears.results_eq, hdeleted, hcount]
    constructor
    · rintro ⟨hone, -⟩
      exact .inr hone
    · intro hone
      have hone := hone.resolve_left hinfos
      refine ⟨hone, fun hsuccess => ⟨by simp [hdeletions], ?_⟩⟩
      -- the only result is a success, and so is the answer of every executor
      obtain ⟨result, rfl⟩ := List.length_eq_one_iff.mp (hcount.trans hone)
      intro q hq
      have hanswer := hanswers.subset (List.mem_map_of_mem hq)
      rw [List.mem_singleton] at hanswer hsuccess
      exact ⟨hanswer.trans hsuccess.symm, hnames q hq⟩

section Verdicts

/-- The HDI deletes these credentials; an executor is found once, and answers with `result`. -/
def deletionEnvs (credentials : List HdiCredentialInfo) (result : ResultCode)
    (rest : List SyncEnv) : List SyncEnv :=
  {} :: { idm := { credentials := credentials } } :: {} :: {} :: { executor := some 3 } ::
    { result := result } :: {} :: {} :: rest

def deletingCaller : Caller := ⟨0, 1, 1000⟩

def deletionProg : UserIDMProg Unit :=
  serviceDelUserById grantingPlatform deletingCaller 100 [1] (some 5)

theorem deletionProg_deletes : UserDeletion grantingPlatform deletingCaller 5 deletionProg :=
  .delUserById 100 [1]

/-- A user with a pin and a face is deleted, and the client hears a result for each of them. -/
theorem deleteUser_twice :
    ¬∀ (platform : Platform) (caller : Caller) (callback : ClientCallback) (p : UserIDMProg Unit)
      (t : Nat) (s s' : UserIDMState) (es : List SyncEvent),
      UserDeletion platform caller callback p →
      (sync platform).Alone t (synchronous p) s () es s' → OneVerdict callback es := by
  intro h
  have hrun : ((sync grantingPlatform).alone 0 (synchronous deletionProg) .initial
      (deletionEnvs [⟨0, .pin, 8, 70⟩, ⟨0, .face, 9, 71⟩] .success [{}, {}, {}, {}, {}])).map
        (fun r => results 5 r.2.1) = some [.success, .fail] := by decide +kernel
  obtain ⟨⟨⟨⟩, es, s'⟩, halone, hresults⟩ := Option.map_eq_some_iff.mp hrun
  obtain ⟨-, hone, -⟩ := h grantingPlatform deletingCaller 5 deletionProg 0 .initial s' es
    deletionProg_deletes (.of_alone halone)
  rw [hresults] at hone
  cases hone

/-- A user with a pin only. -/
theorem deleteUser_verdict_example : ∃ (es : List SyncEvent) (s' : UserIDMState),
    (sync grantingPlatform).Alone 0 (synchronous deletionProg) .initial () es s' ∧ OneVerdict 5 es ∧
      deleted es = [⟨8, .pin, 0, 70⟩] := by
  have hrun : ((sync grantingPlatform).alone 0 (synchronous deletionProg) .initial
      (deletionEnvs [⟨0, .pin, 8, 70⟩] .success [])).map (fun r => deleted r.2.1) =
        some [⟨8, .pin, 0, 70⟩] := by decide +kernel
  obtain ⟨⟨⟨⟩, es, s'⟩, halone, hdeleted⟩ := Option.map_eq_some_iff.mp hrun
  refine ⟨es, s', .of_alone halone, ?_, hdeleted⟩
  apply (deleteUser_verdict_iff deletionProg_deletes (.of_alone halone)).mpr
  rw [hdeleted]
  decide

end Verdicts

/-! ## 4. Deleting a credential -/

/-- What a request to delete a credential shows once the user is known, and what it leaves in the
session: only a face is followed up. -/
inductive DeletesCredential (callback : ClientCallback) (data data' : UserIDMModule)
    (es : List SyncEvent) : Prop where
  | fails {ret : ResultCode} (hhears : Hears callback [ret] es) (hdeleted : deleted es = [])
      (hdata : data' = data)
  | face {info : CredentialInfo} {result : ResultCode} (hface : info.authType = .face)
      (hdeleted : deleted es = [info]) (hhears : Hears callback [result] es)
      (hasked : AskedToDelete info es) (hdata : data' = data.deleteSessionId)
  | other {info : CredentialInfo} (hother : info.authType ≠ .face)
      (hdeleted : deleted es = [info]) (hhears : Hears callback [] es)
      (hlookedUp : lookedUp es = []) (hdata : data' = data)

theorem alone_delCredentialOf {userId : Int32} {credentialId : UInt64} {authToken : List UInt8}
    (h : (sync platform).Alone t
      (synchronous (delCredentialOf userId credentialId authToken callback)) s () es s') :
    DeletesCredential callback s.data s'.data es := by
  rw [delCredentialOf, synchronous, Prog.interp_bind] at h
  obtain ⟨r, s₁, es₁, es₂, hdelete, hanswer, rfl⟩ := alone_bind.mp h
  obtain ⟨rfl, hsilent, hhdi⟩ := alone_deleteCredential hdelete
  cases hhdi with
  | error hret hdeletions =>
    obtain ⟨-, rfl, rfl⟩ := alone_report (b := ()) hanswer
    refine .fails (hsilent.hears.append hears_onResult) ?_ rfl
    rw [deleted, deletions_append, hdeletions]
    rfl
  | @ok info _ hdeletions =>
    dsimp only at hanswer
    unfold delFaceCredentialCtrl at hanswer
    by_cases hface : info.authType = .face
    · rw [if_neg (not_not.mpr hface), Prog.interp_bind, Prog.interp_bind, Prog.interp_op] at hanswer
      obtain ⟨_, s₂, es₃, es₄, hrun, hret, rfl⟩ := alone_bind.mp hanswer
      obtain ⟨-, rfl, rfl⟩ := alone_ret.mp hret
      obtain ⟨_, s₃, es₅, es₆, hrequest, hret', rfl⟩ := alone_bind.mp hrun
      obtain ⟨-, rfl, rfl⟩ := alone_ret.mp hret'
      obtain ⟨hdata, result, hrequested⟩ := alone_setExecutorProp (deletionCondition_relayable info)
        (deletionCondition_names info) rfl (.inr rfl) hrequest
      rw [List.append_nil, List.append_nil]
      refine .face hface (deleted_eq ?_) (hsilent.hears.append hrequested.hears)
        hrequested.asksToDelete.append_left hdata
      rw [deletions_append, hdeletions, hrequested.deletions_eq]
      rfl
    -- `FAIL` is returned, and nobody looks at it
    · rw [if_pos hface] at hanswer
      obtain ⟨-, rfl, rfl⟩ := alone_ret.mp hanswer
      rw [List.append_nil]
      exact .other hface (deleted_eq hdeletions) hsilent.hears hsilent.lookedUp rfl

/-- The requests that delete a credential and have a callback; `DelCred` has to resolve the user. -/
inductive CredentialDeletion (platform : Platform) (caller : Caller) (callback : ClientCallback) :
    UserIDMProg Unit → Prop → Prop where
  | delCred (credentialId : UInt64) (authToken : List UInt8) :
      CredentialDeletion platform caller callback
        (serviceDelCred platform caller credentialId authToken (some callback))
        (∃ userId, getCallingUserId platform caller = .ok userId)
  | delCredential (userId : Int32) (credentialId : UInt64) (authToken : List UInt8) :
      CredentialDeletion platform caller callback
        (serviceDelCredential platform caller userId credentialId authToken (some callback)) True

/-- One result, the templates of all credentials that are gone, and no call of the HDI for a user
that is not known. -/
def Complete (callback : ClientCallback) (resolved : Prop) (es : List SyncEvent) : Prop :=
  (results callback es).length = 1 ∧ (∀ info ∈ deleted es, AskedToDelete info es) ∧
    (¬resolved → ∀ t userId credentialId authToken r,
      .op t (.idm (.deleteCredential userId credentialId authToken)) r ∉ es)

theorem not_askedToDelete {info : CredentialInfo} (h : lookedUp es = []) :
    ¬AskedToDelete info es := by
  rintro ⟨found, hfound, -⟩
  rw [h] at hfound
  cases hfound

theorem DeletesCredential.complete_iff {data data' : UserIDMModule} {resolved : Prop}
    (h : DeletesCredential callback data data' es) (hresolved : resolved) :
    Complete callback resolved es ↔ ∀ info ∈ deleted es, info.authType = .face := by
  have hnone : ¬resolved → ∀ t userId credentialId authToken r,
      .op t (.idm (.deleteCredential userId credentialId authToken)) r ∉ es :=
    fun hnot => absurd hresolved hnot
  unfold Complete
  cases h with
  | fails hhears hdeleted =>
    rw [hhears.results_eq, hdeleted]
    simp only [List.not_mem_nil, false_implies, implies_true, iff_true, true_and]
    exact ⟨rfl, hnone⟩
  | face hface hdeleted hhears hasked =>
    rw [hhears.results_eq, hdeleted]
    simp only [List.mem_singleton, forall_eq]
    exact ⟨fun _ => hface, fun _ => ⟨rfl, hasked, hnone⟩⟩
  | other hother hdeleted hhears =>
    rw [hhears.results_eq, hdeleted]
    simp [hother]

/-- The user is not known, and the request goes on after it has been answered. -/
theorem DeletesCredential.not_complete {data data' : UserIDMModule} {resolved : Prop}
    {ret : ResultCode} (h : DeletesCredential callback data data' es) :
    ¬Complete callback resolved (.op t (.idm (.onResult callback ret 0)) () :: es) := by
  rintro ⟨hone, hasked, -⟩
  rw [results_onResult] at hone
  cases h with
  | fails hhears =>
    rw [hhears.results_eq] at hone
    cases hone
  | face hface hdeleted hhears =>
    rw [hhears.results_eq] at hone
    cases hone
  | @other info hother hdeleted hhears hlookedUp =>
    -- nobody looks for an executor
    have hgone : info ∈ deleted (.op t (.idm (.onResult callback ret 0)) () :: es) := by
      show info ∈ deleted es
      rw [hdeleted]
      exact List.mem_singleton_self _
    have hlookedUp : lookedUp (.op t (.idm (.onResult callback ret 0)) () :: es) = [] := hlookedUp
    exact not_askedToDelete hlookedUp (hasked info hgone)

/-- Nothing is deleted, and the client is told so. -/
theorem complete_of_denied {resolved : Prop}
    (h : (sync platform).Alone t
      (synchronous (atomic (.onResult callback checkPermissionFailed 0))) s () es s') :
    Complete callback resolved es := by
  obtain ⟨-, rfl, rfl⟩ := alone_report (b := ()) h
  refine ⟨?_, ?_, ?_⟩
  · rw [results_onResult]
    rfl
  · intro info hinfo
    cases hinfo
  · intro _ t userId credentialId authToken r hmem
    cases List.mem_singleton.mp hmem

/-- **The deletion of a credential.**  It is complete and answered once exactly if permission is
denied, or the user is known and the HDI deletes nothing but a face. -/
theorem deleteCredential_complete_iff {caller : Caller} {p : UserIDMProg Unit} {resolved : Prop}
    (hp : CredentialDeletion platform caller callback p resolved)
    (h : (sync platform).Alone t (synchronous p) s () es s') :
    Complete callback resolved es ↔
      checkPermission platform caller manageUserIdmPermission = false ∨
        resolved ∧ ∀ info ∈ deleted es, info.authType = .face := by
  cases hpermission : checkPermission platform caller manageUserIdmPermission with
  | false =>
    refine iff_of_true ?_ (.inl rfl)
    cases hp with
    | delCred =>
      rw [serviceDelCred, hpermission] at h
      exact complete_of_denied h
    | delCredential =>
      rw [serviceDelCredential, hpermission] at h
      exact complete_of_denied h
  | true =>
    rw [Bool.true_eq_false, false_or]
    cases hp with
    | delCredential =>
      rw [serviceDelCredential, hpermission] at h
      rw [(alone_delCredentialOf h).complete_iff trivial, true_and]
    | delCred =>
      rw [serviceDelCred, hpermission] at h
      cases huser : getCallingUserId platform caller with
      | ok userId =>
        rw [huser] at h
        have hknown : ∃ userId', (.ok userId : Except ResultCode Int32) = .ok userId' :=
          ⟨userId, rfl⟩
        rw [(alone_delCredentialOf h).complete_iff hknown, and_iff_right hknown]
      | error ret =>
        rw [huser] at h
        obtain ⟨_, es₁, hrest, rfl⟩ := h.call_state s fun _ => rfl
        -- The error has been reported, and the deletion goes on for user 0.
        refine iff_of_false (alone_delCredentialOf hrest).not_complete ?_
        rintro ⟨⟨userId, hknown⟩, -⟩
        cases hknown

section Incomplete

/-- A pin is deleted: no executor hears of it, and neither does the client. -/
theorem deleteCredential_silent :
    ¬∀ (platform : Platform) (caller : Caller) (callback : ClientCallback) (p : UserIDMProg Unit)
      (resolved : Prop) (t : Nat) (s s' : UserIDMState) (es : List SyncEvent),
      CredentialDeletion platform caller callback p resolved →
      (sync platform).Alone t (synchronous p) s () es s' → Complete callback resolved es := by
  intro h
  have hrun : ((sync grantingPlatform).alone 0
      (synchronous (serviceDelCredential grantingPlatform deletingCaller 100 8 [1] (some 5)))
      .initial [{}, { idm := { credential := ⟨0, .pin, 8, 70⟩ } }]).map
        (fun r => results 5 r.2.1) = some [] := by decide +kernel
  obtain ⟨⟨⟨⟩, es, s'⟩, halone, hresults⟩ := Option.map_eq_some_iff.mp hrun
  obtain ⟨hone, -⟩ := h grantingPlatform deletingCaller 5 _ True 0 .initial s' es
    (.delCredential 100 8 [1]) (.of_alone halone)
  rw [hresults] at hone
  cases hone

/-- A face is deleted. -/
theorem deleteCredential_complete_example : ∃ (es : List SyncEvent) (s' : UserIDMState),
    (sync grantingPlatform).Alone 0
      (synchronous (serviceDelCredential grantingPlatform deletingCaller 100 8 [1] (some 5)))
      .initial () es s' ∧ Complete 5 True es ∧ deleted es = [⟨8, .face, 0, 70⟩] := by
  have hrun : ((sync grantingPlatform).alone 0
      (synchronous (serviceDelCredential grantingPlatform deletingCaller 100 8 [1] (some 5)))
      .initial [{}, { idm := { credential := ⟨0, .face, 8, 70⟩ } }, {}, {}, { executor := some 3 },
        {}, {}, {}]).map (fun r => deleted r.2.1) = some [⟨8, .face, 0, 70⟩] := by decide +kernel
  obtain ⟨⟨⟨⟩, es, s'⟩, halone, hdeleted⟩ := Option.map_eq_some_iff.mp hrun
  have hp : CredentialDeletion grantingPlatform deletingCaller 5
      (serviceDelCredential grantingPlatform deletingCaller 100 8 [1] (some 5)) True :=
    .delCredential 100 8 [1]
  refine ⟨es, s', .of_alone halone, ?_, hdeleted⟩
  apply (deleteCredential_complete_iff hp (.of_alone halone)).mpr
  rw [hdeleted]
  right
  simp

end Incomplete

/-! ## 5. The enrolment that is running -/

/-- The type for which the template of a deleted credential is deleted. -/
def handledAlone (info : CredentialInfo) : Bool := info.authType = .face

/-- The requests that delete, with the credentials whose templates are deleted after it. -/
inductive DeletionRequest (platform : Platform) (caller : Caller) :
    (CredentialInfo → Bool) → {α : Type} → UserIDMProg α → Prop where
  | delUser (authToken : List UInt8) (callback : Option ClientCallback) :
      DeletionRequest platform caller handled (serviceDelUser platform caller authToken callback)
  | delUserById (userId : Int32) (authToken : List UInt8) (callback : Option ClientCallback) :
      DeletionRequest platform caller handled
        (serviceDelUserById platform caller userId authToken callback)
  | enforceDelUser (userId : Int32) (callback : Option ClientCallback) :
      DeletionRequest platform caller handled (serviceEnforceDelUser userId callback)
  | delCred (credentialId : UInt64) (authToken : List UInt8) (callback : Option ClientCallback) :
      DeletionRequest platform caller handledAlone
        (serviceDelCred platform caller credentialId authToken callback)
  | delCredential (userId : Int32) (credentialId : UInt64) (authToken : List UInt8)
      (callback : Option ClientCallback) :
      DeletionRequest platform caller handledAlone
        (serviceDelCredential platform caller userId credentialId authToken callback)

theorem deleteSessionId_ne {data : UserIDMModule} (hactive : data.scheduleId ≠ 0) :
    data.deleteSessionId ≠ data := by
  intro heq
  exact hactive (congrArg UserIDMModule.scheduleId heq).symm

theorem DeletesUser.data_eq_iff {data data' : UserIDMModule}
    (h : DeletesUser callback data data' es) (hactive : data.scheduleId ≠ 0) :
    data' = data ↔ ∀ info ∈ deleted es, handled info = false := by
  cases h with
  | fails hret hhears hasked hdeleted hdata => simp [hdata, hdeleted]
  | @deletes infos rs hinfos hdeletions hhears hanswers hnames hlength hdata =>
    have hdeleted := deleted_eq hdeletions
    rw [hdata, hdeleted]
    by_cases hany : infos.any handled = true
    · rw [if_pos hany]
      refine iff_of_false (deleteSessionId_ne hactive) ?_
      intro hnone
      obtain ⟨info, hinfo, hhandled⟩ := List.any_eq_true.mp hany
      rw [hnone info hinfo] at hhandled
      cases hhandled
    · rw [if_neg hany]
      refine iff_of_true rfl ?_
      intro info hinfo
      by_contra hhandled
      exact hany (List.any_eq_true.mpr ⟨info, hinfo, by simpa using hhandled⟩)

theorem DeletesCredential.data_eq_iff {data data' : UserIDMModule}
    (h : DeletesCredential callback data data' es) (hactive : data.scheduleId ≠ 0) :
    data' = data ↔ ∀ info ∈ deleted es, handledAlone info = false := by
  cases h with
  | fails hhears hdeleted hdata => simp [hdata, hdeleted]
  | face hface hdeleted hhears hasked hdata =>
    simp [hdata, hdeleted, handledAlone, hface, deleteSessionId_ne hactive]
  | other hother hdeleted hhears hlookedUp hdata => simp [hdata, hdeleted, handledAlone, hother]

/-- A request that ends before anything is deleted. -/
theorem data_eq_iff_of_nothing {touched : CredentialInfo → Bool} (hdata : s'.data = s.data)
    (hdeleted : deleted es = []) :
    s'.data = s.data ↔ ∀ info ∈ deleted es, touched info = false := by
  simp [hdata, hdeleted]

theorem data_eq_iff_of_ret {touched : CredentialInfo → Bool} {α : Type} {a b : α}
    (h : (sync platform).Alone t (synchronous (.ret b)) s a es s') :
    s'.data = s.data ↔ ∀ info ∈ deleted es, touched info = false := by
  obtain ⟨-, rfl, rfl⟩ := alone_ret.mp h
  exact data_eq_iff_of_nothing rfl rfl

theorem data_eq_iff_of_onResult {touched : CredentialInfo → Bool} {ret : ResultCode}
    (h : (sync platform).Alone t (synchronous (atomic (.onResult callback ret 0))) s () es s') :
    s'.data = s.data ↔ ∀ info ∈ deleted es, touched info = false := by
  obtain ⟨-, rfl, rfl⟩ := alone_report (b := ()) h
  exact data_eq_iff_of_nothing rfl rfl

/-- **Deletions and the enrolment that is running.**  The session keeps the enrolment exactly if no
deleted credential is of a type for which the request deletes the template: whatever the executor
answers, and also when there is none, the slot is emptied. -/
theorem deletion_keeps_iff {caller : Caller} {touched : CredentialInfo → Bool} {α : Type}
    {p : UserIDMProg α} {a : α} (hp : DeletionRequest platform caller touched p)
    (h : (sync platform).Alone t (synchronous p) s a es s') (hactive : s.data.scheduleId ≠ 0) :
    s'.data = s.data ↔ ∀ info ∈ deleted es, touched info = false := by
  cases hp with
  | delUser authToken callback =>
    cases callback with
    | none => exact data_eq_iff_of_ret h
    | some callback =>
      exact ((UserDeletion.delUser authToken).deletesUser h).data_eq_iff hactive
  | delUserById userId authToken callback =>
    cases callback with
    | none => exact data_eq_iff_of_ret h
    | some callback =>
      exact ((UserDeletion.delUserById userId authToken).deletesUser h).data_eq_iff hactive
  | enforceDelUser userId callback =>
    cases callback with
    | none => exact data_eq_iff_of_ret h
    | some callback =>
      have hp : UserDeletion platform caller callback _ := .enforceDelUser userId
      exact (hp.deletesUser h).data_eq_iff hactive
  | delCred credentialId authToken callback =>
    cases callback with
    | none => exact data_eq_iff_of_ret h
    | some callback =>
      rw [serviceDelCred] at h
      split at h
      · exact data_eq_iff_of_onResult h
      · split at h
        -- the user id that cannot be resolved
        · obtain ⟨_, es₁, hrest, rfl⟩ := h.call_state s fun _ => rfl
          exact (alone_delCredentialOf hrest).data_eq_iff hactive
        · exact (alone_delCredentialOf h).data_eq_iff hactive
  | delCredential userId credentialId authToken callback =>
    cases callback with
    | none => exact data_eq_iff_of_ret h
    | some callback =>
      rw [serviceDelCredential] at h
      split at h
      · exact data_eq_iff_of_onResult h
      · exact (alone_delCredentialOf h).data_eq_iff hactive

section Disturbed

/-- Another client deletes a user with a face, for which there is no executor: the enrolment is not
active any more. -/
theorem deletion_disturbs :
    ¬∀ (platform : Platform) (caller : Caller) (touched : CredentialInfo → Bool)
      (p : UserIDMProg Unit) (t : Nat) (s s' : UserIDMState) (es₀ es : List SyncEvent),
      AtomicRun platform s es₀ → s.data.scheduleId ≠ 0 →
      DeletionRequest platform caller touched p →
      (sync platform).Alone t (synchronous p) s () es s' → s'.data = s.data := by
  intro h
  have hrun : (runCalls grantingPlatform .initial [] enrolCalls).map (fun r => (r.1.data,
      ((sync grantingPlatform).alone 1 (synchronous deletionProg) r.1
        [{}, { idm := { credentials := [⟨0, .face, 9, 71⟩] } }, {}, {}, {}, {}, {}]).map
          fun r => r.2.2.data)) = some (⟨1, 7⟩, some ⟨1, 0⟩) := by decide +kernel
  obtain ⟨⟨s, es₀⟩, hcalls, hdata⟩ := Option.map_eq_some_iff.mp hrun
  obtain ⟨hdata, hdeletion⟩ := Prod.mk.inj hdata
  obtain ⟨⟨⟨⟩, es, s'⟩, halone, hdata'⟩ := Option.map_eq_some_iff.mp hdeletion
  have hkept := h grantingPlatform deletingCaller handled deletionProg 1 s s' es₀ es
    (AtomicRun.init.runCalls hcalls) (by rw [hdata]; decide) (.delUserById 100 [1] (some 5))
    (.of_alone halone)
  rw [hdata, hdata'] at hkept
  cases hkept

/-- A user whose credentials are all of another type. -/
theorem deletion_keeps_example : ∃ (s s' : UserIDMState) (es₀ es : List SyncEvent),
    AtomicRun grantingPlatform s es₀ ∧ s.data = ⟨1, 7⟩ ∧
    (sync grantingPlatform).Alone 1 (synchronous deletionProg) s () es s' ∧
      deleted es = [⟨9, 4, 0, 71⟩] ∧ s'.data = s.data := by
  have hrun : (runCalls grantingPlatform .initial [] enrolCalls).map (fun r => (r.1.data,
      ((sync grantingPlatform).alone 1 (synchronous deletionProg) r.1
        [{}, { idm := { credentials := [⟨0, 4, 9, 71⟩] } }]).map fun r => deleted r.2.1)) =
      some (⟨1, 7⟩, some [⟨9, 4, 0, 71⟩]) := by decide +kernel
  obtain ⟨⟨s, es₀⟩, hcalls, hdata⟩ := Option.map_eq_some_iff.mp hrun
  obtain ⟨hdata, hdeletion⟩ := Prod.mk.inj hdata
  obtain ⟨⟨⟨⟩, es, s'⟩, halone, hdeleted⟩ := Option.map_eq_some_iff.mp hdeletion
  have hp : DeletionRequest grantingPlatform deletingCaller handled deletionProg :=
    .delUserById 100 [1] (some 5)
  have hactive : s.data.scheduleId ≠ 0 := by
    rw [hdata]
    decide
  refine ⟨s, s', es₀, es, AtomicRun.init.runCalls hcalls, hdata, .of_alone halone, hdeleted, ?_⟩
  apply (deletion_keeps_iff hp (.of_alone halone) hactive).mpr
  rw [hdeleted]
  decide

end Disturbed

end UserIam.UserIDM
