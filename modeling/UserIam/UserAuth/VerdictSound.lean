import UserIam.UserAuth.UserAuthSystem

/-!
# The verdict that a client hears

A finish brings a code of the executor, and the HDI gives its verdict on it.  What the client is
told is the former: it can be `SUCCESS` although the HDI is missing or refuses.
-/

namespace UserIam.UserAuth

open Conc Common Machine

/-! ## 1. Verdicts -/

/-- What a thread's history says about verdicts: the finish that it handles, the done flag, whether
there is an HDI, the HDI's answer, and what a client is told. -/
inductive VerdictMark where
  | handle (i : Nat) (self : UserAuthCallbackImplCoAuth) (resultCode : UInt32)
      (scheduleToken : List UInt8)
  | flag (i : Nat) (done : Bool)
  | hdi (found : Bool)
  | answer (contextId : UInt64) (scheduleToken : List UInt8) (r : ResultCode × List UInt8)
  | told (callback : ClientCallback) (result : ResultCode) (token : List UInt8)
  deriving DecidableEq

def verdictMark : UserAuthEvent → Option VerdictMark
  | .spawn _ (.task _ (.run (.onFinishHandle i self resultCode scheduleToken))) =>
    some (.handle i self resultCode scheduleToken)
  | .op _ (.isResultDone i) done => some (.flag i done)
  | .op _ .getHdiInterface found => some (.hdi found)
  | .op _ (.updateAuthenticationResult contextId scheduleToken) r =>
    some (.answer contextId scheduleToken r)
  | .op _ (.onResult callback result extraInfo) _ => some (.told callback result extraInfo.token)
  | _ => none

/-- The HDI has answered `SUCCESS` for the context and the token of the finish, with this token. -/
def Granted (l : List VerdictMark) (callback : ClientCallback) (token : List UInt8) : Prop :=
  ∃ i self resultCode scheduleToken, .handle i self resultCode scheduleToken ∈ l ∧
    callback = self.callback ∧
    .answer self.callbackContextId scheduleToken (.success, token) ∈ l

/-- Every `SUCCESS` that the thread tells a client has been granted before. -/
def Sound (l : List VerdictMark) : Prop :=
  ∀ pre post callback token, l = pre ++ .told callback .success token :: post →
    Granted pre callback token

def VerdictSound (w : UserAuthWorld) : Prop := ∀ t, Sound (w.marks verdictMark t)

/-- The thread handles a finish with the code `SUCCESS` while no result is known, and there is no
HDI, or the HDI's answer is neither `SUCCESS` nor `E_RET_UNDONE`. -/
def Misjudged (l : List VerdictMark) : Prop :=
  ∃ i self resultCode scheduleToken, .handle i self resultCode scheduleToken ∈ l ∧
    resultCode.toInt32 = ResultCode.success ∧ .flag i false ∈ l ∧
    (.hdi false ∈ l ∨ ∃ ret token, ret ≠ .success ∧ ret ≠ .eRetUndone ∧
      .answer self.callbackContextId scheduleToken (ret, token) ∈ l)

/-- Every `SUCCESS` has been granted, or is that of a finish that the HDI has not granted. -/
def Judged (l : List VerdictMark) : Prop :=
  ∀ pre post callback token, l = pre ++ .told callback .success token :: post →
    Granted pre callback token ∨ Misjudged pre

variable {l : List VerdictMark} {k : VerdictMark} {t : Nat} {i : Nat}
  {self : UserAuthCallbackImplCoAuth} {resultCode : UInt32} {scheduleToken token : List UInt8}
  {α : Type}

theorem Misjudged.append (h : Misjudged l) (l' : List VerdictMark) : Misjudged (l ++ l') := by
  obtain ⟨i, self, resultCode, scheduleToken, hhandle, hcode, hflag, hbad⟩ := h
  refine ⟨i, self, resultCode, scheduleToken, List.mem_append_left _ hhandle, hcode,
    List.mem_append_left _ hflag, ?_⟩
  rcases hbad with hbad | ⟨ret, token, hne, hne', hbad⟩
  · exact .inl (List.mem_append_left _ hbad)
  · exact .inr ⟨ret, token, hne, hne', List.mem_append_left _ hbad⟩

/-- Who misjudges nothing tells only what has been granted. -/
theorem Judged.sound (hl : Judged l) (h : ¬Misjudged l) : Sound l := by
  rintro pre post callback token rfl
  apply (hl pre post callback token rfl).resolve_right
  intro hmis
  exact h (hmis.append _)

theorem judged_nil : Judged [] := by
  intro pre post callback token h
  simp at h

theorem Judged.concat (hl : Judged l)
    (hk : ∀ callback token, k = .told callback .success token →
      Granted l callback token ∨ Misjudged l) : Judged (l ++ [k]) := by
  intro pre post callback token h
  rcases World.split_concat h with ⟨rfl, rfl⟩ | ⟨post', hpost⟩
  · exact hk callback token rfl
  · exact hl pre post' callback token hpost

/-! ## 2. Programs -/

abbrev AlongVerdict (t : Nat) (p : UserAuthProg α) (Q : α → List VerdictMark → Prop)
    (l : List VerdictMark) : Prop :=
  Along verdictMark t Judged p Q l

/-- An operation that tells no client `SUCCESS`. -/
def UserAuthOp.silent : UserAuthOp → Prop
  | .onResult _ result _ => result ≠ .success
  | _ => True

theorem Judged.silent (hl : Judged l) {o : UserAuthOp} (ho : o.silent) (t : Nat)
    (r : UserAuthRes o) : Judged (l ++ (verdictMark (.op t o r)).toList) := by
  cases hmark : verdictMark (.op t o r) with
  | none => simpa using hl
  | some k =>
    refine hl.concat ?_
    rintro callback token rfl
    cases o with
    | onResult callback' result extraInfo =>
      cases hmark
      exact absurd rfl ho
    | _ => cases hmark

/-- The marks of a thread that handles no finish. -/
def Elsewhere (l : List VerdictMark) : Prop :=
  Judged l ∧ ∀ i self resultCode scheduleToken, .handle i self resultCode scheduleToken ∉ l

theorem Elsewhere.not_misjudged (hl : Elsewhere l) : ¬Misjudged l := by
  rintro ⟨i, self, resultCode, scheduleToken, hhandle, -⟩
  exact hl.2 i self resultCode scheduleToken hhandle

theorem Elsewhere.silent (hl : Elsewhere l) {o : UserAuthOp} (ho : o.silent) (t : Nat)
    (r : UserAuthRes o) : Elsewhere (l ++ (verdictMark (.op t o r)).toList) := by
  refine ⟨hl.1.silent ho t r, fun i self resultCode scheduleToken hmem => ?_⟩
  rcases List.mem_append.mp hmem with hmem | hmem
  · exact hl.2 i self resultCode scheduleToken hmem
  · cases o <;> simp [verdictMark] at hmem

theorem along_elsewhere {p : UserAuthProg α} (hp : p.All UserAuthOp.silent) (hl : Elsewhere l) :
    AlongVerdict t p (fun _ => Elsewhere) l := by
  induction p generalizing l with
  | ret a => exact hl
  | call o k ih =>
    intro r
    have hl' := hl.silent hp.1 t r
    exact ⟨hl'.1, ih r (hp.2 r) hl'⟩

/-- What the HDI is asked about a finish, and the verdict. -/
inductive Asked (self : UserAuthCallbackImplCoAuth) (resultCode : UInt32)
    (scheduleToken : List UInt8) : ResultCode × List UInt8 → List VerdictMark → Prop where
  | canceled (hcode : resultCode = ResultCode.canceled.toUInt32) :
      Asked self resultCode scheduleToken (.generalError, []) []
  | missing : Asked self resultCode scheduleToken (.generalError, []) [.hdi false]
  | refused {ret : ResultCode} {token : List UInt8} (hret : ret ≠ .success) :
      Asked self resultCode scheduleToken (ret, [])
        [.hdi true, .answer self.callbackContextId scheduleToken (ret, token)]
  | granted {token : List UInt8} :
      Asked self resultCode scheduleToken (.success, token)
        [.hdi true, .answer self.callbackContextId scheduleToken (.success, token)]

/-- The marks of a handle that has asked for its verdict. -/
def HandleAsked (i : Nat) (self : UserAuthCallbackImplCoAuth) (resultCode : UInt32)
    (scheduleToken : List UInt8) (v : ResultCode × List UInt8) (l : List VerdictMark) : Prop :=
  ∃ asked, Asked self resultCode scheduleToken v asked ∧
    l = [.handle i self resultCode scheduleToken, .flag i false] ++ asked

theorem along_verdict
    (hl : l = [.handle i self resultCode scheduleToken, .flag i false]) (hjudged : Judged l) :
    AlongVerdict t (verdict self resultCode scheduleToken)
      (fun v l => HandleAsked i self resultCode scheduleToken v l ∧ Judged l) l := by
  unfold verdict
  split
  · intro found
    have hfound : Judged (l ++ [VerdictMark.hdi found]) := hjudged.concat fun _ _ h => by cases h
    refine ⟨hfound, ?_⟩
    cases found with
    | false => exact ⟨⟨_, .missing, by rw [hl]; rfl⟩, hfound⟩
    | true =>
      intro r
      have hanswer : Judged (l ++ [VerdictMark.hdi true] ++
          [VerdictMark.answer self.callbackContextId scheduleToken r]) :=
        hfound.concat fun _ _ h => by cases h
      refine ⟨hanswer, ?_⟩
      obtain ⟨ret, token⟩ := r
      show AlongVerdict t (if ret ≠ .success then _ else _) _ _
      split
      · next hret => exact ⟨⟨_, .refused hret, by rw [hl]; rfl⟩, hanswer⟩
      · next hret =>
        obtain rfl := not_not.mp hret
        exact ⟨⟨_, .granted, by rw [hl]; rfl⟩, hanswer⟩
  · next hcode => exact ⟨⟨_, .canceled (not_not.mp hcode), by rw [hl]; rfl⟩, hjudged⟩

/-- A verdict that is not undone, and a code that is `SUCCESS`: granted, or misjudged. -/
theorem HandleAsked.granted_or_misjudged {v : ResultCode × List UInt8}
    (h : HandleAsked i self resultCode scheduleToken v l)
    (hcode : resultCode.toInt32 = ResultCode.success) (hret : v.1 ≠ .eRetUndone) :
    Granted l self.callback v.2 ∨ Misjudged l := by
  obtain ⟨asked, hasked, rfl⟩ := h
  cases hasked with
  | canceled hcanceled =>
    subst hcanceled
    exact absurd hcode (by decide)
  | missing =>
    exact .inr ⟨i, self, resultCode, scheduleToken, by simp, hcode, by simp, .inl (by simp)⟩
  | @refused ret token hne =>
    refine .inr ⟨i, self, resultCode, scheduleToken, by simp, hcode, by simp, .inr ?_⟩
    exact ⟨ret, token, hne, hret, by simp⟩
  | @granted token => exact .inl ⟨i, self, resultCode, scheduleToken, by simp, rfl, by simp⟩

/-- What a thread may have done when it stops: whoever has misjudged a finish has told its client a
`SUCCESS` that was not granted. -/
def Settled (l : List VerdictMark) : Prop := Misjudged l → ¬Sound l

theorem HandleAsked.settled_undone {authToken : List UInt8} {rest : List VerdictMark}
    (h : HandleAsked i self resultCode scheduleToken (.eRetUndone, authToken) l)
    (hrest : ∀ k ∈ rest, ∃ callback result token, k = .told callback result token) :
    Settled (l ++ rest) := by
  rintro ⟨i', self', resultCode', scheduleToken', -, -, -, hbad⟩
  have hmem {k : VerdictMark} (hk : k ∈ l ++ rest)
      (hne : ∀ callback result token, k ≠ .told callback result token) : k ∈ l := by
    apply (List.mem_append.mp hk).resolve_right
    intro hk
    obtain ⟨callback, result, token, heq⟩ := hrest k hk
    exact hne callback result token heq
  obtain ⟨asked, hasked, rfl⟩ := h
  rcases hbad with hbad | ⟨ret, token, hne, hne', hbad⟩
  · have := hmem hbad (by simp)
    cases hasked
    simp at this
  · have := hmem hbad (by simp)
    cases hasked
    simp_all

theorem HandleAsked.settled_told {v : ResultCode × List UInt8}
    (h : HandleAsked i self resultCode scheduleToken v l) :
    Settled (l ++ [VerdictMark.told self.callback resultCode.toInt32 v.2]) := by
  obtain ⟨asked, hasked, rfl⟩ := h
  rintro ⟨i', self', resultCode', scheduleToken', hhandle, hcode, -, hbad⟩ hsound
  have hhandle : resultCode' = resultCode := by
    cases hasked <;> simp_all
  rw [← hhandle, hcode] at hsound
  obtain ⟨i'', self'', resultCode'', scheduleToken'', -, -, hanswer⟩ :=
    hsound _ [] self.callback v.2 rfl
  cases hasked <;> simp_all

/-! ## 3. Handles -/

abbrev Unmarked (t : Nat) (o : UserAuthOp) : Prop := ∀ r, verdictMark (.op t o r) = none

theorem unmarked_of_neutral {o : UserAuthOp} (ho : o.neutral = true) : Unmarked t o := by
  intro r
  cases o <;> first | rfl | cases ho

theorem dealFinishData_unmarked (i : Nat) (self : UserAuthCallbackImplCoAuth) :
    (dealFinishData i self).All (Unmarked t) :=
  dealFinishData_all (fun _ => unmarked_of_neutral) (fun _ => rfl) (fun _ => rfl) fun _ => rfl

theorem along_dealUndone {authToken : List UInt8}
    (hl : HandleAsked i self resultCode scheduleToken (.eRetUndone, authToken) l)
    (hjudged : Judged l) :
    AlongVerdict t (dealUndone i self) (fun _ l => Judged l ∧ Settled l) l := by
  refine .skip hjudged (fun _ => rfl) fun _ => .skip hjudged (fun _ => rfl) fun _ => fun _ => ?_
  have htold : Judged (l ++ [VerdictMark.told self.callback .generalError []]) :=
    hjudged.concat fun _ _ h => by cases h
  refine ⟨htold, .skip htold (fun _ => rfl) fun _ => ⟨htold, ?_⟩⟩
  exact hl.settled_undone fun k hk => ⟨_, _, _, List.mem_singleton.mp hk⟩

theorem along_dealVerdict {v : ResultCode × List UInt8}
    (hl : HandleAsked i self resultCode scheduleToken v l) (hjudged : Judged l)
    (hret : v.1 ≠ .eRetUndone) :
    AlongVerdict t (dealVerdict i self resultCode v.1 v.2) (fun _ l => Judged l ∧ Settled l) l := by
  obtain ⟨q, hq, heq⟩ := dealVerdict_eq i self resultCode v.1 v.2
  rw [heq]
  refine (Along.of_all hjudged (hq.mono fun _ => unmarked_of_neutral)).bind fun r l' hl' => ?_
  subst hl'
  intro _
  have htold : Judged (l' ++ [VerdictMark.told self.callback resultCode.toInt32 v.2]) := by
    refine hjudged.concat fun callback token h => ?_
    obtain ⟨rfl, hcode, rfl⟩ := VerdictMark.told.inj h
    exact hl.granted_or_misjudged hcode hret
  refine ⟨htold, (Along.of_all htold (dealFinishData_unmarked i self)).mono fun _ l hl'' => ?_⟩
  subst hl''
  exact ⟨htold, hl.settled_told⟩

theorem along_handleLocked (hl : l = [.handle i self resultCode scheduleToken]) :
    AlongVerdict t (onFinishHandleLocked i self resultCode scheduleToken)
      (fun _ l => Judged l ∧ Settled l) l := by
  have hhandle : Judged l := by
    rw [hl]
    exact judged_nil.concat fun _ _ h => by cases h
  refine .skip hhandle (fun _ => rfl) fun callbackNowCount => fun done => ?_
  have hflag : Judged (l ++ [VerdictMark.flag i done]) := hhandle.concat fun _ _ h => by cases h
  refine ⟨hflag, ?_⟩
  cases done with
  | true =>
    refine ⟨hflag, ?_⟩
    rintro ⟨i', self', resultCode', scheduleToken', -, -, hfalse, -⟩
    simp [hl, verdictMark] at hfalse
  | false =>
    have hl' : l ++ [VerdictMark.flag i false] =
        [VerdictMark.handle i self resultCode scheduleToken, .flag i false] := by
      rw [hl]
      rfl
    refine (along_verdict hl' hflag).bind fun v l' hv => ?_
    obtain ⟨ret, authToken⟩ := v
    show AlongVerdict t (if ret = .eRetUndone then _ else _) _ _
    split
    · next hret =>
      subst hret
      split
      · exact along_dealUndone hv.1 hv.2
      · have hsettled := hv.1.settled_undone (List.forall_mem_nil _)
        rw [List.append_nil] at hsettled
        exact ⟨hv.2, hsettled⟩
    · next hret => exact along_dealVerdict hv.1 hv.2 hret

/-! ## 4. All runs -/

theorem UserAuthOp.silent_of_prepares {o : UserAuthOp} (ho : o.prepares = true) : o.silent := by
  cases o <;> trivial

/-- Who handles no finish tells no client `SUCCESS`. -/
theorem userAuthBody_silent (kit : AccessTokenKit) (call : UserAuthCall)
    (hcall : verdictMark (.spawn t call) = none) :
    (userAuthBody kit call).All UserAuthOp.silent := by
  have hprepares (o : UserAuthOp) (ho : o.prepares = true) : o.silent :=
    UserAuthOp.silent_of_prepares ho
  have hresult (callback : ClientCallback) (result : ResultCode) (hne : result ≠ .success) :
      (UserAuthOp.onResult callback result {}).silent := hne
  cases call with
  | auth => exact (auth_all _ _ hprepares hresult _ _ _ _).discard
  | authUser => exact (authUser_all _ _ hprepares hresult _ _ _ _ _).discard
  | cancelAuth =>
    refine ((cancelAuth_quiet _ _ _).mono fun o ho => ?_).discard
    exact UserAuthOp.silent_of_prepares (UserAuthOp.prepares_of_quiet ho)
  | onFinish i self scheduleId resultCode scheduleToken =>
    refine ⟨trivial, fun ret => Prog.all_ite.mpr ⟨fun _ => ⟨?_, fun _ => ?_⟩, fun _ => trivial⟩⟩
    · show ResultCode.busy ≠ .success
      decide
    · exact ⟨trivial, fun _ => trivial⟩
  | onAcquireInfo i self scheduleId acquire =>
    refine ⟨trivial, fun ret => Prog.all_ite.mpr ⟨fun _ => ?_, fun _ => trivial⟩⟩
    exact ⟨trivial, fun _ => trivial⟩
  | task p task =>
    cases task with
    | ensureTransaction => exact ⟨trivial, fun _ => trivial⟩
    | run task =>
      cases task with
      | onFinishHandle => cases hcall
      | onAcquireInfoHandle i self acquire =>
        refine ⟨trivial, fun _ => ⟨trivial, fun done => ?_⟩⟩
        cases done with
        | true => exact ⟨trivial, fun _ => ⟨trivial, fun _ => trivial⟩⟩
        | false => exact ⟨trivial, fun _ => ⟨trivial, fun _ => ⟨trivial, fun _ => trivial⟩⟩⟩

theorem along_userAuthBody (kit : AccessTokenKit) (t : Nat) (call : UserAuthCall) :
    Judged (verdictMark (.spawn t call)).toList ∧
      AlongVerdict t (userAuthBody kit call) (fun _ => Settled)
        (verdictMark (.spawn t call)).toList := by
  cases hmark : verdictMark (.spawn t call) with
  | none =>
    have helsewhere : Elsewhere [] := ⟨judged_nil, by simp⟩
    refine ⟨judged_nil, ?_⟩
    refine (along_elsewhere (userAuthBody_silent kit call hmark) helsewhere).mono fun _ l hl => ?_
    intro hmis
    exact absurd hmis hl.not_misjudged
  | some k =>
    cases call with
    | task p task =>
      cases task with
      | run task =>
        cases task with
        | onFinishHandle i self resultCode scheduleToken =>
          cases hmark
          have hjudged : Judged [.handle i self resultCode scheduleToken] :=
            judged_nil.concat fun _ _ h => by cases h
          refine ⟨hjudged, ?_⟩
          show AlongVerdict t (underLock i _ >>= fun _ => _) _ _
          rw [underLock_bind]
          refine .skip hjudged (fun _ => rfl) fun _ => ?_
          show AlongVerdict t
            (onFinishHandleLocked i self resultCode scheduleToken >>= fun _ => _) _ _
          refine (along_handleLocked rfl).bind fun _ l hl => ?_
          exact .skip hl.1 (fun _ => rfl) fun _ => .skip hl.1 (fun _ => rfl) fun _ => hl.2
        | onAcquireInfoHandle => cases hmark
      | ensureTransaction => cases hmark
    | _ => cases hmark

/-- **The verdict that a client hears.**  In every run, a client hears `SUCCESS` only with the
HDI's grant and token as long as no finish is misjudged; and when all threads have stopped, only
then. -/
theorem verdictSound_iff (kit : AccessTokenKit) {c : UserAuthConfig}
    (hc : (userAuth kit).Reachable Machine.anyMove .initial c) :
    ((∀ t, ¬Misjudged (c.world.marks verdictMark t)) → VerdictSound c.world) ∧
      ((∀ p ∈ c.threads, p.returned = true) →
        (VerdictSound c.world ↔ ∀ t, ¬Misjudged (c.world.marks verdictMark t))) := by
  have hrun := reachable_along (Q := Settled) judged_nil (along_userAuthBody kit) hc
  have hsound (h : ∀ t, ¬Misjudged (c.world.marks verdictMark t)) : VerdictSound c.world :=
    fun t => (hrun t).1.sound (h t)
  refine ⟨hsound, fun hret => ⟨fun h t hmis => ?_, hsound⟩⟩
  -- a thread with a history is one of the threads, and has stopped
  obtain ⟨i, self, resultCode, scheduleToken, hhandle, -⟩ := id hmis
  obtain ⟨e, he, rfl, -⟩ := (World.mem_marks _).mp hhandle
  have hlt := hc.fresh e he
  have hthread : c.threads[e.tid]? = some (.ret ()) := by
    rw [List.getElem?_eq_getElem hlt]
    rw [Prog.eq_ret_of_returned (hret _ (List.getElem_mem hlt))]
  exact (hrun e.tid).2 hthread hmis (h e.tid)

/-! ### A finish that the HDI refuses -/

/-- One finish with the code `SUCCESS`, and what the HDI answers. -/
def verdictRun (env : UserAuthEnv) : List (Machine.Label UserAuthEnv UserAuthCall) :=
  scenarioAuth [7] ++ scenarioFinish 2 7 0 ++ scenarioVerdict 3 0 env ++ scenarioRun 3 9

/-- A client hears `SUCCESS` although the HDI's answer is `FAIL`. -/
theorem verdictSound_refused :
    ¬∀ (kit : AccessTokenKit) (c : UserAuthConfig),
      (userAuth kit).Reachable Machine.anyMove .initial c → VerdictSound c.world := by
  intro h
  have hrun : ((userAuth scenarioKit).exec Machine.anyMove ⟨⟨.initial, []⟩, []⟩
      (verdictRun { ret := .fail })).map (fun c => c.world.marks verdictMark 3) =
      some ([.handle 0 scenarioCallback 0 [1], .flag 0 false, .hdi true,
        .answer 1 [1] (.fail, [])] ++ .told 5 .success [] :: []) := by decide +kernel
  obtain ⟨c, hc, hmarks⟩ := Option.map_eq_some_iff.mp hrun
  obtain ⟨i, self, resultCode, scheduleToken, -, -, hanswer⟩ :=
    h scenarioKit c (.exec .init hc) 3 _ _ _ _ hmarks
  simp [ResultCode.success, ResultCode.fail] at hanswer

/-- The HDI is not there, or does not answer `SUCCESS`. -/
def VerdictMark.refuses : VerdictMark → Bool
  | .hdi found => !found
  | .answer _ _ r => r.1 ≠ .success
  | _ => false

/-- The same finish, granted: the client hears `SUCCESS` with the token of the HDI. -/
theorem verdictSound_iff_example :
    ∃ c, (userAuth scenarioKit).Reachable Machine.anyMove .initial c ∧
      .told 5 .success [2] ∈ c.world.marks verdictMark 3 ∧ VerdictSound c.world := by
  have hrun : ((userAuth scenarioKit).exec Machine.anyMove ⟨⟨.initial, []⟩, []⟩
      (verdictRun { token := [2] })).map
        (fun c => (decide (.told 5 .success [2] ∈ c.world.marks verdictMark 3),
          c.world.trace.any fun e => (verdictMark e).any VerdictMark.refuses)) =
      some (true, false) := by decide +kernel
  obtain ⟨c, hc, hmarks⟩ := Option.map_eq_some_iff.mp hrun
  obtain ⟨htold, hbad⟩ := Prod.mk.inj hmarks
  have hreach : (userAuth scenarioKit).Reachable Machine.anyMove .initial c := .exec .init hc
  refine ⟨c, hreach, of_decide_eq_true htold, (verdictSound_iff scenarioKit hreach).1 ?_⟩
  rintro t ⟨i, self, resultCode, scheduleToken, -, -, -, hmis⟩
  rw [List.any_eq_false] at hbad
  rcases hmis with hmis | ⟨ret, token, hne, -, hmis⟩
  · obtain ⟨e, he, -, hmark⟩ := (World.mem_marks _).mp hmis
    exact hbad e he (by simp [hmark, VerdictMark.refuses])
  · obtain ⟨e, he, -, hmark⟩ := (World.mem_marks _).mp hmis
    exact hbad e he (by simpa [hmark, VerdictMark.refuses] using hne)

end UserIam.UserAuth
