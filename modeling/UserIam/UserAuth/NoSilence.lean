import UserIam.UserAuth.ContextLife
import UserIam.UserAuth.OneResult

/-!
# Silent authentications

A finish whose verdict is `E_RET_UNDONE` ends the authentication only when as many finishes have
come as the callback waits for.  It waits for none, because the list that it counts is never
filled, so a client whose finishes are all undone hears nothing and its thread stays retained.
-/

namespace UserIam.UserAuth

open Conc Common Machine

/-! ## 1. Marks -/

inductive SilenceMark where
  | handle (i : Nat) (self : UserAuthCallbackImplCoAuth) (resultCode : UInt32)
  | report (i : Nat) (self : UserAuthCallbackImplCoAuth)
  | now (i : Nat) (callbackNowCount : UInt32)
  | flag (i : Nat) (done : Bool)
  | hdi (found : Bool)
  | answer (ret : ResultCode)
  | told
  | dropped (contextId : UInt64)
  | released (contextId : UInt64)
  | posted (contextId : UInt64) (ret : Bool)
  | done (i : Nat)
  deriving DecidableEq

def silenceMark : UserAuthEvent → Option SilenceMark
  | .spawn _ (.task _ (.run (.onFinishHandle i self resultCode _))) =>
    some (.handle i self resultCode)
  | .spawn _ (.onFinish i self ..) | .spawn _ (.onAcquireInfo i self ..) => some (.report i self)
  | .op _ (.incCallbackNowCount i) callbackNowCount => some (.now i callbackNowCount)
  | .op _ (.isResultDone i) done => some (.flag i done)
  | .op _ .getHdiInterface found => some (.hdi found)
  | .op _ (.updateAuthenticationResult ..) r => some (.answer r.1)
  | .op _ (.onResult ..) _ => some .told
  | .op _ (.deleteContextId contextId) _ => some (.dropped contextId)
  | .op _ (.deleteCoAuthCallback contextId) _ => some (.released contextId)
  | .op _ (.postTask contextId _) ret => some (.posted contextId ret)
  | .op _ (.setResultDone i) _ => some (.done i)
  | _ => none

/-- The finish is canceled, there is no HDI, or its answer is not `E_RET_UNDONE`. -/
def Decides (resultCode : UInt32) (l : List SilenceMark) : Prop :=
  resultCode = ResultCode.canceled.toUInt32 ∨ .hdi false ∈ l ∨
    ∃ ret, ret ≠ .eRetUndone ∧ .answer ret ∈ l

/-- How a handle may have ended. -/
inductive Handled (i : Nat) (self : UserAuthCallbackImplCoAuth) (resultCode : UInt32) :
    List SilenceMark → Prop where
  | known (k : UInt32) :
      Handled i self resultCode [.handle i self resultCode, .now i k, .flag i true]
  | waits (k : UInt32) (hcode : resultCode ≠ ResultCode.canceled.toUInt32)
      (hk : k ≠ self.callbackCount) :
      Handled i self resultCode [.handle i self resultCode, .now i k, .flag i false, .hdi true,
        .answer .eRetUndone]
  | ended (k : UInt32) {asked : List SilenceMark} {rest : List SilenceMark}
      (hasked : ∀ mk ∈ asked, mk = .hdi true ∨ mk = .hdi false ∨ ∃ ret, mk = .answer ret)
      (hwhy : k = self.callbackCount ∨ Decides resultCode asked)
      (hrest : ∀ mk, mk ∈ rest ↔ mk = .told ∨ mk = .dropped self.callbackContextId ∨
        mk = .released self.callbackContextId ∨ mk = .done i) :
      Handled i self resultCode
        ([.handle i self resultCode, .now i k, .flag i false] ++ asked ++ rest)

variable {kit : AccessTokenKit} {X : UInt64} {i t : Nat} {self : UserAuthCallbackImplCoAuth}
  {resultCode : UInt32} {l : List SilenceMark} {mk : SilenceMark} {k : UInt32} {α : Type}
  {c : UserAuthConfig} {ok : UserAuthWorld → UserAuthMove → Prop}

/-- The done flag is set by a call on the callback that has released its context or has been refused
its thread. -/
def FlagShape (l : List SilenceMark) : Prop :=
  ∀ i, .done i ∈ l → ∃ self, ((∃ resultCode, .handle i self resultCode ∈ l) ∨ .report i self ∈ l) ∧
    (.released self.callbackContextId ∈ l ∨ .posted self.callbackContextId false ∈ l)

/-- The marks of a thread that handles no finish. -/
def Aside (l : List SilenceMark) : Prop :=
  ∀ mk ∈ l, (∀ i self resultCode, mk ≠ .handle i self resultCode) ∧ (∀ i k, mk ≠ .now i k) ∧
    ∀ X, mk ≠ .released X

/-- What a thread may have done when it stops. -/
def Ended (l : List SilenceMark) : Prop :=
  Aside l ∨ ∃ i self resultCode, Handled i self resultCode l

theorem flagShape_nil : FlagShape [] := by
  intro i h
  cases h

theorem FlagShape.append (hl : FlagShape l) {l' : List SilenceMark}
    (hl' : ∀ i, .done i ∉ l') : FlagShape (l ++ l') := by
  intro i hdone
  obtain ⟨self, habout, hgone⟩ := hl i ((List.mem_append.mp hdone).resolve_right (hl' i))
  refine ⟨self, ?_, hgone.imp (List.mem_append_left _) (List.mem_append_left _)⟩
  exact habout.imp (fun ⟨resultCode, h⟩ => ⟨resultCode, List.mem_append_left _ h⟩)
    (List.mem_append_left _)

theorem FlagShape.done (hl : FlagShape l) (self : UserAuthCallbackImplCoAuth)
    (habout : (∃ resultCode, .handle i self resultCode ∈ l) ∨ .report i self ∈ l)
    (hgone : .released self.callbackContextId ∈ l ∨ .posted self.callbackContextId false ∈ l) :
    FlagShape (l ++ [SilenceMark.done i]) := by
  intro j hdone
  rcases List.mem_append.mp hdone with hdone | hdone
  · obtain ⟨self', habout', hgone'⟩ := hl j hdone
    refine ⟨self', ?_, hgone'.imp (List.mem_append_left _) (List.mem_append_left _)⟩
    exact habout'.imp (fun ⟨resultCode, h⟩ => ⟨resultCode, List.mem_append_left _ h⟩)
      (List.mem_append_left _)
  · obtain rfl : j = i := by simpa using hdone
    refine ⟨self, ?_, hgone.imp (List.mem_append_left _) (List.mem_append_left _)⟩
    exact habout.imp (fun ⟨resultCode, h⟩ => ⟨resultCode, List.mem_append_left _ h⟩)
      (List.mem_append_left _)

/-! ## 2. Handles -/

abbrev AlongSilence (t : Nat) (p : UserAuthProg α) (Q : α → List SilenceMark → Prop)
    (l : List SilenceMark) : Prop :=
  Along silenceMark t FlagShape p Q l

/-- A step with a mark other than that of the done flag. -/
theorem along_next {o : UserAuthOp} {k : UserAuthRes o → UserAuthProg α}
    {Q : α → List SilenceMark → Prop} {rest : List SilenceMark} (hl : FlagShape (l ++ rest))
    (ho : ∀ r, silenceMark (.op t o r) = some mk) (hmk : ∀ i, mk ≠ .done i)
    (hk : ∀ r, FlagShape (l ++ (rest ++ [mk])) → AlongSilence t (k r) Q (l ++ (rest ++ [mk]))) :
    AlongSilence t (.call o k) Q (l ++ rest) := by
  intro r
  have hnext : FlagShape (l ++ (rest ++ [mk])) := by
    rw [← List.append_assoc]
    exact hl.append fun i hdone => hmk i (List.mem_singleton.mp hdone).symm
  rw [ho r, Option.toList_some, List.append_assoc]
  exact ⟨hnext, hk r hnext⟩

/-- Setting the done flag at the end, after the context has been released. -/
theorem along_done {rest : List SilenceMark} (hl : FlagShape (l ++ rest))
    (hhandle : .handle i self resultCode ∈ l)
    (hreleased : .released self.callbackContextId ∈ rest) :
    AlongSilence t (.call (.setResultDone i) .ret)
      (fun _ l' => l' = l ++ (rest ++ [SilenceMark.done i]) ∧ FlagShape l') (l ++ rest) := by
  intro _
  have hdone : FlagShape (l ++ rest ++ [SilenceMark.done i]) :=
    hl.done self (.inl ⟨resultCode, List.mem_append_left _ hhandle⟩)
      (.inl (List.mem_append_right _ hreleased))
  exact ⟨hdone, List.append_assoc _ _ _, hdone⟩

theorem unmarked_silence {o : UserAuthOp} (ho : o.neutral = true) (r : UserAuthRes o) :
    silenceMark (.op t o r) = none := by
  cases o <;> first | rfl | cases ho

theorem along_neutral {p : UserAuthProg α} (hl : FlagShape l) (hp : p.All (·.neutral = true)) :
    AlongSilence t p (fun _ l' => l' = l) l :=
  Along.of_all hl (hp.mono fun _ ho r => unmarked_silence ho r)

/-- The marks of the questions that lead to a verdict. -/
structure Weighed (resultCode : UInt32) (l : List SilenceMark) (ret : ResultCode)
    (asked : List SilenceMark) : Prop where
  shape : FlagShape (l ++ asked)
  asks : ∀ mk ∈ asked, mk = .hdi true ∨ mk = .hdi false ∨ ∃ ret, mk = .answer ret
  decides : ret ≠ .eRetUndone → Decides resultCode asked
  undone : ret = .eRetUndone → resultCode ≠ ResultCode.canceled.toUInt32 ∧
    asked = [.hdi true, .answer .eRetUndone]

theorem along_verdict_silence (scheduleToken : List UInt8) (hl : FlagShape l) :
    AlongSilence t (verdict self resultCode scheduleToken)
      (fun v l' => ∃ asked, l' = l ++ asked ∧ Weighed resultCode l v.1 asked) l := by
  have hgeneral : ResultCode.generalError ≠ .eRetUndone := by decide
  unfold verdict
  split
  · next hcode =>
    intro found
    have hfound : FlagShape (l ++ [SilenceMark.hdi found]) :=
      hl.append fun i hdone => by simp at hdone
    refine ⟨hfound, ?_⟩
    cases found with
    | false =>
      exact ⟨[.hdi false], rfl, hfound, by simp, fun _ => .inr (.inl (by simp)),
        fun h => absurd h hgeneral⟩
    | true =>
      intro r
      have hasked : l ++ [SilenceMark.hdi true] ++ [SilenceMark.answer r.1] =
          l ++ [SilenceMark.hdi true, .answer r.1] := by simp
      have hanswer : FlagShape (l ++ [SilenceMark.hdi true, .answer r.1]) :=
        hl.append fun i hdone => by simp at hdone
      have hweighed : Weighed resultCode l r.1 [.hdi true, .answer r.1] := by
        refine ⟨hanswer, by simp, fun hne => .inr (.inr ⟨r.1, hne, by simp⟩), fun heq => ?_⟩
        exact ⟨hcode, by rw [heq]⟩
      refine ⟨hasked ▸ hanswer, ?_⟩
      show AlongSilence t (if r.1 ≠ .success then _ else _) _ _
      split <;> exact ⟨_, hasked, hweighed⟩
  · next hcode =>
    refine ⟨[], (List.append_nil l).symm, ?_, by simp, fun _ => .inl (not_not.mp hcode),
      fun h => absurd h hgeneral⟩
    rwa [List.append_nil]

/-- The marks of a handle that ends its context. -/
def Ends (i : Nat) (self : UserAuthCallbackImplCoAuth) (l l' : List SilenceMark) : Prop :=
  FlagShape l' ∧ ∃ rest, l' = l ++ rest ∧ ∀ mk, mk ∈ rest ↔ mk = .told ∨
    mk = .dropped self.callbackContextId ∨ mk = .released self.callbackContextId ∨ mk = .done i

theorem along_dealUndone_silence (hl : FlagShape l) (hhandle : .handle i self resultCode ∈ l) :
    AlongSilence t (dealUndone i self) (fun _ => Ends i self l) l := by
  have hstart : FlagShape (l ++ []) := by rwa [List.append_nil]
  suffices h : AlongSilence t (dealUndone i self) (fun _ => Ends i self l) (l ++ []) by
    rwa [List.append_nil] at h
  refine along_next hstart (fun _ => rfl) (by simp) fun _ h => ?_
  refine along_next h (fun _ => rfl) (by simp) fun _ h => ?_
  refine along_next h (fun _ => rfl) (by simp) fun _ h => ?_
  refine (along_done h hhandle (by simp)).mono fun _ l' hl' => ⟨hl'.2, _, hl'.1, fun mk => ?_⟩
  simp only [List.nil_append, List.cons_append, List.mem_cons, List.not_mem_nil, or_false]
  tauto

theorem along_dealVerdict_silence {ret : ResultCode} {authToken : List UInt8} (hl : FlagShape l)
    (hhandle : .handle i self resultCode ∈ l) :
    AlongSilence t (dealVerdict i self resultCode ret authToken) (fun _ => Ends i self l) l := by
  obtain ⟨q, hq, heq⟩ := dealVerdict_eq i self resultCode ret authToken
  obtain ⟨q', hq', heq'⟩ := dealFinishData_eq i self
  rw [heq, heq']
  have hstart : FlagShape (l ++ []) := by rwa [List.append_nil]
  suffices h : AlongSilence t _ (fun _ => Ends i self l) (l ++ []) by rwa [List.append_nil] at h
  refine (along_neutral hstart hq).bind fun r l₁ hl₁ => ?_
  subst hl₁
  refine along_next hstart (fun _ => rfl) (by simp) fun _ h => ?_
  refine (along_neutral h hq').bind fun _ l₂ hl₂ => ?_
  subst hl₂
  refine along_next h (fun _ => rfl) (by simp) fun _ h => ?_
  refine along_next h (fun _ => rfl) (by simp) fun _ h => ?_
  refine (along_done h hhandle (by simp)).mono fun _ l' hl' => ⟨hl'.2, _, hl'.1, fun mk => ?_⟩
  simp only [List.nil_append, List.cons_append, List.mem_cons, List.not_mem_nil, or_false]

theorem Ends.handled {asked l' : List SilenceMark} {ret : ResultCode}
    (h : Ends i self ([SilenceMark.handle i self resultCode, .now i k, .flag i false] ++ asked) l')
    (hweighed : Weighed resultCode [.handle i self resultCode, .now i k, .flag i false] ret asked)
    (hwhy : k = self.callbackCount ∨ Decides resultCode asked) : Handled i self resultCode l' := by
  obtain ⟨-, rest, rfl, hrest⟩ := h
  exact .ended k hweighed.asks hwhy hrest

/-- **What a handle does** to its callback and its context. -/
theorem along_handleLocked_silence (scheduleToken : List UInt8)
    (hl : l = [.handle i self resultCode]) :
    AlongSilence t (onFinishHandleLocked i self resultCode scheduleToken)
      (fun _ l' => FlagShape l' ∧ Handled i self resultCode l') l := by
  have hstart : FlagShape ([SilenceMark.handle i self resultCode] ++ []) := by
    intro j hdone
    simp at hdone
  rw [hl, ← List.append_nil [SilenceMark.handle i self resultCode]]
  intro k
  have hnow : FlagShape ([SilenceMark.handle i self resultCode] ++ [] ++ [SilenceMark.now i k]) :=
    hstart.append fun j hdone => by simp at hdone
  refine ⟨hnow, fun done => ?_⟩
  have hflag : FlagShape ([SilenceMark.handle i self resultCode] ++ [] ++ [SilenceMark.now i k] ++
      [SilenceMark.flag i done]) :=
    hnow.append fun j hdone => by simp at hdone
  refine ⟨hflag, ?_⟩
  cases done with
  | true => exact ⟨hflag, .known k⟩
  | false =>
    refine (along_verdict_silence scheduleToken hflag).bind fun v l' hv => ?_
    obtain ⟨asked, rfl, hweighed⟩ := hv
    have hhandle : .handle i self resultCode ∈
        [SilenceMark.handle i self resultCode, .now i k, .flag i false] ++ asked := by simp
    show AlongSilence t (if v.1 = .eRetUndone then _ else _) _ _
    split
    -- undecided: the client is told only when all schedules have reported
    · next hundone =>
      obtain ⟨hcode, rfl⟩ := hweighed.undone hundone
      split
      · next hk =>
        refine (along_dealUndone_silence hweighed.shape hhandle).mono fun _ l' hl' => ?_
        exact ⟨hl'.1, hl'.handled hweighed (.inl hk)⟩
      · next hk => exact ⟨hweighed.shape, .waits k hcode hk⟩
    · next hdecided =>
      refine (along_dealVerdict_silence hweighed.shape hhandle).mono fun _ l' hl' => ?_
      exact ⟨hl'.1, hl'.handled hweighed (.inr (hweighed.decides hdecided))⟩

/-! ### Other threads -/

/-- An operation that belongs to no finish. -/
def AsideOp (t : Nat) (o : UserAuthOp) : Prop :=
  ∀ r mk, silenceMark (.op t o r) = some mk → (∀ i, mk ≠ .done i) ∧
    (∀ i self resultCode, mk ≠ .handle i self resultCode) ∧ (∀ i k, mk ≠ .now i k) ∧
    ∀ X, mk ≠ .released X

theorem asideOp_of_prepares {o : UserAuthOp} (ho : o.prepares = true) : AsideOp t o := by
  intro r mk hmark
  cases o with
  | getHdiInterface | deleteContextId | updateAuthenticationResult =>
    cases hmark
    simp
  | onResult | deleteCoAuthCallback | postTask | incCallbackNowCount | isResultDone |
      setResultDone => cases ho
  | _ => cases hmark

theorem asideOp_result {callback : ClientCallback} {result : ResultCode} {extraInfo : AuthResult} :
    AsideOp t (.onResult callback result extraInfo) := by
  intro r mk hmark
  cases hmark
  simp

theorem Aside.append (hl : Aside l) (hmk : Aside [mk]) : Aside (l ++ [mk]) := by
  intro mk' hmem
  rcases List.mem_append.mp hmem with hmem | hmem
  · exact hl mk' hmem
  · exact hmk mk' hmem

theorem along_aside {p : UserAuthProg α} (hp : p.All (AsideOp t)) (hl : Aside l)
    (hshape : FlagShape l) :
    AlongSilence t p (fun _ l' => Aside l' ∧ FlagShape l') l := by
  induction p generalizing l with
  | ret a => exact ⟨hl, hshape⟩
  | call o k ih =>
    intro r
    cases hmark : silenceMark (.op t o r) with
    | none =>
      rw [Option.toList_none, List.append_nil]
      exact ⟨hshape, ih r (hp.2 r) hl hshape⟩
    | some mk =>
      obtain ⟨hdone, hrest⟩ := hp.1 r mk hmark
      have hshape' : FlagShape (l ++ [mk]) :=
        hshape.append fun i hmem => hdone i (List.mem_singleton.mp hmem).symm
      refine ⟨hshape', ih r (hp.2 r) (hl.append fun mk' hmem => ?_) hshape'⟩
      rw [List.mem_singleton.mp hmem]
      exact hrest

theorem flagShape_of_notMem (h : ∀ i, .done i ∉ l) : FlagShape l :=
  fun i hdone => absurd hdone (h i)

/-- What `OnFinish` does about the post and the result. -/
theorem along_onFinish_silence (scheduleToken : List UInt8) :
    AlongSilence t (onFinish i self resultCode scheduleToken)
      (fun _ l' => Ended l' ∧ FlagShape l') [.report i self] := by
  intro ret
  have hposted : FlagShape [.report i self, .posted self.callbackContextId ret] :=
    flagShape_of_notMem (by simp)
  refine ⟨hposted, ?_⟩
  cases ret with
  | true =>
    have haside : Aside [.report i self, .posted self.callbackContextId true] := by simp [Aside]
    exact ⟨.inl haside, hposted⟩
  | false =>
    intro _
    have htold : FlagShape [.report i self, .posted self.callbackContextId false, .told] :=
      flagShape_of_notMem (by simp)
    refine ⟨htold, fun _ => ?_⟩
    have hdone := htold.done (i := i) self (.inr (by simp)) (.inr (by simp))
    have haside : Aside [.report i self, .posted self.callbackContextId false, .told, .done i] := by
      simp [Aside]
    exact ⟨hdone, .inl haside, hdone⟩

theorem along_onAcquireInfo_silence (acquire : UInt32) :
    AlongSilence t (onAcquireInfo i self acquire)
      (fun _ l' => Ended l' ∧ FlagShape l') [.report i self] := by
  intro ret
  have hposted : FlagShape [.report i self, .posted self.callbackContextId ret] :=
    flagShape_of_notMem (by simp)
  refine ⟨hposted, ?_⟩
  cases ret with
  | true =>
    have haside : Aside [.report i self, .posted self.callbackContextId true] := by simp [Aside]
    exact ⟨.inl haside, hposted⟩
  | false =>
    intro _
    have hdone := hposted.done (i := i) self (.inr (by simp)) (.inr (by simp))
    have haside : Aside [.report i self, .posted self.callbackContextId false, .done i] := by
      simp [Aside]
    exact ⟨hdone, .inl haside, hdone⟩

theorem along_ended {p : UserAuthProg α} (hp : p.All (AsideOp t)) :
    AlongSilence t p (fun _ l' => Ended l' ∧ FlagShape l') [] :=
  (along_aside hp (fun _ h => by cases h) flagShape_nil).mono fun _ _ hl => ⟨.inl hl.1, hl.2⟩

theorem asideOp_unmarked {o : UserAuthOp} (ho : ∀ r, silenceMark (.op t o r) = none) :
    AsideOp t o := by
  intro r mk hmark
  rw [ho r] at hmark
  cases hmark

/-- **What a thread does**, of whatever call. -/
theorem along_silence (kit : AccessTokenKit) (t : Nat) (call : UserAuthCall) :
    FlagShape (silenceMark (.spawn t call)).toList ∧
      AlongSilence t (userAuthBody kit call) (fun _ l' => Ended l' ∧ FlagShape l')
        (silenceMark (.spawn t call)).toList := by
  refine ⟨flagShape_of_notMem ?_, ?_⟩
  · intro i
    cases call with
    | task p posted =>
      cases posted with
      | ensureTransaction => simp [silenceMark]
      | run handle => cases handle <;> simp [silenceMark]
    | _ => simp [silenceMark]
  · cases call with
    | auth caller challenge authType authTrustLevel callback =>
      exact along_ended (auth_all kit caller (fun _ => asideOp_of_prepares)
        (fun _ _ _ => asideOp_result) _ _ _ _).discard
    | authUser caller userId challenge authType authTrustLevel callback =>
      exact along_ended (authUser_all kit caller (fun _ => asideOp_of_prepares)
        (fun _ _ _ => asideOp_result) _ _ _ _ _).discard
    | cancelAuth caller contextId =>
      exact along_ended ((cancelAuth_quiet kit caller contextId).mono fun _ ho =>
        asideOp_of_prepares (UserAuthOp.prepares_of_quiet ho)).discard
    | onFinish i self scheduleId resultCode scheduleToken =>
      exact along_onFinish_silence scheduleToken
    | onAcquireInfo i self scheduleId acquire => exact along_onAcquireInfo_silence acquire
    | task p posted =>
      cases posted with
      | ensureTransaction =>
        exact along_ended (t := t) ⟨asideOp_unmarked fun _ => rfl, fun _ => trivial⟩
      | run handle =>
        cases handle with
        | onFinishHandle i self resultCode scheduleToken =>
          have hstart : FlagShape [.handle i self resultCode] := flagShape_of_notMem (by simp)
          show AlongSilence t (underLock i _ >>= fun _ => .call (.endTask p) .ret) _ _
          rw [underLock_bind]
          refine .skip hstart (fun _ => rfl) fun _ => ?_
          refine (along_handleLocked_silence scheduleToken rfl).bind fun _ l' hl => ?_
          refine .skip hl.1 (fun _ => rfl) fun _ => .skip hl.1 (fun _ => rfl) fun _ => ?_
          exact ⟨.inr ⟨i, self, resultCode, hl.2⟩, hl.1⟩
        | onAcquireInfoHandle i self acquire =>
          show AlongSilence t (underLock i _ >>= fun _ => .call (.endTask p) .ret) _ _
          rw [underLock_bind]
          refine along_ended ⟨asideOp_unmarked fun _ => rfl, fun _ => Prog.All.bind ?_ fun _ => ?_⟩
          · refine ⟨fun r mk hmark => ?_, fun done =>
              Prog.all_ite.mpr ⟨fun _ => trivial, fun _ => ?_⟩⟩
            · cases hmark
              simp
            · exact ⟨asideOp_unmarked fun _ => rfl, fun _ => trivial⟩
          · exact ⟨asideOp_unmarked fun _ => rfl, fun _ =>
              ⟨asideOp_unmarked fun _ => rfl, fun _ => trivial⟩⟩

/-! ## 3. Runs -/

theorem silenceMark_spawn {call : UserAuthCall} (h : silenceMark (.spawn t call) = some mk) :
    (∃ i self resultCode, mk = .handle i self resultCode) ∨ ∃ i self, mk = .report i self := by
  cases call with
  | auth | authUser | cancelAuth => cases h
  | onFinish | onAcquireInfo => exact .inr ⟨_, _, (Option.some.inj h).symm⟩
  | task p posted =>
    cases posted with
    | ensureTransaction => cases h
    | run handle =>
      cases handle with
      | onFinishHandle => exact .inl ⟨_, _, _, (Option.some.inj h).symm⟩
      | onAcquireInfoHandle => cases h

/-- Any other mark is that of an operation. -/
theorem op_of_mark {w : UserAuthWorld} (h : mk ∈ w.marks silenceMark t)
    (hhandle : ∀ i self resultCode, mk ≠ .handle i self resultCode)
    (hreport : ∀ i self, mk ≠ .report i self) :
    ∃ o r, .op t o r ∈ w.trace ∧ silenceMark (.op t o r) = some mk := by
  obtain ⟨e, he, htid, hmark⟩ := (World.mem_marks _).mp h
  cases e with
  | spawn t' call =>
    rcases silenceMark_spawn hmark with ⟨i, self, resultCode, rfl⟩ | ⟨i, self, rfl⟩
    · exact absurd rfl (hhandle i self resultCode)
    · exact absurd rfl (hreport i self)
  | op t' o r =>
    obtain rfl : t' = t := htid
    exact ⟨o, r, he, hmark⟩

theorem mem_marks_spawned {w : UserAuthWorld} {s : UserAuthState} {t' : Nat} {call : UserAuthCall}
    (h : mk ∈ (w.push s (.spawn t' call)).marks silenceMark t)
    (hhandle : ∀ i self resultCode, mk ≠ .handle i self resultCode)
    (hreport : ∀ i self, mk ≠ .report i self) : mk ∈ w.marks silenceMark t := by
  obtain ⟨o, r, hop, hmark⟩ := op_of_mark h hhandle hreport
  exact (World.mem_marks _).mpr ⟨_, by simpa using hop, rfl, hmark⟩

theorem released_of_mark {w : UserAuthWorld} (h : .released X ∈ w.marks silenceMark t) :
    Released X w := by
  obtain ⟨o, r, hop, hmark⟩ := op_of_mark h (by simp) (by simp)
  cases o with
  | deleteCoAuthCallback contextId =>
    cases hmark
    exact ⟨t, r, hop⟩
  | _ => cases hmark

theorem refused_of_mark {w : UserAuthWorld} (h : .posted X false ∈ w.marks silenceMark t) :
    Refused X w := by
  obtain ⟨o, r, hop, hmark⟩ := op_of_mark h (by simp) (by simp)
  cases o with
  | postTask contextId posted =>
    cases hmark
    exact ⟨t, posted, hop⟩
  | _ => cases hmark

theorem silence_thread (hc : (userAuth kit).Reachable ok .initial c) (t : Nat) :
    FlagShape (c.world.marks silenceMark t) ∧
      (c.threads[t]? = some (.ret ()) → Ended (c.world.marks silenceMark t)) := by
  obtain ⟨hshape, hended⟩ := reachable_along flagShape_nil (along_silence kit) hc t
  exact ⟨hshape, fun hret => (hended hret).1⟩

/-- The call of a thread is unique. -/
theorem spawn_unique (hc : (userAuth kit).Reachable ok .initial c) {call call' : UserAuthCall}
    (h : .spawn t call ∈ c.world.trace) (h' : .spawn t call' ∈ c.world.trace) : call = call' := by
  have heq := (hc.own_head h).symm.trans (hc.own_head h')
  injection Option.some.inj heq

/-- A mark that only the start of a thread has. -/
theorem exists_about (h : (∃ resultCode, .handle i self resultCode ∈ c.world.marks silenceMark t) ∨
      .report i self ∈ c.world.marks silenceMark t) :
    ∃ call, .spawn t call ∈ c.world.trace ∧ call.about i self := by
  have hstart {e : UserAuthEvent} (he : e ∈ c.world.trace) (htid : e.tid = t)
      (hmark : (∃ resultCode, silenceMark e = some (.handle i self resultCode)) ∨
        silenceMark e = some (.report i self)) :
      ∃ call, .spawn t call ∈ c.world.trace ∧ call.about i self := by
    cases e with
    | op t' o r => cases o <;> simp [silenceMark] at hmark
    | spawn t' call =>
      obtain rfl : t' = t := htid
      refine ⟨call, he, ?_⟩
      cases call with
      | auth | authUser | cancelAuth => simp [silenceMark] at hmark
      | onFinish | onAcquireInfo => simpa [silenceMark, UserAuthCall.about] using hmark
      | task p posted =>
        cases posted with
        | ensureTransaction => simp [silenceMark] at hmark
        | run handle =>
          cases handle with
          | onFinishHandle =>
            obtain ⟨resultCode, hmark⟩ : ∃ resultCode, _ :=
              hmark.resolve_right (by simp [silenceMark])
            simp only [silenceMark, Option.some.injEq, SilenceMark.handle.injEq] at hmark
            exact ⟨hmark.1, hmark.2.1⟩
          | onAcquireInfoHandle => simp [silenceMark] at hmark
  rcases h with ⟨resultCode, h⟩ | h
  · obtain ⟨e, he, htid, hmark⟩ := (World.mem_marks _).mp h
    exact hstart he htid (.inl ⟨resultCode, hmark⟩)
  · obtain ⟨e, he, htid, hmark⟩ := (World.mem_marks _).mp h
    exact hstart he htid (.inr hmark)

theorem UserAuthCall.serves_of_about {call : UserAuthCall} (h : call.about i self) :
    call.serves i = true := by
  cases call with
  | auth | authUser | cancelAuth => cases h
  | onFinish | onAcquireInfo => exact decide_eq_true h.1
  | task p posted =>
    cases posted with
    | ensureTransaction => cases h
    | run handle => cases handle <;> exact decide_eq_true h.1

theorem UserAuthCall.about.eq_of_serves {call : UserAuthCall} {j : Nat} (h : call.about j self)
    (hserves : call.serves i = true) : j = i := by
  cases call with
  | auth | authUser | cancelAuth => cases h
  | onFinish | onAcquireInfo => exact h.1.symm.trans (of_decide_eq_true hserves)
  | task p posted =>
    cases posted with
    | ensureTransaction => cases h
    | run handle => cases handle <;> exact h.1.symm.trans (of_decide_eq_true hserves)

/-- The members of the callback that was saved for a context. -/
theorem context_of_known (hc : (userAuth kit).Reachable ok .initial c)
    (hsaved : SavedAs X i c.world) (hknown : Known i self c.world) :
    self.callbackContextId = X := by
  obtain ⟨t, ht⟩ := hsaved
  obtain ⟨impl, n, -, rfl, heq⟩ := (lifeShape kit hc t).eq_of_saved ht
  have hmade : .made i impl ∈ c.world.marks lifeMark t := by
    rw [heq]
    simp [acceptance]
  have hcallback := (genuine_reachable hc).made t i impl hmade
  rw [Option.some.inj (hknown.callback.symm.trans hcallback)]

/-! ### The done flag -/

theorem mem_marks_op {Mark : Type} {mark : UserAuthEvent → Option Mark} {k : Mark}
    {w : UserAuthWorld} {o : UserAuthOp} {r : UserAuthRes o} (h : .op t o r ∈ w.trace)
    (hmark : mark (.op t o r) = some k) : k ∈ w.marks mark t :=
  (World.mem_marks mark).mpr ⟨_, h, rfl, hmark⟩

theorem isResultDone_handle {s : UserAuthState} {env : UserAuthEnv} {o : UserAuthOp}
    (h : (userAuthHandle t env s o).2.isResultDone i = true) :
    s.isResultDone i = true ∨ o = .setResultDone i := by
  cases o with
  | addContextId | deleteContextId | setScheduleIds =>
    simp only [userAuthHandle] at h
    split at h <;> exact .inl h
  | saveCoAuthCallback contextId j =>
    simp only [userAuthHandle, UserAuth.saveCoAuthCallback] at h
    split at h
    · exact .inl h
    · split at h <;> exact .inl h
  | setResultDone j =>
    by_cases hij : i = j
    · exact .inr (by rw [hij])
    · have h : Function.update s.isResultDone j true i = true := h
      rw [Function.update_of_ne hij] at h
      exact .inl h
  | _ => exact .inl h

/-- Whoever finds the done flag set comes after a call that has set it. -/
theorem done_of_flag (hc : (userAuth kit).Reachable ok .initial c)
    (h : .flag i true ∈ c.world.marks silenceMark t) :
    ∃ t', .done i ∈ c.world.marks silenceMark t' := by
  -- the induction needs the flag itself, not only what has been read of it
  have hinv : (c.world.state.isResultDone i = true ∨
      ∃ t, .flag i true ∈ c.world.marks silenceMark t) →
      ∃ t', .done i ∈ c.world.marks silenceMark t' := by
    clear h
    induction hc with
    | init =>
      rintro (h | ⟨t, h⟩)
      · cases h
      · cases h
    | @spawn c call s hc _ hs ih =>
      intro h
      have hold : c.world.state.isResultDone i = true ∨
          ∃ t, .flag i true ∈ c.world.marks silenceMark t := by
        rcases h with h | ⟨t, h⟩
        · left
          rcases userAuthAccept_cases hs with ⟨rfl, -⟩ | ⟨p, posted, groups, -, -, rfl⟩ <;> exact h
        · exact .inr ⟨t, mem_marks_spawned h (by simp) (by simp)⟩
      obtain ⟨t', ht'⟩ := ih hold
      exact ⟨t', mem_marks_push ht'⟩
    | @run c tid o k env hc _ _ _ ih =>
      intro h
      by_cases hset : o = .setResultDone i
      · subst hset
        exact ⟨tid, mem_marks_op (List.mem_append_right _ (List.mem_singleton_self _)) rfl⟩
      · have hold : c.world.state.isResultDone i = true ∨
            ∃ t, .flag i true ∈ c.world.marks silenceMark t := by
          rcases h with h | ⟨t, h⟩
          · exact .inl ((isResultDone_handle h).resolve_right hset)
          · rcases mem_marks_performed h with h | ⟨-, hmark⟩
            · exact .inr ⟨t, h⟩
            · cases o with
              | isResultDone j =>
                obtain ⟨rfl, hflag⟩ := SilenceMark.flag.inj (Option.some.inj hmark)
                exact .inl hflag
              | _ => cases hmark
        obtain ⟨t', ht'⟩ := ih hold
        exact ⟨t', mem_marks_push ht'⟩
  exact hinv (.inr ⟨t, h⟩)

/-! ### The counter -/

/-- The finishes that have been handled for the `i`-th callback. -/
def handled (i : Nat) (w : UserAuthWorld) : Nat :=
  w.trace.countP fun
    | .op _ (.incCallbackNowCount j) _ => j = i
    | _ => false

theorem callbackNowCount_handle {s : UserAuthState} {env : UserAuthEnv} {o : UserAuthOp}
    (ho : o ≠ .incCallbackNowCount i) :
    (userAuthHandle t env s o).2.callbackNowCount i = s.callbackNowCount i := by
  cases o with
  | addContextId | deleteContextId | setScheduleIds =>
    simp only [userAuthHandle]
    split <;> rfl
  | saveCoAuthCallback contextId j =>
    simp only [userAuthHandle, UserAuth.saveCoAuthCallback]
    split
    · rfl
    · split <;> rfl
  | incCallbackNowCount j =>
    have hij : i ≠ j := by
      rintro rfl
      exact ho rfl
    exact Function.update_of_ne hij _ _
  | _ => rfl

theorem handled_push_spawn {w : UserAuthWorld} {s : UserAuthState} {call : UserAuthCall} :
    handled i (w.push s (.spawn t call)) = handled i w := by
  simp [handled]

theorem handled_perform_of_ne {w : UserAuthWorld} {o : UserAuthOp} {env : UserAuthEnv}
    (ho : o ≠ .incCallbackNowCount i) :
    handled i ((userAuth kit).perform w t o env) = handled i w := by
  cases o with
  | incCallbackNowCount j =>
    have hij : j ≠ i := by
      rintro rfl
      exact ho rfl
    simp [handled, Machine.perform, hij]
  | _ => simp [handled, Machine.perform]

theorem handled_perform_self {w : UserAuthWorld} {env : UserAuthEnv} :
    handled i ((userAuth kit).perform w t (.incCallbackNowCount i) env) = handled i w + 1 := by
  simp [handled, Machine.perform]

/-- The counter counts the handles, modulo its size. -/
theorem callbackNowCount_eq (hc : (userAuth kit).Reachable ok .initial c) :
    c.world.state.callbackNowCount i = UInt32.ofNat (handled i c.world) := by
  induction hc with
  | init => rfl
  | spawn _ _ hs ih =>
    rw [handled_push_spawn, ← ih]
    rcases userAuthAccept_cases hs with ⟨rfl, -⟩ | ⟨p, posted, groups, -, -, rfl⟩ <;> rfl
  | @run c tid o k env _ _ _ _ ih =>
    by_cases ho : o = .incCallbackNowCount i
    · subst ho
      show Function.update c.world.state.callbackNowCount i _ i = _
      rw [Function.update_self, handled_perform_self, ih, UInt32.ofNat_add]
      rfl
    · rw [handled_perform_of_ne ho, ← ih]
      exact callbackNowCount_handle ho

/-- The counter is zero after a handle once it has run through all its values. -/
theorem now_zero_iff (hc : (userAuth kit).Reachable ok .initial c) :
    (∃ t, .now i 0 ∈ c.world.marks silenceMark t) ↔ 2 ^ 32 ≤ handled i c.world := by
  induction hc with
  | init =>
    constructor
    · rintro ⟨t, h⟩
      cases h
    · intro h
      simp [handled] at h
  | @spawn c call s _ _ _ ih =>
    rw [handled_push_spawn, ← ih]
    constructor
    · rintro ⟨t, h⟩
      exact ⟨t, mem_marks_spawned h (by simp) (by simp)⟩
    · rintro ⟨t, h⟩
      exact ⟨t, mem_marks_push h⟩
  | @run c tid o k env hc _ _ _ ih =>
    -- The counter has 32 bits, so it reads zero after 2^32 increments.
    by_cases ho : o = .incCallbackNowCount i
    · subst ho
      have hanswer : (userAuth kit).answer c.world tid (.incCallbackNowCount i) env =
          UInt32.ofNat (handled i c.world + 1) := by
        rw [UInt32.ofNat_add, ← callbackNowCount_eq hc]
        rfl
      rw [handled_perform_self]
      constructor
      · rintro ⟨t, h⟩
        rcases mem_marks_performed h with h | ⟨-, hmark⟩
        · have := ih.mp ⟨t, h⟩
          omega
        · have hzero := (SilenceMark.now.inj (Option.some.inj hmark)).2
          rw [hanswer, ← UInt32.toNat_inj, UInt32.toNat_ofNat'] at hzero
          exact Nat.le_of_dvd (Nat.succ_pos _) (Nat.dvd_of_mod_eq_zero hzero)
      · intro h
        by_cases hold : 2 ^ 32 ≤ handled i c.world
        · obtain ⟨t, ht⟩ := ih.mpr hold
          exact ⟨t, mem_marks_push ht⟩
        · have heq : handled i c.world + 1 = 2 ^ 32 := by omega
          refine ⟨tid, mem_marks_op (List.mem_append_right _ (List.mem_singleton_self _)) ?_⟩
          rw [hanswer, heq]
          rfl
    · rw [handled_perform_of_ne ho, ← ih]
      constructor
      · rintro ⟨t, h⟩
        rcases mem_marks_performed h with h | ⟨-, hmark⟩
        · exact ⟨t, h⟩
        · cases o with
          | incCallbackNowCount j =>
            obtain ⟨rfl, -⟩ := SilenceMark.now.inj (Option.some.inj hmark)
            exact absurd rfl ho
          | _ => cases hmark
      · rintro ⟨t, h⟩
        exact ⟨t, mem_marks_push h⟩

/-! ## 4. Answers -/

/-- The call is the finish of a schedule that was begun with a callback. -/
def UserAuthCall.reports (b : UInt64 × Nat) : UserAuthCall → Bool
  | .onFinish i _ scheduleId .. => (scheduleId, i) = b
  | _ => false

/-- The request has returned, each of its schedules has finished, and nothing that was posted for
the callback is left. -/
structure AtRest (i : Nat) (c : UserAuthConfig) : Prop where
  started : ∀ t X, .saved X i .success ∈ c.world.marks lifeMark t →
    c.threads[t]? = some (.ret ())
  reported : ∀ b ∈ c.world.state.begun, b.2 = i → c.world.spawned (UserAuthCall.reports b) ≠ []
  returned : ∀ t ∈ c.world.spawned (UserAuthCall.serves i), c.threads[t]? = some (.ret ())
  posted : c.world.state.groups.AllTasks fun task => task.serves i = false

/-- The client has its result, and nothing is kept for the context. -/
def Concluded (X : UInt64) (i : Nat) (w : UserAuthWorld) : Prop :=
  results i w ≠ [] ∧ w.state.saveCoAuthCallback X = none ∧ retainedFor X w.state = false ∧
    w.state.contexts X = none

/-- A finish of the callback has been canceled, or found no HDI, or had an answer other than
`E_RET_UNDONE`. -/
def Decided (i : Nat) (w : UserAuthWorld) : Prop :=
  ∃ t self resultCode, .handle i self resultCode ∈ w.marks silenceMark t ∧
    Decides resultCode (w.marks silenceMark t)

theorem Handled.handle_mem (h : Handled i self resultCode l) : .handle i self resultCode ∈ l := by
  cases h <;> simp

/-- The marks of a handle name its callback. -/
theorem Handled.eq (h : Handled i self resultCode l) {j : Nat} {impl : UserAuthCallbackImplCoAuth}
    {code : UInt32} (hj : .handle j impl code ∈ l) : j = i ∧ impl = self ∧ code = resultCode := by
  cases h with
  | known | waits => simpa using hj
  | ended k hasked _ hrest =>
    rcases List.mem_append.mp hj with hj | hj
    · rcases List.mem_append.mp hj with hj | hj
      · simpa using hj
      · rcases hasked _ hj with heq | heq | ⟨ret, heq⟩ <;> cases heq
    · rcases (hrest _).mp hj with heq | heq | heq | heq <;> cases heq

theorem Decides.mono {l' : List SilenceMark} (h : Decides resultCode l) (hl : l ⊆ l') :
    Decides resultCode l' := by
  rcases h with hcode | hhdi | ⟨ret, hne, hanswer⟩
  · exact .inl hcode
  · exact .inr (.inl (hl hhdi))
  · exact .inr (.inr ⟨ret, hne, hl hanswer⟩)

/-- A handle that has released its context has told its client. -/
theorem Handled.of_released (h : Handled i self resultCode l) (hreleased : .released X ∈ l) :
    .told ∈ l ∧ .dropped self.callbackContextId ∈ l ∧
      (.now i self.callbackCount ∈ l ∨ Decides resultCode l) := by
  cases h with
  | known | waits => simp at hreleased
  | ended k hasked hwhy hrest =>
    refine ⟨List.mem_append_right _ ((hrest _).mpr (.inl rfl)),
      List.mem_append_right _ ((hrest _).mpr (.inr (.inl rfl))), ?_⟩
    rcases hwhy with rfl | hdecides
    · exact .inl (by simp)
    · exact .inr (hdecides.mono fun mk hmk => by simp [hmk])

/-- A handle with a reason to end its context has released it, or found the done flag set. -/
theorem Handled.ended_of_why (h : Handled i self resultCode l)
    (hwhy : .now i self.callbackCount ∈ l ∨ Decides resultCode l) :
    .flag i true ∈ l ∨ .released self.callbackContextId ∈ l := by
  cases h with
  | known => exact .inl (by simp)
  | waits k hcode hk =>
    rcases hwhy with hnow | hcanceled | hhdi | ⟨ret, hne, hanswer⟩
    · have heq : self.callbackCount = k := by simpa using hnow
      exact absurd heq.symm hk
    · exact absurd hcanceled hcode
    · simp at hhdi
    · have heq : ret = .eRetUndone := by simpa using hanswer
      exact absurd heq hne
  | ended k hasked _ hrest =>
    exact .inr (List.mem_append_right _ ((hrest _).mpr (.inr (.inr (.inl rfl)))))

section Answers

variable (hc : (userAuth kit).Reachable (drawnOnce X) .initial c) (hsaved : SavedAs X i c.world)
  (hatRest : AtRest i c)

include hc hsaved

/-- What is known of a call on the callback. -/
theorem about_saved (h : ∃ call, .spawn t call ∈ c.world.trace ∧ call.about i self) :
    self.callbackCount = 0 ∧ self.callbackContextId = X ∧
      t ∈ c.world.spawned (UserAuthCall.serves i) := by
  obtain ⟨call, hcall, habout⟩ := h
  have hknown := (genuine_reachable hc).calls t call hcall i self habout
  exact ⟨hknown.count, context_of_known hc hsaved hknown,
    World.mem_spawned.mpr ⟨call, hcall, UserAuthCall.serves_of_about habout⟩⟩

/-- When the done flag has been found set, the thread of the context is not retained. -/
theorem not_retained_of_flag (hflag : .flag i true ∈ c.world.marks silenceMark t) :
    retainedFor X c.world.state = false := by
  obtain ⟨t', hdone⟩ := done_of_flag hc hflag
  obtain ⟨self, habout, hgone⟩ := (silence_thread hc t').1 i hdone
  obtain ⟨-, rfl, -⟩ := about_saved hc hsaved (exists_about habout)
  have hlife := life_reachable hc
  rcases hgone with hreleased | hrefused
  · exact (hlife.released (released_of_mark hreleased)).2
  · exact hlife.refused (refused_of_mark hrefused)

include hatRest

/-- A thread that handles a finish of the callback has handled it. -/
theorem handled_of_atRest (hserves : t ∈ c.world.spawned (UserAuthCall.serves i))
    (hmark : (∃ j self resultCode, .handle j self resultCode ∈ c.world.marks silenceMark t) ∨
      (∃ j k, .now j k ∈ c.world.marks silenceMark t) ∨
      ∃ X, .released X ∈ c.world.marks silenceMark t) :
    ∃ self resultCode, Handled i self resultCode (c.world.marks silenceMark t) ∧
      self.callbackCount = 0 ∧ self.callbackContextId = X := by
  rcases (silence_thread hc t).2 (hatRest.returned t hserves) with haside | hhandled
  · rcases hmark with ⟨j, self, resultCode, h⟩ | ⟨j, k, h⟩ | ⟨Y, h⟩
    · exact absurd rfl ((haside _ h).1 j self resultCode)
    · exact absurd rfl ((haside _ h).2.1 j k)
    · exact absurd rfl ((haside _ h).2.2 Y)
  · obtain ⟨j, self, resultCode, hhandled⟩ := hhandled
    obtain ⟨call, hcall, habout⟩ := exists_about (.inl ⟨resultCode, hhandled.handle_mem⟩)
    obtain ⟨call', hcall', hserves'⟩ := World.mem_spawned.mp hserves
    obtain rfl := habout.eq_of_serves (spawn_unique hc hcall hcall' ▸ hserves')
    obtain ⟨hcount, hX, -⟩ := about_saved hc hsaved ⟨call, hcall, habout⟩
    exact ⟨self, resultCode, hhandled, hcount, hX⟩

/-- A callback at rest whose context is not retained any more has been decided. -/
theorem concluded_of_not_retained (h : retainedFor X c.world.state = false) :
    Concluded X i c.world ∧ (Decided i c.world ∨ 2 ^ 32 ≤ handled i c.world) := by
  have hlife := life_reachable hc
  have hreleased : Released X c.world := by
    by_contra hnot
    rw [(hlife.held i hsaved hnot).2] at h
    cases h
  obtain ⟨t, r, hop⟩ := hreleased
  obtain ⟨call, hcall⟩ := hc.exists_spawn (List.getElem?_eq_getElem (hc.fresh _ hop))
  obtain ⟨j, self, habout, hX⟩ :=
    (hc.all_ops (P := permits) hcall (userAuthBody_permits kit call)).1 _ _ hop
  obtain rfl : j = i := by
    refine savedAs_unique hc ?_ hsaved
    rw [hX]
    exact ((genuine_reachable hc).calls t call hcall j self habout).saved
  have hserves : t ∈ c.world.spawned (UserAuthCall.serves j) :=
    World.mem_spawned.mpr ⟨call, hcall, UserAuthCall.serves_of_about habout⟩
  have hreleased : .released X ∈ c.world.marks silenceMark t := mem_marks_op hop rfl
  obtain ⟨impl, resultCode, hhandled, hcount, hcontext⟩ :=
    handled_of_atRest hc hsaved hatRest hserves (.inr (.inr ⟨X, hreleased⟩))
  obtain ⟨htold, hdropped, hwhy⟩ := hhandled.of_released hreleased
  refine ⟨⟨?_, (hlife.released ⟨t, r, hop⟩).1, h, hlife.dropped ?_⟩, ?_⟩
  · obtain ⟨o, r', hresult, hmark⟩ := op_of_mark htold (by simp) (by simp)
    cases o with
    | onResult callback result extraInfo =>
      refine List.ne_nil_of_mem (List.mem_filter.mpr ⟨hresult, ?_⟩)
      show speaksFor j c.world t = true
      rw [speaksFor, List.contains_iff_mem.mpr hserves, Bool.true_or]
    | _ => cases hmark
  · obtain ⟨o, r', hdelete, hmark⟩ := op_of_mark hdropped (by simp) (by simp)
    cases o with
    | deleteContextId contextId =>
      cases hmark
      rw [hcontext] at hdelete
      exact ⟨t, call, j, self, r', hcall, habout, hX.symm, hdelete⟩
    | _ => cases hmark
  · rcases hwhy with hnow | hdecides
    · rw [hcount] at hnow
      exact .inr ((now_zero_iff hc).mp ⟨t, hnow⟩)
    · exact .inl ⟨t, impl, resultCode, hhandled.handle_mem, hdecides⟩

/-- A callback at rest that has been decided has released the thread of its context. -/
theorem not_retained_of_decided (h : Decided i c.world ∨ 2 ^ 32 ≤ handled i c.world) :
    retainedFor X c.world.state = false := by
  have hgone {t : Nat} {self : UserAuthCallbackImplCoAuth} (hX : self.callbackContextId = X)
      (h : .flag i true ∈ c.world.marks silenceMark t ∨
        .released self.callbackContextId ∈ c.world.marks silenceMark t) :
      retainedFor X c.world.state = false := by
    rcases h with hflag | hreleased
    · exact not_retained_of_flag hc hsaved hflag
    · rw [hX] at hreleased
      exact ((life_reachable hc).released (released_of_mark hreleased)).2
  rcases h with ⟨t, self, resultCode, hhandle, hdecides⟩ | hcount
  · obtain ⟨-, -, hserves⟩ := about_saved hc hsaved (exists_about (.inl ⟨resultCode, hhandle⟩))
    obtain ⟨impl, code, hhandled, -, hX⟩ :=
      handled_of_atRest hc hsaved hatRest hserves (.inl ⟨i, self, resultCode, hhandle⟩)
    obtain ⟨-, -, rfl⟩ := hhandled.eq hhandle
    exact hgone hX (hhandled.ended_of_why (.inr hdecides))
  · obtain ⟨t, hnow⟩ := (now_zero_iff hc).mpr hcount
    obtain ⟨o, r, hop, hmark⟩ := op_of_mark hnow (by simp) (by simp)
    obtain ⟨call, hcall⟩ := hc.exists_spawn (List.getElem?_eq_getElem (hc.fresh _ hop))
    have hpermits := (hc.all_ops (P := permits) hcall (userAuthBody_permits kit call)).1 o r hop
    cases o with
    | incCallbackNowCount j =>
      obtain ⟨rfl, rfl⟩ := SilenceMark.now.inj (Option.some.inj hmark)
      obtain ⟨self, habout⟩ := hpermits
      obtain ⟨-, -, hserves⟩ := about_saved hc hsaved ⟨call, hcall, habout⟩
      obtain ⟨impl, code, hhandled, hzero, hX⟩ :=
        handled_of_atRest hc hsaved hatRest hserves (.inr (.inl ⟨_, _, hnow⟩))
      refine hgone hX (hhandled.ended_of_why (.inl ?_))
      rwa [hzero]
    | _ => cases hmark

/-- **Which authentications conclude.**  When everything that an accepted request has started has
run, its client has heard a result and nothing is kept for the context exactly if a finish was
decided otherwise than with `E_RET_UNDONE`, or the counter has come back to zero. -/
theorem concluded_iff :
    Concluded X i c.world ↔ Decided i c.world ∨ 2 ^ 32 ≤ handled i c.world := by
  constructor
  · intro h
    exact (concluded_of_not_retained hc hsaved hatRest h.2.2.1).2
  · intro h
    have hgone := not_retained_of_decided hc hsaved hatRest h
    exact (concluded_of_not_retained hc hsaved hatRest hgone).1

end Answers

/-! ### A finish that is undone -/

/-- One finish, and what the HDI answers. -/
def silenceRun (env : UserAuthEnv) (n : Nat) : List (Machine.Label UserAuthEnv UserAuthCall) :=
  scenarioAuth [7] ++ scenarioFinish 2 7 0 ++ scenarioVerdict 3 0 env ++ scenarioRun 3 n

def noTask (s : UserAuthState) : Bool :=
  s.groups.threads.all fun thread => thread.tasks.all fun
    | .run _ => false
    | .ensureTransaction .. => true

theorem atRest_of_checks (hc : (userAuth kit).Reachable ok .initial c)
    (hreturned : c.threads.all Prog.returned = true)
    (hreported : c.world.state.begun.all
      (fun b => !(c.world.spawned (UserAuthCall.reports b)).isEmpty) = true)
    (hposted : noTask c.world.state = true) : AtRest i c := by
  have hthread (e : UserAuthEvent) (he : e ∈ c.world.trace) :
      c.threads[e.tid]? = some (.ret ()) := by
    have hlt := hc.fresh e he
    rw [List.getElem?_eq_getElem hlt]
    rw [Prog.eq_ret_of_returned (List.all_eq_true.mp hreturned _ (List.getElem_mem hlt))]
  refine ⟨fun t Y h => ?_, fun b hb _ => ?_, fun t ht => ?_, fun thread hthread a ha => ?_⟩
  · obtain ⟨e, he, rfl, -⟩ := (World.mem_marks _).mp h
    exact hthread e he
  · simpa using List.all_eq_true.mp hreported b hb
  · obtain ⟨call, hcall, -⟩ := World.mem_spawned.mp ht
    exact hthread _ hcall
  · cases List.all_eq_true.mp (List.all_eq_true.mp hposted thread hthread) _ ha

/-- The one schedule of a context is undone: the client hears nothing. -/
theorem concluded_undone :
    ¬∀ (kit : AccessTokenKit) (X : UInt64) (i : Nat) (c : UserAuthConfig),
      (userAuth kit).Reachable (drawnOnce X) .initial c → SavedAs X i c.world → AtRest i c →
        Concluded X i c.world := by
  intro h
  have hrun : ((userAuth scenarioKit).exec (drawnOnce 1) ⟨⟨.initial, []⟩, []⟩
      (silenceRun { ret := .eRetUndone } 2)).map (fun c =>
        (decide (.saved 1 0 .success ∈ c.world.marks lifeMark 0), c.threads.all Prog.returned,
          c.world.state.begun.all (fun b => !(c.world.spawned (UserAuthCall.reports b)).isEmpty),
          noTask c.world.state, (results 0 c.world).isEmpty)) =
      some (true, true, true, true, true) := by decide +kernel
  obtain ⟨c, hc, hchecks⟩ := Option.map_eq_some_iff.mp hrun
  simp only [Prod.mk.injEq] at hchecks
  obtain ⟨hsaved, hreturned, hreported, hposted, hempty⟩ := hchecks
  have hreach : (userAuth scenarioKit).Reachable (drawnOnce 1) .initial c := .exec .init hc
  have hconcluded := h scenarioKit 1 0 c hreach ⟨0, of_decide_eq_true hsaved⟩
    (atRest_of_checks hreach hreturned hreported hposted)
  exact hconcluded.1 (List.isEmpty_iff.mp hempty)

/-- The same schedule is granted: the client hears a result, and nothing is kept. -/
theorem concluded_iff_example :
    ∃ c, (userAuth scenarioKit).Reachable (drawnOnce 1) .initial c ∧ SavedAs 1 0 c.world ∧
      AtRest 0 c ∧ Decided 0 c.world ∧ Concluded 1 0 c.world := by
  have hrun : ((userAuth scenarioKit).exec (drawnOnce 1) ⟨⟨.initial, []⟩, []⟩
      (silenceRun { token := [2] } 9)).map (fun c =>
        (decide (.saved 1 0 .success ∈ c.world.marks lifeMark 0), c.threads.all Prog.returned,
          c.world.state.begun.all (fun b => !(c.world.spawned (UserAuthCall.reports b)).isEmpty),
          noTask c.world.state,
          decide (.handle 0 scenarioCallback 0 ∈ c.world.marks silenceMark 3),
          decide (.answer .success ∈ c.world.marks silenceMark 3))) =
      some (true, true, true, true, true, true) := by decide +kernel
  obtain ⟨c, hc, hchecks⟩ := Option.map_eq_some_iff.mp hrun
  simp only [Prod.mk.injEq] at hchecks
  obtain ⟨hsaved, hreturned, hreported, hposted, hhandle, hanswer⟩ := hchecks
  have hreach : (userAuth scenarioKit).Reachable (drawnOnce 1) .initial c := .exec .init hc
  have hsaved : SavedAs 1 0 c.world := ⟨0, of_decide_eq_true hsaved⟩
  have hatRest : AtRest 0 c := atRest_of_checks hreach hreturned hreported hposted
  have hdecided : Decided 0 c.world := by
    refine ⟨3, scenarioCallback, 0, of_decide_eq_true hhandle, .inr (.inr ⟨.success, ?_, ?_⟩)⟩
    · decide
    · exact of_decide_eq_true hanswer
  exact ⟨c, hreach, hsaved, hatRest, hdecided,
    (concluded_iff hreach hsaved hatRest).mpr (.inl hdecided)⟩

end UserIam.UserAuth
