import UserIam.UserIDM.UserIDMSystem

/-!
# Requests without permission

What a request does whose caller has neither permission: every stub function but three answers the
caller and touches nothing else.
-/

namespace UserIam.UserIDM

open Conc

/-! ## 1. What a caller must not reach -/

def UserIDMOp.callsHdi : UserIDMOp → Bool
  | .openSession _ | .closeSession _ | .getCredential .. | .getUserInfo _ => true
  | .beginEnrollment .. | .cancelEnrollment _ | .updateEnrollmentResult .. => true
  | .deleteCredential .. | .deleteUser .. | .enforceDeleteUser _ => true
  | _ => false

/-- A cancellation is a request as well: CoAuth passes it on. -/
def UserIDMOp.asksExecutor : UserIDMOp → Bool
  | .beginSchedule .. | .cancel _ | .setExecutorProp .. => true
  | _ => false

def UserIDMOp.ChangesSession (o : UserIDMOp) : Prop :=
  ∃ tid env s, (userIDMHandle tid env s o).2.data ≠ s.data

/-- The operation calls the HDI, sends a request to an executor or changes some session. -/
def UserIDMOp.Accesses (o : UserIDMOp) : Prop :=
  o.callsHdi = true ∨ o.asksExecutor = true ∨ o.ChangesSession

/-- The operations that only tell the caller something. -/
def UserIDMOp.answers : UserIDMOp → Bool
  | .onResult .. | .writeUint64 _ | .writeInt32 _ | .ipcObjectStub _ => true
  | _ => false

theorem UserIDMOp.not_accesses_of_answers {o : UserIDMOp} (ho : o.answers = true) :
    ¬o.Accesses := by
  rintro (hhdi | hexecutor | ⟨tid, env, s, hs⟩)
  · cases o <;> cases ho <;> cases hhdi
  · cases o <;> cases ho <;> cases hexecutor
  · cases o <;> cases ho <;> exact hs rfl

/-- The caller has neither of the two permissions. -/
def Denied (platform : Platform) (caller : Caller) : Prop :=
  checkPermission platform caller manageUserIdmPermission = false ∧
    checkPermission platform caller useUserIdmPermission = false

/-- A well-formed request for one of the three functions that check no permission. -/
def Unchecked (code : UInt32) (data : MessageParcel) : Prop :=
  data.interfaceToken = userIDMDescriptor ∧ data.remoteObject.isSome = true ∧
    (userIDMCodes[code.toNat]? = some .getAuthInfoById ∨
      userIDMCodes[code.toNat]? = some .getSecInfo ∨
      userIDMCodes[code.toNat]? = some .enforceDelUser)

/-! ## 2. Functions that check the permission -/

section Checked

variable {platform : Platform} {caller : Caller} {data : MessageParcel} {code : UInt32}

theorem replyUint64_answers (value : UInt64) (ret : ResultCode) :
    (replyUint64 value ret).All (·.answers = true) := by
  simp [replyUint64, UserIDMOp.answers]

theorem replyInt32_answers (value ret : ResultCode) :
    (replyInt32 value ret).All (·.answers = true) := by
  simp [replyInt32, UserIDMOp.answers]

/-- A function that checks the permission before it does anything. -/
theorem checked_answers {α : Type} {permission : String} {a : α} {q : UserIDMProg α}
    (hdenied : checkPermission platform caller permission = false) :
    (if !checkPermission platform caller permission then pure a else q).All
      (·.answers = true) := by
  rw [hdenied]
  trivial

/-- A stub function whose service function checks the permission and reports to the callback. -/
theorem reported_answers {f : Option ClientCallback → UserIDMProg Unit}
    {q : ClientCallback → UserIDMProg Unit}
    (hdenied : checkPermission platform caller manageUserIdmPermission = false)
    (hsome : ∀ callback, f (some callback) =
      if !checkPermission platform caller manageUserIdmPermission then
        atomic (.onResult callback checkPermissionFailed 0)
      else q callback) (callback : Option ClientCallback) :
    (if callback.isNone then pure ResultCode.fail
      else f callback >>= fun _ => pure ResultCode.success).All (·.answers = true) := by
  cases callback with
  | none => trivial
  | some callback =>
    refine Prog.All.bind ?_ fun _ => trivial
    rw [hsome, hdenied]
    exact ⟨rfl, fun _ => trivial⟩

theorem stubFunction_answers (hdenied : Denied platform caller) (pFunction : UserIDMCode)
    (hchecked : data.remoteObject.isSome = true → pFunction ≠ .getAuthInfoById ∧
      pFunction ≠ .getSecInfo ∧ pFunction ≠ .enforceDelUser) :
    (stubFunction platform caller data pFunction).All (·.answers = true) := by
  obtain ⟨hmanage, huse⟩ := hdenied
  have hsome (h : ¬data.remoteObject.isNone = true) : data.remoteObject.isSome = true := by
    simpa [Option.isSome_iff_ne_none] using h
  cases pFunction with
  | openSession => exact (checked_answers hmanage).bind fun _ => replyUint64_answers _ _
  | openSessionById =>
    exact (checked_answers hmanage).bind fun _ => replyUint64_answers _ _
  | closeSession => exact (checked_answers hmanage).bind fun _ => trivial
  | closeSessionById => exact (checked_answers hmanage).bind fun _ => trivial
  | getAuthInfo =>
    refine Prog.all_ite.mpr ⟨fun _ => trivial, fun _ => ?_⟩
    refine Prog.All.bind ?_ fun _ => replyInt32_answers _ _
    cases data.remoteObject with
    | none => trivial
    | some callback => exact checked_answers huse
  | getAuthInfoById =>
    exact Prog.all_ite.mpr ⟨fun _ => trivial, fun h => absurd rfl (hchecked (hsome h)).1⟩
  | getSecInfo =>
    exact Prog.all_ite.mpr ⟨fun _ => trivial, fun h => absurd rfl (hchecked (hsome h)).2.1⟩
  | addCredential => exact reported_answers hmanage (fun _ => rfl) _
  | addCredentialById => exact reported_answers hmanage (fun _ => rfl) _
  | updateCredential => exact reported_answers hmanage (fun _ => rfl) _
  | updateCredentialById => exact reported_answers hmanage (fun _ => rfl) _
  | cancel => exact (checked_answers hmanage).bind fun _ => replyInt32_answers _ _
  | cancelById => exact (checked_answers hmanage).bind fun _ => replyInt32_answers _ _
  | enforceDelUser =>
    exact Prog.all_ite.mpr ⟨fun _ => trivial, fun h => absurd rfl (hchecked (hsome h)).2.2⟩
  | delUser => exact reported_answers hmanage (fun _ => rfl) _
  | delUserById => exact reported_answers hmanage (fun _ => rfl) _
  | delCred => exact reported_answers hmanage (fun _ => rfl) _
  | delCredential => exact reported_answers hmanage (fun _ => rfl) _

/-- Any other request of a caller without permission only answers it. -/
theorem onRemoteRequest_answers (hdenied : Denied platform caller) (h : ¬Unchecked code data) :
    (onRemoteRequest platform caller data code).All (·.answers = true) := by
  unfold onRemoteRequest
  refine Prog.all_ite.mpr ⟨fun _ => trivial, fun htoken => ?_⟩
  cases hcode : userIDMCodes[code.toNat]? with
  | none => exact ⟨rfl, fun _ => trivial⟩
  | some pFunction =>
    refine stubFunction_answers hdenied pFunction fun hsome => ⟨?_, ?_, ?_⟩
    all_goals
      rintro rfl
      exact h ⟨(not_not.mp htoken).symm, hsome, by simp [hcode]⟩

/-! ## 3. Functions that check none -/

/-- A request that asks for the interface and, when it is there, calls the HDI. -/
theorem accesses_of_body {o : UserIDMOp} {k : Bool → UserIDMProg Unit}
    {k' : UserIDMRes o → UserIDMProg Unit} (ho : o.callsHdi = true)
    (hbody : userIDMBody platform (.request caller code data) = .call .getHdiInterface k)
    (hk : k true = .call o k') :
    ∃ c, (userIDM platform).Reachable Machine.anyMove .initial c ∧
      .spawn 0 (.request caller code data) ∈ c.world.trace ∧
        ∃ o r, .op 0 o r ∈ c.world.trace ∧ o.Accesses := by
  have hen : userIDMEnabled (.initial) o = true := by
    cases o <;> rfl
  let w₀ : UserIDMWorld := ⟨.initial, [.spawn 0 (.request caller code data)]⟩
  let w₁ := (userIDM platform).perform w₀ 0 .getHdiInterface {}
  let w₂ := (userIDM platform).perform w₁ 0 o {}
  have h₀ : (userIDM platform).Reachable Machine.anyMove .initial
      ⟨w₀, [userIDMBody platform (.request caller code data)]⟩ := .spawn .init trivial rfl
  rw [hbody] at h₀
  have h₁ : (userIDM platform).Reachable Machine.anyMove .initial ⟨w₁, [k true]⟩ :=
    .run h₀ trivial rfl rfl
  rw [hk] at h₁
  have h₂ : (userIDM platform).Reachable Machine.anyMove .initial
      ⟨w₂, [k' ((userIDM platform).answer w₁ 0 o {})]⟩ := .run h₁ trivial rfl hen
  exact ⟨_, h₂, by simp [w₂, w₁, w₀, Machine.perform], o, _, List.mem_append_right _
    (List.mem_singleton_self _), .inl ho⟩

/-- A request for one of the three functions reaches the HDI whatever the caller's permissions. -/
theorem accesses_of_unchecked (platform : Platform) (caller : Caller) (h : Unchecked code data) :
    ∃ c, (userIDM platform).Reachable Machine.anyMove .initial c ∧
      .spawn 0 (.request caller code data) ∈ c.world.trace ∧
        ∃ o r, .op 0 o r ∈ c.world.trace ∧ o.Accesses := by
  obtain ⟨htoken, hsome, hcode⟩ := h
  obtain ⟨callback, hcallback⟩ := Option.isSome_iff_exists.mp hsome
  have hbody (pFunction : UserIDMCode) (hp : userIDMCodes[code.toNat]? = some pFunction) :
      userIDMBody platform (.request caller code data) =
        (stubFunction platform caller data pFunction).discard := by
    simp [userIDMBody, onRemoteRequest, htoken, hp]
  rcases hcode with hcode | hcode | hcode
  all_goals
    have hstub := hbody _ hcode
    simp only [stubFunction, hcallback, Option.isNone_some, Bool.false_eq_true, if_false] at hstub
    exact accesses_of_body rfl hstub rfl

end Checked

/-! ## 4. Requests of a caller without permission -/

/-- No run lets the request call the HDI, ask an executor or change the session. -/
def TouchesNothing (platform : Platform) (caller : Caller) (code : UInt32)
    (data : MessageParcel) : Prop :=
  ∀ c t, (userIDM platform).Reachable Machine.anyMove .initial c →
    .spawn t (.request caller code data) ∈ c.world.trace →
      ∀ o r, .op t o r ∈ c.world.trace → ¬o.Accesses

/-- **Access control.**  A request of a caller without permission touches nothing exactly when it is
not a well-formed request for one of the three functions that check no permission. -/
theorem touchesNothing_iff (platform : Platform) (caller : Caller) (code : UInt32)
    (data : MessageParcel) (hdenied : Denied platform caller) :
    TouchesNothing platform caller code data ↔ ¬Unchecked code data := by
  constructor
  · intro h hunchecked
    obtain ⟨c, hc, hcall, o, r, hop, ho⟩ := accesses_of_unchecked platform caller hunchecked
    exact h c 0 hc hcall o r hop ho
  · intro hchecked c t hc hcall o r hop
    have hbody : (userIDMBody platform (.request caller code data)).All (·.answers = true) :=
      (onRemoteRequest_answers hdenied hchecked).discard
    exact UserIDMOp.not_accesses_of_answers
      ((hc.all_ops (P := fun _ o => o.answers = true) hcall hbody).1 o r hop)

section NoPermission

/-- The access token service grants nothing. -/
def closedPlatform : Platform := ⟨⟨fun _ _ => false, fun _ => false, fun _ => (.fail, 0)⟩, 22⟩

def anyCaller : Caller := ⟨0, 0, 1000⟩

def userRequest : MessageParcel := ⟨userIDMDescriptor, 100, 1, 0, [], some 5⟩

/-- A caller without permission has all the credentials of user 100 deleted. -/
theorem enforceDelUser_touches :
    ¬∀ (platform : Platform) (caller : Caller) (code : UInt32) (data : MessageParcel),
      Denied platform caller → TouchesNothing platform caller code data := by
  intro h
  have hunchecked : Unchecked 13 userRequest := ⟨rfl, rfl, .inr (.inr rfl)⟩
  obtain ⟨c, hc, hcall, o, r, hop, ho⟩ := accesses_of_unchecked closedPlatform anyCaller hunchecked
  exact h closedPlatform anyCaller 13 userRequest ⟨rfl, rfl⟩ c 0 hc hcall o r hop ho

/-- The deletion that takes an authentication token is refused. -/
theorem touchesNothing_iff_example :
    Denied closedPlatform anyCaller ∧ TouchesNothing closedPlatform anyCaller 15 userRequest := by
  have hdenied : Denied closedPlatform anyCaller := ⟨rfl, rfl⟩
  refine ⟨hdenied, (touchesNothing_iff closedPlatform anyCaller 15 userRequest hdenied).mpr ?_⟩
  rintro ⟨-, -, hcode | hcode | hcode⟩
  · cases hcode
  · cases hcode
  · cases hcode

end NoPermission

end UserIam.UserIDM
