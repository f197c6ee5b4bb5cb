import UserIam.CoAuth.AuthResManager

/-!
# Who is registered

What the pool says about an id after any history of registrations and death notices, next to what
it should say: the callback of the last registration of the id whose callback is alive.
-/

namespace UserIam.CoAuth

/-! ## 1. Histories -/

inductive RegistryStep where
  | register (env : RegisterEnv) (executorInfo : Option ResAuthExecutor)
      (callback : Option ExecutorCallback)
  | onRemoteDied (recipient : ResIExecutorCallbackDeathRecipient) (remote hdiInterface : Bool)

/-- What has happened: a `Register` has returned an id to a callback, a callback has died. -/
inductive RegistryEvent where
  | registered (executorID : UInt64) (callback : ExecutorCallback)
  | died (callback : ExecutorCallback)
  deriving DecidableEq

/-- The manager together with what has happened, newest event first. -/
structure Registry where
  manager : AuthResManager
  history : List RegistryEvent

/-- The registration that a `Register` with this answer makes. -/
def registration (executorID : UInt64) (callback : Option ExecutorCallback) : List RegistryEvent :=
  if executorID = invalidExecutorId then [] else callback.toList.map (.registered executorID)

def Registry.step (registry : Registry) : RegistryStep → Registry
  | .register env executorInfo callback =>
    let (executorID, manager) := registry.manager.register env executorInfo callback
    ⟨manager, registration executorID callback ++ registry.history⟩
  | .onRemoteDied recipient remote hdiInterface =>
    ⟨registry.manager.onRemoteDied recipient remote hdiInterface,
      .died recipient.callback :: registry.history⟩

def Registry.run (registry : Registry) (steps : List RegistryStep) : Registry :=
  steps.foldl Registry.step registry

def Registry.initial : Registry := ⟨.initial, []⟩

/-- The callback of the last registration of the id whose callback has not died. -/
def registrant (history : List RegistryEvent) (executorID : UInt64) : Option ExecutorCallback :=
  history.findSome? fun
    | .registered id callback =>
      if id = executorID ∧ .died callback ∉ history then some callback else none
    | .died _ => none

/-- A search by id finds the registrant, or fails when there is none. -/
def Registry.Correct (registry : Registry) : Prop :=
  ∀ executorID, registry.manager.findExecutorCallback executorID =
    (registrant registry.history executorID).elim (.fail, none) fun callback =>
      (.success, some callback)

variable {registry : Registry} {history : List RegistryEvent} {id executorID : UInt64}
  {callback : ExecutorCallback}

theorem registrant_eq_none :
    registrant history id = none ↔
      ∀ callback, .registered id callback ∈ history → .died callback ∈ history := by
  rw [registrant, List.findSome?_eq_none_iff]
  constructor
  · intro h callback hmem
    by_contra hdied
    have := h _ hmem
    simp [hdied] at this
  · intro h e he
    cases e with
    | died => rfl
    | registered id' callback =>
      refine if_neg ?_
      rintro ⟨rfl, hdied⟩
      exact hdied (h callback he)

theorem of_registrant (h : registrant history id = some callback) :
    .registered id callback ∈ history ∧ .died callback ∉ history := by
  obtain ⟨e, he, hsome⟩ := List.exists_of_findSome?_eq_some h
  cases e with
  | died => cases hsome
  | registered id' callback' =>
    simp only [Option.ite_none_right_eq_some, Option.some.injEq] at hsome
    obtain ⟨⟨rfl, hdied⟩, rfl⟩ := hsome
    exact ⟨he, hdied⟩

/-- The living registrations of an id are by one callback. -/
def Settled (history : List RegistryEvent) : Prop :=
  ∀ id callback callback', .registered id callback ∈ history → .registered id callback' ∈ history →
    .died callback ∉ history → .died callback' ∉ history → callback = callback'

theorem Settled.registrant_eq (h : Settled history) (hmem : .registered id callback ∈ history)
    (hdied : .died callback ∉ history) : registrant history id = some callback := by
  cases hregistrant : registrant history id with
  | none => exact absurd (registrant_eq_none.mp hregistrant callback hmem) hdied
  | some callback' =>
    obtain ⟨hmem', hdied'⟩ := of_registrant hregistrant
    rw [h id callback callback' hmem hmem' hdied hdied']

theorem registrant_registered :
    registrant (.registered executorID callback :: history) id =
      if executorID = id ∧ .died callback ∉ history then some callback
      else registrant history id := by
  have hdied {callback' : ExecutorCallback} :
      .died callback' ∈ RegistryEvent.registered executorID callback :: history ↔
        .died callback' ∈ history := by simp
  simp only [registrant, List.findSome?_cons, hdied]
  by_cases h : executorID = id ∧ .died callback ∉ history
  · simp only [if_pos h]
  · simp only [if_neg h]

/-- A death ends the registrations of its callback, and no others. -/
theorem Settled.registrant_died (h : Settled history) :
    registrant (.died callback :: history) id =
      if registrant history id = some callback then none else registrant history id := by
  split
  · next hregistrant =>
    obtain ⟨hmem, hdied⟩ := of_registrant hregistrant
    rw [registrant_eq_none]
    intro callback' hmem'
    by_contra hdied'
    rw [List.mem_cons, not_or] at hdied'
    have heq := h id callback callback' hmem (by simpa using hmem') hdied hdied'.2
    exact hdied'.1 (by rw [heq])
  · next hregistrant =>
    cases hbefore : registrant history id with
    | none =>
      rw [registrant_eq_none] at hbefore ⊢
      intro callback' hmem'
      exact List.mem_cons_of_mem _ (hbefore callback' (by simpa using hmem'))
    | some callback' =>
      obtain ⟨hmem, hdied⟩ := of_registrant hbefore
      have hsettled : Settled (.died callback :: history) := by
        intro id' c c' hc hc' hd hd'
        rw [List.mem_cons, not_or] at hd hd'
        exact h id' c c' (by simpa using hc) (by simpa using hc') hd.2 hd'.2
      refine hsettled.registrant_eq (List.mem_cons_of_mem _ hmem) ?_
      rw [List.mem_cons, not_or]
      refine ⟨fun heq => hregistrant ?_, hdied⟩
      cases heq
      exact hbefore

/-! ## 2. One step -/

/-- The id and the callback that a `Register` inserts, when it passes every check before that. -/
def admitted (env : RegisterEnv) :
    Option ResAuthExecutor → Option ExecutorCallback → Option (UInt64 × ExecutorCallback)
  | some executorInfo, some callback =>
    (getExecutorRegisterInfo executorInfo).bind fun info =>
      if env.hdiInterface = true ∧ (env.addExecutor info).result = .success ∧
          env.deathRecipient = true ∧ env.asObject = true ∧ env.addDeathRecipient = true then
        some ((env.addExecutor info).executorId, callback)
      else none
  | _, _ => none

theorem register_of_not_admitted {manager : AuthResManager} {env : RegisterEnv}
    {executorInfo : Option ResAuthExecutor} {inner : Option ExecutorCallback}
    (h : admitted env executorInfo inner = none) :
    manager.register env executorInfo inner = (invalidExecutorId, manager) := by
  rcases executorInfo with _ | executorInfo <;> rcases inner with _ | callback
  · rfl
  · rfl
  · rfl
  rw [admitted] at h
  rw [AuthResManager.register]
  cases hinfo : getExecutorRegisterInfo executorInfo with
  | none => rfl
  | some info =>
    rw [hinfo, Option.bind_some] at h
    have hcheck : ¬(env.hdiInterface = true ∧ (env.addExecutor info).result = .success ∧
        env.deathRecipient = true ∧ env.asObject = true ∧ env.addDeathRecipient = true) := by
      intro hcheck
      rw [if_pos hcheck] at h
      cases h
    dsimp only
    split
    · rfl
    · split
      · rfl
      · split
        · rfl
        · split
          · rfl
          · simp_all

theorem register_of_admitted (manager : AuthResManager) {env : RegisterEnv}
    {executorInfo : Option ResAuthExecutor} {inner : Option ExecutorCallback}
    (h : admitted env executorInfo inner = some (id, callback)) :
    inner = some callback ∧
      (manager.register env executorInfo inner).1 =
        (if env.messenger then id else invalidExecutorId) ∧
      ∃ info, (manager.register env executorInfo inner).2.coAuthResPool =
        (manager.coAuthResPool.insertExecutor id info (some callback)).2 := by
  rcases executorInfo with _ | executorInfo <;> rcases inner with _ | callback'
  · cases h
  · cases h
  · cases h
  rw [admitted] at h
  rw [AuthResManager.register]
  cases hinfo : getExecutorRegisterInfo executorInfo with
  | none =>
    rw [hinfo] at h
    cases h
  | some info =>
    rw [hinfo, Option.bind_some] at h
    split at h
    · next hcheck =>
      obtain ⟨hhdi, hresult, hrecipient, hobject, hadded⟩ := hcheck
      cases h
      refine ⟨rfl, ?_⟩
      simp only [hhdi, hresult, hrecipient, hobject, hadded]
      cases env.messenger with
      | false => exact ⟨rfl, _, rfl⟩
      | true => exact ⟨rfl, _, rfl⟩
    · cases h

/-- What the map says about an id. -/
def Registry.callbackAt (registry : Registry) (id : UInt64) : Option (Option ExecutorCallback) :=
  (registry.manager.coAuthResPool.executor id).map (·.callback)

theorem Registry.correct_iff :
    registry.Correct ↔
      ∀ id, registry.callbackAt id = (registrant registry.history id).map some := by
  refine forall_congr' fun id => ?_
  rw [AuthResManager.findExecutorCallback, AuthResPool.findExecutorCallbackById_eq,
    Registry.callbackAt]
  cases registry.manager.coAuthResPool.executor id <;> cases registrant registry.history id
  · simp
  · simp [ResultCode.success, ResultCode.fail]
  · simp [ResultCode.success, ResultCode.fail]
  · simp

/-- When a step leaves the search right.  A registration that gets to the insertion: if it returns
an id to a living callback, no other callback is the registrant of the id; if it does not (there is
no messenger, or the callback has died), the id has a registrant, so that nothing is inserted.  A
notice: no other callback is the registrant of the recipient's id, the recipient's callback is the
registrant of no other id, and the pointer to the dead object is there unless the callback is the
registrant of no id at all. -/
def StepOk (history : List RegistryEvent) : RegistryStep → Prop
  | .register env executorInfo inner =>
    ∀ id callback, admitted env executorInfo inner = some (id, callback) →
      if env.messenger = true ∧ id ≠ invalidExecutorId ∧ .died callback ∉ history then
        registrant history id = none ∨ registrant history id = some callback
      else registrant history id ≠ none
  | .onRemoteDied recipient remote _ =>
    if remote = true then
      (registrant history recipient.executorID = none ∨
        registrant history recipient.executorID = some recipient.callback) ∧
      ∀ id, id ≠ recipient.executorID → registrant history id ≠ some recipient.callback
    else ∀ id, registrant history id ≠ some recipient.callback

/-- A registration that inserts. -/
theorem step_register_iff (hcorrect : registry.Correct) {env : RegisterEnv}
    {executorInfo : Option ResAuthExecutor} {inner : Option ExecutorCallback}
    (h : admitted env executorInfo inner = some (executorID, callback)) :
    (registry.step (.register env executorInfo inner)).Correct ↔
      ∀ id, registrant (registry.step (.register env executorInfo inner)).history id =
        if id = executorID then some ((registrant registry.history id).getD callback)
        else registrant registry.history id := by
  obtain ⟨-, -, info, hpool⟩ := register_of_admitted registry.manager h
  rw [Registry.correct_iff]
  refine forall_congr' fun id => ?_
  have hbefore := Registry.correct_iff.mp hcorrect id
  have hafter : (registry.step (.register env executorInfo inner)).callbackAt id =
      (if id = executorID then some ((registrant registry.history id).getD callback)
        else registrant registry.history id).map some := by
    rw [Registry.callbackAt] at hbefore ⊢
    show (AuthResPool.executor (AuthResManager.register _ _ _ _).2.coAuthResPool id).map _ = _
    rw [hpool, AuthResPool.executor_insert]
    -- an insertion keeps the callback of an entry that is there
    split
    · cases hexecutor : registry.manager.coAuthResPool.executor id with
      | none =>
        rw [hexecutor, Option.map_none, eq_comm, Option.map_eq_none_iff] at hbefore
        rw [hbefore]
        rfl
      | some register =>
        rw [hexecutor, Option.map_some, eq_comm, Option.map_eq_some_iff] at hbefore
        obtain ⟨callback', hregistrant, hcallback⟩ := hbefore
        rw [hregistrant, Option.getD_some, Option.getD_some, Option.map_some, Option.map_some,
          hcallback]
    · exact hbefore
  rw [hafter]
  constructor
  · intro heq
    exact (Option.map_injective (Option.some_injective _) heq).symm
  · intro heq
    rw [heq]

/-- What has happened after a registration that inserts. -/
theorem history_of_admitted {env : RegisterEnv} {executorInfo : Option ResAuthExecutor}
    {inner : Option ExecutorCallback}
    (h : admitted env executorInfo inner = some (executorID, callback)) :
    (registry.step (.register env executorInfo inner)).history =
      if env.messenger = true ∧ executorID ≠ invalidExecutorId then
        .registered executorID callback :: registry.history
      else registry.history := by
  obtain ⟨rfl, hanswer, -⟩ := register_of_admitted registry.manager h
  show registration (registry.manager.register env executorInfo (some callback)).1
    (some callback) ++ registry.history = _
  rw [hanswer, registration]
  by_cases hmessenger : env.messenger = true <;> by_cases hid : executorID = invalidExecutorId <;>
    simp [hmessenger, hid]

theorem step_register_correct_iff (hcorrect : registry.Correct) {env : RegisterEnv}
    {executorInfo : Option ResAuthExecutor} {inner : Option ExecutorCallback}
    (h : admitted env executorInfo inner = some (executorID, callback)) :
    (registry.step (.register env executorInfo inner)).Correct ↔
      if env.messenger = true ∧ executorID ≠ invalidExecutorId ∧ .died callback ∉ registry.history
      then registrant registry.history executorID = none ∨
        registrant registry.history executorID = some callback
      else registrant registry.history executorID ≠ none := by
  rw [step_register_iff hcorrect h, history_of_admitted h]
  by_cases hliving : env.messenger = true ∧ executorID ≠ invalidExecutorId ∧
    .died callback ∉ registry.history
  · rw [if_pos ⟨hliving.1, hliving.2.1⟩, if_pos hliving]
    simp only [registrant_registered, hliving.2.2, not_false_eq_true, and_true]
    constructor
    · intro hall
      have hself := hall executorID
      rw [if_pos rfl, if_pos rfl, Option.some.injEq] at hself
      cases hregistrant : registrant registry.history executorID with
      | none => exact .inl rfl
      | some callback' =>
        rw [hregistrant, Option.getD_some] at hself
        exact .inr (congrArg some hself.symm)
    · intro hregistrant id
      by_cases hid : id = executorID
      · subst hid
        rw [if_pos rfl, if_pos rfl]
        rcases hregistrant with hregistrant | hregistrant <;> rw [hregistrant] <;> rfl
      · rw [if_neg (Ne.symm hid), if_neg hid]
  -- The call is not recorded as a registration, yet the pool may have changed.
  · rw [if_neg hliving]
    have hsame (id : UInt64) :
        registrant (if env.messenger = true ∧ executorID ≠ invalidExecutorId then
          .registered executorID callback :: registry.history else registry.history) id =
        registrant registry.history id := by
      split
      · next hanswered =>
        rw [registrant_registered, if_neg]
        exact fun hdied => hliving ⟨hanswered.1, hanswered.2, hdied.2⟩
      · rfl
    simp only [hsame]
    constructor
    · intro hall hnone
      have hself := hall executorID
      rw [hnone, if_pos rfl] at hself
      cases hself
    · intro hsome id
      split
      · next hid =>
        subst hid
        obtain ⟨callback', hregistrant⟩ := Option.ne_none_iff_exists'.mp hsome
        rw [hregistrant, Option.getD_some]
      · rfl

theorem step_onRemoteDied_correct_iff (hcorrect : registry.Correct)
    (hsettled : Settled registry.history) (recipient : ResIExecutorCallbackDeathRecipient)
    (remote hdiInterface : Bool) :
    (registry.step (.onRemoteDied recipient remote hdiInterface)).Correct ↔
      StepOk registry.history (.onRemoteDied recipient remote hdiInterface) := by
  have hbefore := Registry.correct_iff.mp hcorrect
  have hafter (id : UInt64) :
      (registry.step (.onRemoteDied recipient remote hdiInterface)).callbackAt id =
        (if remote = true ∧ id = recipient.executorID then none
          else registrant registry.history id).map some := by
    have hpool :
        (registry.step (.onRemoteDied recipient remote hdiInterface)).manager.coAuthResPool =
        if remote = true then
          (registry.manager.coAuthResPool.deleteExecutorCallback recipient.executorID).2
        else registry.manager.coAuthResPool := by
      cases remote <;> cases hdiInterface <;> rfl
    rw [Registry.callbackAt, hpool]
    cases remote with
    | false => simpa [Registry.callbackAt] using hbefore id
    | true =>
      rw [if_pos rfl, AuthResPool.executor_delete]
      by_cases hid : id = recipient.executorID
      · simp [hid]
      · simpa [Registry.callbackAt, hid] using hbefore id
  have hinjective : Function.Injective (Option.map (some : ExecutorCallback → _)) :=
    Option.map_injective (Option.some_injective _)
  rw [Registry.correct_iff]
  simp only [hafter, hinjective.eq_iff]
  show (∀ id, _ = registrant (.died recipient.callback :: registry.history) id) ↔ _
  -- The registrant of an id is gone exactly if it is the callback that has died.
  simp only [hsettled.registrant_died]
  cases remote with
  | false =>
    constructor
    · intro hall id hregistrant
      have hid := hall id
      simp [hregistrant] at hid
    · intro hnone id
      rw [if_neg (by simp), if_neg (hnone id)]
  | true =>
    constructor
    · intro hall
      refine ⟨?_, fun id hid hregistrant => ?_⟩
      · have hself := hall recipient.executorID
        rw [if_pos ⟨rfl, rfl⟩] at hself
        split at hself
        · next hregistrant => exact .inr hregistrant
        · exact .inl hself.symm
      · have hother := hall id
        simp [hid, hregistrant] at hother
    · rintro ⟨hself, hothers⟩ id
      by_cases hid : id = recipient.executorID
      · subst hid
        rw [if_pos ⟨rfl, rfl⟩]
        rcases hself with hnone | hsome
        · rw [hnone, if_neg (by simp)]
        · rw [if_pos hsome]
      · rw [if_neg (fun h => hid h.2), if_neg (hothers id hid)]

/-- One step from a state in which the search is right. -/
theorem step_correct_iff (hcorrect : registry.Correct) (hsettled : Settled registry.history)
    (step : RegistryStep) : (registry.step step).Correct ↔ StepOk registry.history step := by
  cases step with
  | register env executorInfo inner =>
    cases hadmitted : admitted env executorInfo inner with
    | none =>
      have hsame : registry.step (.register env executorInfo inner) = registry := by
        rw [Registry.step, register_of_not_admitted hadmitted]
        rfl
      rw [hsame]
      refine iff_of_true hcorrect fun id callback h => ?_
      cases hadmitted.symm.trans h
    | some inserted =>
      obtain ⟨executorID, callback⟩ := inserted
      rw [step_register_correct_iff hcorrect hadmitted]
      constructor
      · intro hok id callback' h
        cases hadmitted.symm.trans h
        exact hok
      · exact fun hok => hok executorID callback hadmitted
  | onRemoteDied recipient remote hdiInterface =>
    exact step_onRemoteDied_correct_iff hcorrect hsettled recipient remote hdiInterface

/-- A step that is all right leaves the living registrations of an id to one callback. -/
theorem Settled.step (hsettled : Settled registry.history) {step : RegistryStep}
    (hok : StepOk registry.history step) : Settled (registry.step step).history := by
  cases step with
  | onRemoteDied recipient remote hdiInterface =>
    intro id callback callback' hmem hmem' hdied hdied'
    change _ ∈ RegistryEvent.died recipient.callback :: registry.history at hmem hmem'
    change _ ∉ RegistryEvent.died recipient.callback :: registry.history at hdied hdied'
    rw [List.mem_cons, not_or] at hdied hdied'
    exact hsettled id callback callback' (by simpa using hmem) (by simpa using hmem') hdied.2
      hdied'.2
  | register env executorInfo inner =>
    cases hadmitted : admitted env executorInfo inner with
    | none =>
      rw [Registry.step, register_of_not_admitted hadmitted]
      exact hsettled
    | some inserted =>
      obtain ⟨executorID, callback⟩ := inserted
      have hregistrant := hok executorID callback hadmitted
      rw [history_of_admitted hadmitted]
      split
      · next hanswered =>
        -- a living callback is the only living one of the id
        have honly {callback' : ExecutorCallback} (hliving : .died callback ∉ registry.history)
            (hmem : .registered executorID callback' ∈ registry.history)
            (hdied : .died callback' ∉ registry.history) : callback' = callback := by
          rw [if_pos ⟨hanswered.1, hanswered.2, hliving⟩, hsettled.registrant_eq hmem hdied]
            at hregistrant
          simpa using hregistrant
        intro id c c' hmem hmem' hdied hdied'
        simp only [List.mem_cons, RegistryEvent.registered.injEq, reduceCtorEq, false_or] at *
        rcases hmem with ⟨rfl, rfl⟩ | hmem <;> rcases hmem' with ⟨hid, rfl⟩ | hmem'
        · rfl
        · exact (honly hdied hmem' hdied').symm
        · subst hid
          exact honly hdied' hmem hdied
        · exact hsettled id c c' hmem hmem' hdied hdied'
      · exact hsettled

/-! ## 3. Every history -/

theorem run_correct_iff (hcorrect : registry.Correct) (hsettled : Settled registry.history)
    (steps : List RegistryStep) :
    (∀ before, before <+: steps → (registry.run before).Correct) ↔
      ∀ before step, before ++ [step] <+: steps → StepOk (registry.run before).history step := by
  -- on the steps, from any registry that is correct and settled
  induction steps generalizing registry with
  | nil =>
    refine iff_of_true (fun before hbefore => ?_) fun before step hbefore => ?_
    · rw [List.prefix_nil.mp hbefore]
      exact hcorrect
    · simp at hbefore
  | cons step steps ih =>
    have hfirst := step_correct_iff hcorrect hsettled step
    constructor
    · intro hall
      have hok : StepOk registry.history step := hfirst.mp (hall [step] (by simp))
      have hrest := (ih (hfirst.mpr hok) (hsettled.step hok)).mp fun before hbefore =>
        hall (step :: before) (by simpa using hbefore)
      intro before step' hbefore
      cases before with
      | nil =>
        obtain rfl : step' = step := by simpa using hbefore
        exact hok
      | cons first before =>
        rw [List.cons_append, List.cons_prefix_cons] at hbefore
        obtain ⟨rfl, hbefore⟩ := hbefore
        exact hrest before step' hbefore
    · intro hall
      have hok : StepOk registry.history step := hall [] step (by simp)
      have hrest := (ih (hfirst.mpr hok) (hsettled.step hok)).mpr fun before step' hbefore =>
        hall (step :: before) step' (by simpa using hbefore)
      intro before hbefore
      cases before with
      | nil => exact hcorrect
      | cons first before =>
        rw [List.cons_prefix_cons] at hbefore
        obtain ⟨rfl, hbefore⟩ := hbefore
        exact hrest before hbefore

/-- **Who is registered.**  After every step of a history the search finds the last living
registration of each id, exactly if every step is all right. -/
theorem findExecutorCallback_correct_iff (steps : List RegistryStep) :
    (∀ before, before <+: steps → (Registry.initial.run before).Correct) ↔
      ∀ before step, before ++ [step] <+: steps →
        StepOk (Registry.initial.run before).history step :=
  run_correct_iff (fun _ => rfl) (fun _ _ _ hmem => by cases hmem) steps

section Late

/-- A notice comes for a recipient that watches its object. -/
def Registry.Possible : Registry → List RegistryStep → Prop
  | _, [] => True
  | registry, .register env executorInfo callback :: steps =>
    (registry.step (.register env executorInfo callback)).Possible steps
  | registry, .onRemoteDied recipient remote hdiInterface :: steps =>
    recipient ∈ registry.manager.recipients ∧
      (registry.step (.onRemoteDied recipient remote hdiInterface)).Possible steps

/-- The HDI gives out the id 7. -/
def lateRegister (callback : ExecutorCallback) : RegistryStep :=
  .register ⟨true, fun _ => ⟨.success, 7, [], []⟩, true, true, true, true⟩
    (some ⟨⟨.pin⟩, 0, 0, 0, List.replicate 32 0⟩) (some callback)

/-- The process of callback 1 dies, is restarted and registers again, and then the notice of its
death comes. -/
def lateNotice : List RegistryStep :=
  [lateRegister 1, lateRegister 2, .onRemoteDied ⟨7, 1⟩ true true]

/-- The living callback 2 has been given the id 7 and cannot be found. -/
theorem findExecutorCallback_lost :
    ¬∀ steps, Registry.initial.Possible steps →
      ∀ before, before <+: steps → (Registry.initial.run before).Correct := by
  intro h
  have hpossible : Registry.initial.Possible lateNotice :=
    ⟨List.mem_cons_self, trivial⟩
  have hlast := h lateNotice hpossible lateNotice List.prefix_rfl 7
  exact absurd hlast (by decide)

end Late

end UserIam.CoAuth
