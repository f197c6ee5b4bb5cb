import UserIam.CoAuth.PropertyRelay
import UserIam.Executors.FrameworkExecutorCallback
import UserIam.UserIDM.Synchronous

/-!
# One property request

What clients, executors and the HDI see of a call, and the part of it that one request to an
executor is: the client hears one result, and the slot of the session is emptied.
-/

namespace UserIam.UserIDM

open Conc Machine CoAuth

/-! ## 1. What a call shows -/

def resultTo (callback : ClientCallback) : SyncEvent → Option ResultCode
  | .op _ (.idm (.onResult callback' result _)) _ =>
    if callback' = callback then some result else none
  | _ => none

/-- The results that the callback is called with. -/
def results (callback : ClientCallback) (es : List SyncEvent) : List ResultCode :=
  es.filterMap (resultTo callback)

def askedBy : SyncEvent → Option (AuthAttributes × ResultCode)
  | .op _ (.onSetProperty _ properties) result => some (properties, result)
  | _ => none

/-- What executors are asked, each with its answer. -/
def asked (es : List SyncEvent) : List (AuthAttributes × ResultCode) := es.filterMap askedBy

def deletedBy : SyncEvent → Option (List CredentialInfo)
  | .op _ (.idm (.deleteCredential _ _ _)) (ret, hdiInfo) =>
    if ret = .success then some [copyCredentialFromHdi hdiInfo] else none
  | .op _ (.idm (.deleteUser _ _)) (ret, hdiInfos) =>
    if ret = .success then some (hdiInfos.map copyCredentialFromHdi) else none
  | .op _ (.idm (.enforceDeleteUser _)) (ret, hdiInfos) =>
    if ret = .success then some (hdiInfos.map copyCredentialFromHdi) else none
  | _ => none

/-- The deletions that the HDI has carried out, each with the credentials that are gone. -/
def deletions (es : List SyncEvent) : List (List CredentialInfo) := es.filterMap deletedBy

def deleted (es : List SyncEvent) : List CredentialInfo := (deletions es).flatten

def updatedBy : SyncEvent → Option CredentialInfo
  | .op _ (.idm (.updateEnrollmentResult _ _)) (ret, _, hdiInfo) =>
    if ret = .success then some (copyCredentialFromHdi hdiInfo) else none
  | _ => none

/-- The credentials that the HDI has replaced. -/
def updated (es : List SyncEvent) : List CredentialInfo := es.filterMap updatedBy

def begunBy : SyncEvent → Option UserIDMCoAuthHandler
  | .op _ (.idm (.beginSchedule _ _ handler)) _ => some handler
  | _ => none

/-- The handlers of the schedules that begin. -/
def begun (es : List SyncEvent) : List UserIDMCoAuthHandler := es.filterMap begunBy

def finishedBy : SyncEvent → Option (Option (UInt32 × List UInt8))
  | .op _ .finishNow finish => some finish
  | _ => none

/-- Whether and how each of these schedules finishes before `BeginSchedule` returns. -/
def finished (es : List SyncEvent) : List (Option (UInt32 × List UInt8)) :=
  es.filterMap finishedBy

def lookedUpBy : SyncEvent → Option (AuthType × Option ExecutorCallback)
  | .op _ (.findExecutorCallback authType) found => some (authType, found)
  | _ => none

/-- The types for which an executor is looked up, and what is found. -/
def lookedUp (es : List SyncEvent) : List (AuthType × Option ExecutorCallback) :=
  es.filterMap lookedUpBy

variable {callback : ClientCallback} {es es' : List SyncEvent}

@[simp] theorem results_append :
    results callback (es ++ es') = results callback es ++ results callback es' :=
  List.filterMap_append

theorem results_onResult {t : Nat} {result : ResultCode} {credentialId : UInt64} :
    results callback (.op t (.idm (.onResult callback result credentialId)) () :: es) =
      result :: results callback es :=
  List.filterMap_cons_some (if_pos rfl)

theorem results_other {t : Nat} {callback' : ClientCallback} {result : ResultCode}
    {credentialId : UInt64} (hne : callback' ≠ callback) :
    results callback (.op t (.idm (.onResult callback' result credentialId)) () :: es) =
      results callback es :=
  List.filterMap_cons_none (if_neg hne)

@[simp] theorem asked_append : asked (es ++ es') = asked es ++ asked es' :=
  List.filterMap_append

@[simp] theorem deletions_append : deletions (es ++ es') = deletions es ++ deletions es' :=
  List.filterMap_append

@[simp] theorem updated_append : updated (es ++ es') = updated es ++ updated es' :=
  List.filterMap_append

@[simp] theorem begun_append : begun (es ++ es') = begun es ++ begun es' :=
  List.filterMap_append

@[simp] theorem finished_append : finished (es ++ es') = finished es ++ finished es' :=
  List.filterMap_append

@[simp] theorem lookedUp_append : lookedUp (es ++ es') = lookedUp es ++ lookedUp es' :=
  List.filterMap_append

/-- No client, no executor and no schedule is involved. -/
structure Silent (es : List SyncEvent) : Prop where
  results : ∀ callback, results callback es = []
  asked : asked es = []
  lookedUp : lookedUp es = []
  begun : begun es = []
  finished : finished es = []

theorem Silent.append (h : Silent es) (h' : Silent es') : Silent (es ++ es') where
  results callback := by rw [results_append, h.results, h'.results]; rfl
  asked := by rw [asked_append, h.asked, h'.asked]; rfl
  lookedUp := by rw [lookedUp_append, h.lookedUp, h'.lookedUp]; rfl
  begun := by rw [begun_append, h.begun, h'.begun]; rfl
  finished := by rw [finished_append, h.finished, h'.finished]; rfl

theorem silent_nil : Silent [] := ⟨fun _ => rfl, rfl, rfl, rfl, rfl⟩

/-- The client hears these results, and no other client hears any. -/
def Hears (callback : ClientCallback) (rs : List ResultCode) (es : List SyncEvent) : Prop :=
  ∀ callback', results callback' es = if callback = callback' then rs else []

variable {rs rs' : List ResultCode}

theorem Hears.results_eq (h : Hears callback rs es) : results callback es = rs := by
  rw [h, if_pos rfl]

theorem Hears.append (h : Hears callback rs es) (h' : Hears callback rs' es') :
    Hears callback (rs ++ rs') (es ++ es') := by
  intro callback'
  rw [results_append, h, h']
  split
  · rfl
  · rfl

theorem Silent.hears (h : Silent es) : Hears callback [] es := by
  intro callback'
  rw [h.results, ite_self]

theorem hears_onResult {t : Nat} {result : ResultCode} {credentialId : UInt64} :
    Hears callback [result] [.op t (.idm (.onResult callback result credentialId)) ()] := by
  intro callback'
  split
  · next heq =>
    subst heq
    exact results_onResult
  · next hne => exact results_other hne

/-- The operations that leave the state alone and that no client, executor or schedule notices. -/
def UserIDMOp.unnoticed : UserIDMOp → Bool
  | .insertChallenge _ | .insertScheduleId _ | .deleteSessionId | .cleanData => false
  | .beginSchedule .. | .setExecutorProp .. | .onResult .. => false
  | .lock _ | .unlock _ => false
  | _ => true

section Unnoticed

variable {platform : Platform} {t : Nat} {s s' : UserIDMState} {α : Type}

theorem withCoAuth_of_unnoticed {o : UserIDMOp} (ho : o.unnoticed = true) :
    withCoAuth o = Prog.op (SyncOp.idm o) := by
  cases o <;> first | rfl | cases ho

theorem silent_of_unnoticed {o : UserIDMOp} (ho : o.unnoticed = true) (r : UserIDMRes o) :
    Silent [.op t (.idm o) r] := by
  constructor <;> cases o <;> first | exact fun _ => rfl | rfl | cases ho

theorem state_of_unnoticed {o : UserIDMOp} (ho : o.unnoticed = true) (env : SyncEnv) :
    ((sync platform).handle t (.idm o) env s).2 = s := by
  cases o <;> first | rfl | cases ho

theorem Silent.unnoticed {o : UserIDMOp} (h : Silent es) (ho : o.unnoticed = true)
    (r : UserIDMRes o) : Silent (.op t (.idm o) r :: es) :=
  (silent_of_unnoticed ho r).append h

theorem silent_deleteSessionId : Silent [.op t (.idm .deleteSessionId) ()] :=
  ⟨fun _ => rfl, rfl, rfl, rfl, rfl⟩

/-- These events are such operations. -/
def Unnoticed (es : List SyncEvent) : Prop :=
  ∀ e ∈ es, ∃ t o r, UserIDMOp.unnoticed o = true ∧ e = .op t (.idm o) r

theorem unnoticed_nil : Unnoticed [] := fun _ he => by cases he

theorem unnoticed_singleton {o : UserIDMOp} (ho : o.unnoticed = true) (r : UserIDMRes o) :
    Unnoticed [.op t (.idm o) r] := by
  intro e he
  exact ⟨t, o, r, ho, List.mem_singleton.mp he⟩

theorem Unnoticed.append (h : Unnoticed es) (h' : Unnoticed es') : Unnoticed (es ++ es') := by
  intro e he
  exact (List.mem_append.mp he).elim (h e) (h' e)

theorem Unnoticed.silent (h : Unnoticed es) : Silent es := by
  induction es with
  | nil => exact silent_nil
  | cons e es ih =>
    obtain ⟨t, o, r, ho, rfl⟩ := h e List.mem_cons_self
    exact (ih fun e he => h e (List.mem_cons_of_mem _ he)).unnoticed ho r

theorem alone_unnoticed {p : UserIDMProg α} {a : α} (hp : p.All (·.unnoticed = true))
    (h : (sync platform).Alone t (synchronous p) s a es s') : s' = s ∧ Unnoticed es := by
  -- on the program; one operation may follow on any answer
  induction p generalizing es with
  | ret b =>
    obtain ⟨-, rfl, rfl⟩ := alone_ret.mp h
    exact ⟨rfl, unnoticed_nil⟩
  | call o k ih =>
    rw [synchronous, Prog.interp_call, withCoAuth_of_unnoticed hp.1] at h
    obtain ⟨r, es', hrest, rfl⟩ := h.call_state s (state_of_unnoticed hp.1)
    obtain ⟨rfl, hunnoticed⟩ := ih r (hp.2 r) hrest
    exact ⟨rfl, (unnoticed_singleton hp.1 r).append hunnoticed⟩

theorem initSchedule_unnoticed (authToken : List UInt8) (userId : Int32) (authType : AuthType) :
    (initSchedule authToken userId authType).All (·.unnoticed = true) :=
  initSchedule_all rfl rfl

/-- The last thing that a call does is to report a result. -/
theorem alone_report {ret : ResultCode} {a b : α}
    (h : (sync platform).Alone t
      (synchronous (.call (.onResult callback ret 0) fun _ => .ret b)) s a es s') :
    a = b ∧ s' = s ∧ es = [.op t (.idm (.onResult callback ret 0)) ()] := by
  obtain ⟨_, es₁, hret, rfl⟩ := h.call_state s fun _ => rfl
  obtain ⟨rfl, rfl, rfl⟩ := alone_ret.mp hret
  exact ⟨rfl, rfl, rfl⟩

end Unnoticed

/-! ## 2. The request -/

/-- The calls of the setters that make up a deletion. -/
def deletionCalls (info : CredentialInfo) : List SetCall :=
  [⟨.uint32Type, authPropertyMode, 0⟩, ⟨.uint64Type, authCallerUid, 0⟩,
   ⟨.uint32Type, CoAuth.authType, info.authType⟩,
   ⟨.uint64Type, authSubtype, info.authSubType.toUInt64⟩,
   ⟨.uint64Type, authCredentialId, info.credentialId⟩,
   ⟨.uint64Type, authTemplateId, info.templateId⟩]

theorem deletionCondition_eq (info : CredentialInfo) :
    deletionCondition info = AuthAttributes.new.setAll (deletionCalls info) := rfl

def modificationCalls (info : CredentialInfo) : List SetCall :=
  [⟨.uint32Type, authPropertyMode, 0⟩, ⟨.uint64Type, authCallerUid, 0⟩,
   ⟨.uint64Type, authCredentialId, info.credentialId⟩,
   ⟨.uint32Type, CoAuth.authType, info.authType⟩,
   ⟨.uint64Type, authTemplateId, info.templateId⟩]

theorem modificationCondition_eq (info : CredentialInfo) :
    modificationCondition info = AuthAttributes.new.setAll (modificationCalls info) := rfl

/-- The properties ask for a deletion, and name the type, the credential and the template. -/
structure Names (properties : AuthAttributes) (info : CredentialInfo) : Prop where
  mode : properties.valueMap .uint32Type authPropertyMode = some Executors.propermodeDelete
  authType : properties.valueMap .uint32Type CoAuth.authType = some info.authType
  credentialId : properties.valueMap .uint64Type authCredentialId = some info.credentialId
  templateId : properties.valueMap .uint64Type authTemplateId = some info.templateId

theorem deletionCondition_names (info : CredentialInfo) : Names (deletionCondition info) info :=
  ⟨rfl, rfl, rfl, rfl⟩

theorem modificationCondition_names (info : CredentialInfo) :
    Names (modificationCondition info) info :=
  ⟨rfl, rfl, rfl, rfl⟩

/-- For the process of an executor the properties are a request to delete this template. -/
def DeletesTemplate (properties : AuthAttributes) (templateId : UInt64) : Prop :=
  Executors.frameworkOnSetProperty (some properties) =
      Executors.processDeleteTemplateCommand properties ∧
    Executors.templateOf properties = templateId

theorem Names.deletesTemplate {properties : AuthAttributes} {info : CredentialInfo}
    (h : Names properties info) : DeletesTemplate properties info.templateId := by
  have hmode : properties.getUint32Value authPropertyMode 0 =
      (.success, Executors.propermodeDelete) := by
    rw [AuthAttributes.getUint32Value, AuthAttributes.getValue, h.mode]
  constructor
  · unfold Executors.frameworkOnSetProperty
    simp only [hmode]
    rw [if_neg (not_not.mpr rfl), if_pos trivial]
  · rw [Executors.templateOf, AuthAttributes.getUint64Value, AuthAttributes.getValue, h.templateId]

/-- A condition that is not too long, made by calls of the setters. -/
structure Relayable (condition : AuthAttributes) : Prop where
  filled : condition.Filled
  size : condition.packedSize < 2 ^ 32
  length : condition.existAttributes.length + 2 ≤ propertyFuel

theorem relayable_setAll {calls : List SetCall} (h : AuthAttributes.SetOnce calls)
    (hsize : (calls.map fun c => c.record.length).sum < 2 ^ 31)
    (hlength : calls.length + 2 ≤ propertyFuel) :
    Relayable (AuthAttributes.new.setAll calls) where
  filled := AuthAttributes.new_filled.setAll calls
  size := by
    rw [h.packedSize_eq]
    omega
  length := by
    rw [h.length_existAttributes_eq]
    exact hlength

theorem deletionCondition_relayable (info : CredentialInfo) :
    Relayable (deletionCondition info) := by
  have hsize : ((deletionCalls info).map fun c => c.record.length).sum = 88 := by
    simp [deletionCalls, SetCall.length_record, SetCall.payload]
  have hlength : 6 + 2 ≤ propertyFuel := by decide
  rw [deletionCondition_eq]
  exact relayable_setAll (of_decide_eq_true rfl) (by omega) hlength

theorem modificationCondition_relayable (info : CredentialInfo) :
    Relayable (modificationCondition info) := by
  have hsize : ((modificationCalls info).map fun c => c.record.length).sum = 72 := by
    simp [modificationCalls, SetCall.length_record, SetCall.payload]
  have hlength : 5 + 2 ≤ propertyFuel := by decide
  rw [modificationCondition_eq]
  exact relayable_setAll (of_decide_eq_true rfl) (by omega) hlength

/-- The executor is given what the condition names, whatever the uninitialised variables are. -/
theorem Relayable.exists_relayed {condition : AuthAttributes} {info : CredentialInfo}
    (h : Relayable condition) (hnames : Names condition info) :
    ∃ properties, Names properties info ∧
      ∀ locals, relayed propertyFuel locals condition = some properties := by
  have hlength : condition.existAttributes.length < 2 ^ 32 := by
    have hle := h.length
    unfold propertyFuel at hle
    omega
  -- The second object has every value that is not an empty byte array.
  have hkept {type : ValueType} {tag : AuthAttributeType} {value : type.Carrier}
      (hvalue : condition.valueMap type tag = some value)
      (hempty : SetCall.isEmptyUint8Array type value = false) :
      (condition.sortAttributes.packedEntries.foldl AuthAttributes.store .new).valueMap type tag =
        some value := by
    have hsorted : condition.sortAttributes.valueMap type tag = some value := hvalue
    rw [AuthAttributes.valueMap_store_packedEntries h.filled.sortAttributes, hsorted,
      Option.any_some, hempty]
    rfl
  refine ⟨_, ?_, AuthAttributes.relayed_eq h.filled h.size hlength h.length⟩
  exact ⟨hkept hnames.mode rfl, hkept hnames.authType rfl, hkept hnames.credentialId rfl,
    hkept hnames.templateId rfl⟩

/-! ## 3. The run of a request -/

/-- The executor of the credential's type is looked up, and asked if there is one; the client hears
its answer, or `FAIL`. -/
inductive Requested (t : Nat) (info : CredentialInfo) (callback : ClientCallback) :
    ResultCode → List SyncEvent → Prop where
  | missing (condition : AuthAttributes) (handler : UserIDMSetPropHandler)
      (locals : AuthAttributes.PackLocals × AuthType) :
      Requested t info callback .fail
        [.op t (.idm (.setExecutorProp condition handler)) (), .op t .locals locals,
         .op t (.findExecutorCallback info.authType) none,
         .op t (.idm (.onResult callback .fail handler.lastCredentialId)) (),
         .op t (.idm .deleteSessionId) ()]
  | answered (condition : AuthAttributes) (handler : UserIDMSetPropHandler)
      (locals : AuthAttributes.PackLocals × AuthType) (remote : ExecutorCallback)
      {properties : AuthAttributes} (hnames : Names properties info) (result : ResultCode) :
      Requested t info callback result
        [.op t (.idm (.setExecutorProp condition handler)) (), .op t .locals locals,
         .op t (.findExecutorCallback info.authType) (some remote),
         .op t (.onSetProperty remote properties) result,
         .op t (.idm (.onResult callback result handler.lastCredentialId)) (),
         .op t (.idm .deleteSessionId) ()]

section Run

variable {platform : Platform} {t : Nat} {s s' : UserIDMState} {handler : UserIDMSetPropHandler}

/-- The handler calls the client and empties the slot. -/
theorem alone_onResultLocked (hcallback : handler.propInnerCallback = some callback)
    (htype : handler.type = .pin ∨ handler.type = .face) {result : ResultCode}
    (h : (sync platform).Alone t (lift (onResultLocked handler result.toUInt32)) s () es s') :
    s'.data = s.data.deleteSessionId ∧
      es = [.op t (.idm (.onResult callback result handler.lastCredentialId)) (),
        .op t (.idm .deleteSessionId) ()] := by
  unfold lift onResultLocked at h
  rw [if_pos htype, hcallback, Int32.toInt32_toUInt32] at h
  obtain ⟨env, es₁, -, hrest, rfl⟩ := alone_call.mp h
  obtain ⟨env', es₂, -, hret, rfl⟩ := alone_call.mp hrest
  obtain ⟨-, rfl, rfl⟩ := alone_ret.mp hret
  exact ⟨rfl, rfl⟩

/-- **A request.**  The slot is empty after it. -/
theorem alone_setExecutorProp {condition : AuthAttributes} {info : CredentialInfo}
    (hcondition : Relayable condition) (hnames : Names condition info)
    (hcallback : handler.propInnerCallback = some callback)
    (htype : handler.type = .pin ∨ handler.type = .face)
    (h : (sync platform).Alone t (syncSetExecutorProp condition handler) s () es s') :
    s'.data = s.data.deleteSessionId ∧ ∃ result, Requested t info callback result es := by
  obtain ⟨properties, hproperties, hrelayed⟩ := hcondition.exists_relayed hnames
  obtain ⟨_, es₁, hlocals, rfl⟩ := h.call_state _ fun _ => rfl
  obtain ⟨locals, es₂, hfind, rfl⟩ := hlocals.call_state _ fun _ => rfl
  simp only [setExecutorProp, syncCalls, AuthAttributes.getUint32Value, AuthAttributes.getValue,
    hnames.authType, hrelayed, Prog.op_bind] at hfind
  obtain ⟨found, es₃, hask, rfl⟩ := hfind.call_state _ fun _ => rfl
  -- Both ways end with the handler that is called back.
  cases found with
  | none =>
    obtain ⟨hdata, rfl⟩ := alone_onResultLocked hcallback htype hask
    exact ⟨hdata, .fail, .missing condition handler locals⟩
  | some remote =>
    obtain ⟨result, es₄, hreport, rfl⟩ := hask.call_state _ fun _ => rfl
    obtain ⟨hdata, rfl⟩ := alone_onResultLocked hcallback htype hreport
    exact ⟨hdata, result, .answered condition handler locals remote hproperties result⟩

end Run

section Requested

variable {t : Nat} {info : CredentialInfo} {result : ResultCode}

theorem Requested.hears (h : Requested t info callback result es) :
    Hears callback [result] es := by
  intro callback'
  split
  · next heq =>
    subst heq
    cases h with
    | missing => exact results_onResult
    | answered => exact results_onResult
  · next hne =>
    cases h with
    | missing => exact results_other hne
    | answered => exact results_other hne

/-- The answer of the executor is what the client hears. -/
theorem Requested.answers (h : Requested t info callback result es) :
    ((asked es).map Prod.snd).Sublist [result] := by
  cases h with
  | missing => exact List.nil_sublist _
  | answered => exact List.Sublist.refl _

theorem Requested.names (h : Requested t info callback result es)
    {q : AuthAttributes × ResultCode} (hq : q ∈ asked es) : Names q.1 info := by
  cases h with
  | missing => cases hq
  | answered condition handler locals remote hnames =>
    rw [List.mem_singleton.mp hq]
    exact hnames

theorem Requested.deletions_eq (h : Requested t info callback result es) : deletions es = [] := by
  cases h <;> rfl

theorem Requested.updated_eq (h : Requested t info callback result es) : updated es = [] := by
  cases h <;> rfl

theorem Requested.begun_eq (h : Requested t info callback result es) : begun es = [] := by
  cases h <;> rfl

theorem Requested.finished_eq (h : Requested t info callback result es) : finished es = [] := by
  cases h <;> rfl

end Requested

/-- The executor of the credential's type is looked up, and if there is one, it is asked to delete
the template. -/
def AskedToDelete (info : CredentialInfo) (es : List SyncEvent) : Prop :=
  ∃ found, (info.authType, found) ∈ lookedUp es ∧ ∀ remote ∈ found, ∃ t properties result,
    .op t (.onSetProperty remote properties) result ∈ es ∧ Names properties info ∧
      DeletesTemplate properties info.templateId

theorem Requested.asksToDelete {t : Nat} {info : CredentialInfo} {result : ResultCode}
    (h : Requested t info callback result es) : AskedToDelete info es := by
  cases h with
  | missing => exact ⟨none, List.mem_singleton_self _, fun remote hremote => by cases hremote⟩
  | answered condition handler locals remote hnames =>
    refine ⟨some remote, List.mem_singleton_self _, ?_⟩
    intro remote' hremote
    obtain rfl := Option.mem_some_iff.mp hremote
    exact ⟨t, _, result, by simp, hnames, hnames.deletesTemplate⟩

theorem AskedToDelete.append_left {info : CredentialInfo} (h : AskedToDelete info es') :
    AskedToDelete info (es ++ es') := by
  obtain ⟨found, hfound, hasked⟩ := h
  refine ⟨found, ?_, ?_⟩
  · rw [lookedUp_append]
    exact List.mem_append_right _ hfound
  · intro remote hremote
    obtain ⟨t, properties, result, hmem, hnames⟩ := hasked remote hremote
    exact ⟨t, properties, result, List.mem_append_right _ hmem, hnames⟩

/-- A platform that grants every permission, for the runs on given inputs. -/
def grantingPlatform : Platform := ⟨⟨fun _ _ => true, fun _ => true, fun _ => (.success, 0)⟩, 22⟩

/-- A session is opened, and the enrolment of schedule 7 begins in it. -/
def enrolCalls : List (UserIDMCall × List SyncEnv) :=
  [(.controller (.openEditSession 100),
     [{}, {}, {}, { idm := { hdiChallenge := [1, 0, 0, 0, 0, 0, 0, 0] } }, {}]),
   (.controller (.addCredential 100 0 ⟨.pin, 0, []⟩ (some 5)),
     [{}, {}, {}, { idm := { schedule := ⟨7, [70], 0, 0, [⟨1, .pin, List.replicate 32 0⟩]⟩ } },
      {}, {}, {}])]

end UserIam.UserIDM
