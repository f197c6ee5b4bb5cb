import UserIam.UserIDM.UserIDMSystem

/-!
# Commits and the edit session they belong to

A handler commits an enrolment when the active schedule id is its own; it remembers the challenge of
the session it was started in, and nobody compares it.  What binds a commit to its session is that
the schedule id went into the session whose challenge the start had read, and that no later session
took over with the schedule id still in place.
-/

namespace UserIam.UserIDM

open Conc

/-! ## 1. Reading the challenge and inserting the schedule -/

inductive SessionMark where
  | read (challenge : UInt64)
  | insert
  deriving DecidableEq, Repr

def sessionMark (S : UInt64) : UserIDMEvent → Option SessionMark
  | .op _ .checkChallenge (some challenge) => some (.read challenge)
  | .op _ (.insertScheduleId id) _ => if id = S then some .insert else none
  | _ => none

/-- The thread has read `challenge` and then inserted the schedule. -/
def StartedUnder (S : UInt64) (w : UserIDMWorld) (t : Nat) (challenge : UInt64) : Prop :=
  w.marks (sessionMark S) t = [.read challenge, .insert]

/-- The session that the schedule is active in is the one it was started in, and so is the one that
each of its handlers remembers. -/
structure SessionInv (S : UInt64) (w : UserIDMWorld) : Prop where
  current : w.state.data.scheduleId = S →
    ∀ t challenge, StartedUnder S w t challenge → challenge = w.state.data.challenge
  remembered : ∀ handler ∈ w.state.coAuthHandlers, handler.lastScheduleId = S →
    handler.lastChallenge ≠ 0 ∧ ∃ t, StartedUnder S w t handler.lastChallenge

variable {platform : Platform} {S : UInt64} {t : Nat} {w : UserIDMWorld}

/-- The event leaves the starts as they are: it is no mark, or a mark other than an insertion of a
thread that has not inserted the schedule. -/
def KeepsStarts (S : UInt64) (w : UserIDMWorld) (e : UserIDMEvent) : Prop :=
  sessionMark S e = none ∨
    (.insert ∉ w.marks (sessionMark S) e.tid ∧ sessionMark S e ≠ some .insert)

theorem startedUnder_push {s : UserIDMState} {e : UserIDMEvent} {challenge : UInt64}
    (he : KeepsStarts S w e) :
    StartedUnder S (w.push s e) t challenge ↔ StartedUnder S w t challenge := by
  unfold StartedUnder
  rw [World.marks_push]
  rcases he with he | ⟨hown, hmark⟩
  · rw [he, Option.toList_none, List.append_nil, Function.update_eq_self]
  · by_cases ht : t = e.tid
    · subst ht
      rw [Function.update_self]
      have hinsert (marks : List SessionMark) (h : marks = [.read challenge, .insert]) :
          .insert ∈ marks := by simp [h]
      constructor
      · intro h
        have hmem := hinsert _ h
        simp [hown] at hmem
        exact absurd hmem hmark
      · intro h
        exact absurd (hinsert _ h) hown
    · rw [Function.update_of_ne ht]

/-- The slot does not come to hold the schedule and keeps its challenge as long as it does. -/
theorem SessionInv.push {s : UserIDMState} {e : UserIDMEvent} (h : SessionInv S w)
    (he : KeepsStarts S w e) (hhandlers : s.coAuthHandlers = w.state.coAuthHandlers)
    (hdata : s.data.scheduleId = S →
      w.state.data.scheduleId = S ∧ s.data.challenge = w.state.data.challenge) :
    SessionInv S (w.push s e) where
  current hslot t challenge ht := by
    obtain ⟨hslot', hchallenge⟩ := hdata hslot
    rw [World.push_state, hchallenge]
    exact h.current hslot' t challenge ((startedUnder_push he).mp ht)
  remembered handler hmem hid := by
    rw [World.push_state, hhandlers] at hmem
    obtain ⟨hne, t, ht⟩ := h.remembered handler hmem hid
    exact ⟨hne, t, (startedUnder_push he).mpr ht⟩

/-! ## 2. The condition -/

/-- The schedule is inserted into the session whose challenge its start has read, and into no other
session before; a new challenge is not inserted while the schedule is active. -/
def staysInSession (S : UInt64) (w : UserIDMWorld) : UserIDMMove → Prop
  | .op t (.insertScheduleId id) _ =>
    id = S → .read w.state.data.challenge ∈ w.marks (sessionMark S) t ∧
      ∀ e ∈ w.trace, sessionMark S e = some .insert →
        .read w.state.data.challenge ∈ w.marks (sessionMark S) e.tid
  | .op _ (.insertChallenge challenge) _ =>
    w.state.data.scheduleId = S → challenge = w.state.data.challenge
  | _ => True

instance (S : UInt64) (w : UserIDMWorld) (mv : UserIDMMove) :
    Decidable (staysInSession S w mv) := by
  unfold staysInSession
  split <;> infer_instance

/-! ## 3. Programs -/

abbrev KeepsSession (platform : Platform) (S : UInt64) (t : Nat) {α : Type} (p : UserIDMProg α)
    (Q : α → List UserIDMEvent → Prop) (h : List UserIDMEvent) : Prop :=
  (userIDM platform).Keeps (staysInSession S) (SessionInv S) t p Q h

variable {α β : Type} {h : List UserIDMEvent}

theorem sessionMark_ne_insert {o : UserIDMOp} (ho : o.starts = false) (r : UserIDMRes o) :
    sessionMark S (.op t o r) ≠ some .insert := by
  cases o with
  | checkChallenge => cases r <;> simp [sessionMark]
  | insertScheduleId => cases ho
  | _ => simp [sessionMark]

/-- The operations that start no enrolment keep the invariant. -/
theorem SessionInv.perform (hS : S ≠ 0) {o : UserIDMOp} (ho : o.starts = false) {env : UserIDMEnv}
    (hw : SessionInv S w) (hown : .insert ∉ w.marks (sessionMark S) t)
    (hok : staysInSession S w (.op t o env)) :
    SessionInv S ((userIDM platform).perform w t o env) := by
  have he : KeepsStarts S w (.op t o ((userIDM platform).answer w t o env)) :=
    .inr ⟨hown, sessionMark_ne_insert ho _⟩
  cases o with
  | insertScheduleId => cases ho
  | beginSchedule => cases ho
  | insertChallenge challenge => exact hw.push he rfl fun hslot => ⟨hslot, hok hslot⟩
  | deleteSessionId => exact hw.push he rfl fun hslot => absurd hslot.symm hS
  | cleanData => exact hw.push he rfl fun hslot => absurd hslot.symm hS
  | _ => exact hw.push he rfl fun hslot => ⟨hslot, rfl⟩

theorem SessionInv.perform_neutral {o : UserIDMOp} (ho : Neutral o) {env : UserIDMEnv}
    (hw : SessionInv S w) : SessionInv S ((userIDM platform).perform w t o env) := by
  cases o <;> first | exact hw.push (.inl rfl) rfl fun hslot => ⟨hslot, rfl⟩ | cases ho

/-- A program that starts no enrolment, run by a thread that has started none. -/
theorem keepsSession_other (hS : S ≠ 0) {p : UserIDMProg α} (hp : p.All (·.starts = false))
    (hh : .insert ∉ h.filterMap (sessionMark S)) :
    KeepsSession platform S t p (fun _ _ => True) h := by
  refine Machine.Keeps.mono (Q := fun _ h => .insert ∉ h.filterMap (sessionMark S)) ?_
    fun _ _ _ => trivial
  refine Machine.Keeps.of_all (fun w env o ho hw hR _ hok => ⟨hw.perform hS ho hR hok, ?_⟩) hp hh
  rw [World.filterMap_concat _ rfl, List.mem_append, Option.mem_toList]
  rintro (hmem | hmem)
  · exact hR hmem
  · exact sessionMark_ne_insert ho _ hmem

/-! ### Starting an enrolment -/

/-- A first part that reads no challenge and starts no enrolment leaves the marks to the second. -/
theorem keepsSession_bind (hS : S ≠ 0) {p : UserIDMProg α} (hp : p.All (·.prepares = true))
    {f : α → UserIDMProg β} {Q : β → List UserIDMEvent → Prop} {marks : List SessionMark}
    (hinsert : .insert ∉ marks) (hh : h.filterMap (sessionMark S) = marks)
    (hf : ∀ a h, h.filterMap (sessionMark S) = marks → KeepsSession platform S t (f a) Q h) :
    KeepsSession platform S t (p >>= f) Q h := by
  refine Machine.keeps_bind.mpr (Machine.Keeps.mono ?_ hf)
  refine Machine.Keeps.of_all (fun w env o ho hw hR _ hok => ?_) hp hh
  have hmark : sessionMark S (.op t o ((userIDM platform).answer w t o env)) = none := by
    cases o <;> first | rfl | cases ho
  refine ⟨hw.perform hS (UserIDMOp.not_starts_of_prepares ho) ?_ hok, ?_⟩
  · rw [World.marks, hR]
    exact hinsert
  · rw [World.filterMap_concat _ hR, hmark, Option.toList_none, List.append_nil]

theorem keepsSession_checkChallenge (hS : S ≠ 0) (hh : h.filterMap (sessionMark S) = [])
    {k : Option UInt64 → UserIDMProg α} {Q : α → List UserIDMEvent → Prop}
    (hnone : ∀ h, h.filterMap (sessionMark S) = [] → KeepsSession platform S t (k none) Q h)
    (hsome : ∀ challenge h, challenge ≠ 0 → h.filterMap (sessionMark S) = [.read challenge] →
      KeepsSession platform S t (k (some challenge)) Q h) :
    KeepsSession platform S t (.call .checkChallenge k) Q h := by
  intro w env hw hown _ hok
  subst hown
  have hinsert : .insert ∉ w.marks (sessionMark S) t := by simp [World.marks, hh]
  refine ⟨hw.perform hS rfl hinsert hok, ?_⟩
  have hconcat := World.filterMap_concat (sessionMark S) hh
  cases hanswer : (userIDM platform).answer w t .checkChallenge env with
  | none => exact hnone _ (hconcat _)
  | some challenge =>
    exact hsome challenge _ (UserIDMModule.checkChallenge_eq_some.mp hanswer).2 (hconcat _)

theorem keepsSession_checkActive (hS : S ≠ 0) {marks : List SessionMark}
    (hinsert : .insert ∉ marks) (hh : h.filterMap (sessionMark S) = marks)
    {k : Option UInt64 → UserIDMProg α} {Q : α → List UserIDMEvent → Prop}
    (hk : ∀ r h, h.filterMap (sessionMark S) = marks → KeepsSession platform S t (k r) Q h) :
    KeepsSession platform S t (.call .checkScheduleIdIsActive k) Q h := by
  intro w env hw hown _ hok
  subst hown
  refine ⟨hw.perform hS rfl ?_ hok, hk _ _ ?_⟩
  · rw [World.marks, hh]
    exact hinsert
  · rw [World.filterMap_concat _ hh]
    simp [sessionMark]

/-- The schedule goes into the session whose challenge the start has read. -/
theorem SessionInv.insert {challenge : UInt64} {env : UserIDMEnv} (hw : SessionInv S w)
    (hmarks : w.marks (sessionMark S) t = [.read challenge])
    (hok : staysInSession S w (.op t (.insertScheduleId S) env)) :
    SessionInv S ((userIDM platform).perform w t (.insertScheduleId S) env) := by
  obtain ⟨hread, hearlier⟩ := hok rfl
  have hchallenge : challenge = w.state.data.challenge := by
    rw [hmarks, List.mem_singleton, SessionMark.read.injEq] at hread
    exact hread.symm
  have hpush : ((userIDM platform).perform w t (.insertScheduleId S) env).marks (sessionMark S) =
      Function.update (w.marks (sessionMark S)) t [.read challenge, .insert] := by
    rw [Machine.perform, World.marks_push]
    simp [hmarks, sessionMark]
  constructor
  · intro _ t' x ht'
    show x = w.state.data.challenge
    unfold StartedUnder at ht'
    rw [hpush] at ht'
    -- Whoever has started the schedule before has read the same challenge.
    by_cases htt : t' = t
    · rw [htt, Function.update_self] at ht'
      simp only [List.cons.injEq, SessionMark.read.injEq, and_true] at ht'
      exact ht'.symm.trans hchallenge
    · rw [Function.update_of_ne htt] at ht'
      have hinsert : .insert ∈ w.marks (sessionMark S) t' := by simp [ht']
      obtain ⟨e, he, rfl, hmark⟩ := (World.mem_marks _).mp hinsert
      have hmem := hearlier e he hmark
      simp only [ht', List.mem_cons, SessionMark.read.injEq, reduceCtorEq, List.not_mem_nil,
        or_false] at hmem
      exact hmem.symm
  · intro handler hmem hid
    obtain ⟨hne, t', ht'⟩ := hw.remembered handler hmem hid
    refine ⟨hne, t', ?_⟩
    unfold StartedUnder at ht' ⊢
    have htt : t' ≠ t := by
      rintro rfl
      simp [hmarks] at ht'
    rw [hpush, Function.update_of_ne htt, ht']

/-- The handler of a start remembers the challenge that the start has read. -/
theorem SessionInv.begin {challenge : UInt64} (hne : challenge ≠ 0) {env : UserIDMEnv}
    {info : CoAuth.ScheduleInfo} {authInfo : CoAuth.AuthInfo} {type : CoAuthType}
    {callback : Option ClientCallback} (hw : SessionInv S w)
    (hstarted : info.scheduleId = S → StartedUnder S w t challenge) :
    SessionInv S ((userIDM platform).perform w t
      (.beginSchedule info authInfo ⟨type, challenge, info.scheduleId, callback⟩) env) := by
  have hpush (t' : Nat) (x : UInt64) : StartedUnder S ((userIDM platform).perform w t
      (.beginSchedule info authInfo ⟨type, challenge, info.scheduleId, callback⟩) env) t' x ↔
        StartedUnder S w t' x := by
    exact startedUnder_push (.inl rfl)
  constructor
  · intro hslot t' x ht'
    exact hw.current hslot t' x ((hpush t' x).mp ht')
  · intro handler hmem hid
    rcases List.mem_append.mp hmem with hmem | hmem
    · obtain ⟨hne, t', ht'⟩ := hw.remembered handler hmem hid
      exact ⟨hne, t', (hpush _ _).mpr ht'⟩
    · rw [List.mem_singleton] at hmem
      subst hmem
      exact ⟨hne, t, (hpush _ _).mpr (hstarted hid)⟩

theorem keepsSession_begin (hS : S ≠ 0) {challenge : UInt64} (hne : challenge ≠ 0)
    (hh : h.filterMap (sessionMark S) = [.read challenge]) (info : CoAuth.ScheduleInfo)
    (authInfo : CoAuth.AuthInfo) (type : CoAuthType) (callback : Option ClientCallback) :
    KeepsSession platform S t
      (.call (.insertScheduleId info.scheduleId) fun _ =>
        .call (.beginSchedule info authInfo ⟨type, challenge, info.scheduleId, callback⟩)
          fun _ => .ret ResultCode.success)
      (fun _ _ => True) h := by
  intro w env hw hown _ hok
  subst hown
  have hinsert : .insert ∉ w.marks (sessionMark S) t := by simp [World.marks, hh]
  have hconcat := World.filterMap_concat (sessionMark S) hh
  by_cases hid : info.scheduleId = S
  · subst hid
    refine ⟨hw.insert hh hok, fun w' env' hw' hown' _ _ => ⟨hw'.begin hne fun _ => ?_, trivial⟩⟩
    unfold StartedUnder World.marks
    rw [hown', hconcat]
    simp [sessionMark]
  · refine ⟨hw.push (.inl (if_neg hid)) rfl fun hslot => absurd hslot hid, fun w' env' hw' _ _ _ =>
      ⟨hw'.begin hne fun heq => absurd heq hid, trivial⟩⟩

theorem keepsSession_start (hS : S ≠ 0) (type : CoAuthType) (authInfo : CoAuth.AuthInfo)
    (credInfo : AddCredInfo) (userId : Int32) (callback : ClientCallback)
    (hh : h.filterMap (sessionMark S) = []) :
    KeepsSession platform S t (startEnrolment type authInfo credInfo userId callback)
      (fun _ _ => True) h := by
  have hreport (ret : ResultCode) {h : List UserIDMEvent} {marks : List SessionMark}
      (hinsert : .insert ∉ marks) (hh : h.filterMap (sessionMark S) = marks) (code : ResultCode) :
      KeepsSession platform S t (.call (.onResult callback code 0) fun _ => .ret ret)
        (fun _ _ => True) h :=
    keepsSession_other hS ⟨rfl, fun _ => trivial⟩ (hh ▸ hinsert)
  unfold startEnrolment
  refine keepsSession_checkChallenge hS hh (fun h hh => hreport _ (by simp) hh _)
    fun challenge h hne hh => ?_
  refine keepsSession_checkActive hS (by simp) hh fun active h hh => ?_
  cases active with
  | some id => exact hreport _ (by simp) hh _
  | none =>
    refine keepsSession_bind hS (initSchedule_prepares _ _ _) (by simp) hh fun r h hh => ?_
    cases r with
    | error ret => exact hreport _ (by simp) hh _
    | ok info => exact keepsSession_begin hS hne hh info authInfo type (some callback)

/-- A call that starts keeps the invariant, and so does its program. -/
theorem keepsSession_spawn (hS : S ≠ 0) (w : UserIDMWorld) (call : UserIDMCall)
    (s : UserIDMState) (hw : SessionInv S w) (hs : userIDMAccept w.state call = some s) :
    SessionInv S (w.push s (.spawn t call)) ∧
      KeepsSession platform S t (userIDMBody platform call) (fun _ _ => True)
        [.spawn t call] := by
  obtain rfl := eq_of_userIDMAccept hs
  refine ⟨hw.push (.inl rfl) rfl fun hslot => ⟨hslot, rfl⟩, ?_⟩
  have hh : [.spawn t call].filterMap (sessionMark S) = [] := rfl
  have hother {α : Type} {p : UserIDMProg α} (hp : p.All (·.starts = false)) :
      KeepsSession platform S t p (fun _ _ => True) [.spawn t call] :=
    keepsSession_other hS hp (by simp [hh])
  have hone {p : UserIDMProg Unit} (hp : OneSession p) :
      KeepsSession platform S t p (fun _ _ => True) [.spawn t call] := by
    refine keeps_oneSession (fun _ _ _ ho hw => hw.perform_neutral ho) ?_ ?_ hp
    · intro β q hq
      exact hother (hq.mono fun _ => UserIDMOp.not_starts_of_manages)
    · intro type authInfo credInfo userId callback
      exact keepsSession_start hS type authInfo credInfo userId callback hh
  cases call with
  | request caller code data =>
    exact hone ((onRemoteRequest_oneSession platform caller data code).bind fun _ => trivial)
  | controller call => exact hone (controllerBody_oneSession call)
  | onFinish i handler resultCode scheduleToken => exact hother (onFinish_not_starts _ _ _ _)
  | onAcquireInfo i handler acquire => exact hother (onAcquireInfo_not_starts _ _ _)
  | onResult i handler result => exact hother (onResult_not_starts _ _ _)

theorem sessionInv_initial : SessionInv S ⟨.initial, []⟩ where
  current _ t challenge ht := by cases ht
  remembered handler hmem := by cases hmem

/-! ## 4. Commits -/

def atActiveCheck : UserIDMProg Unit → Bool
  | .call .checkScheduleIdIsActive _ => true
  | _ => false

/-- The handler whose `OnFinish` a thread runs. -/
def finishHandler (w : UserIDMWorld) (t : Nat) : Option UserIDMCoAuthHandler :=
  w.trace.findSome? fun
    | .spawn tid (.onFinish _ handler _ _) => if tid = t then some handler else none
    | _ => none

/-- The next step of thread `t` is the check of a handler's `OnFinish`, and it passes: the handler
commits. -/
def DecidesToCommit (c : UserIDMConfig) (t : Nat) (handler : UserIDMCoAuthHandler) : Prop :=
  finishHandler c.world t = some handler ∧ c.threads[t]?.any atActiveCheck = true ∧
    c.world.state.data.checkScheduleIdIsActive = some handler.lastScheduleId

instance (c : UserIDMConfig) (t : Nat) (handler : UserIDMCoAuthHandler) :
    Decidable (DecidesToCommit c t handler) := by
  unfold DecidesToCommit
  infer_instance

theorem mem_of_finishHandler {handler : UserIDMCoAuthHandler}
    (h : finishHandler w t = some handler) :
    ∃ i resultCode scheduleToken,
      .spawn t (.onFinish i handler resultCode scheduleToken) ∈ w.trace := by
  obtain ⟨e, he, hsome⟩ := List.exists_of_findSome?_eq_some h
  split at hsome
  · rw [Option.ite_none_right_eq_some, Option.some.injEq] at hsome
    obtain ⟨rfl, rfl⟩ := hsome
    exact ⟨_, _, _, he⟩
  · cases hsome

/-- **Commits are bound to their session.**  In every run in which a schedule stays in the session
it was started in, the session's challenge is the one its handler remembers whenever the handler
decides to commit. -/
theorem commit_inSession (platform : Platform) (handler : UserIDMCoAuthHandler)
    {c : UserIDMConfig} {t : Nat}
    (hc : (userIDM platform).Reachable (staysInSession handler.lastScheduleId) .initial c)
    (hcommit : DecidesToCommit c t handler) :
    c.world.state.data.challenge ≠ 0 ∧
      c.world.state.data.challenge = handler.lastChallenge := by
  obtain ⟨hfinish, -, hactive⟩ := hcommit
  obtain ⟨hslot, hS⟩ := UserIDMModule.checkScheduleIdIsActive_eq_some.mp hactive
  have hinv : SessionInv handler.lastScheduleId c.world :=
    (Machine.reachable_keeps (Q := fun _ => True) sessionInv_initial
      (fun w t call s hw _ _ hs => keepsSession_spawn hS w call s hw hs) hc).1
  obtain ⟨i, resultCode, scheduleToken, hmem⟩ := mem_of_finishHandler hfinish
  have hregistered := List.mem_of_getElem? (registered_of_onFinish hc hmem)
  obtain ⟨hne, t', ht'⟩ := hinv.remembered handler hregistered rfl
  have heq := hinv.current hslot t' _ ht'
  rw [← heq]
  exact ⟨hne, rfl⟩

/-! ## 5. A session that is opened in between -/

section Stale

def stalePlatform : Platform := ⟨⟨fun _ _ => true, fun _ => true, fun _ => (.success, 0)⟩, 22⟩

def staleSchedule : HdiScheduleInfo := ⟨7, [1], 0, 0, [⟨1, .pin, List.replicate 32 0⟩]⟩

/-- The handler of an enrolment that was started under challenge 1. -/
def staleHandler : UserIDMCoAuthHandler := ⟨.addPinCred, 1, 7, some 5⟩

/-- A session is opened under challenge 1 and an enrolment begins in it. -/
def staleBegin : List (Machine.Label UserIDMEnv UserIDMCall) :=
  [.spawn (.controller (.openEditSession 100)), .run 0 {}, .run 0 {}, .run 0 {},
   .run 0 { hdiChallenge := [1, 0, 0, 0, 0, 0, 0, 0] }, .run 0 {},
   .spawn (.controller (.addCredential 100 0 ⟨.pin, 10000, []⟩ (some 5))),
   .run 1 {}, .run 1 {}, .run 1 {}, .run 1 { schedule := staleSchedule }]

/-- Another client opens a session under challenge 2. -/
def staleOpen : List (Machine.Label UserIDMEnv UserIDMCall) :=
  [.spawn (.controller (.openEditSession 101)), .run 2 {}, .run 2 {}, .run 2 {},
   .run 2 { hdiChallenge := [2, 0, 0, 0, 0, 0, 0, 0] }, .run 2 {}]

/-- The enrolment goes on, and `OnFinish` gets to its check. -/
def staleFinish (t : Nat) : List (Machine.Label UserIDMEnv UserIDMCall) :=
  [.run 1 {}, .run 1 {}, .spawn (.onFinish 0 staleHandler 0 []), .run t {}]

/-- The enrolment that was started under challenge 1 is committed under challenge 2. -/
theorem commit_staleSession :
    ¬∀ (platform : Platform) (c : UserIDMConfig) (t : Nat) (handler : UserIDMCoAuthHandler),
      (userIDM platform).Reachable Machine.anyMove .initial c → DecidesToCommit c t handler →
        c.world.state.data.challenge ≠ 0 ∧
          c.world.state.data.challenge = handler.lastChallenge := by
  intro h
  have hrun : ((userIDM stalePlatform).exec Machine.anyMove ⟨⟨.initial, []⟩, []⟩
      (staleBegin ++ staleOpen ++ staleFinish 3)).map
        (fun c => (decide (DecidesToCommit c 3 staleHandler), c.world.state.data.challenge)) =
      some (true, 2) := by decide
  obtain ⟨c, hc, heq⟩ := Option.map_eq_some_iff.mp hrun
  obtain ⟨hcommit, hchallenge⟩ := Prod.mk.inj heq
  have hbound := h stalePlatform c 3 staleHandler (Machine.Reachable.exec .init hc)
    (of_decide_eq_true hcommit)
  rw [hchallenge] at hbound
  exact absurd hbound.2 (by decide)

/-- Without the second session the enrolment is committed under its own challenge. -/
theorem commit_inSession_example :
    ∃ c, (userIDM stalePlatform).Reachable (staysInSession 7) .initial c ∧
      DecidesToCommit c 2 staleHandler ∧ c.world.state.data.challenge ≠ 0 ∧
        c.world.state.data.challenge = 1 := by
  have hrun : ((userIDM stalePlatform).exec (staysInSession 7) ⟨⟨.initial, []⟩, []⟩
      (staleBegin ++ staleFinish 2)).map
        (fun c => decide (DecidesToCommit c 2 staleHandler)) = some true := by decide
  obtain ⟨c, hc, hcommit⟩ := Option.map_eq_some_iff.mp hrun
  have hreach : (userIDM stalePlatform).Reachable (staysInSession 7) .initial c :=
    Machine.Reachable.exec .init hc
  have hdecides := of_decide_eq_true hcommit
  exact ⟨c, hreach, hdecides, commit_inSession stalePlatform staleHandler hreach hdecides⟩

end Stale

end UserIam.UserIDM
