import Mathlib.Data.List.TakeWhile
import UserIam.UserIDM.UserIDMSystem

/-!
# One enrolment at a time

The slot of the session is what keeps a second enrolment out: a start looks at it, begins an
enrolment with the HDI, and only then fills it.  As long as nothing is written over a schedule that
is still running, every running schedule is the one in the slot.
-/

namespace UserIam.UserIDM

open Conc

/-! ## 1. Running schedules -/

/-- The thread puts the schedule into the slot. -/
def isInsert (t : Nat) (S : UInt64) : UserIDMEvent → Bool
  | .op tid (.insertScheduleId id) _ => tid = t && id = S
  | _ => false

def isBegin (t : Nat) (S : UInt64) : UserIDMEvent → Bool
  | .op tid (.beginSchedule info _ _) _ => tid = t && info.scheduleId = S
  | _ => false

/-- The schedule is finished, or CoAuth is told to cancel it. -/
def isEnd (S : UInt64) : UserIDMEvent → Bool
  | .spawn _ (.onFinish _ handler _ _) => handler.lastScheduleId = S
  | .op _ (.cancel id) _ => id = S
  | _ => false

def Inserted (t : Nat) (S : UInt64) (w : UserIDMWorld) : Prop := w.trace.any (isInsert t S) = true
def Begun (t : Nat) (S : UInt64) (w : UserIDMWorld) : Prop := w.trace.any (isBegin t S) = true

/-- The schedule has ended since the thread put it into the slot.  What has happened to another
schedule of the same id before does not count. -/
def Ended (t : Nat) (S : UInt64) (w : UserIDMWorld) : Prop :=
  (w.trace.dropWhile fun e => !isInsert t S e).any (isEnd S) = true

/-- The thread has passed the schedule to `BeginSchedule`, and it has neither been finished nor been
the target of `Cancel`. -/
def Running (t : Nat) (S : UInt64) (w : UserIDMWorld) : Prop := Begun t S w ∧ ¬Ended t S w

instance (t : Nat) (S : UInt64) (w : UserIDMWorld) : Decidable (Ended t S w) :=
  inferInstanceAs (Decidable (_ = true))

instance (t : Nat) (S : UInt64) (w : UserIDMWorld) : Decidable (Running t S w) :=
  inferInstanceAs (Decidable (_ = true ∧ ¬_ = true))

variable {platform : Platform} {S : UInt64} {t : Nat} {w : UserIDMWorld} {s : UserIDMState}
  {e : UserIDMEvent}

theorem inserted_push : Inserted t S (w.push s e) ↔ Inserted t S w ∨ isInsert t S e = true := by
  simp [Inserted]

theorem begun_push : Begun t S (w.push s e) ↔ Begun t S w ∨ isBegin t S e = true := by
  simp [Begun]

theorem isEnd_of_isInsert (h : isInsert t S e = true) : isEnd S e = false := by
  cases e with
  | spawn => cases h
  | op tid o r => cases o <;> first | rfl | cases h

theorem dropWhile_eq_nil_iff :
    (w.trace.dropWhile fun e => !isInsert t S e) = [] ↔ ¬Inserted t S w := by
  rw [List.dropWhile_eq_nil_iff]
  simp [Inserted]

theorem ended_push :
    Ended t S (w.push s e) ↔ Ended t S w ∨ Inserted t S w ∧ isEnd S e = true := by
  unfold Ended
  rw [World.push_trace, List.dropWhile_append]
  by_cases hinserted : Inserted t S w
  · have hne : ¬(w.trace.dropWhile fun e => !isInsert t S e).isEmpty = true :=
      fun hnil => dropWhile_eq_nil_iff.mp (List.isEmpty_iff.mp hnil) hinserted
    rw [if_neg hne, List.any_append]
    simp [hinserted]
  -- an event that puts the schedule into the slot does not end it
  · rw [dropWhile_eq_nil_iff.mpr hinserted, if_pos List.isEmpty_nil]
    cases hinsert : isInsert t S e with
    | false => simp [hinsert, hinserted]
    | true => simp [hinsert, hinserted, isEnd_of_isInsert hinsert]

theorem Ended.push (h : Ended t S w) : Ended t S (w.push s e) :=
  ended_push.mpr (.inl h)

/-- A schedule that is inserted and has not ended is the one in the slot, and one thread has put it
there. -/
structure SlotInv (w : UserIDMWorld) : Prop where
  nonzero : ∀ t S, Inserted t S w → S ≠ 0
  slot : ∀ t S, Inserted t S w → ¬Ended t S w → w.state.data.scheduleId = S
  thread : ∀ t S t' S', Inserted t S w → ¬Ended t S w → Inserted t' S' w → ¬Ended t' S' w → t = t'
  begun : ∀ t S, Begun t S w → Inserted t S w

theorem SlotInv.eq_of_running {t' : Nat} {S' : UInt64} (h : SlotInv w) (hS : Running t S w)
    (hS' : Running t' S' w) : t = t' ∧ S = S' := by
  have hinserted := h.begun t S hS.1
  have hinserted' := h.begun t' S' hS'.1
  have hslot := h.slot t S hinserted hS.2
  have hslot' := h.slot t' S' hinserted' hS'.2
  exact ⟨h.thread t S t' S' hinserted hS.2 hinserted' hS'.2, hslot.symm.trans hslot'⟩

/-! ## 2. The condition -/

/-- The slot is empty, or its schedule has ended since it was put there. -/
def SlotFree (w : UserIDMWorld) : Prop :=
  w.state.data.scheduleId = 0 ∨
    ∀ e ∈ w.trace, isInsert e.tid w.state.data.scheduleId e = true →
      Ended e.tid w.state.data.scheduleId w

/-- A free slot holds no schedule that is inserted and has not ended, and neither does any other. -/
theorem SlotInv.ended_of_free (h : SlotInv w) (hfree : SlotFree w) (hS : Inserted t S w) :
    Ended t S w := by
  by_contra hend
  have hslot := h.slot t S hS hend
  rcases hfree with hzero | hended
  · exact h.nonzero t S hS (hslot.symm.trans hzero)
  · obtain ⟨e, he, hinsert⟩ := List.any_eq_true.mp hS
    obtain rfl : e.tid = t := by
      cases e with
      | spawn => cases hinsert
      | op tid o r =>
        cases o with
        | insertScheduleId id => exact of_decide_eq_true (Bool.and_eq_true_iff.mp hinsert).1
        | _ => cases hinsert
    rw [hslot] at hended
    exact hend (hended e he hinsert)

/-- The slot is filled and cleared only when it is free, and the HDI does not hand out the id that
stands for an empty slot. -/
def writesFreeSlot (w : UserIDMWorld) : UserIDMMove → Prop
  | .op _ (.insertScheduleId id) _ => id ≠ 0 ∧ SlotFree w
  | .op _ .deleteSessionId _ => SlotFree w
  | .op _ .cleanData _ => SlotFree w
  | _ => True

instance (w : UserIDMWorld) : Decidable (SlotFree w) :=
  inferInstanceAs (Decidable (_ ∨ _))

instance (w : UserIDMWorld) (mv : UserIDMMove) : Decidable (writesFreeSlot w mv) := by
  cases mv with
  | spawn t call => exact isTrue trivial
  | op t o env =>
    cases o with
    | insertScheduleId id => exact inferInstanceAs (Decidable (id ≠ 0 ∧ SlotFree w))
    | deleteSessionId => exact inferInstanceAs (Decidable (SlotFree w))
    | cleanData => exact inferInstanceAs (Decidable (SlotFree w))
    | _ => exact isTrue trivial

/-! ## 3. Programs -/

abbrev KeepsSlot (platform : Platform) (t : Nat) {α : Type} (p : UserIDMProg α)
    (Q : α → List UserIDMEvent → Prop) (h : List UserIDMEvent) : Prop :=
  (userIDM platform).Keeps writesFreeSlot SlotInv t p Q h

variable {α β : Type} {h : List UserIDMEvent}

/-- An event that starts nothing, while the slot stays as it is or has been free. -/
theorem SlotInv.push (hw : SlotInv w) (hinsert : ∀ t S, isInsert t S e = false)
    (hbegin : ∀ t S, isBegin t S e = false)
    (hdata : s.data.scheduleId = w.state.data.scheduleId ∨ SlotFree w) :
    SlotInv (w.push s e) := by
  have hinserted {t : Nat} {S : UInt64} (h : Inserted t S (w.push s e)) : Inserted t S w := by
    rw [inserted_push, hinsert] at h
    simpa using h
  constructor
  · intro t S hS
    exact hw.nonzero t S (hinserted hS)
  · intro t S hS hend
    rcases hdata with hdata | hfree
    · exact hdata.trans (hw.slot t S (hinserted hS) fun h => hend h.push)
    · exact absurd (hw.ended_of_free hfree (hinserted hS)).push hend
  · intro t S t' S' hS hend hS' hend'
    exact hw.thread t S t' S' (hinserted hS) (fun h => hend h.push) (hinserted hS')
      fun h => hend' h.push
  · intro t S hS
    rw [begun_push, hbegin] at hS
    rw [inserted_push]
    exact .inl (hw.begun t S (by simpa using hS))

theorem isInsert_of_not_starts {o : UserIDMOp} (ho : o.starts = false) (r : UserIDMRes o)
    (t' : Nat) (S : UInt64) : isInsert t' S (.op t o r) = false := by
  cases o <;> first | rfl | cases ho

theorem isBegin_of_not_starts {o : UserIDMOp} (ho : o.starts = false) (r : UserIDMRes o)
    (t' : Nat) (S : UInt64) : isBegin t' S (.op t o r) = false := by
  cases o <;> first | rfl | cases ho

theorem SlotInv.perform {o : UserIDMOp} (ho : o.starts = false) {env : UserIDMEnv}
    (hw : SlotInv w) (hok : writesFreeSlot w (.op t o env)) :
    SlotInv ((userIDM platform).perform w t o env) := by
  refine hw.push (isInsert_of_not_starts ho _) (isBegin_of_not_starts ho _) ?_
  cases o with
  | deleteSessionId => exact .inr hok
  | cleanData => exact .inr hok
  | insertScheduleId => cases ho
  | _ => exact .inl rfl

theorem SlotInv.perform_neutral {o : UserIDMOp} (ho : Neutral o) {env : UserIDMEnv}
    (hw : SlotInv w) : SlotInv ((userIDM platform).perform w t o env) := by
  have hstarts := UserIDMOp.not_starts_of_manages (UserIDMOp.manages_of_neutral ho)
  refine hw.perform hstarts ?_
  cases o <;> trivial

theorem keepsSlot_other {p : UserIDMProg α} (hp : p.All (·.starts = false)) :
    KeepsSlot platform t p (fun _ _ => True) h :=
  Machine.Keeps.of_all (fun _ _ _ ho hw _ _ hok => ⟨hw.perform ho hok, trivial⟩) hp trivial

/-- The schedule goes into a free slot: no other schedule is running. -/
theorem SlotInv.insert {env : UserIDMEnv} (hw : SlotInv w)
    (hok : writesFreeSlot w (.op t (.insertScheduleId S) env)) :
    SlotInv ((userIDM platform).perform w t (.insertScheduleId S) env) := by
  obtain ⟨hne, hfree⟩ := hok
  have hinserted {t' : Nat} {S' : UInt64}
      (h : Inserted t' S' ((userIDM platform).perform w t (.insertScheduleId S) env)) :
      Inserted t' S' w ∨ t = t' ∧ S = S' := by
    rw [Machine.perform, inserted_push] at h
    simpa [isInsert] using h
  -- what has been inserted before has ended
  have hended {t' : Nat} {S' : UInt64} (h : Inserted t' S' w) :
      Ended t' S' ((userIDM platform).perform w t (.insertScheduleId S) env) :=
    (hw.ended_of_free hfree h).push
  constructor
  · intro t' S' hS'
    rcases hinserted hS' with hS' | ⟨-, rfl⟩
    · exact hw.nonzero t' S' hS'
    · exact hne
  · intro t' S' hS' hend
    rcases hinserted hS' with hS' | ⟨-, rfl⟩
    · exact absurd (hended hS') hend
    · rfl
  · intro t₁ S₁ t₂ S₂ hS₁ hend₁ hS₂ hend₂
    rcases hinserted hS₁ with hS₁ | ⟨rfl, -⟩
    · exact absurd (hended hS₁) hend₁
    · rcases hinserted hS₂ with hS₂ | ⟨rfl, -⟩
      · exact absurd (hended hS₂) hend₂
      · rfl
  · intro t' S' hS'
    rw [Machine.perform, begun_push] at hS'
    rw [Machine.perform, inserted_push]
    exact .inl (hw.begun t' S' (by simpa [isBegin] using hS'))

theorem SlotInv.begin {env : UserIDMEnv} {info : CoAuth.ScheduleInfo}
    {authInfo : CoAuth.AuthInfo} {handler : UserIDMCoAuthHandler} (hw : SlotInv w)
    (hinserted : Inserted t info.scheduleId w) :
    SlotInv ((userIDM platform).perform w t (.beginSchedule info authInfo handler) env) := by
  have hbefore {t' : Nat} {S' : UInt64} (h : Inserted t' S'
      ((userIDM platform).perform w t (.beginSchedule info authInfo handler) env)) :
      Inserted t' S' w := by
    rw [Machine.perform, inserted_push] at h
    simpa [isInsert] using h
  constructor
  · intro t' S' hS'
    exact hw.nonzero t' S' (hbefore hS')
  · intro t' S' hS' hend
    exact hw.slot t' S' (hbefore hS') fun h => hend h.push
  · intro t₁ S₁ t₂ S₂ hS₁ hend₁ hS₂ hend₂
    exact hw.thread t₁ S₁ t₂ S₂ (hbefore hS₁) (fun h => hend₁ h.push) (hbefore hS₂)
      fun h => hend₂ h.push
  · intro t' S' hS'
    rw [Machine.perform, begun_push] at hS'
    rw [Machine.perform, inserted_push]
    rcases hS' with hS' | hS'
    · exact .inl (hw.begun t' S' hS')
    · obtain ⟨rfl, rfl⟩ : t = t' ∧ info.scheduleId = S' := by simpa [isBegin] using hS'
      exact .inl hinserted

theorem keepsSlot_begin (info : CoAuth.ScheduleInfo) (authInfo : CoAuth.AuthInfo)
    (handler : UserIDMCoAuthHandler) :
    KeepsSlot platform t
      (.call (.insertScheduleId info.scheduleId) fun _ =>
        .call (.beginSchedule info authInfo handler) fun _ => .ret ResultCode.success)
      (fun _ _ => True) h := by
  intro w env hw _ _ hok
  refine ⟨hw.insert hok, fun w' env' hw' hown' _ _ => ⟨hw'.begin ?_, trivial⟩⟩
  have hmem : .op t (.insertScheduleId info.scheduleId) true ∈ w'.own t := by
    rw [hown']
    exact List.mem_append_right _ (List.mem_singleton_self _)
  exact List.any_eq_true.mpr ⟨_, (World.mem_own.mp hmem).1, by simp [isInsert]⟩

theorem keepsSlot_start (type : CoAuthType) (authInfo : CoAuth.AuthInfo)
    (credInfo : AddCredInfo) (userId : Int32) (callback : ClientCallback) :
    KeepsSlot platform t (startEnrolment type authInfo credInfo userId callback)
      (fun _ _ => True) h := by
  have hreport (code ret : ResultCode) {h : List UserIDMEvent} :
      KeepsSlot platform t (.call (.onResult callback code 0) fun _ => .ret ret)
        (fun _ _ => True) h :=
    keepsSlot_other ⟨rfl, fun _ => trivial⟩
  unfold startEnrolment
  intro w env hw _ _ hok
  refine ⟨hw.perform rfl hok, ?_⟩
  cases (userIDM platform).answer w t .checkChallenge env with
  | none => exact hreport _ _
  | some challenge =>
    intro w env hw _ _ hok
    refine ⟨hw.perform rfl hok, ?_⟩
    cases (userIDM platform).answer w t .checkScheduleIdIsActive env with
    | some id => exact hreport _ _
    | none =>
      refine (Machine.keeps_bind (p := initSchedule credInfo.token userId credInfo.authType)).mpr
        (Machine.Keeps.mono (keepsSlot_other ?_) fun r h _ => ?_)
      · exact (initSchedule_prepares _ _ _).mono fun _ => UserIDMOp.not_starts_of_prepares
      · cases r with
        | error ret => exact hreport _ _
        | ok info => exact keepsSlot_begin info authInfo _

theorem keepsSlot_spawn (w : UserIDMWorld) (call : UserIDMCall) (s : UserIDMState)
    (hw : SlotInv w) (hs : userIDMAccept w.state call = some s) :
    SlotInv (w.push s (.spawn t call)) ∧
      KeepsSlot platform t (userIDMBody platform call) (fun _ _ => True) [.spawn t call] := by
  obtain rfl := eq_of_userIDMAccept hs
  refine ⟨hw.push (fun _ _ => rfl) (fun _ _ => rfl) (.inl rfl), ?_⟩
  have hone {p : UserIDMProg Unit} (hp : OneSession p) :
      KeepsSlot platform t p (fun _ _ => True) [.spawn t call] := by
    refine keeps_oneSession (fun _ _ _ ho hw => hw.perform_neutral ho) ?_ ?_ hp
    · intro β q hq
      exact keepsSlot_other (hq.mono fun _ => UserIDMOp.not_starts_of_manages)
    · intro type authInfo credInfo userId callback
      exact keepsSlot_start type authInfo credInfo userId callback
  cases call with
  | request caller code data =>
    exact hone ((onRemoteRequest_oneSession platform caller data code).bind fun _ => trivial)
  | controller call => exact hone (controllerBody_oneSession call)
  | onFinish => exact keepsSlot_other (onFinish_not_starts _ _ _ _)
  | onAcquireInfo => exact keepsSlot_other (onAcquireInfo_not_starts _ _ _)
  | onResult => exact keepsSlot_other (onResult_not_starts _ _ _)

theorem slotInv_initial : SlotInv ⟨.initial, []⟩ := by
  constructor <;> intro t S
  · intro hS
    cases hS
  · intro hS
    cases hS
  · intro t' S' hS
    cases hS
  · intro hS
    cases hS

/-- **One enrolment at a time.**  In every run that writes only a free slot, two running schedules
are the same one, begun by the same call. -/
theorem running_unique (platform : Platform) {c : UserIDMConfig}
    (hc : (userIDM platform).Reachable writesFreeSlot .initial c) {t t' : Nat} {S S' : UInt64}
    (hS : Running t S c.world) (hS' : Running t' S' c.world) : t = t' ∧ S = S' := by
  have hinv : SlotInv c.world :=
    (Machine.reachable_keeps (Q := fun _ => True) slotInv_initial
      (fun w t call s hw _ _ hs => keepsSlot_spawn w call s hw hs) hc).1
  exact hinv.eq_of_running hS hS'

/-! ## 4. Two starts that overlap -/

section Overlap

def overlapPlatform : Platform := ⟨⟨fun _ _ => true, fun _ => true, fun _ => (.success, 0)⟩, 22⟩

/-- The schedule with an id that the HDI begins. -/
def overlapEnv (scheduleId : UInt64) : UserIDMEnv where
  schedule := ⟨scheduleId, [1], 0, 0, [⟨1, .pin, List.replicate 32 0⟩]⟩

def overlapOpen : List (Machine.Label UserIDMEnv UserIDMCall) :=
  [.spawn (.controller (.openEditSession 100)), .run 0 {}, .run 0 {}, .run 0 {},
   .run 0 { hdiChallenge := [1, 0, 0, 0, 0, 0, 0, 0] }, .run 0 {}]

/-- A start up to the HDI call, when it has found the slot empty. -/
def overlapStart (t : Nat) (scheduleId : UInt64) : List (Machine.Label UserIDMEnv UserIDMCall) :=
  [.spawn (.controller (.addCredential 100 0 ⟨.pin, 10000, []⟩ (some 5))),
   .run t {}, .run t {}, .run t {}, .run t (overlapEnv scheduleId)]

/-- The rest of a start: it fills the slot and passes its schedule to CoAuth. -/
def overlapBegin (t : Nat) : List (Machine.Label UserIDMEnv UserIDMCall) := [.run t {}, .run t {}]

/-- Two starts that both find the slot empty both begin a schedule. -/
theorem running_two :
    ¬∀ (platform : Platform) (c : UserIDMConfig),
      (userIDM platform).Reachable Machine.anyMove .initial c →
        ∀ t t' S S', Running t S c.world → Running t' S' c.world → S = S' := by
  intro h
  have hrun : ((userIDM overlapPlatform).exec Machine.anyMove ⟨⟨.initial, []⟩, []⟩
      (overlapOpen ++ overlapStart 1 7 ++ overlapStart 2 8 ++ overlapBegin 1 ++
        overlapBegin 2)).map
        (fun c => (decide (Running 1 7 c.world), decide (Running 2 8 c.world))) =
      some (true, true) := by decide
  obtain ⟨c, hc, heq⟩ := Option.map_eq_some_iff.mp hrun
  obtain ⟨h7, h8⟩ := Prod.mk.inj heq
  exact absurd (h overlapPlatform c (Machine.Reachable.exec .init hc) 1 2 7 8
    (of_decide_eq_true h7) (of_decide_eq_true h8)) (by decide)

def overlapHandler : UserIDMCoAuthHandler := ⟨.addPinCred, 1, 7, some 5⟩

/-- The schedule fails. -/
def overlapFail (t : Nat) : List (Machine.Label UserIDMEnv UserIDMCall) :=
  [.spawn (.onFinish 0 overlapHandler 1 []), .run t {}, .run t {}, .run t {}, .run t {}]

/-- The HDI hands out an id again when its schedule has failed: the new schedule runs, and nothing
else does. -/
theorem running_unique_example :
    ∃ c, (userIDM overlapPlatform).Reachable writesFreeSlot .initial c ∧ Running 3 7 c.world ∧
      ∀ t S, Running t S c.world → t = 3 ∧ S = 7 := by
  have hrun : ((userIDM overlapPlatform).exec writesFreeSlot ⟨⟨.initial, []⟩, []⟩
      (overlapOpen ++ overlapStart 1 7 ++ overlapBegin 1 ++ overlapFail 2 ++ overlapStart 3 7 ++
        overlapBegin 3)).map (fun c => decide (Running 3 7 c.world)) = some true := by
    decide +kernel
  obtain ⟨c, hc, h7⟩ := Option.map_eq_some_iff.mp hrun
  have hreach : (userIDM overlapPlatform).Reachable writesFreeSlot .initial c :=
    Machine.Reachable.exec .init hc
  have hrunning := of_decide_eq_true h7
  exact ⟨c, hreach, hrunning, fun t S hS => running_unique overlapPlatform hreach hS hrunning⟩

end Overlap

end UserIam.UserIDM
