import UserIam.Executors.OneConfiguration

/-!
# The drivers under the manager

Each of the manager's drivers goes through its own sections, in whatever order the notices bring
them.  The death of the service that manages the drivers sweeps them all: behind the sweep nothing
is left of the executors that were there before it.
-/

namespace UserIam.Executors

open Conc

/-! ## 1. One driver of many -/

/-- A section of the driver. -/
def driverEvent (d : DriverId) : ManagerEvent → Option DriverEvent
  | .op tid (.driver d' o) r => if d' = d then some (.op tid o r) else none
  | _ => none

def driverEvents (d : DriverId) (es : List ManagerEvent) : List DriverEvent :=
  es.filterMap (driverEvent d)

/-- A driver that has not been made is like one that has done nothing. -/
def ManagerState.driverState (s : ManagerState) (d : DriverId) : DriverState :=
  (s.made[d]?).elim .initial (·.driver)

/-- Whether the configuration of the driver has one. -/
def ManagerState.hasDriver (s : ManagerState) (d : DriverId) : Bool :=
  (s.made[d]?).elim false (·.hdiConfig.driver)

def driverWorld (d : DriverId) (w : ManagerWorld) : DriverWorld :=
  ⟨w.state.driverState d, driverEvents d w.trace⟩

section Projection

variable {deviceServiceManager : Int32} {w : ManagerWorld} {s : ManagerState} {tid : Nat}
  {env : ManagerEnv} {c : ManagerConfig} {d : DriverId}

theorem driverWorld_push {e : ManagerEvent} (hs : s.driverState d = w.state.driverState d)
    (he : driverEvent d e = none) : driverWorld d (w.push s e) = driverWorld d w := by
  rw [driverWorld, driverEvents, World.push_trace, List.filterMap_append,
    List.filterMap_cons_none he, List.filterMap_nil, List.append_nil, World.push_state, hs]
  rfl

theorem drive_answer (s : ManagerState) (d : DriverId) (env : DriverEnv) (o : DriverOp) :
    (s.drive d env o).1 = (driverHandle (s.hasDriver d) env (s.driverState d) o).1 := by
  rw [ManagerState.drive, ManagerState.hasDriver, ManagerState.driverState,
    List.getD_eq_getElem?_getD]
  cases s.made[d]? <;> rfl

theorem drive_driverState (s : ManagerState) (d : DriverId) (env : DriverEnv) (o : DriverOp) :
    (s.drive d env o).2.driverState d =
      (driverHandle (s.hasDriver d) env (s.driverState d) o).2 := by
  rw [ManagerState.drive, ManagerState.hasDriver, ManagerState.driverState,
    ManagerState.driverState, List.getD_eq_getElem?_getD]
  cases hd : s.made[d]? with
  | some sd =>
    show ((s.made.set d _)[d]?).elim _ _ = _
    rw [List.getElem?_set_self (List.getElem?_eq_some_iff.mp hd).1]
    rfl
  -- nothing is made of a place that has no driver
  | none =>
    show ((s.made.set d _)[d]?).elim _ _ = _
    rw [List.set_eq_of_length_le (List.getElem?_eq_none_iff.mp hd), hd]
    cases o <;> rfl

theorem drive_driverState_of_ne (s : ManagerState) {d d' : DriverId} (hne : d' ≠ d)
    (env : DriverEnv) (o : DriverOp) :
    (s.drive d' env o).2.driverState d = s.driverState d := by
  show ((s.made.set d' _)[d]?).elim _ _ = _
  rw [List.getElem?_set_ne hne]
  rfl

/-- A section of the driver is one of the driver's own machine. -/
theorem driverWorld_drive (o : DriverOp) :
    driverWorld d ((managerMachine deviceServiceManager).perform w tid (.driver d o) env) =
      (driverMachine (w.state.hasDriver d)).perform (driverWorld d w) tid o env.driver := by
  have hanswer := drive_answer w.state d env.driver o
  have hstate := drive_driverState w.state d env.driver o
  have hevent : driverEvent d (.op tid (.driver d o) (w.state.drive d env.driver o).1) =
      some (.op tid o
        (driverHandle (w.state.hasDriver d) env.driver (w.state.driverState d) o).1) := by
    rw [driverEvent, if_pos rfl, hanswer]
  show (⟨(w.state.drive d env.driver o).2.driverState d, driverEvents d (w.trace ++ [_])⟩ :
    DriverWorld) = _
  rw [hstate, driverEvents, List.filterMap_append]
  show (⟨_, _ ++ [Event.op tid (ManagerOp.driver d o) (w.state.drive d env.driver o).1].filterMap
    (driverEvent d)⟩ : DriverWorld) = _
  rw [List.filterMap_cons_some hevent]
  rfl

/-- Whatever else is done leaves the driver alone. -/
theorem driverWorld_other {o : ManagerOp} (ho : ∀ o', o ≠ .driver d o') :
    driverWorld d ((managerMachine deviceServiceManager).perform w tid o env) =
      driverWorld d w := by
  cases o with
  | driver d' o =>
    have hne : d' ≠ d := fun h => ho o (by rw [h])
    exact driverWorld_push (drive_driverState_of_ne _ hne _ _) (if_neg hne)
  | makeDriver serviceName hdiConfig =>
    refine driverWorld_push ?_ rfl
    show (managerHandle tid env w.state (.makeDriver serviceName hdiConfig)).2.driverState d = _
    rw [managerHandle]
    cases env.ok with
    | false => rfl
    | true =>
      show ((w.state.made ++ [_])[d]?).elim _ _ = _
      rw [List.getElem?_append, ManagerState.driverState]
      split
      · rfl
      -- a driver that is made has done nothing
      · next hge =>
        rw [List.getElem?_eq_none (Nat.le_of_not_lt hge)]
        cases d - w.state.made.length <;> rfl
  | _ => exact driverWorld_push rfl rfl

theorem driverInv_managed
    (hc : (managerMachine deviceServiceManager).Reachable Machine.anyMove {} c) (d : DriverId) :
    DriverInv (driverWorld d c.world) := by
  induction hc with
  | init =>
    have hinit : (driverMachine true).Reachable Machine.anyMove .initial ⟨⟨.initial, []⟩, []⟩ :=
      .init
    exact driverInv_reachable hinit
  | spawn _ _ hs ih =>
    cases hs
    rwa [driverWorld_push rfl rfl]
  | @run c tid o k env _ _ _ _ ih =>
    by_cases ho : ∃ o', o = .driver d o'
    · obtain ⟨o', rfl⟩ := ho
      rw [driverWorld_drive]
      exact ih.perform _ _ _
    · rw [driverWorld_other fun o' h => ho ⟨o', h⟩]
      exact ih

/-- **A driver under the manager.**  In every state of a run a driver has the executors of one
`GetExecutorList` if and only if it is disconnected between any two of its connections. -/
theorem manager_oneGeneration_iff
    (hc : (managerMachine deviceServiceManager).Reachable Machine.anyMove {} c) (d : DriverId) :
    (∀ c' : ManagerConfig, (managerMachine deviceServiceManager).Reachable Machine.anyMove {} c' →
      c'.world.trace <+: c.world.trace →
        OneGeneration (c'.world.state.driverState d).executorList) ↔
      Separated (driverEvents d c.world.trace) := by
  constructor
  · intro hone
    refine Separated.of_list (driverInv_managed hc d).grows fun pre hpre => ?_
    obtain ⟨es, hes, rfl⟩ := List.prefix_filterMap_iff.mp hpre
    obtain ⟨c', hc', rfl⟩ := hc.exists_prefix hes
    have hlist : (c'.world.state.driverState d).executorList = _ := (driverInv_managed hc' d).list
    exact hlist ▸ hone c' hc' hes
  · intro h c' hc' hpre
    exact (driverInv_managed hc' d).oneGeneration (h.of_prefix (hpre.filterMap _))

end Projection

/-- Executors are added to an empty list every time. -/
def FillsEmptyList (es : List DriverEvent) : Prop :=
  ∀ i (hi : i < es.length), added es[i] = [] ∨ held (es.take i) = []

instance (es : List DriverEvent) : Decidable (FillsEmptyList es) :=
  inferInstanceAs (Decidable (∀ i (hi : i < es.length), added es[i] = [] ∨ held (es.take i) = []))

theorem FillsEmptyList.separated {es : List DriverEvent} (h : FillsEmptyList es) :
    Separated es := by
  induction es using List.reverseRecOn with
  | nil =>
    intro pre d mid e post hsplit
    cases List.append_ne_nil_of_right_ne_nil pre (List.cons_ne_nil d _) hsplit.symm
  | append_singleton es e ih =>
    refine (ih fun i hi => ?_).concat ?_
    · have hbefore := h i (by rw [List.length_append]; omega)
      rwa [List.getElem_append_left hi, List.take_append_of_le_length (Nat.le_of_lt hi)] at hbefore
    · have hlast := h es.length (by simp)
      rwa [List.getElem_concat_length rfl, List.take_left] at hlast

def faceOnly : HdiName2Config := ⟨[("face", ⟨1, true⟩)], by decide⟩

/-- The service of the face driver starts twice, and the manager of the drivers dies between the two
sections of the second connection. -/
def removedBetween : Option ManagerConfig :=
  (managerMachine 5100).exec Machine.anyMove ⟨⟨{}, []⟩, []⟩
    (.spawn (.start faceOnly) :: List.replicate 11 (.run 0 {}) ++
      .spawn (.onReceive "face" .start) :: List.replicate 4 (.run 1 {}) ++
      .run 1 { driver := { executorHdiList := [some 5] } } ::
      .spawn (.onReceive "face" .start) :: List.replicate 4 (.run 2 {}) ++
      .spawn (.onRemoveSystemAbility 5100) :: List.replicate 3 (.run 3 {}) ++
      [.run 2 { driver := { executorHdiList := [some 6] } }, .run 3 {}])

theorem manager_oneGeneration_iff_removed : ∃ c : ManagerConfig,
    (c.world.state.driverState 0).executorList = [⟨2, some 6, true⟩] ∧
      ∀ c' : ManagerConfig, (managerMachine 5100).Reachable Machine.anyMove {} c' →
        c'.world.trace <+: c.world.trace →
          OneGeneration (c'.world.state.driverState 0).executorList := by
  have hrun : removedBetween.map (fun c => ((c.world.state.driverState 0).executorList,
      decide (FillsEmptyList (driverEvents 0 c.world.trace)))) =
      some ([⟨2, some 6, true⟩], true) := by decide +kernel
  obtain ⟨c, hexec, heq⟩ := Option.map_eq_some_iff.mp hrun
  obtain ⟨hlist, hfills⟩ := Prod.mk.inj heq
  have hc := Machine.Reachable.init.exec hexec
  exact ⟨c, hlist, (manager_oneGeneration_iff hc 0).mpr
    (of_decide_eq_true hfills).separated⟩

/-! ## 2. The sweep -/

/-- The driver has the executor. -/
def HasExecutor (s : ManagerState) (d : DriverId) (x : DriverExecutor) : Prop :=
  x ∈ (s.driverState d).executorList

/-- A section of the driver adds the executor. -/
def Connects (e : ManagerEvent) (d : DriverId) (x : DriverExecutor) : Prop :=
  ∃ e', driverEvent d e = some e' ∧ x ∈ added e'

/-- The driver is disconnected, or is not among the drivers that there are. -/
def Disconnects : (o : ManagerOp) → ManagerRes o → DriverId → Prop
  | .driver d' .disconnect, _, d => d' = d
  | .serviceName2Driver, pairs, d => d ∉ pairs.map Prod.snd
  | _, _, _ => False

section Sweep

variable {deviceServiceManager : Int32} {w : ManagerWorld} {s : ManagerState} {tid : Nat}
  {env : ManagerEnv} {c : ManagerConfig} {d : DriverId} {x : DriverExecutor}

/-- A section of a driver leaves an executor, or has just added it. -/
theorem mem_driverHandle (tid : Nat) {driver : Bool} {env : DriverEnv} {s : DriverState}
    {o : DriverOp} (hx : x ∈ (driverHandle driver env s o).2.executorList) :
    x ∈ s.executorList ∨ x ∈ added (.op tid o (driverHandle driver env s o).1) := by
  cases o with
  | connect =>
    cases driver with
    | false => exact .inl hx
    | true => exact List.mem_append.mp hx
  | disconnect => cases hx
  | frameworkReady => exact .inl hx

theorem hasExecutor_perform {o : ManagerOp}
    (hx : HasExecutor ((managerMachine deviceServiceManager).perform w tid o env).state d x) :
    HasExecutor w.state d x ∨
      Connects (.op tid o ((managerMachine deviceServiceManager).answer w tid o env)) d x := by
  by_cases ho : ∃ o', o = .driver d o'
  · obtain ⟨o', rfl⟩ := ho
    have hstate := drive_driverState w.state d env.driver o'
    have hanswer := drive_answer w.state d env.driver o'
    have hx : x ∈ ((w.state.drive d env.driver o').2.driverState d).executorList := hx
    rw [hstate] at hx
    refine (mem_driverHandle tid hx).imp_right fun hadded => ⟨_, if_pos rfl, ?_⟩
    show x ∈ added (.op tid o' (w.state.drive d env.driver o').1)
    rwa [hanswer]
  · have hsame : driverWorld d ((managerMachine deviceServiceManager).perform w tid o env) =
        driverWorld d w := driverWorld_other fun o' h => ho ⟨o', h⟩
    have hstate := congrArg World.state hsame
    exact .inl (by rwa [HasExecutor, ← show _ = w.state.driverState d from hstate])

theorem hasExecutor_made (hx : HasExecutor s d x) : ∃ sd, s.made[d]? = some sd := by
  cases hd : s.made[d]? with
  | some sd => exact ⟨sd, rfl⟩
  | none =>
    rw [HasExecutor, ManagerState.driverState, hd] at hx
    cases hx

/-- Whatever has been made is on the map. -/
theorem ManagerInv.mem_map (h : ManagerInv s) {sd : ServiceDriver} (hd : s.made[d]? = some sd) :
    d ∈ s.serviceName2Driver.map Prod.snd := by
  have hentry : (s.entries[d]?).map Prod.fst = some sd.serviceName := by
    rw [ManagerState.entries, List.getElem?_map, hd]
    rfl
  rw [h.map]
  exact List.mem_map_of_mem (f := Prod.snd) (mem_places.mpr hentry)

theorem manager_sweeping (deviceServiceManager : Int32) :
    Machine.Sweeping (managerMachine deviceServiceManager) (fun w _ => ManagerInv w.state)
      HasExecutor Connects Disconnects where
  accept {call s s' d x} hs hx := by
    cases hs
    exact hx
  grows _ hx := hasExecutor_perform hx
  visits {w tid o env d x} hinv hvisit hx := by
    cases o with
    | driver d' o =>
      cases o with
      | disconnect =>
        obtain rfl : d' = d := hvisit
        have hstate := drive_driverState w.state d' env.driver .disconnect
        have hx : x ∈ ((w.state.drive d' env.driver .disconnect).2.driverState d').executorList :=
          hx
        rw [hstate] at hx
        cases hx
      | _ => cases hvisit
    -- the map has every driver that has been made
    | serviceName2Driver =>
      obtain ⟨sd, hd⟩ := hasExecutor_made hx
      exact absurd (ManagerInv.mem_map hinv hd) hvisit
    | _ => cases hvisit

theorem onAllHdiDisconnect_covers :
    Machine.Covers Disconnects (fun _ todo => ∀ d, ¬todo d) (fun _ => True)
      (managerBody deviceServiceManager (.onRemoveSystemAbility deviceServiceManager)) := by
  rw [managerBody, if_neg (not_not.mpr rfl)]
  intro _ pairs
  have hvisits : Machine.Covers Disconnects (fun _ todo => ∀ d, ¬todo d)
      (fun d => (True ∧ ¬False) ∧ ¬d ∉ pairs.map Prod.snd)
      (Machine.visitEach (fun d => ManagerOp.driver d .disconnect) (pairs.map Prod.snd)) :=
    Machine.covers_visitEach (fun _ _ => rfl) fun d hd => not_not.mp hd.2
  exact hvisits.bind fun _ _ hnone r d hd => hnone d hd.1

/-- **The manager of the drivers dies.**  When the handling of its removal has returned, every
executor that a driver still has was got from the driver since the notice. -/
theorem onAllHdiDisconnect_renews
    (hc : (managerMachine deviceServiceManager).Reachable Machine.anyMove {} c)
    {pre post : List ManagerEvent}
    (hsplit : c.world.trace =
      pre ++ .spawn tid (.onRemoveSystemAbility deviceServiceManager) :: post)
    (hret : c.threads[tid]? = some (.ret ())) (hx : HasExecutor c.world.state d x) :
    ∃ e ∈ post, Connects e d x := by
  have hinv := hc.strengthen (P := fun w => ManagerInv w.state) fun c hc =>
    (managerHistory_reachable hc).inv
  have hc' := hinv.mono fun _ _ hok => hok.2
  refine (manager_sweeping deviceServiceManager).renewed hc' ?_ hsplit hret d x hx
  exact onAllHdiDisconnect_covers

end Sweep

def isRemoval : ManagerEvent → Bool
  | .spawn tid (.onRemoveSystemAbility systemAbilityId) => tid == 3 && systemAbilityId == 5100
  | _ => false

/-- The executor of the connection that ends behind the sweep stays, the older one is gone. -/
theorem onAllHdiDisconnect_renews_removed : ∃ (c : ManagerConfig) (post : List ManagerEvent),
    c.threads[3]? = some (.ret ()) ∧
      (c.world.state.driverState 0).executorList = [⟨2, some 6, true⟩] ∧
      .spawn 3 (.onRemoveSystemAbility 5100) :: post <:+ c.world.trace ∧
      ∃ e ∈ post, Connects e 0 ⟨2, some 6, true⟩ := by
  have hrun : removedBetween.map (fun c => ((c.world.state.driverState 0).executorList,
      c.world.trace.any isRemoval, c.threads.map Prog.returned)) =
      some ([⟨2, some 6, true⟩], true, [true, true, true, true]) := by decide +kernel
  obtain ⟨c, hexec, heq⟩ := Option.map_eq_some_iff.mp hrun
  obtain ⟨hlist, heq⟩ := Prod.mk.inj heq
  obtain ⟨hremoval, hreturned⟩ := Prod.mk.inj heq
  obtain ⟨e, he, hisRemoval⟩ := List.any_eq_true.mp hremoval
  have hspawn : e = .spawn 3 (.onRemoveSystemAbility 5100) := by
    cases e with
    | op => cases hisRemoval
    | spawn tid call =>
      cases call with
      | onRemoveSystemAbility systemAbilityId =>
        obtain ⟨htid, hid⟩ := Bool.and_eq_true_iff.mp hisRemoval
        rw [eq_of_beq htid, eq_of_beq hid]
      | _ => cases hisRemoval
  rw [hspawn] at he
  obtain ⟨pre, post, hsplit⟩ := List.append_of_mem he
  have hret : c.threads[3]? = some (.ret ()) := Machine.getElem?_of_returned hreturned rfl
  refine ⟨c, post, hret, hlist, ⟨pre, hsplit.symm⟩, ?_⟩
  refine onAllHdiDisconnect_renews (Machine.Reachable.init.exec hexec) hsplit hret ?_
  rw [HasExecutor, hlist]
  exact List.mem_singleton_self _

end UserIam.Executors
