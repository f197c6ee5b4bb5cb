import UserIam.Conc.Typestate
import UserIam.Executors.DriverManager

/-!
# One configuration

The manager of the drivers is started once, with a configuration that it has checked, and makes its
drivers one after the other.  What a thread knows on the way is a typestate of the mutex and of the
steps of a start.
-/

namespace UserIam.Executors

open Conc

/-! ## 1. What a thread knows of the manager -/

/-- What the map of the configuration says of the drivers that have been made. -/
def ManagerState.entries (s : ManagerState) : List (String × HdiConfig) :=
  s.made.map fun sd => (sd.serviceName, sd.hdiConfig)

/-- The places of drivers under their names. -/
def places (entries : List (String × HdiConfig)) : List (String × DriverId) :=
  entries.zipIdx.map fun e => (e.1.1, e.2)

/-- All that is not the affair of a single driver. -/
def ManagerState.core (s : ManagerState) :
    Option Nat × Bool × HdiName2Config × List (String × HdiConfig) × List (String × DriverId) :=
  (s.owner, s.started, s.hdiName2Config, s.entries, s.serviceName2Driver)

/-- Where a thread is: outside the mutex, under it, or in one of the steps of `Start`; `making` has
the pairs that are still to come. -/
inductive ManagerView where
  | free
  | locked
  | unstarted
  | starting
  | loaded (hdiName2Config : HdiName2Config)
  | making (rest : List (String × HdiConfig))

/-- The operations that need the mutex. -/
def ManagerOp.guarded : ManagerOp → Bool
  | .unlock | .started | .setStarted | .setHdiName2Config _ | .clear | .makeDriver .. => true
  | .serviceName2Driver | .find _ => true
  | _ => false

def ManagerView.may : ManagerView → ManagerOp → Prop
  | v, .lock => v = .free
  | v, .setStarted => v = .unstarted
  | v, .setHdiName2Config hdiName2Config => v = .starting ∧ hdiConfigIsValid hdiName2Config = true
  | v, .clear => ∃ hdiName2Config, v = .loaded hdiName2Config
  | v, .makeDriver serviceName hdiConfig => ∃ rest, v = .making ((serviceName, hdiConfig) :: rest)
  | v, o => o.guarded = true → v ≠ .free

def ManagerView.next : ManagerView → (o : ManagerOp) → ManagerRes o → Option ManagerView
  | _, .lock, _ => some .locked
  | _, .unlock, _ => some .free
  | .locked, .started, r => some (if r then .locked else .unstarted)
  | _, .setStarted, _ => some .starting
  | _, .setHdiName2Config hdiName2Config, _ => some (.loaded hdiName2Config)
  | .loaded hdiName2Config, .clear, _ => some (.making hdiName2Config.pairs)
  | .making (_ :: rest), .makeDriver .., _ => some (.making rest)
  | v, _, _ => some v

/-- What is known of the state there. -/
def ManagerView.Knows (s : ManagerState) (tid : Nat) : ManagerView → Prop
  | .free => True
  | .locked => s.owner = some tid
  | .unstarted => s.owner = some tid ∧ s.started = false
  | .starting => s.owner = some tid ∧ s.started = true ∧ s.entries = []
  | .loaded hdiName2Config => s.owner = some tid ∧ s.started = true ∧ s.entries = [] ∧
      s.hdiName2Config = hdiName2Config ∧ hdiConfigIsValid hdiName2Config = true
  | .making rest => s.owner = some tid ∧ s.started = true ∧
      hdiConfigIsValid s.hdiName2Config = true ∧
      ∃ done, s.hdiName2Config.pairs = done ++ rest ∧ s.entries.Sublist done

def managerTypestate : Typestate ManagerOp ManagerRes ManagerView where
  may := ManagerView.may
  next := ManagerView.next
  fact _ := True
  ends v := v = .free

section Programs

variable {α β : Type} {v : ManagerView}

abbrev ManagerFollows (Q : α → ManagerView → Prop) (v : ManagerView) (p : ManagerProg α) : Prop :=
  managerTypestate.Follows Q v p

/-- The operations that a thread may perform anywhere, and that teach it nothing. -/
def ManagerOp.plain : ManagerOp → Bool
  | .getSystemAbilityManager | .listenerInstance | .subscribeSystemAbility => true
  | .watchParameter | .getServiceManager | .newListener | .registerServiceStatusListener => true
  | .driver .. => true
  | _ => false

theorem follows_plain {p : ManagerProg α} (hp : p.All (·.plain = true)) :
    ManagerFollows (fun _ v' => v' = v) v p := by
  refine Typestate.follows_of_all trivial (hp.mono fun o ho => ?_)
  cases o with
  | getSystemAbilityManager | listenerInstance | subscribeSystemAbility | watchParameter
  | getServiceManager | newListener | registerServiceStatusListener | driver =>
    exact ⟨fun h => absurd h Bool.false_ne_true,
      fun r v' h => (by cases v <;> exact (Option.some.inj h).symm)⟩
  | _ => cases ho

/-- The mutex is given back. -/
theorem unlock_follows (hv : v ≠ .free) (a : α) :
    ManagerFollows (fun _ v => v = .free) v
      (.call ManagerOp.unlock fun _ => .ret a) := by
  refine ⟨fun _ => hv, fun _ v' hv' => ⟨trivial, ?_⟩⟩
  cases v <;> exact (Option.some.inj hv').symm

/-- A program under the mutex. -/
theorem managerUnderLock_follows {p : ManagerProg α}
    (hp : ManagerFollows (fun _ v => v ≠ .free) .locked p) :
    ManagerFollows (fun _ v => v = .free) .free (managerUnderLock p) := by
  refine ⟨rfl, fun _ v hv => ⟨trivial, ?_⟩⟩
  obtain rfl : .locked = v := Option.some.inj hv
  have hrest : ManagerFollows (fun _ v => v = .free) .locked
      (p >>= fun a => .call ManagerOp.unlock fun _ => .ret a) :=
    hp.bind trivial fun a _ _ hv => unlock_follows hv a
  exact hrest

theorem subscribeHdiManagerServiceStatus_plain :
    subscribeHdiManagerServiceStatus.All (·.plain = true) := by
  simp [subscribeHdiManagerServiceStatus, Prog.discard, ManagerOp.plain]

theorem makeDrivers_follows (rest : List (String × HdiConfig)) :
    ManagerFollows (fun _ v => v ≠ .free) (.making rest) (makeDrivers rest) := by
  induction rest with
  | nil => exact fun h => by cases h
  | cons pair rest ih =>
    refine ⟨⟨rest, rfl⟩, fun _ v hv => ⟨trivial, ?_⟩⟩
    obtain rfl : .making rest = v := Option.some.inj hv
    exact ih

/-- What `Start` does when the map is empty. -/
theorem startRest_follows (pairs : List (String × HdiConfig)) :
    ManagerFollows (fun _ v => v ≠ .free) (.making pairs) (do
      makeDrivers pairs
      subscribeHdiManagerServiceStatus
      subscribeFrameworkReadyEvent
      return userAuthSuccess : ManagerProg ResultCode) := by
  refine (makeDrivers_follows pairs).bind trivial fun _ v _ hv => ?_
  have hsubscribe : (do
      subscribeHdiManagerServiceStatus
      subscribeFrameworkReadyEvent
      return userAuthSuccess : ManagerProg ResultCode).All (·.plain = true) :=
    subscribeHdiManagerServiceStatus_plain.bind fun _ => ⟨rfl, fun _ => trivial⟩
  exact (follows_plain hsubscribe).mono fun _ v' hv' => by rwa [hv']

theorem startLocked_follows {hdiName2Config : HdiName2Config}
    (hvalid : hdiConfigIsValid hdiName2Config = true) :
    ManagerFollows (fun _ v => v ≠ .free) .locked (startLocked hdiName2Config) := by
  refine ⟨fun _ h => (by cases h), fun started v hv => ⟨trivial, ?_⟩⟩
  obtain rfl : (if started then ManagerView.locked else .unstarted) = v := Option.some.inj hv
  cases started with
  | true => exact fun h => by cases h
  | false =>
    refine ⟨rfl, fun _ v hv => ⟨trivial, ?_⟩⟩
    obtain rfl : .starting = v := Option.some.inj hv
    refine ⟨⟨rfl, hvalid⟩, fun _ v hv => ⟨trivial, ?_⟩⟩
    obtain rfl : .loaded hdiName2Config = v := Option.some.inj hv
    refine ⟨⟨_, rfl⟩, fun _ v hv => ⟨trivial, ?_⟩⟩
    obtain rfl : .making hdiName2Config.pairs = v := Option.some.inj hv
    exact startRest_follows hdiName2Config.pairs

theorem forEachDriver_follows (o : DriverOp) :
    ManagerFollows (fun _ v => v ≠ .free) .locked (forEachDriver o) := by
  refine ⟨fun _ h => (by cases h), fun pairs v hv => ⟨trivial, ?_⟩⟩
  obtain rfl : .locked = v := Option.some.inj hv
  have hvisits (ds : List DriverId) : (Machine.visitEach (fun d => ManagerOp.driver d o) ds :
      ManagerProg Unit).All (·.plain = true) := by
    induction ds with
    | nil => trivial
    | cons d ds ih => exact ⟨rfl, fun _ => ih⟩
  exact (follows_plain (hvisits _)).mono fun _ v hv h => by cases hv.symm.trans h

theorem onReceive_follows (serviceName : String) (status : ServiceStatusType) :
    ManagerFollows (fun _ v => v = .free) .free (onReceive serviceName status) := by
  have hfind : ManagerFollows (fun _ v => v = .free) .free (getDriverByServiceName serviceName) :=
    managerUnderLock_follows ⟨fun _ h => (by cases h),
      fun _ v hv => ⟨trivial, fun h => by cases (Option.some.inj hv).trans h⟩⟩
  refine hfind.bind trivial fun d v _ hv => ?_
  subst hv
  cases d with
  | none => rfl
  | some d =>
    cases status <;> exact follows_plain (by simp [driverCall, driverBody, ManagerOp.plain])

theorem managerBody_follows (deviceServiceManager : Int32) (call : ManagerCall) :
    ManagerFollows (fun _ v => v = .free) .free (managerBody deviceServiceManager call) := by
  have hite {c : Prop} [Decidable c] {p q : ManagerProg Unit}
      (hp : ManagerFollows (fun _ v => v = .free) .free p)
      (hq : ManagerFollows (fun _ v => v = .free) .free q) :
      ManagerFollows (fun _ v => v = .free) .free (if c then p else q) := by
    split
    · exact hp
    · exact hq
  have heach (o : DriverOp) :
      ManagerFollows (fun _ v => v = .free) .free (managerUnderLock (forEachDriver o)) :=
    managerUnderLock_follows (forEachDriver_follows o)
  cases call with
  | start hdiName2Config =>
    have hstart : ManagerFollows (fun _ v => v = .free) .free (managerStart hdiName2Config) := by
      by_cases hvalid : hdiConfigIsValid hdiName2Config = true
      · rw [managerStart, hvalid]
        exact managerUnderLock_follows (startLocked_follows hvalid)
      · rw [managerStart, Bool.eq_false_iff.mpr hvalid]
        rfl
    exact hstart.bind trivial fun _ _ _ hv => hv
  | onAddSystemAbility systemAbilityId =>
    refine hite rfl (follows_plain ?_)
    simp [subscribeHdiDriverStatus, Prog.discard, ManagerOp.plain]
  | onRemoveSystemAbility systemAbilityId => exact hite rfl (heach .disconnect)
  | onReceive serviceName status => exact onReceive_follows serviceName status
  | eventCallback key value =>
    cases key with
    | none => cases value <;> rfl
    | some key =>
      cases value with
      | none => rfl
      | some value => exact hite rfl (hite rfl (heach .frameworkReady))

end Programs

/-! ## 2. What is known is true -/

/-- Every driver is one of the configuration, and the map has every driver that has been made under
its name. -/
structure ManagerInv (s : ManagerState) : Prop where
  unstarted : s.started = false → s.entries = []
  valid : s.entries ≠ [] → hdiConfigIsValid s.hdiName2Config = true
  sublist : s.entries.Sublist s.hdiName2Config.pairs
  map : s.serviceName2Driver = places s.entries

def setsStarted : ManagerEvent → Bool
  | .op _ .setStarted _ => true
  | _ => false

/-- The manager is started once. -/
structure ManagerHistory (w : ManagerWorld) : Prop where
  inv : ManagerInv w.state
  started : w.trace.any setsStarted = true → w.state.started = true
  once : w.Each fun pre e => setsStarted e = true → pre.any setsStarted = false

/-- What a thread knows is true. -/
def managerLink (w : ManagerWorld) (tid : Nat) (v : ManagerView) : Prop := v.Knows w.state tid

section Sections

variable {s s' : ManagerState} {tid : Nat} {env : ManagerEnv} {v : ManagerView} {o : ManagerOp}

theorem step_entry (sd : ServiceDriver) (env : DriverEnv) (o : DriverOp) :
    ((sd.step env o).2.serviceName, (sd.step env o).2.hdiConfig) =
      (sd.serviceName, sd.hdiConfig) := rfl

theorem drive_entries (s : ManagerState) (d : DriverId) (env : DriverEnv) (o : DriverOp) :
    (s.drive d env o).2.entries = s.entries := by
  refine List.ext_getElem? fun i => ?_
  simp only [ManagerState.entries, ManagerState.drive, List.getElem?_map, List.getElem?_set]
  split
  · next hi =>
    subst hi
    split
    · next hlt =>
      rw [List.getElem?_eq_getElem hlt, Option.map_some, Option.map_some, step_entry,
        List.getD_eq_getElem?_getD, List.getElem?_eq_getElem hlt, Option.getD_some]
    · next hlt => rw [List.getElem?_eq_none (Nat.le_of_not_lt hlt)]
  · rfl

/-- An operation that needs no mutex and is not about it leaves everything but the drivers. -/
theorem managerHandle_core (ho : o.plain = true) :
    (managerHandle tid env s o).2.core = s.core := by
  cases o with
  | driver d o =>
    have hentries : (managerHandle tid env s (.driver d o)).2.entries = s.entries :=
      drive_entries s d env.driver o
    rw [ManagerState.core, hentries]
    rfl
  | getSystemAbilityManager | listenerInstance | subscribeSystemAbility | watchParameter
  | getServiceManager | newListener | registerServiceStatusListener => rfl
  | _ => cases ho

theorem ManagerInv.of_core (h : ManagerInv s) (hcore : s'.core = s.core) : ManagerInv s' := by
  simp only [ManagerState.core, Prod.mk.injEq] at hcore
  obtain ⟨-, hstarted, hconfig, hentries, hmap⟩ := hcore
  constructor
  · rw [hstarted, hentries]
    exact h.unstarted
  · rw [hentries, hconfig]
    exact h.valid
  · rw [hentries, hconfig]
    exact h.sublist
  · rw [hmap, hentries]
    exact h.map

theorem ManagerView.Knows.of_core (h : v.Knows s tid) (hcore : s'.core = s.core) :
    v.Knows s' tid := by
  simp only [ManagerState.core, Prod.mk.injEq] at hcore
  obtain ⟨howner, hstarted, hconfig, hentries, -⟩ := hcore
  cases v with
  | free => trivial
  | _ => simpa only [ManagerView.Knows, howner, hstarted, hconfig, hentries] using h

/-- Whoever knows anything has the mutex. -/
theorem ManagerView.Knows.owner (h : v.Knows s tid) (hv : v ≠ .free) : s.owner = some tid := by
  cases v with
  | free => exact absurd rfl hv
  | locked => exact h
  | _ => exact h.1

theorem next_guarded {r : ManagerRes o} (ho : o = .serviceName2Driver ∨ ∃ n, o = .find n) :
    v.next o r = some v := by
  rcases ho with rfl | ⟨n, rfl⟩ <;> cases v <;> rfl

theorem next_plain (ho : o.plain = true) (r : ManagerRes o) : v.next o r = some v := by
  cases o with
  | getSystemAbilityManager | listenerInstance | subscribeSystemAbility | watchParameter
  | getServiceManager | newListener | registerServiceStatusListener | driver => cases v <;> rfl
  | _ => cases ho

/-! ### The map -/

theorem places_append (entries : List (String × HdiConfig)) (entry : String × HdiConfig) :
    places (entries ++ [entry]) = places entries ++ [(entry.1, entries.length)] := by
  simp [places, List.zipIdx_append]

theorem mem_places {entries : List (String × HdiConfig)} {serviceName : String} {d : DriverId} :
    (serviceName, d) ∈ places entries ↔ (entries[d]?).map Prod.fst = some serviceName := by
  rw [places, List.mem_map, Option.map_eq_some_iff]
  constructor
  · rintro ⟨⟨entry, i⟩, hentry, heq⟩
    obtain ⟨rfl, rfl⟩ := Prod.mk.inj heq
    exact ⟨entry, List.mem_zipIdx_iff_getElem?.mp hentry, rfl⟩
  · rintro ⟨entry, hentry, rfl⟩
    exact ⟨(entry, d), List.mem_zipIdx_iff_getElem?.mpr hentry, rfl⟩

/-- A name behind all that are there comes last. -/
theorem insertDriver_places {entries : List (String × HdiConfig)} {serviceName : String}
    (hconfig : HdiConfig) (hlast : ∀ entry ∈ entries, entry.1 < serviceName) :
    insertDriver serviceName entries.length (places entries) =
      places (entries ++ [(serviceName, hconfig)]) := by
  have hnames : ∀ p ∈ places entries, p.1 < serviceName := by
    rintro ⟨name, d⟩ hp
    obtain ⟨entry, hentry, rfl⟩ := Option.map_eq_some_iff.mp (mem_places.mp hp)
    exact hlast entry (List.mem_of_getElem? hentry)
  have hbefore : (places entries).filter (·.1 < serviceName) = places entries :=
    List.filter_eq_self.mpr fun p hp => decide_eq_true (hnames p hp)
  have hbehind : (places entries).filter (serviceName < ·.1) = [] :=
    List.filter_eq_nil_iff.mpr fun p hp h =>
      String.lt_asymm (hnames p hp) (of_decide_eq_true h)
  rw [insertDriver, hbefore, hbehind, places_append]

theorem findDriver_places {entries : List (String × HdiConfig)}
    (hnodup : (entries.map Prod.fst).Nodup) (serviceName : String) (d : DriverId) :
    findDriver serviceName (places entries) = some d ↔
      (entries[d]?).map Prod.fst = some serviceName := by
  have hunique {d d' : DriverId} (h : (entries[d]?).map Prod.fst = some serviceName)
      (h' : (entries[d']?).map Prod.fst = some serviceName) : d = d' := by
    rw [← List.getElem?_map] at h h'
    obtain ⟨hlt, -⟩ := List.getElem?_eq_some_iff.mp h
    exact (List.getElem?_inj hlt hnodup).mp (h.trans h'.symm)
  rw [findDriver, Option.map_eq_some_iff]
  constructor
  · rintro ⟨⟨name, d'⟩, hfind, rfl⟩
    obtain rfl : name = serviceName := by simpa using List.find?_some hfind
    exact mem_places.mp (List.mem_of_find?_eq_some hfind)
  · intro hd
    have hsome : ((places entries).find? (·.1 == serviceName)).isSome = true :=
      List.find?_isSome.mpr ⟨(serviceName, d), mem_places.mpr hd, beq_self_eq_true _⟩
    obtain ⟨⟨name, d'⟩, hfind⟩ := Option.isSome_iff_exists.mp hsome
    obtain rfl : name = serviceName := by simpa using List.find?_some hfind
    exact ⟨_, hfind, hunique (mem_places.mp (List.mem_of_find?_eq_some hfind)) hd⟩

end Sections

/-! ## 3. Every step -/

section Steps

variable {deviceServiceManager : Int32} {w : ManagerWorld} {s : ManagerState} {tid : Nat}
  {env : ManagerEnv} {v : ManagerView} {c : ManagerConfig}

theorem ManagerHistory.push (h : ManagerHistory w) {e : ManagerEvent} (hinv : ManagerInv s)
    (hstarted : w.state.started = true → s.started = true) (he : setsStarted e = false) :
    ManagerHistory (w.push s e) where
  inv := hinv
  started := by
    rw [World.push_trace, List.any_append, List.any_cons, List.any_nil, he, Bool.or_self,
      Bool.or_false]
    exact fun hany => hstarted (h.started hany)
  once := World.each_push.mpr ⟨h.once, fun hsets => by rw [he] at hsets; cases hsets⟩

/-- The first start. -/
theorem ManagerHistory.setStarted (h : ManagerHistory w) (hunstarted : w.state.started = false)
    {s : ManagerState} (hstarted : s.started = true) (hinv : ManagerInv s) :
    ManagerHistory (w.push s (.op tid .setStarted ())) where
  inv := hinv
  started _ := hstarted
  once := World.each_push.mpr ⟨h.once, fun _ => Bool.eq_false_iff.mpr fun hany => by
    rw [h.started hany] at hunstarted
    cases hunstarted⟩

/-- A new configuration, before any driver is made. -/
theorem ManagerInv.setHdiName2Config (h : ManagerInv s) (hnil : s.entries = [])
    {hdiName2Config : HdiName2Config} (hvalid : hdiConfigIsValid hdiName2Config = true) :
    ManagerInv { s with hdiName2Config } := by
  refine ⟨h.unstarted, fun _ => hvalid, ?_, h.map⟩
  show s.entries.Sublist hdiName2Config.pairs
  rw [hnil]
  exact List.nil_sublist _

theorem ManagerInv.clear (h : ManagerInv s) (hnil : s.entries = []) :
    ManagerInv { s with serviceName2Driver := [] } := by
  refine ⟨h.unstarted, h.valid, h.sublist, ?_⟩
  show [] = places s.entries
  rw [hnil]
  rfl

theorem addDriver_entries (s : ManagerState) (serviceName : String) (hdiConfig : HdiConfig) :
    (s.addDriver serviceName hdiConfig).entries = s.entries ++ [(serviceName, hdiConfig)] :=
  List.map_append

/-- The next driver of a configuration. -/
theorem ManagerInv.addDriver {serviceName : String} {hdiConfig : HdiConfig}
    {done rest : List (String × HdiConfig)} (hinv : ManagerInv s) (hstarted : s.started = true)
    (hvalid : hdiConfigIsValid s.hdiName2Config = true)
    (hpairs : s.hdiName2Config.pairs = done ++ (serviceName, hdiConfig) :: rest)
    (hdone : s.entries.Sublist done) : ManagerInv (s.addDriver serviceName hdiConfig) := by
  have hsorted := s.hdiName2Config.sorted
  rw [hpairs, List.pairwise_append] at hsorted
  have hlast : ∀ entry ∈ s.entries, entry.1 < serviceName := fun entry hentry =>
    hsorted.2.2 entry (hdone.subset hentry) _ List.mem_cons_self
  have hlength : s.made.length = s.entries.length := (List.length_map _).symm
  constructor
  · intro h
    rw [show s.started = false from h] at hstarted
    cases hstarted
  · exact fun _ => hvalid
  · rw [addDriver_entries]
    show List.Sublist _ s.hdiName2Config.pairs
    rw [hpairs]
    exact hdone.append (List.singleton_sublist.mpr List.mem_cons_self)
  · rw [addDriver_entries, ← insertDriver_places hdiConfig hlast, ← hinv.map, ← hlength]
    rfl

/-- One driver more, or one that is left out. -/
theorem ManagerInv.knows_makeDriver {serviceName : String} {hdiConfig : HdiConfig}
    {rest : List (String × HdiConfig)} (hinv : ManagerInv s) (env : ManagerEnv)
    (hv : (ManagerView.making ((serviceName, hdiConfig) :: rest)).Knows s tid) :
    ManagerInv (managerHandle tid env s (.makeDriver serviceName hdiConfig)).2 ∧
      (ManagerView.making rest).Knows
        (managerHandle tid env s (.makeDriver serviceName hdiConfig)).2 tid := by
  obtain ⟨howner, hstarted, hvalid, done, hpairs, hdone⟩ := hv
  have hpairs' : s.hdiName2Config.pairs = (done ++ [(serviceName, hdiConfig)]) ++ rest := by
    rw [hpairs, List.append_assoc, List.singleton_append]
  rw [managerHandle]
  cases env.ok with
  | false =>
    exact ⟨hinv, howner, hstarted, hvalid, _, hpairs',
      hdone.trans (List.sublist_append_left _ _)⟩
  | true =>
    refine ⟨hinv.addDriver hstarted hvalid hpairs hdone, howner, hstarted, hvalid, _, hpairs', ?_⟩
    show (s.addDriver serviceName hdiConfig).entries.Sublist _
    rw [addDriver_entries]
    exact hdone.append_right _

/-- What a thread does keeps the history and what it knows itself. -/
theorem ManagerHistory.own (h : ManagerHistory w) (hv : v.Knows w.state tid) {o : ManagerOp}
    (hmay : v.may o) :
    ManagerHistory ((managerMachine deviceServiceManager).perform w tid o env) ∧
      ∃ v', v.next o ((managerMachine deviceServiceManager).answer w tid o env) = some v' ∧
        v'.Knows ((managerMachine deviceServiceManager).perform w tid o env).state tid := by
  by_cases hplain : o.plain = true
  · have hcore : (managerHandle tid env w.state o).2.core = w.state.core :=
      managerHandle_core hplain
    refine ⟨h.push (h.inv.of_core hcore) ?_ ?_, v, next_plain hplain _, hv.of_core hcore⟩
    · intro hstarted
      simp only [ManagerState.core, Prod.mk.injEq] at hcore
      exact hcore.2.1.trans hstarted
    · cases o <;> first | rfl | cases hplain
  cases o with
  | lock =>
    obtain rfl : v = .free := hmay
    exact ⟨h.push ⟨h.inv.unstarted, h.inv.valid, h.inv.sublist, h.inv.map⟩ id rfl, _, rfl, rfl⟩
  | unlock =>
    refine ⟨h.push ⟨h.inv.unstarted, h.inv.valid, h.inv.sublist, h.inv.map⟩ id rfl, .free, ?_,
      trivial⟩
    cases v <;> rfl
  | started =>
    refine ⟨h.push h.inv id rfl, ?_⟩
    cases v with
    | locked =>
      refine ⟨_, rfl, ?_⟩
      show ManagerView.Knows w.state tid (if w.state.started then .locked else .unstarted)
      cases hstarted : w.state.started with
      | true => exact hv
      | false => exact ⟨hv, hstarted⟩
    | _ => exact ⟨_, rfl, hv⟩
  | setStarted =>
    obtain rfl : v = .unstarted := hmay
    have hnil := h.inv.unstarted hv.2
    refine ⟨h.setStarted hv.2 rfl ⟨fun hstarted => (by cases hstarted), h.inv.valid, h.inv.sublist,
      h.inv.map⟩, _, rfl, hv.1, rfl, hnil⟩
  | setHdiName2Config hdiName2Config =>
    obtain ⟨rfl, hvalid⟩ := hmay
    obtain ⟨howner, hstarted, hnil⟩ := hv
    exact ⟨h.push (h.inv.setHdiName2Config hnil hvalid) id rfl, _, rfl, howner, hstarted, hnil, rfl,
      hvalid⟩
  | clear =>
    obtain ⟨hdiName2Config, rfl⟩ := hmay
    obtain ⟨howner, hstarted, hnil, rfl, hvalid⟩ := hv
    refine ⟨h.push (h.inv.clear hnil) id rfl, _, rfl, howner, hstarted, hvalid, [], rfl, ?_⟩
    show w.state.entries.Sublist []
    rw [hnil]
  | makeDriver serviceName hdiConfig =>
    obtain ⟨rest, rfl⟩ := hmay
    obtain ⟨hinv, hknows⟩ := h.inv.knows_makeDriver env hv
    refine ⟨h.push hinv (fun _ => ?_) rfl, _, rfl, hknows⟩
    exact hknows.2.1
  | serviceName2Driver => exact ⟨h.push h.inv id rfl, v, next_guarded (.inl rfl), hv⟩
  | find serviceName => exact ⟨h.push h.inv id rfl, v, next_guarded (.inr ⟨_, rfl⟩), hv⟩
  | _ => exact absurd rfl hplain

theorem plain_or_guarded (o : ManagerOp) : o.plain = true ∨ o.guarded = true ∨ o = .lock := by
  cases o <;> first | exact .inl rfl | exact .inr (.inl rfl) | exact .inr (.inr rfl)

theorem ManagerView.may_guarded {o : ManagerOp} (hmay : v.may o) (ho : o.guarded = true) :
    v ≠ .free := by
  rintro rfl
  cases o with
  | setStarted => cases hmay
  | setHdiName2Config => cases hmay.1
  | clear => cases hmay.choose_spec
  | makeDriver => cases hmay.choose_spec
  | unlock | started | serviceName2Driver | find => exact hmay rfl rfl
  | _ => cases ho

/-- What another thread knows stays true: it has the mutex itself, or knows nothing. -/
theorem knows_other {t : Nat} {u : ManagerView} (ht : t ≠ tid) (hu : u.Knows w.state t)
    (hv : v.Knows w.state tid) {o : ManagerOp} (hmay : v.may o)
    (hen : managerEnabled w.state o = true) :
    u.Knows ((managerMachine deviceServiceManager).perform w tid o env).state t := by
  rcases plain_or_guarded o with hplain | hguarded | rfl
  · exact hu.of_core (managerHandle_core hplain)
  · by_cases hfree : u = .free
    · rw [hfree]
      trivial
    · have howner := hu.owner hfree
      rw [hv.owner (v.may_guarded hmay hguarded)] at howner
      exact absurd (Option.some.inj howner).symm ht
  · by_cases hfree : u = .free
    · rw [hfree]
      trivial
    · rw [managerEnabled, hu.owner hfree] at hen
      cases hen

theorem managerTypestate_sound (deviceServiceManager : Int32) :
    managerTypestate.Sound (managerMachine deviceServiceManager) Machine.anyMove ManagerHistory
      managerLink where
  start {w tid call s} hw _ _ hs := by
    cases hs
    exact ⟨hw.push hw.inv id rfl, .free, trivial, trivial, managerBody_follows _ call⟩
  spawn {w t v tid call s} hlink _ hs := by
    cases hs
    exact hlink
  own hw hlink _ hmay _ _ := hw.own hlink hmay
  other ht hlink hlink' _ _ hmay hen := knows_other ht hlink hlink' hmay hen

theorem managerHistory_reachable
    (hc : (managerMachine deviceServiceManager).Reachable Machine.anyMove {} c) :
    ManagerHistory c.world := by
  refine ((managerTypestate_sound deviceServiceManager).reachable ?_ hc).1
  refine ⟨⟨fun _ => rfl, fun h => absurd rfl h, List.Sublist.refl _, rfl⟩, fun h => ?_,
    fun pre e post h => ?_⟩
  · cases h
  · cases List.append_ne_nil_of_right_ne_nil pre (List.cons_ne_nil e post) h.symm

end Steps

/-! ## 4. One configuration -/

theorem hdiConfigIsValidFrom_iff {idSet : List UInt16} {pairs : List (String × HdiConfig)} :
    hdiConfigIsValidFrom idSet pairs = true ↔
      (pairs.map fun p => p.2.id).Nodup ∧ ∀ p ∈ pairs, p.2.id ∉ idSet ∧ p.2.driver = true := by
  induction pairs generalizing idSet with
  | nil => simp [hdiConfigIsValidFrom]
  | cons pair pairs ih =>
    obtain ⟨serviceName, hdiConfig⟩ := pair
    rw [hdiConfigIsValidFrom]
    by_cases hseen : hdiConfig.id ∈ idSet
    · simp [hseen]
    · cases hdriver : hdiConfig.driver with
      | false => simp [hseen, hdriver]
      | true =>
        simp only [hseen, if_false, Bool.not_true, Bool.false_eq_true, ih, List.map_cons,
          List.nodup_cons, List.mem_map, List.mem_cons, not_or]
        grind

/-- The drivers are among those of the configuration: no two have an id or a name in common, each
has a driver, and a name finds the driver that was made for it. -/
structure OneConfiguration (s : ManagerState) : Prop where
  configured : s.entries.Sublist s.hdiName2Config.pairs
  ids : (s.made.map (·.hdiConfig.id)).Nodup
  names : (s.made.map (·.serviceName)).Nodup
  drivers : ∀ sd ∈ s.made, sd.hdiConfig.driver = true
  found : ∀ serviceName d, findDriver serviceName s.serviceName2Driver = some d ↔
    (s.made[d]?).map (·.serviceName) = some serviceName

theorem HdiName2Config.names_nodup (hdiName2Config : HdiName2Config) :
    (hdiName2Config.pairs.map Prod.fst).Nodup := by
  rw [List.Nodup, List.pairwise_map]
  refine hdiName2Config.sorted.imp fun {p q} h heq => ?_
  rw [heq] at h
  exact String.lt_irrefl _ h

theorem ManagerInv.oneConfiguration {s : ManagerState} (h : ManagerInv s) : OneConfiguration s := by
  have hnames : (s.entries.map Prod.fst).Nodup :=
    s.hdiName2Config.names_nodup.sublist (h.sublist.map _)
  have hvalid : (s.entries.map fun p => p.2.id).Nodup ∧ ∀ p ∈ s.entries, p.2.driver = true := by
    by_cases hnil : s.entries = []
    · rw [hnil]
      exact ⟨List.nodup_nil, fun p hp => by cases hp⟩
    · obtain ⟨hids, hdrivers⟩ := hdiConfigIsValidFrom_iff.mp (h.valid hnil)
      exact ⟨hids.sublist (h.sublist.map _), fun p hp => (hdrivers p (h.sublist.subset hp)).2⟩
  refine ⟨h.sublist, ?_, ?_, fun sd hsd => hvalid.2 _ (List.mem_map_of_mem hsd),
    fun serviceName d => ?_⟩
  · simpa [ManagerState.entries, Function.comp_def] using hvalid.1
  · simpa [ManagerState.entries, Function.comp_def] using hnames
  · rw [h.map, findDriver_places hnames, ManagerState.entries, List.getElem?_map, Option.map_map]
    rfl

/-- **One configuration.**  In every run the manager is started at most once, and in every state its
drivers are those of one valid configuration, each under its own name. -/
theorem manager_oneConfiguration {deviceServiceManager : Int32} {c : ManagerConfig}
    (hc : (managerMachine deviceServiceManager).Reachable Machine.anyMove {} c) :
    c.world.trace.countP setsStarted ≤ 1 ∧ OneConfiguration c.world.state := by
  have hhistory := managerHistory_reachable hc
  exact ⟨hhistory.once.countP_le_one, hhistory.inv.oneConfiguration⟩

def faceAndPin : HdiName2Config :=
  ⟨[("face", ⟨1, true⟩), ("pin", ⟨2, true⟩)], by decide⟩

/-- A start takes ten steps and one for each driver; a second one finds the
manager started. -/
theorem manager_oneConfiguration_faceAndPin : ∃ c : ManagerConfig,
    c.world.state.made.map (·.serviceName) = ["face", "pin"] ∧
      c.world.trace.countP setsStarted ≤ 1 ∧ OneConfiguration c.world.state := by
  have hrun : ((managerMachine 5100).exec Machine.anyMove ⟨⟨{}, []⟩, []⟩
      (.spawn (.start faceAndPin) :: List.replicate 12 (.run 0 {}) ++
        .spawn (.start faceAndPin) :: List.replicate 3 (.run 1 {}))).map
        (fun c => c.world.state.made.map (·.serviceName)) = some ["face", "pin"] := by
    decide +kernel
  obtain ⟨c, hexec, hnames⟩ := Option.map_eq_some_iff.mp hrun
  exact ⟨c, hnames, manager_oneConfiguration (Machine.Reachable.init.exec hexec)⟩

end UserIam.Executors
