import UserIam.Conc.Invariant

/-!
# Driver

The list of executors that a driver keeps, under connections, disconnections and the ready event of
the framework.  Each section under the driver's mutex is one step; a connection is a disconnection
and a section of its own that fills the list.
-/

namespace UserIam.Executors

open Conc

/-! ## 1. The sections under the mutex -/

/-- An executor of the driver; `generation` says in which call of `GetExecutorList` it was got. -/
structure DriverExecutor where
  generation : Nat
  executorHdi : Option Nat
  executorMgrWrapper : Bool
  deriving DecidableEq, Repr

/-- `generation` counts the calls of `GetExecutorList`. -/
structure DriverState where
  executorList : List DriverExecutor
  generation : Nat
  deriving DecidableEq, Repr

def DriverState.initial : DriverState := ⟨[], 0⟩

inductive DriverOp where
  | connect
  | disconnect
  | frameworkReady

/-- A connection tells which executors it adds and which of them it registers, the ready event which
ones it registers. -/
@[reducible] def DriverRes : DriverOp → Type
  | .connect => List DriverExecutor × List DriverExecutor
  | .disconnect => Unit
  | .frameworkReady => List DriverExecutor

/-- What the environment decides: the executors that the driver lists, and which of the allocations
and of the calls of `GetExecutorInfo` succeed. -/
structure DriverEnv where
  executorHdiList : List (Option Nat) := []
  makeExecutor : Nat → Bool := fun _ => true
  executorMgrWrapper : Bool := true
  executorInfo : Nat → Bool := fun _ => true
  executorCallback : Bool := true

/-- Whether `OnFrameworkReady` of an executor comes to register it. -/
def DriverExecutor.registers (env : DriverEnv) (executor : DriverExecutor) : Bool :=
  executor.executorHdi.any env.executorInfo && env.executorCallback && executor.executorMgrWrapper

/-- The executors that the loop of a connection makes. -/
def DriverEnv.executors (env : DriverEnv) (generation : Nat) : List DriverExecutor :=
  env.executorHdiList.zipIdx.filterMap fun entry =>
    if env.makeExecutor entry.2 then some ⟨generation, entry.1, env.executorMgrWrapper⟩ else none

/-- Nothing is taken off the list; that has been done in the section before. -/
def DriverState.connect (s : DriverState) (env : DriverEnv) (driver : Bool) :
    (List DriverExecutor × List DriverExecutor) × DriverState :=
  if !driver then (([], []), s)
  else
    let executors := env.executors (s.generation + 1)
    ((executors, executors.filter (·.registers env)),
      ⟨s.executorList ++ executors, s.generation + 1⟩)

def driverHandle (driver : Bool) (env : DriverEnv) (s : DriverState) :
    (o : DriverOp) → DriverRes o × DriverState
  | .connect => s.connect env driver
  | .disconnect => ((), { s with executorList := [] })
  | .frameworkReady => (s.executorList.filter (·.registers env), s)

/-! ## 2. The machine -/

inductive DriverCall where
  | onHdiConnect
  | onHdiDisconnect
  | onFrameworkReady

abbrev DriverProg := Prog DriverOp DriverRes

def driverBody : DriverCall → DriverProg Unit
  | .onHdiConnect => do
    let _ ← Prog.op DriverOp.disconnect
    let _ ← Prog.op DriverOp.connect
    return ()
  | .onHdiDisconnect => Prog.op DriverOp.disconnect
  | .onFrameworkReady => do
    let _ ← Prog.op DriverOp.frameworkReady
    return ()

abbrev DriverWorld := World DriverOp DriverRes DriverState DriverCall
abbrev DriverEvent := Event DriverOp DriverRes DriverCall
abbrev DriverConfig := Config DriverOp DriverRes DriverState DriverCall

/-- `driver` says whether the configuration has a driver. -/
def driverMachine (driver : Bool) :
    Machine DriverOp DriverRes DriverEnv DriverState DriverCall where
  enabled _ _ _ _ := true
  handle _ o env s := driverHandle driver env s o
  accept _ s := some s
  body := driverBody

/-! ## 3. One driver at a time -/

def OneGeneration (executorList : List DriverExecutor) : Prop :=
  ∀ e ∈ executorList, ∀ e' ∈ executorList, e.generation = e'.generation

/-- The executors that a section adds to the list. -/
def added : DriverEvent → List DriverExecutor
  | .op _ .connect r => r.1
  | _ => []

/-- The executors that a section registers. -/
def registered : DriverEvent → List DriverExecutor
  | .op _ .connect r => r.2
  | .op _ .frameworkReady r => r
  | _ => []

def clears : DriverEvent → Bool
  | .op _ .disconnect _ => true
  | _ => false

def hdis (executors : List DriverExecutor) : List Nat := executors.filterMap (·.executorHdi)

/-- In every state of the run the executors come from one call of `GetExecutorList`.  No section
registers an executor of a driver that has been replaced, and if the driver lists none of its
executors twice, no section registers one twice. -/
structure OneDriver (driver : Bool) (c : DriverConfig) : Prop where
  list : ∀ c' : DriverConfig, (driverMachine driver).Reachable Machine.anyMove .initial c' →
    c'.world.trace <+: c.world.trace → OneGeneration c'.world.state.executorList
  replaced : ∀ pre e post, c.world.trace = pre ++ e :: post → ∀ x ∈ registered e, ∀ d ∈ pre,
    ∀ b ∈ added d, b.generation ≤ x.generation
  once : (∀ d ∈ c.world.trace, (hdis (added d)).Nodup) →
    ∀ e ∈ c.world.trace, (hdis (registered e)).Nodup

/-- Between two sections that add executors there is one that clears the list. -/
def Separated (es : List DriverEvent) : Prop :=
  ∀ pre d mid e post, es = pre ++ d :: (mid ++ e :: post) → added d ≠ [] → added e ≠ [] →
    mid.any clears = true

/-! ## 4. The list and its history -/

/-- The list after a history. -/
def held (es : List DriverEvent) : List DriverExecutor :=
  es.foldl (fun executors e => if clears e then [] else executors ++ added e) []

section History

variable {es : List DriverEvent} {e : DriverEvent}

theorem held_concat (es : List DriverEvent) (e : DriverEvent) :
    held (es ++ [e]) = if clears e then [] else held es ++ added e := by
  rw [held, List.foldl_concat]
  rfl

/-- What has been added since the last clearing is on the list. -/
theorem mem_held {x : DriverExecutor} {pre mid : List DriverEvent} (hx : x ∈ added e)
    (hmid : mid.any clears = false) : x ∈ held (pre ++ e :: mid) := by
  induction mid using List.reverseRecOn with
  | nil =>
    have hclears : clears e = false := by
      cases e with
      | spawn => rfl
      | op t o r => cases o <;> first | rfl | cases hx
    rw [held_concat, hclears]
    exact List.mem_append_right _ hx
  | append_singleton mid d ih =>
    rw [List.any_append, Bool.or_eq_false_iff] at hmid
    have hd : clears d = false := by simpa using hmid.2
    have hsplit : pre ++ e :: (mid ++ [d]) = (pre ++ e :: mid) ++ [d] := by simp
    rw [hsplit, held_concat, hd]
    exact List.mem_append_left _ (ih hmid.1)

theorem Separated.of_append {es es' : List DriverEvent} (h : Separated (es ++ es')) :
    Separated es := by
  intro pre d mid e post hsplit
  refine h pre d mid e (post ++ es') ?_
  rw [hsplit]
  simp

/-- A section that adds executors to an empty list. -/
theorem Separated.concat (h : Separated es) (he : added e = [] ∨ held es = []) :
    Separated (es ++ [e]) := by
  intro pre d mid e' post hsplit hd he'
  have hsplit' : es ++ [e] = (pre ++ d :: mid) ++ e' :: post := by
    rw [hsplit]
    simp
  rcases World.split_concat hsplit' with ⟨rfl, rfl⟩ | ⟨post', rfl⟩
  -- what `d` has added would be on the list that is found empty
  · by_contra hmid
    obtain ⟨x, hx⟩ := List.exists_mem_of_ne_nil _ hd
    have hmem : x ∈ held (pre ++ d :: mid) := mem_held hx (by simpa using hmid)
    rw [he.resolve_left he'] at hmem
    cases hmem
  · exact h pre d mid e' post' (by simp) hd he'

/-- Where the sections are separated the list is what one of them has added. -/
theorem Separated.held (h : Separated es) : held es = [] ∨
    ∃ pre d mid, es = pre ++ d :: mid ∧ Executors.held es = added d ∧ added d ≠ [] ∧
      mid.any clears = false ∧ ∀ m ∈ mid, added m = [] := by
  -- by the last event: it clears the list, adds nothing to it, or finds it empty
  induction es using List.reverseRecOn with
  | nil => exact .inl rfl
  | append_singleton es e ih =>
    rw [held_concat]
    by_cases hclears : clears e = true
    · rw [if_pos hclears]
      exact .inl rfl
    · rw [if_neg hclears]
      have hclears : clears e = false := by simpa using hclears
      rcases ih h.of_append with hnil | ⟨pre, d, mid, rfl, hheld, hd, hmid, hquiet⟩
      · rw [hnil, List.nil_append]
        by_cases he : added e = []
        · exact .inl he
        · exact .inr ⟨es, e, [], rfl, rfl, he, rfl, fun m hm => by cases hm⟩
      · by_cases he : added e = []
        · refine .inr ⟨pre, d, mid ++ [e], by simp, ?_, hd, ?_, fun m hm => ?_⟩
          · rw [hheld, he, List.append_nil]
          · rw [List.any_append, hmid]
            simpa using hclears
          · rcases List.mem_append.mp hm with hm | hm
            · exact hquiet m hm
            · rwa [List.mem_singleton.mp hm]
        -- the list would be filled twice
        · have hany := h pre d mid e [] (by simp) hd he
          rw [hmid] at hany
          cases hany

end History

/-! ## 5. What one section does -/

/-- The executors of a section are newer than all before it. -/
def Grows (pre : List DriverEvent) (e : DriverEvent) : Prop :=
  ∃ generation, (∀ x ∈ added e, x.generation = generation) ∧
    ∀ d ∈ pre, ∀ b ∈ added d, b.generation < generation

/-- A section registers its own executors or some of those on the list. -/
def RegistersHeld (pre : List DriverEvent) (e : DriverEvent) : Prop :=
  (registered e).Sublist (added e) ∨ (registered e).Sublist (held pre)

structure DriverInv (w : DriverWorld) : Prop where
  list : w.state.executorList = held w.trace
  old : ∀ d ∈ w.trace, ∀ b ∈ added d, b.generation ≤ w.state.generation
  grows : w.Each Grows
  registers : w.Each RegistersHeld

section Runs

variable {driver : Bool} {w : DriverWorld} {c : DriverConfig}

/-- A step that adds nothing. -/
theorem DriverInv.push (hw : DriverInv w) {s : DriverState} {e : DriverEvent}
    (hlist : s.executorList = held (w.trace ++ [e])) (hadded : added e = [])
    (hgeneration : s.generation = w.state.generation) (hregisters : RegistersHeld w.trace e) :
    DriverInv (w.push s e) where
  list := hlist
  old := by
    intro d hd b hb
    rw [World.push_state, hgeneration]
    rcases List.mem_append.mp hd with hd | hd
    · exact hw.old d hd b hb
    · rw [List.mem_singleton.mp hd, hadded] at hb
      cases hb
  grows := by
    refine World.each_push.mpr ⟨hw.grows, w.state.generation + 1, fun x hx => ?_,
      fun d hd b hb => ?_⟩
    · rw [hadded] at hx
      cases hx
    · exact Nat.lt_succ_of_le (hw.old d hd b hb)
  registers := World.each_push.mpr ⟨hw.registers, hregisters⟩

theorem generation_of_mem {env : DriverEnv} {generation : Nat} {x : DriverExecutor}
    (hx : x ∈ env.executors generation) : x.generation = generation := by
  obtain ⟨entry, -, hentry⟩ := List.mem_filterMap.mp hx
  split at hentry
  · cases hentry
    rfl
  · cases hentry

theorem DriverInv.connect (hw : DriverInv w) (tid : Nat) (env : DriverEnv) :
    DriverInv ((driverMachine driver).perform w tid .connect env) := by
  cases driver with
  | false =>
    refine hw.push ?_ rfl rfl (.inl (List.Sublist.refl _))
    rw [held_concat]
    exact hw.list.trans (List.append_nil _).symm
  | true =>
    refine ⟨?_, ?_, ?_, ?_⟩
    · show w.state.executorList ++ _ = held (w.trace ++ [(.op tid .connect _ : DriverEvent)])
      rw [held_concat, hw.list]
      rfl
    · intro d hd b hb
      rcases List.mem_append.mp hd with hd | hd
      · exact Nat.le_succ_of_le (hw.old d hd b hb)
      · obtain rfl := List.mem_singleton.mp hd
        exact Nat.le_of_eq (generation_of_mem hb)
    · refine World.each_push.mpr ⟨hw.grows, w.state.generation + 1, fun x hx => ?_,
        fun d hd b hb => Nat.lt_succ_of_le (hw.old d hd b hb)⟩
      exact generation_of_mem hx
    · exact World.each_push.mpr ⟨hw.registers, .inl List.filter_sublist⟩

theorem DriverInv.perform (hw : DriverInv w) (tid : Nat) (o : DriverOp) (env : DriverEnv) :
    DriverInv ((driverMachine driver).perform w tid o env) := by
  cases o with
  | connect => exact hw.connect tid env
  | disconnect =>
    refine hw.push ?_ rfl rfl (.inl (List.Sublist.refl _))
    rw [held_concat]
    rfl
  | frameworkReady =>
    refine hw.push ?_ rfl rfl (.inr ?_)
    · rw [held_concat]
      exact hw.list.trans (List.append_nil _).symm
    · rw [← hw.list]
      exact List.filter_sublist

theorem driverInv_reachable (hc : (driverMachine driver).Reachable Machine.anyMove .initial c) :
    DriverInv c.world := by
  induction hc with
  | init =>
    refine ⟨rfl, fun d hd => ?_, fun pre d post h => ?_, fun pre d post h => ?_⟩
    · cases hd
    · cases List.append_ne_nil_of_right_ne_nil pre (List.cons_ne_nil d post) h.symm
    · cases List.append_ne_nil_of_right_ne_nil pre (List.cons_ne_nil d post) h.symm
  | spawn _ _ hs ih =>
    cases hs
    refine ih.push ?_ rfl rfl (.inl (List.Sublist.refl _))
    rw [held_concat]
    exact ih.list.trans (List.append_nil _).symm
  | run _ _ _ _ ih => exact ih.perform _ _ _

/-! ## 6. Runs -/

/-- The executors that two sections add differ in their generation. -/
theorem Separated.of_list {es : List DriverEvent} (hgrows : ∀ pre e post, es = pre ++ e :: post →
      Grows pre e)
    (hone : ∀ pre, pre <+: es → OneGeneration (Executors.held pre)) : Separated es := by
  intro pre d mid e post hsplit hd he
  by_contra hmid
  have hmid : mid.any clears = false := by simpa using hmid
  obtain ⟨x, hx⟩ := List.exists_mem_of_ne_nil _ hd
  obtain ⟨y, hy⟩ := List.exists_mem_of_ne_nil _ he
  have hsplit' : es = (pre ++ d :: mid) ++ e :: post := by
    rw [hsplit]
    simp
  have hprefix : pre ++ d :: mid ++ [e] <+: es := by
    rw [hsplit']
    exact ⟨post, by simp⟩
  obtain ⟨generation, hnew, hold⟩ := hgrows _ _ _ hsplit'
  -- both on the list, the executors would be of two generations
  have hlt : x.generation < y.generation := by
    rw [hnew y hy]
    exact hold d (by simp) x hx
  have hclears : clears e = false := by
    cases e with
    | spawn => rfl
    | op t o r => cases o <;> first | rfl | cases hy
  have hheld := hone _ hprefix
  rw [held_concat, hclears] at hheld
  have heq := hheld x (List.mem_append_left _ (mem_held hx hmid)) y (List.mem_append_right _ hy)
  omega

theorem Separated.of_prefix {es pre : List DriverEvent} (h : Separated es) (hpre : pre <+: es) :
    Separated pre := by
  obtain ⟨post, rfl⟩ := hpre
  exact h.of_append

/-- Under separated sections the list is as new as any executor of the run. -/
theorem DriverInv.newest (hw : DriverInv w) (h : Separated w.trace) {x b : DriverExecutor}
    {d : DriverEvent} (hx : x ∈ held w.trace) (hd : d ∈ w.trace) (hb : b ∈ added d) :
    b.generation ≤ x.generation := by
  rcases h.held with hnil | ⟨pre, e, mid, hsplit, hheld, -, -, hquiet⟩
  · rw [hnil] at hx
    cases hx
  · rw [hheld] at hx
    obtain ⟨generation, hnew, hold⟩ := hw.grows pre e mid hsplit
    rw [hnew x hx]
    rw [hsplit, List.mem_append, List.mem_cons] at hd
    -- `d` comes before the section that has filled the list, is that section, or adds nothing
    rcases hd with hd | rfl | hd
    · exact Nat.le_of_lt (hold d hd b hb)
    · exact Nat.le_of_eq (hnew b hb)
    · rw [hquiet d hd] at hb
      cases hb

theorem DriverInv.oneGeneration (hw : DriverInv w) (h : Separated w.trace) :
    OneGeneration w.state.executorList := by
  intro x hx y hy
  rw [hw.list] at hx hy
  rcases h.held with hnil | ⟨pre, e, mid, hsplit, hheld, -, -, -⟩
  · rw [hnil] at hx
    cases hx
  · rw [hheld] at hx hy
    obtain ⟨generation, hnew, -⟩ := hw.grows pre e mid hsplit
    rw [hnew x hx, hnew y hy]

theorem hdis_sublist {executors executors' : List DriverExecutor}
    (h : executors.Sublist executors') : (hdis executors).Sublist (hdis executors') :=
  h.filterMap _

/-- **When there is one driver at a time.** -/
theorem oneDriver_iff (hc : (driverMachine driver).Reachable Machine.anyMove .initial c) :
    OneDriver driver c ↔ Separated c.world.trace := by
  have hinv := driverInv_reachable hc
  constructor
  · intro hone
    refine Separated.of_list hinv.grows fun pre hpre => ?_
    obtain ⟨c', hc', rfl⟩ := hc.exists_prefix hpre
    rw [← (driverInv_reachable hc').list]
    exact hone.list c' hc' hpre
  · intro h
    refine ⟨fun c' hc' hpre => ?_, fun pre e post hsplit x hx d hd b hb => ?_,
      fun hdistinct e he => ?_⟩
    · exact (driverInv_reachable hc').oneGeneration (h.of_prefix hpre)
    -- a section registers what it has added itself, or what was on the list
    · rcases hinv.registers pre e post hsplit with hsub | hsub
      · obtain ⟨generation, hnew, hold⟩ := hinv.grows pre e post hsplit
        rw [hnew x (hsub.subset hx)]
        exact Nat.le_of_lt (hold d hd b hb)
      · have hpre : pre <+: c.world.trace := ⟨e :: post, hsplit.symm⟩
        obtain ⟨c', hc', rfl⟩ := hc.exists_prefix hpre
        exact (driverInv_reachable hc').newest (h.of_prefix hpre) (hsub.subset hx) hd hb
    · obtain ⟨pre, post, hsplit⟩ := List.append_of_mem he
      rcases hinv.registers pre e post hsplit with hsub | hsub
      · exact (hdistinct e he).sublist (hdis_sublist hsub)
      · rcases (h.of_prefix ⟨e :: post, hsplit.symm⟩).held with
          hnil | ⟨pre', d, mid, rfl, hheld, -, -, -⟩
        · rw [hnil] at hsub
          rw [List.sublist_nil.mp hsub]
          exact List.nodup_nil
        · rw [hheld] at hsub
          have hd : d ∈ c.world.trace := by
            rw [hsplit]
            simp
          exact (hdistinct d hd).sublist (hdis_sublist hsub)

end Runs

/-! ### Two connections at once -/

/-- Two connections both clear the list before either of them fills it, and then the framework is
ready. -/
def twoConnects : Option DriverConfig :=
  (driverMachine true).exec Machine.anyMove ⟨⟨.initial, []⟩, []⟩
    [.spawn .onHdiConnect, .spawn .onHdiConnect, .run 0 {}, .run 1 {},
      .run 0 { executorHdiList := [some 5] }, .run 1 { executorHdiList := [some 5] },
      .spawn .onFrameworkReady, .run 2 {}]

/-- The list ends up with the executor of both calls of `GetExecutorList`. -/
theorem oneDriver_counterexample :
    ¬∀ c : DriverConfig, (driverMachine true).Reachable Machine.anyMove .initial c →
      OneDriver true c := by
  intro h
  have hrun : twoConnects.map (·.world.state.executorList) =
      some [⟨1, some 5, true⟩, ⟨2, some 5, true⟩] := by decide +kernel
  obtain ⟨c, hexec, hlist⟩ := Option.map_eq_some_iff.mp hrun
  have hc := Machine.Reachable.init.exec hexec
  have hone := (h c hc).list c hc (List.prefix_refl _)
  rw [hlist] at hone
  have heq := hone ⟨1, some 5, true⟩ (by simp) ⟨2, some 5, true⟩ (by simp)
  cases heq

/-- The list is empty when it is filled. -/
def FillsEmpty (w : DriverWorld) : Move DriverOp DriverEnv DriverCall → Prop
  | .op _ .connect _ => w.state.executorList = []
  | _ => True

instance (w : DriverWorld) (mv : Move DriverOp DriverEnv DriverCall) :
    Decidable (FillsEmpty w mv) :=
  match mv with
  | .spawn .. => isTrue trivial
  | .op _ .connect _ => inferInstanceAs (Decidable (_ = _))
  | .op _ .disconnect _ => isTrue trivial
  | .op _ .frameworkReady _ => isTrue trivial

theorem separated_of_fillsEmpty {driver : Bool} {c : DriverConfig}
    (hc : (driverMachine driver).Reachable FillsEmpty .initial c) : Separated c.world.trace := by
  induction hc with
  | init =>
    intro pre d mid e post h
    cases List.append_ne_nil_of_right_ne_nil pre (List.cons_ne_nil d _) h.symm
  | spawn _ _ _ ih => exact ih.concat (.inl rfl)
  | @run c tid o k env hc hok _ _ ih =>
    cases o with
    | connect =>
      have hlist := (driverInv_reachable (hc.mono fun _ _ _ => trivial)).list
      exact ih.concat (.inr (hlist.symm.trans hok))
    | disconnect | frameworkReady => exact ih.concat (.inl rfl)

/-- One connection after the other. -/
theorem oneDriver_iff_example : ∃ c : DriverConfig,
    c.world.state.executorList = [⟨2, some 5, true⟩] ∧ OneDriver true c := by
  have hrun : ((driverMachine true).exec FillsEmpty ⟨⟨.initial, []⟩, []⟩
      [.spawn .onHdiConnect, .run 0 {}, .run 0 { executorHdiList := [some 5] },
        .spawn .onHdiConnect, .run 1 {}, .run 1 { executorHdiList := [some 5] },
        .spawn .onFrameworkReady, .run 2 {}]).map (·.world.state.executorList) =
      some [⟨2, some 5, true⟩] := by decide +kernel
  obtain ⟨c, hexec, hlist⟩ := Option.map_eq_some_iff.mp hrun
  have hc := Machine.Reachable.init.exec hexec
  exact ⟨c, hlist, (oneDriver_iff (hc.mono fun _ _ _ => trivial)).mpr
    (separated_of_fillsEmpty hc)⟩

end UserIam.Executors
