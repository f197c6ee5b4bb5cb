import UserIam.Common.ServiceLink

/-!
# The link recovers

A proxy of a service that has died is dropped: whoever is to drop it is on its way, and nobody drops
another one.  This rests on the recipient being added before the proxy is stored, and on both being
done under the mutex.
-/

namespace UserIam.Common

open Conc Prog

abbrev LinkEvent := Event LinkOp LinkRes LinkCall
abbrev LinkWorld := World LinkOp LinkRes LinkState LinkCall
abbrev LinkConfig := Config LinkOp LinkRes LinkState LinkCall

/-! ## 1. Who is to drop a proxy -/

/-- The deaths that a thread is handling, after one more event. -/
def handled : LinkEvent → List RemoteObject → List RemoteObject
  | .spawn _ (.onRemoteDied (some obj) _), objs => obj :: objs
  | .op _ .unlock _, _ => []
  | _, objs => objs

/-- The deaths that a thread has been told of and has not finished with. -/
def handles (w : LinkWorld) (tid : Nat) : List RemoteObject :=
  (w.own tid).foldl (fun objs e => handled e objs) []

theorem handles_push_self (w : LinkWorld) (s : LinkState) (e : LinkEvent) :
    handles (w.push s e) e.tid = handled e (handles w e.tid) := by
  rw [handles, World.own_push_self, List.foldl_append]
  rfl

theorem handles_spawn_self (w : LinkWorld) (s : LinkState) (tid : Nat) (call : LinkCall) :
    handles (w.push s (.spawn tid call)) tid = handled (.spawn tid call) (handles w tid) :=
  handles_push_self w s (.spawn tid call)

theorem handles_push_of_ne (w : LinkWorld) (s : LinkState) {e : LinkEvent} {tid : Nat}
    (h : e.tid ≠ tid) : handles (w.push s e) tid = handles w tid := by
  rw [handles, World.own_push_of_ne _ _ h, handles]

theorem handles_fresh {w : LinkWorld} {tid : Nat} (h : w.Fresh tid) : handles w tid = [] := by
  rw [handles, h.own_eq_nil]
  rfl

/-- A recipient waits for the death of the object, or one has to be told of it, or a thread is
handling it. -/
def Watched (w : LinkWorld) (obj : RemoteObject) : Prop :=
  (∃ dr, (obj, dr) ∈ w.state.recipients) ∨ (∃ dr, (obj, dr) ∈ w.state.notices) ∨
    ∃ tid, obj ∈ handles w tid

section Steps

variable {cls : LinkClass} {remote : RemoteObject → Bool} {w : LinkWorld} {tid : Nat}
  {obj : RemoteObject} {call : LinkCall} {s : LinkState} {o : LinkOp} {env : LinkEnv}

/-- A death moves the recipients to the notices, and a notice becomes a thread. -/
theorem Watched.spawn (h : Watched w obj) (hs : linkAccept remote call w.state = some s) :
    Watched (w.push s (.spawn tid call)) obj := by
  have hthread (hhandles : ∃ t, obj ∈ handles w t) :
      ∃ t, obj ∈ handles (w.push s (.spawn tid call)) t := by
    obtain ⟨t, ht⟩ := hhandles
    refine ⟨t, ?_⟩
    by_cases htid : tid = t
    · subst htid
      rw [handles_spawn_self]
      cases call with
      | onRemoteDied remote dr => cases remote <;> simp [handled, ht]
      | _ => exact ht
    · exact (handles_push_of_ne w s (e := .spawn tid call) htid).symm ▸ ht
  cases call with
  | getProxy =>
    cases hs
    exact h.imp id (Or.imp id hthread)
  | onRemoteDied died dr =>
    cases died with
    | none =>
      cases hs
      exact h.imp id (Or.imp id hthread)
    | some died =>
      simp only [linkAccept] at hs
      split at hs
      · cases hs
        rcases h with hrecipient | ⟨dr', hnotice⟩ | hhandles
        · exact .inl hrecipient
        · by_cases heq : (obj, dr') = (died, dr)
          · -- the notice has been given to this thread
            cases heq
            refine .inr (.inr ⟨tid, ?_⟩)
            rw [handles_spawn_self]
            exact List.mem_cons_self
          · exact .inr (.inl ⟨dr', (List.mem_erase_of_ne heq).mpr hnotice⟩)
        · exact .inr (.inr (hthread hhandles))
      · cases hs
  | die died =>
    simp only [linkAccept, dieAccept] at hs
    split at hs
    · cases hs
      rcases h with ⟨dr, hrecipient⟩ | ⟨dr, hnotice⟩ | hhandles
      · by_cases heq : obj = died
        · refine .inr (.inl ⟨dr, List.mem_append_right _ ?_⟩)
          exact List.mem_filter.mpr ⟨hrecipient, beq_iff_eq.mpr heq⟩
        · exact .inl ⟨dr, List.mem_filter.mpr ⟨hrecipient, bne_iff_ne.mpr heq⟩⟩
      · exact .inr (.inl ⟨dr, List.mem_append_left _ hnotice⟩)
      · exact .inr (.inr (hthread hhandles))
    · cases hs

theorem handles_perform_of_ne {t : Nat} (ht : tid ≠ t) :
    handles ((serviceLink cls remote).perform w tid o env) t = handles w t :=
  handles_push_of_ne _ _ ht

theorem handles_perform_self (ho : o ≠ .unlock) :
    handles ((serviceLink cls remote).perform w tid o env) tid = handles w tid := by
  have hpush := handles_push_self w (linkHandle remote tid o env w.state).2
    (.op tid o (linkHandle remote tid o env w.state).1)
  rw [Event.tid_op] at hpush
  refine hpush.trans ?_
  cases o <;> first | rfl | exact absurd rfl ho

theorem handles_perform_unlock :
    handles ((serviceLink cls remote).perform w tid .unlock env) tid = [] :=
  handles_push_self w _ (.op tid .unlock ())

theorem Watched.perform (h : Watched w obj) (hunlock : o = .unlock → obj ∉ handles w tid)
    (hremove : ∀ obj' dr, o = .removeDeathRecipient obj' dr → obj' ∈ handles w tid) :
    Watched ((serviceLink cls remote).perform w tid o env) obj := by
  have hthread (hhandles : ∃ t, obj ∈ handles w t) :
      ∃ t, obj ∈ handles ((serviceLink cls remote).perform w tid o env) t := by
    obtain ⟨t, ht⟩ := hhandles
    refine ⟨t, ?_⟩
    by_cases htid : tid = t
    · subst htid
      rw [handles_perform_self fun ho => hunlock ho ht]
      exact ht
    · rw [handles_perform_of_ne htid]
      exact ht
  by_cases hadd : ∃ obj' dr, o = .addDeathRecipient obj' dr
  · obtain ⟨obj', dr, rfl⟩ := hadd
    rcases h with ⟨dr', hrecipient⟩ | hnotice | hhandles
    · refine .inl ⟨dr', ?_⟩
      show (obj, dr') ∈
        (linkHandle remote tid (.addDeathRecipient obj' dr) env w.state).2.recipients
      simp only [linkHandle]
      split
      · exact hrecipient
      · exact List.mem_cons_of_mem _ hrecipient
    · refine .inr (.inl ?_)
      show ∃ dr', (obj, dr') ∈
        (linkHandle remote tid (.addDeathRecipient obj' dr) env w.state).2.notices
      simp only [linkHandle]
      split <;> exact hnotice
    · exact .inr (.inr (hthread hhandles))
  · by_cases hrem : ∃ obj' dr, o = .removeDeathRecipient obj' dr
    · obtain ⟨obj', dr, rfl⟩ := hrem
      rcases h with ⟨dr', hrecipient⟩ | hnotice | hhandles
      · by_cases heq : obj = obj'
        · subst heq
          exact .inr (.inr (hthread ⟨tid, hremove _ _ rfl⟩))
        · refine .inl ⟨dr', List.mem_filter.mpr ⟨hrecipient, ?_⟩⟩
          simp [heq]
      · exact .inr (.inl hnotice)
      · exact .inr (.inr (hthread hhandles))
    · -- nobody else touches the recipients
      have hsame : (linkHandle remote tid o env w.state).2.recipients = w.state.recipients ∧
          (linkHandle remote tid o env w.state).2.notices = w.state.notices := by
        cases o <;> first
          | exact ⟨rfl, rfl⟩
          | exact absurd ⟨_, _, rfl⟩ hadd
          | exact absurd ⟨_, _, rfl⟩ hrem
      rcases h with hrecipient | hnotice | hhandles
      · exact .inl (hsame.1 ▸ hrecipient)
      · exact .inr (.inl (hsame.2 ▸ hnotice))
      · exact .inr (.inr (hthread hhandles))

end Steps

/-! ## 2. What a thread knows -/

/-- What a thread that holds the mutex knows of the proxy. -/
inductive LinkKnows where
  | nothing
  | empty
  | watched (obj : RemoteObject)
  | cached (proxy : RemoteObject)
  deriving DecidableEq

/-- `role` is the object whose death the thread is handling. -/
inductive LinkView where
  | waits (role : Option RemoteObject)
  | holds (role : Option RemoteObject) (knows : LinkKnows)
  | done

/-- A thread that gives the mutex back does not leave the proxy that it was to drop. -/
def mayUnlock : Option RemoteObject → LinkKnows → Prop
  | none, _ => True
  | some _, .nothing => False
  | some obj, .cached proxy => proxy ≠ obj
  | some _, _ => True

def mayHold (role : Option RemoteObject) (knows : LinkKnows) : LinkOp → Prop
  | .lock => False
  | .unlock => mayUnlock role knows
  | .addDeathRecipient _ _ => knows = .empty
  | .setProxy (some proxy) => knows = .watched proxy
  | .setProxy none => (∃ obj, knows = .watched obj) ∨ ∃ obj, role = some obj ∧ knows = .cached obj
  | .removeDeathRecipient obj _ => role = some obj ∧ knows = .cached obj
  | _ => True

def LinkView.may : LinkView → LinkOp → Prop
  | .waits _, o => o = .lock
  | .holds role knows, o => mayHold role knows o
  | .done, _ => False

def ofProxy : Option RemoteObject → LinkKnows
  | none => .empty
  | some proxy => .cached proxy

/-- What a thread that holds the mutex knows after an answer. -/
def knowsNext (remote : RemoteObject → Bool) (knows : LinkKnows) :
    (o : LinkOp) → LinkRes o → Option LinkKnows
  | .proxy, r => some (ofProxy r)
  | .isProxyObject obj, r =>
    if r = remote obj then some (if knows = .empty ∧ r = false then .watched obj else knows)
    else none
  | .addDeathRecipient obj _, r => some (if r then .watched obj else knows)
  | .ifaceCast obj, r => if r = none ∨ r = some obj then some knows else none
  | .setProxy proxy, _ => some (ofProxy proxy)
  | .asObject proxy, r => if r = some proxy then some knows else none
  | .promote obj, r =>
    if r = some obj ∨ r = none ∧ knows ≠ .cached obj then some knows else none
  | _, _ => some knows

def LinkView.next (remote : RemoteObject → Bool) :
    LinkView → (o : LinkOp) → LinkRes o → Option LinkView
  | .waits role, .lock, _ => some (.holds role .nothing)
  | .holds _ _, .unlock, _ => some .done
  | .holds role knows, o, r => (knowsNext remote knows o r).map (.holds role)
  | v, _, _ => some v

def startView : LinkCall → LinkView
  | .getProxy => .waits none
  | .onRemoteDied (some obj) _ => .waits (some obj)
  | .onRemoteDied none _ | .die _ => .done

def linkTypestate (remote : RemoteObject → Bool) : Typestate LinkOp LinkRes LinkView where
  may := LinkView.may
  next := LinkView.next remote
  fact _ := True
  ends v := v = .done

section Programs

variable {cls : LinkClass} {remote : RemoteObject → Bool} {role : Option RemoteObject}
  {knows : LinkKnows} {α : Type}

/-- An operation under the mutex, with what it teaches. -/
theorem follows_op {o : LinkOp} {k : LinkRes o → LinkProg α} {Q : α → LinkView → Prop}
    (ho : o ≠ .unlock) (hmay : mayHold role knows o)
    (hk : ∀ r knows', knowsNext remote knows o r = some knows' →
      (linkTypestate remote).Follows Q (.holds role knows') (k r)) :
    (linkTypestate remote).Follows Q (.holds role knows) (.call o k) := by
  refine ⟨hmay, fun r v' hv' => ⟨trivial, ?_⟩⟩
  have hnext : (knowsNext remote knows o r).map (LinkView.holds role) = some v' := by
    rw [← hv']
    cases o <;> first | rfl | exact absurd rfl ho
  obtain ⟨knows', hknows, rfl⟩ := Option.map_eq_some_iff.mp hnext
  exact hk r knows' hknows

/-- The thread still holds the mutex, and may give it back. -/
def MayLeave (role : Option RemoteObject) : LinkView → Prop
  | .holds role' knows => role' = role ∧ mayUnlock role knows
  | _ => False

theorem linkUnderLock_eq (p : LinkProg α) : linkUnderLock p =
    .call .lock fun _ => p >>= fun a => .call .unlock fun _ => .ret a := rfl

theorem linkUnderLock_follows {p : LinkProg α} {Q : α → LinkView → Prop}
    (hp : (linkTypestate remote).Follows (fun _ => MayLeave role) (.holds role .nothing) p)
    (hQ : ∀ a, Q a .done) :
    (linkTypestate remote).Follows Q (.waits role) (linkUnderLock p) := by
  rw [linkUnderLock_eq]
  refine ⟨rfl, fun r v' hv' => ⟨trivial, ?_⟩⟩
  cases hv'
  refine Typestate.Follows.bind trivial hp fun a v _ hv => ?_
  cases v with
  | holds role' knows =>
    obtain ⟨rfl, hleave⟩ := hv
    refine ⟨hleave, fun r v' hv' => ⟨trivial, ?_⟩⟩
    cases hv'
    exact hQ a
  | waits | done => cases hv

/-- Once the object is watched, the proxy may be stored. -/
theorem store_follows (obj : RemoteObject) (dr : DeathRecipient) :
    (linkTypestate remote).Follows (fun (_ : Option RemoteObject) => MayLeave none)
      (.holds none (.watched obj)) (.call (.ifaceCast obj) fun proxy =>
        .call (.setProxy proxy) fun _ => .call (.setDeathRecipient (some dr)) fun _ =>
          .call .proxy .ret) := by
  refine follows_op nofun trivial fun proxy knows hknows => ?_
  have hproxy : (proxy = none ∨ proxy = some obj) ∧ knows = .watched obj := by
    simp only [knowsNext, Option.ite_none_right_eq_some, Option.some.injEq] at hknows
    exact ⟨hknows.1, hknows.2.symm⟩
  obtain ⟨hproxy, rfl⟩ := hproxy
  have hmay : mayHold none (.watched obj) (.setProxy proxy) := by
    rcases hproxy with rfl | rfl
    · exact .inl ⟨obj, rfl⟩
    · rfl
  refine follows_op nofun hmay fun _ knows hknows => ?_
  cases hknows
  refine follows_op nofun trivial fun _ knows hknows => ?_
  cases hknows
  refine follows_op nofun trivial fun proxy knows hknows => ?_
  exact ⟨rfl, trivial⟩

theorem connect_follows (obj : RemoteObject) :
    (linkTypestate remote).Follows (fun _ => MayLeave none) (.holds none .empty) (connect obj) := by
  refine follows_op nofun trivial fun dr knows hknows => ?_
  cases hknows
  refine follows_op nofun trivial fun r knows hknows => ?_
  cases r with
  | false =>
    -- a local service, which needs no recipient
    have hwatched : knows = .watched obj := by
      simp only [knowsNext, Option.ite_none_right_eq_some, Option.some.injEq] at hknows
      exact hknows.2.symm
    subst hwatched
    exact store_follows obj dr
  | true =>
    have hempty : knows = .empty := by
      simp only [knowsNext, Option.ite_none_right_eq_some, Option.some.injEq] at hknows
      exact hknows.2.symm
    subst hempty
    refine follows_op nofun rfl fun added knows hknows => ?_
    cases added with
    | false => exact ⟨rfl, trivial⟩
    | true =>
      cases hknows
      exact store_follows obj dr

theorem getProxyLocked_follows :
    (linkTypestate remote).Follows (fun _ => MayLeave none) (.holds none .nothing)
      (getProxyLocked cls) := by
  refine follows_op nofun trivial fun proxy knows hknows => ?_
  cases hknows
  cases proxy with
  | some proxy => exact ⟨rfl, trivial⟩
  | none =>
    refine follows_op nofun trivial fun sam knows hknows => ?_
    cases hknows
    cases sam with
    | false => exact ⟨rfl, trivial⟩
    | true =>
      refine follows_op nofun trivial fun obj knows hknows => ?_
      cases hknows
      cases obj with
      | none => exact ⟨rfl, trivial⟩
      | some obj => exact connect_follows obj

theorem dropProxy_eq (serviceRemote : RemoteObject) : dropProxy cls serviceRemote =
    .call .deathRecipient fun dr => .call (.removeDeathRecipient serviceRemote dr) fun _ =>
      .call (.setProxy none) fun _ =>
        if cls.dropsRecipient then Prog.op (LinkOp.setDeathRecipient none) else .ret () := rfl

theorem dropProxy_follows (obj : RemoteObject) :
    (linkTypestate remote).Follows (fun _ => MayLeave (some obj))
      (.holds (some obj) (.cached obj)) (dropProxy cls obj) := by
  rw [dropProxy_eq]
  refine follows_op nofun trivial fun dr knows hknows => ?_
  cases hknows
  refine follows_op nofun ⟨rfl, rfl⟩ fun _ knows hknows => ?_
  cases hknows
  refine follows_op nofun (.inr ⟨obj, rfl, rfl⟩) fun _ knows hknows => ?_
  cases hknows
  cases cls.dropsRecipient with
  | false => exact ⟨rfl, trivial⟩
  | true =>
    refine follows_op nofun trivial fun _ knows hknows => ?_
    cases hknows
    exact ⟨rfl, trivial⟩

theorem resetProxyLocked_follows (obj : RemoteObject) :
    (linkTypestate remote).Follows (fun _ => MayLeave (some obj)) (.holds (some obj) .nothing)
      (resetProxyLocked cls obj) := by
  refine follows_op nofun trivial fun proxy knows hknows => ?_
  cases hknows
  cases proxy with
  | none => exact ⟨rfl, trivial⟩
  | some proxy =>
    refine follows_op nofun trivial fun serviceRemote knows hknows => ?_
    have hsame : serviceRemote = some proxy ∧ knows = .cached proxy := by
      simp only [knowsNext, Option.ite_none_right_eq_some, Option.some.injEq] at hknows
      exact ⟨hknows.1, hknows.2.symm⟩
    obtain ⟨rfl, rfl⟩ := hsame
    refine follows_op nofun trivial fun promoted knows hknows => ?_
    simp only [knowsNext, Option.ite_none_right_eq_some, Option.some.injEq] at hknows
    obtain ⟨hpromoted, rfl⟩ := hknows
    show (linkTypestate remote).Follows _ _ (if promoted = some proxy then dropProxy cls proxy
      else .ret ())
    by_cases heq : promoted = some proxy
    · -- the proxy is the one of the dead service
      have hobj : proxy = obj := by
        rcases hpromoted with rfl | ⟨rfl, -⟩
        · exact (Option.some.inj heq).symm
        · cases heq
      subst hobj
      rw [if_pos heq]
      exact dropProxy_follows proxy
    · have hne : proxy ≠ obj := by
        rintro rfl
        rcases hpromoted with h | ⟨-, h⟩
        · exact heq h
        · exact h rfl
      rw [if_neg heq]
      exact ⟨rfl, hne⟩

theorem linkBody_follows (call : LinkCall) :
    (linkTypestate remote).Follows (fun _ v => v = .done) (startView call) (linkBody cls call) := by
  cases call with
  | getProxy =>
    refine Typestate.Follows.bind trivial
      (linkUnderLock_follows getProxyLocked_follows fun _ => rfl) fun _ v _ hv => ?_
    exact hv.symm
  | onRemoteDied died dr =>
    cases died with
    | none => rfl
    | some obj => exact linkUnderLock_follows (resetProxyLocked_follows obj) fun _ => rfl
  | die => rfl

end Programs

/-! ## 3. That it is true -/

/-- What the knowledge says of the proxy. -/
def Knows (remote : RemoteObject → Bool) (w : LinkWorld) : LinkKnows → Prop
  | .nothing => True
  | .empty => w.state.proxy = none
  | .watched obj => w.state.proxy = none ∧ (remote obj = true → Watched w obj)
  | .cached proxy => w.state.proxy = some proxy

def LinkTrue (remote : RemoteObject → Bool) (w : LinkWorld) (tid : Nat) : LinkView → Prop
  | .waits role => w.state.owner ≠ some tid ∧ handles w tid = role.toList ∧
      ∀ obj ∈ role, w.state.dead obj = true
  | .holds role knows => w.state.owner = some tid ∧ handles w tid = role.toList ∧
      (∀ obj ∈ role, w.state.dead obj = true) ∧ Knows remote w knows
  | .done => w.state.owner ≠ some tid ∧ handles w tid = []

structure LinkInv (remote : RemoteObject → Bool) (w : LinkWorld) : Prop where
  owner : ∀ tid, w.state.owner = some tid → ∃ e ∈ w.trace, e.tid = tid
  recipients : ∀ e ∈ w.state.recipients, w.state.dead e.1 = false
  notices : ∀ e ∈ w.state.notices, w.state.dead e.1 = true
  watched : ∀ obj, w.state.proxy = some obj → remote obj = true → Watched w obj

section Sound

variable {cls : LinkClass} {remote : RemoteObject → Bool} {w : LinkWorld} {tid t : Nat}
  {call : LinkCall} {s : LinkState} {o : LinkOp} {env : LinkEnv} {v : LinkView}

/-- What a call that starts leaves as it is. -/
structure AcceptKeeps (s s' : LinkState) : Prop where
  owner : s'.owner = s.owner
  proxy : s'.proxy = s.proxy
  dead : ∀ obj, s.dead obj = true → s'.dead obj = true
  recipients : (∀ e ∈ s.recipients, s.dead e.1 = false) → ∀ e ∈ s'.recipients, s'.dead e.1 = false
  notices : (∀ e ∈ s.notices, s.dead e.1 = true) → ∀ e ∈ s'.notices, s'.dead e.1 = true

theorem linkAccept_keeps {s s' : LinkState} (hs : linkAccept remote call s = some s') :
    AcceptKeeps s s' := by
  cases call with
  | getProxy =>
    cases hs
    exact ⟨rfl, rfl, fun _ h => h, fun h => h, fun h => h⟩
  | onRemoteDied died dr =>
    cases died with
    | none =>
      cases hs
      exact ⟨rfl, rfl, fun _ h => h, fun h => h, fun h => h⟩
    | some died =>
      simp only [linkAccept] at hs
      split at hs
      · cases hs
        exact ⟨rfl, rfl, fun _ h => h, fun h => h, fun h e he => h e (List.mem_of_mem_erase he)⟩
      · cases hs
  | die died =>
    simp only [linkAccept, dieAccept] at hs
    split at hs
    · cases hs
      have hself : Function.update s.dead died true died = true := Function.update_self ..
      have hother {obj : RemoteObject} (hne : obj ≠ died) :
          Function.update s.dead died true obj = s.dead obj := Function.update_of_ne hne ..
      refine ⟨rfl, rfl, fun obj h => ?_, fun h e he => ?_, fun h e he => ?_⟩
      · by_cases heq : obj = died
        · exact heq ▸ hself
        · exact (hother heq).trans h
      · obtain ⟨hmem, hne⟩ := List.mem_filter.mp he
        exact (hother (bne_iff_ne.mp hne)).trans (h e hmem)
      · rcases List.mem_append.mp he with hmem | hmem
        · by_cases heq : e.1 = died
          · exact heq ▸ hself
          · exact (hother heq).trans (h e hmem)
        · exact (beq_iff_eq.mp (List.mem_filter.mp hmem).2) ▸ hself
    · cases hs

theorem LinkInv.spawn (hinv : LinkInv remote w) (hs : linkAccept remote call w.state = some s) :
    LinkInv remote (w.push s (.spawn tid call)) := by
  have hkeeps := linkAccept_keeps hs
  refine ⟨fun t ht => ?_, hkeeps.recipients hinv.recipients, hkeeps.notices hinv.notices,
    fun obj hproxy hremote => ?_⟩
  · obtain ⟨e, he, rfl⟩ := hinv.owner t (hkeeps.owner ▸ ht)
    exact ⟨e, List.mem_append_left _ he, rfl⟩
  · exact (hinv.watched obj (hkeeps.proxy ▸ hproxy) hremote).spawn hs

theorem linkTrue_start (hinv : LinkInv remote w) (hfresh : w.Fresh tid)
    (hs : linkAccept remote call w.state = some s) :
    LinkTrue remote (w.push s (.spawn tid call)) tid (startView call) := by
  have hkeeps := linkAccept_keeps hs
  have howner : s.owner ≠ some tid := by
    rw [hkeeps.owner]
    intro howner
    obtain ⟨e, he, htid⟩ := hinv.owner tid howner
    exact absurd (hfresh e he) (by omega)
  have hhandles := handles_spawn_self w s tid call
  rw [handles_fresh hfresh] at hhandles
  cases call with
  | getProxy => exact ⟨howner, hhandles, fun obj hobj => nomatch hobj⟩
  | onRemoteDied died dr =>
    cases died with
    | none => exact ⟨howner, hhandles⟩
    | some died =>
      refine ⟨howner, hhandles, fun obj hobj => ?_⟩
      obtain rfl := Option.mem_some.mp hobj
      simp only [linkAccept] at hs
      split at hs
      · next hnotice => exact hkeeps.dead _ (hinv.notices _ hnotice)
      · cases hs
  | die => exact ⟨howner, hhandles⟩

theorem LinkTrue.spawn (h : LinkTrue remote w t v) (ht : t ≠ tid)
    (hs : linkAccept remote call w.state = some s) :
    LinkTrue remote (w.push s (.spawn tid call)) t v := by
  have hkeeps := linkAccept_keeps hs
  have hhandles := handles_push_of_ne w s (e := .spawn tid call) (Ne.symm ht)
  cases v with
  | waits role =>
    refine ⟨fun howner => h.1 (hkeeps.owner ▸ howner), hhandles.trans h.2.1, fun obj hobj => ?_⟩
    exact hkeeps.dead _ (h.2.2 obj hobj)
  | holds role knows =>
    refine ⟨hkeeps.owner.trans h.1, hhandles.trans h.2.1, fun obj hobj =>
      hkeeps.dead _ (h.2.2.1 obj hobj), ?_⟩
    have hknows := h.2.2.2
    cases knows with
    | nothing => trivial
    | empty => exact hkeeps.proxy.trans hknows
    | watched obj => exact ⟨hkeeps.proxy.trans hknows.1, fun hremote => (hknows.2 hremote).spawn hs⟩
    | cached proxy => exact hkeeps.proxy.trans hknows
  | done => exact ⟨fun howner => h.1 (hkeeps.owner ▸ howner), hhandles.trans h.2⟩

/-! ### An operation -/

theorem linkHandle_dead (s : LinkState) :
    (linkHandle remote tid o env s).2.dead = s.dead := by
  cases o with
  | addDeathRecipient obj dr =>
    simp only [linkHandle]
    split <;> rfl
  | _ => rfl

theorem linkHandle_notices (s : LinkState) :
    (linkHandle remote tid o env s).2.notices = s.notices := by
  cases o with
  | addDeathRecipient obj dr =>
    simp only [linkHandle]
    split <;> rfl
  | _ => rfl

theorem linkHandle_owner (hlock : o ≠ .lock) (hunlock : o ≠ .unlock) (s : LinkState) :
    (linkHandle remote tid o env s).2.owner = s.owner := by
  cases o with
  | lock => exact absurd rfl hlock
  | unlock => exact absurd rfl hunlock
  | addDeathRecipient obj dr =>
    simp only [linkHandle]
    split <;> rfl
  | _ => rfl

theorem linkHandle_proxy (ho : ∀ proxy, o ≠ .setProxy proxy) (s : LinkState) :
    (linkHandle remote tid o env s).2.proxy = s.proxy := by
  cases o with
  | setProxy proxy => exact absurd rfl (ho proxy)
  | addDeathRecipient obj dr =>
    simp only [linkHandle]
    split <;> rfl
  | _ => rfl

theorem linkHandle_recipients {s : LinkState} (h : ∀ e ∈ s.recipients, s.dead e.1 = false) :
    ∀ e ∈ (linkHandle remote tid o env s).2.recipients, s.dead e.1 = false := by
  cases o with
  | addDeathRecipient obj dr =>
    simp only [linkHandle]
    split
    · exact h
    · next hadded =>
      refine List.forall_mem_cons.mpr ⟨?_, h⟩
      rw [Bool.or_eq_true, not_or] at hadded
      exact Bool.eq_false_iff.mpr hadded.1
  | removeDeathRecipient obj dr => exact fun e he => h e (List.mem_filter.mp he).1
  | _ => exact h

variable {role : Option RemoteObject} {knows : LinkKnows}

/-- A thread that holds the mutex keeps every object watched, up to the one it drops. -/
theorem Watched.held {obj : RemoteObject} (h : Watched w obj)
    (hhandles : handles w tid = role.toList) (hmay : mayHold role knows o)
    (hunlock : o = .unlock → role ≠ some obj) :
    Watched ((serviceLink cls remote).perform w tid o env) obj := by
  refine h.perform (fun ho hmem => hunlock ho ?_) fun obj' dr ho => ?_
  · rw [hhandles, Option.mem_toList] at hmem
    exact hmem
  · subst ho
    rw [hhandles, hmay.1]
    exact List.mem_singleton_self _

theorem Knows.perform (h : Knows remote w knows) (hhandles : handles w tid = role.toList)
    (hmay : mayHold role knows o) (hproxy : ∀ proxy, o ≠ .setProxy proxy) (hunlock : o ≠ .unlock) :
    Knows remote ((serviceLink cls remote).perform w tid o env) knows := by
  have hsame : ((serviceLink cls remote).perform w tid o env).state.proxy = w.state.proxy :=
    linkHandle_proxy hproxy w.state
  cases knows with
  | nothing => trivial
  | empty => exact hsame.trans h
  | watched obj =>
    refine ⟨hsame.trans h.1, fun hremote => ?_⟩
    exact (h.2 hremote).held hhandles hmay fun ho => absurd ho hunlock
  | cached proxy => exact hsame.trans h

theorem knows_ofProxy {proxy : Option RemoteObject} (h : w.state.proxy = proxy) :
    Knows remote w (ofProxy proxy) := by
  cases proxy <;> exact h

/-- What the thread knows after its own operation. -/
theorem Knows.next (h : Knows remote w knows) (hhandles : handles w tid = role.toList)
    (hmay : mayHold role knows o) (hunlock : o ≠ .unlock) :
    ∃ knows', knowsNext remote knows o ((serviceLink cls remote).answer w tid o env) =
      some knows' ∧ Knows remote ((serviceLink cls remote).perform w tid o env) knows' := by
  have hkeeps (hproxy : ∀ proxy, o ≠ .setProxy proxy) :
      Knows remote ((serviceLink cls remote).perform w tid o env) knows :=
    h.perform hhandles hmay hproxy hunlock
  cases o with
  | lock => cases hmay
  | unlock => exact absurd rfl hunlock
  | proxy => exact ⟨_, rfl, knows_ofProxy rfl⟩
  | setProxy proxy => exact ⟨_, rfl, knows_ofProxy rfl⟩
  | isProxyObject obj =>
    refine ⟨_, if_pos rfl, ?_⟩
    split
    · next hlocal =>
      have hempty := hkeeps nofun
      rw [hlocal.1] at hempty
      exact ⟨hempty, fun hremote => Bool.noConfusion (hremote.symm.trans hlocal.2)⟩
    · exact hkeeps nofun
  | addDeathRecipient obj dr =>
    obtain rfl : knows = .empty := hmay
    by_cases hadded : (w.state.dead obj || !env.ok) = true
    · have hanswer : (serviceLink cls remote).answer w tid (.addDeathRecipient obj dr) env =
          false := congrArg Prod.fst (if_pos hadded)
      rw [hanswer]
      exact ⟨_, rfl, hkeeps nofun⟩
    · have hanswer : (serviceLink cls remote).answer w tid (.addDeathRecipient obj dr) env =
          true := congrArg Prod.fst (if_neg hadded)
      have hstate : ((serviceLink cls remote).perform w tid (.addDeathRecipient obj dr) env).state =
          { w.state with recipients := (obj, dr) :: w.state.recipients } :=
        congrArg Prod.snd (if_neg hadded)
      rw [hanswer]
      refine ⟨_, rfl, hkeeps nofun, fun _ => .inl ⟨dr, ?_⟩⟩
      rw [hstate]
      exact List.mem_cons_self
  | ifaceCast obj =>
    refine ⟨_, if_pos ?_, hkeeps nofun⟩
    show (if env.ok then some obj else none) = none ∨
      (if env.ok then some obj else none) = some obj
    cases env.ok
    · exact .inl rfl
    · exact .inr rfl
  | asObject proxy => exact ⟨_, if_pos rfl, hkeeps nofun⟩
  | promote obj =>
    refine ⟨_, if_pos ?_, hkeeps nofun⟩
    show (if w.state.proxy = some obj || env.ok then some obj else none) = some obj ∨
      (if w.state.proxy = some obj || env.ok then some obj else none) = none ∧ _
    split
    · exact .inl rfl
    · next hgone =>
      refine .inr ⟨rfl, ?_⟩
      rintro rfl
      exact hgone (by rw [show w.state.proxy = some obj from h]; simp)
  | getSystemAbilityManager | checkSystemAbility | newDeathRecipient | deathRecipient
  | setDeathRecipient | removeDeathRecipient => exact ⟨_, rfl, hkeeps nofun⟩

/-- Only the thread that holds the mutex touches the proxy, and it knows what it does. -/
theorem LinkTrue.watched (hinv : LinkInv remote w) (htrue : LinkTrue remote w tid v)
    (hmay : v.may o) {obj : RemoteObject}
    (hproxy : ((serviceLink cls remote).perform w tid o env).state.proxy = some obj)
    (hremote : remote obj = true) : Watched ((serviceLink cls remote).perform w tid o env) obj := by
  cases v with
  | waits role =>
    obtain rfl : o = .lock := hmay
    exact (hinv.watched obj hproxy hremote).perform nofun nofun
  | done => cases hmay
  | holds role knows =>
    obtain ⟨-, hhandles, -, hknows⟩ := htrue
    by_cases hset : ∃ proxy, o = .setProxy proxy
    · obtain ⟨proxy, rfl⟩ := hset
      have hstored : proxy = some obj := hproxy
      subst hstored
      have hwatched : knows = .watched obj := hmay
      subst hwatched
      exact (hknows.2 hremote).held hhandles hmay nofun
    · have hbefore : w.state.proxy = some obj :=
        (linkHandle_proxy (fun proxy ho => hset ⟨proxy, ho⟩) w.state).symm.trans hproxy
      refine (hinv.watched obj hbefore hremote).held hhandles hmay fun ho hrole => ?_
      -- the thread has made sure that the proxy is not the one it was to drop
      subst ho hrole
      cases knows with
      | nothing => exact hmay
      | empty => exact absurd (hbefore.symm.trans hknows) (Option.some_ne_none obj)
      | watched => exact absurd (hbefore.symm.trans hknows.1) (Option.some_ne_none obj)
      | cached proxy => exact hmay (Option.some.inj (hknows.symm.trans hbefore))

theorem LinkInv.perform (hinv : LinkInv remote w) (htrue : LinkTrue remote w tid v)
    (hmay : v.may o) : LinkInv remote ((serviceLink cls remote).perform w tid o env) := by
  have hdead : ((serviceLink cls remote).perform w tid o env).state.dead = w.state.dead :=
    linkHandle_dead w.state
  refine ⟨fun t ht => ?_, fun e he => ?_, fun e he => ?_, fun obj hproxy hremote =>
    htrue.watched hinv hmay hproxy hremote⟩
  · by_cases hlock : o = .lock
    · subst hlock
      obtain rfl : tid = t := Option.some.inj ht
      exact ⟨_, List.mem_append_right _ (List.mem_singleton_self _), rfl⟩
    · by_cases hunlock : o = .unlock
      · subst hunlock
        cases ht
      · have hsame : ((serviceLink cls remote).perform w tid o env).state.owner = w.state.owner :=
          linkHandle_owner hlock hunlock w.state
        obtain ⟨e, he, htid⟩ := hinv.owner t (hsame ▸ ht)
        exact ⟨e, List.mem_append_left _ he, htid⟩
  · rw [hdead]
    exact linkHandle_recipients hinv.recipients e he
  · have hnotices : ((serviceLink cls remote).perform w tid o env).state.notices =
        w.state.notices := linkHandle_notices w.state
    rw [hdead]
    exact hinv.notices e (hnotices ▸ he)

theorem LinkTrue.own (htrue : LinkTrue remote w tid v) (hmay : v.may o) :
    ∃ v', v.next remote o ((serviceLink cls remote).answer w tid o env) = some v' ∧
      LinkTrue remote ((serviceLink cls remote).perform w tid o env) tid v' := by
  have hdead : ((serviceLink cls remote).perform w tid o env).state.dead = w.state.dead :=
    linkHandle_dead w.state
  cases v with
  | waits role =>
    obtain rfl : o = .lock := hmay
    obtain ⟨-, hhandles, hrole⟩ := htrue
    have hkeeps : handles ((serviceLink cls remote).perform w tid .lock env) tid = handles w tid :=
      handles_perform_self nofun
    exact ⟨_, rfl, rfl, hkeeps.trans hhandles, hrole, trivial⟩
  | done => cases hmay
  | holds role knows =>
    obtain ⟨howner, hhandles, hrole, hknows⟩ := htrue
    by_cases hunlock : o = .unlock
    · subst hunlock
      exact ⟨.done, rfl, nofun, handles_perform_unlock⟩
    · obtain ⟨knows', hnext, hknows'⟩ := hknows.next hhandles hmay hunlock
      have hlock : o ≠ .lock := by
        rintro rfl
        exact hmay
      refine ⟨.holds role knows', ?_, (linkHandle_owner hlock hunlock w.state).trans howner,
        (handles_perform_self hunlock).trans hhandles, fun obj hobj => ?_, hknows'⟩
      · have hholds : (LinkView.holds role knows).next remote o
            ((serviceLink cls remote).answer w tid o env) =
              (knowsNext remote knows o ((serviceLink cls remote).answer w tid o env)).map
                (LinkView.holds role) := by
          cases o <;> first | rfl | exact absurd rfl hunlock
        rw [hholds, hnext]
        rfl
      · rw [hdead]
        exact hrole obj hobj

/-- What a thread knows stays true while another one makes a step. -/
theorem LinkTrue.other {u : LinkView} (ht : t ≠ tid) (hu : LinkTrue remote w t u)
    (htrue : LinkTrue remote w tid v) (hmay : v.may o)
    (hen : linkEnabled o w.state = true) :
    LinkTrue remote ((serviceLink cls remote).perform w tid o env) t u := by
  have hdead : ((serviceLink cls remote).perform w tid o env).state.dead = w.state.dead :=
    linkHandle_dead w.state
  have hhandles : handles ((serviceLink cls remote).perform w tid o env) t = handles w t :=
    handles_perform_of_ne (Ne.symm ht)
  -- the mutex does not come to `t`
  have howner (h : w.state.owner ≠ some t) :
      ((serviceLink cls remote).perform w tid o env).state.owner ≠ some t := by
    by_cases hlock : o = .lock
    · subst hlock
      exact fun h' => ht (Option.some.inj h').symm
    · by_cases hunlock : o = .unlock
      · subst hunlock
        exact nofun
      · rw [show ((serviceLink cls remote).perform w tid o env).state.owner = w.state.owner from
          linkHandle_owner hlock hunlock w.state]
        exact h
  cases u with
  | waits role =>
    refine ⟨howner hu.1, hhandles.trans hu.2.1, fun obj hobj => ?_⟩
    rw [hdead]
    exact hu.2.2 obj hobj
  | done => exact ⟨howner hu.1, hhandles.trans hu.2⟩
  | holds role knows =>
    -- `t` holds the mutex, so the other thread could only take it
    cases v with
    | waits =>
      obtain rfl : o = .lock := hmay
      rw [linkEnabled, hu.1] at hen
      cases hen
    | holds => exact absurd (Option.some.inj (hu.1.symm.trans htrue.1)) ht
    | done => cases hmay

theorem linkTypestate_sound :
    (linkTypestate remote).Sound (serviceLink cls remote) Machine.anyMove (LinkInv remote)
      (LinkTrue remote) where
  start hinv hfresh _ hs :=
    ⟨hinv.spawn hs, _, linkTrue_start hinv hfresh hs, trivial, linkBody_follows _⟩
  spawn hlink ht hs := hlink.spawn ht hs
  own hinv hlink _ hmay _ _ := ⟨hinv.perform hlink hmay, hlink.own hmay⟩
  other ht hu hv _ _ hmay hen := hu.other ht hv hmay hen

theorem linkInv_initial : LinkInv remote ⟨{}, []⟩ :=
  ⟨nofun, nofun, nofun, nofun⟩

end Sound

/-! ## 4. Runs -/

section Runs

variable {cls : LinkClass} {remote : RemoteObject → Bool} {c c' : LinkConfig}
  {obj : RemoteObject}

/-- A thread that handles a death has been told of it. -/
theorem spawn_of_handles {w : LinkWorld} {tid : Nat} (h : obj ∈ handles w tid) :
    ∃ dr, .spawn tid (.onRemoteDied (some obj) dr) ∈ w.trace := by
  have hown : ∀ es : List LinkEvent, (∀ e ∈ es, e.tid = tid) → ∀ objs : List RemoteObject,
      obj ∈ es.foldl (fun objs e => handled e objs) objs →
      obj ∈ objs ∨ ∃ dr, .spawn tid (.onRemoteDied (some obj) dr) ∈ es := by
    intro es
    induction es with
    | nil => exact fun _ _ hmem => .inl hmem
    | cons e es ih =>
      intro htid objs hmem
      rcases ih (fun e he => htid e (List.mem_cons_of_mem _ he)) _ hmem with hmem | ⟨dr, hdr⟩
      · have he := htid e List.mem_cons_self
        cases e with
        | spawn t call =>
          obtain rfl : t = tid := he
          cases call with
          | onRemoteDied died dr =>
            cases died with
            | none => exact .inl hmem
            | some died =>
              rcases List.mem_cons.mp hmem with rfl | hmem
              · exact .inr ⟨dr, List.mem_cons_self⟩
              · exact .inl hmem
          | _ => exact .inl hmem
        | op t o r =>
          cases o with
          | unlock => cases hmem
          | _ => exact .inl hmem
      · exact .inr ⟨dr, List.mem_cons_of_mem _ hdr⟩
  rcases hown (w.own tid) (fun e he => (World.mem_own.mp he).2) [] h with hmem | ⟨dr, hdr⟩
  · cases hmem
  · exact ⟨dr, (World.mem_own.mp hdr).1⟩

/-- Whoever is to drop the proxy of a dead service is on its way: a recipient has to be told of the
death, or a thread has been told of it and has not returned. -/
def DropPending (c : LinkConfig) (obj : RemoteObject) : Prop :=
  (∃ dr, (obj, dr) ∈ c.world.state.notices) ∨
    ∃ tid dr p, .spawn tid (.onRemoteDied (some obj) dr) ∈ c.world.trace ∧
      c.threads[tid]? = some p ∧ p ≠ .ret ()

/-- **No death is missed.**  Whatever the threads do, a proxy of a service that has died is not
kept: as long as it is there, whoever is to drop it is on its way. -/
theorem dead_dropped (hc : (serviceLink cls remote).Reachable Machine.anyMove {} c)
    (hproxy : c.world.state.proxy = some obj) (hremote : remote obj = true)
    (hdead : c.world.state.dead obj = true) : DropPending c obj := by
  obtain ⟨hinv, hthreads⟩ := linkTypestate_sound.reachable linkInv_initial hc
  rcases hinv.watched obj hproxy hremote with ⟨dr, hdr⟩ | hnotice | ⟨tid, htid⟩
  · have halive := hinv.recipients _ hdr
    rw [hdead] at halive
    cases halive
  · exact .inl hnotice
  · obtain ⟨dr, hspawn⟩ := spawn_of_handles htid
    have hlt : tid < c.threads.length := hc.fresh _ hspawn
    refine .inr ⟨tid, dr, c.threads[tid], hspawn, List.getElem?_eq_getElem hlt, fun hret => ?_⟩
    -- a thread that has returned handles nothing
    obtain ⟨v, htrue, -, hfollows⟩ := hthreads tid _ (List.getElem?_eq_getElem hlt)
    rw [hret] at hfollows
    obtain rfl : v = .done := hfollows
    rw [htrue.2] at htid
    cases htid

theorem LinkTrue.dead_of_setProxy {w : LinkWorld} {tid : Nat} {v : LinkView}
    {proxy : Option RemoteObject} (htrue : LinkTrue remote w tid v) (hmay : v.may (.setProxy proxy))
    (hproxy : w.state.proxy = some obj) (hchange : proxy ≠ some obj) :
    w.state.dead obj = true := by
  cases v with
  | waits => cases hmay
  | done => cases hmay
  | holds role knows =>
    obtain ⟨-, -, hrole, hknows⟩ := htrue
    have hnone {obj' : RemoteObject} (h : knows = .watched obj') : False := by
      subst h
      exact absurd (hproxy.symm.trans hknows.1) (Option.some_ne_none obj)
    cases proxy with
    | some proxy => exact (hnone hmay).elim
    | none =>
      rcases hmay with ⟨obj', hwatched⟩ | ⟨obj', rfl, rfl⟩
      · exact (hnone hwatched).elim
      · obtain rfl : obj' = obj := Option.some.inj (hknows.symm.trans hproxy)
        exact hrole obj' rfl

/-- **Nobody drops a proxy of a living service.**  A proxy that is dropped or replaced in a step was
that of a service that had died; a late notice of an earlier service leaves it alone. -/
theorem living_kept (hc : (serviceLink cls remote).Reachable Machine.anyMove {} c)
    {l : Machine.Label LinkEnv LinkCall}
    (hstep : (serviceLink cls remote).step Machine.anyMove c l = some c')
    (hproxy : c.world.state.proxy = some obj) (hchange : c'.world.state.proxy ≠ some obj) :
    c.world.state.dead obj = true := by
  cases l with
  | spawn call =>
    simp only [Machine.step] at hstep
    split at hstep
    · obtain ⟨s, hs, rfl⟩ := Option.map_eq_some_iff.mp hstep
      exact absurd ((linkAccept_keeps hs).proxy.trans hproxy) hchange
    · cases hstep
  | run tid env =>
    simp only [Machine.step] at hstep
    split at hstep
    · next o k ht =>
      split at hstep
      · cases hstep
        obtain ⟨v, htrue, -, hmay, -⟩ :=
          (linkTypestate_sound.reachable linkInv_initial hc).2 tid _ ht
        by_cases hset : ∃ proxy, o = .setProxy proxy
        · obtain ⟨proxy, rfl⟩ := hset
          exact htrue.dead_of_setProxy hmay hproxy hchange
        · refine absurd (Eq.trans ?_ hproxy) hchange
          exact linkHandle_proxy (fun proxy ho => hset ⟨proxy, ho⟩) c.world.state
      · cases hstep
    · cases hstep

/-! ### Coming to rest -/

/-- A thread goes on, or a recipient is told of a death. -/
def Settling : Machine.Label LinkEnv LinkCall → Prop
  | .run .. => True
  | .spawn (.onRemoteDied (some _) _) => True
  | .spawn _ => False

def SettleStep (cls : LinkClass) (remote : RemoteObject → Bool) (c c' : LinkConfig) : Prop :=
  ∃ l, Settling l ∧ (serviceLink cls remote).step Machine.anyMove c l = some c'

abbrev Settles (cls : LinkClass) (remote : RemoteObject → Bool) :=
  Relation.ReflTransGen (SettleStep cls remote)

theorem Settles.reachable (h : Settles cls remote c c')
    (hc : (serviceLink cls remote).Reachable Machine.anyMove {} c) :
    (serviceLink cls remote).Reachable Machine.anyMove {} c' := by
  induction h with
  | refl => exact hc
  | tail _ hstep ih =>
    obtain ⟨l, -, hl⟩ := hstep
    exact ih.step hl

/-- Every thread has returned, and every recipient has been told. -/
structure Resting (c : LinkConfig) : Prop where
  threads : ∀ p ∈ c.threads, p = .ret ()
  notices : c.world.state.notices = []

theorem settleStep_run {tid : Nat} {o : LinkOp} {k : LinkRes o → LinkProg Unit}
    (ht : c.threads[tid]? = some (.call o k)) (hen : linkEnabled o c.world.state = true) :
    SettleStep cls remote c ⟨(serviceLink cls remote).perform c.world tid o {},
      c.threads.set tid (k ((serviceLink cls remote).answer c.world tid o {}))⟩ := by
  refine ⟨.run tid {}, trivial, ?_⟩
  simp only [Machine.step, ht]
  exact if_pos ⟨trivial, hen⟩

theorem settleStep_told {dr : DeathRecipient} {s : LinkState}
    (hs : linkAccept remote (.onRemoteDied (some obj) dr) c.world.state = some s) :
    SettleStep cls remote c
      ⟨c.world.push s (.spawn c.threads.length (.onRemoteDied (some obj) dr)),
        c.threads ++ [onRemoteDied cls (some obj)]⟩ := by
  refine ⟨.spawn (.onRemoteDied (some obj) dr), trivial, ?_⟩
  have hok : Machine.anyMove c.world (Move.spawn c.threads.length (.onRemoteDied (some obj) dr) :
    Move LinkOp LinkEnv LinkCall) := trivial
  rw [Machine.step, if_pos hok]
  exact congrArg (Option.map _) hs

/-- The mutex stays with a thread, or is free, after an operation of the thread. -/
theorem owner_perform {w : LinkWorld} {tid : Nat} {o : LinkOp} {env : LinkEnv}
    (howner : w.state.owner = none ∨ w.state.owner = some tid) :
    ((serviceLink cls remote).perform w tid o env).state.owner = none ∨
      ((serviceLink cls remote).perform w tid o env).state.owner = some tid := by
  by_cases hlock : o = .lock
  · subst hlock
    exact .inr rfl
  · by_cases hunlock : o = .unlock
    · subst hunlock
      exact .inl rfl
    · rw [show ((serviceLink cls remote).perform w tid o env).state.owner = w.state.owner from
        linkHandle_owner hlock hunlock w.state]
      exact howner

/-- A thread that finds the mutex free, or holds it, can go on up to its end. -/
theorem settles_thread {tid : Nat} {p : LinkProg Unit}
    (hc : (serviceLink cls remote).Reachable Machine.anyMove {} c)
    (ht : c.threads[tid]? = some p)
    (howner : c.world.state.owner = none ∨ c.world.state.owner = some tid) :
    ∃ c', Settles cls remote c c' ∧ c'.threads = c.threads.set tid (.ret ()) ∧
      c'.world.state.owner = none ∧ c'.world.state.notices = c.world.state.notices := by
  induction p generalizing c with
  | ret =>
    obtain ⟨v, htrue, -, hfollows⟩ := (linkTypestate_sound.reachable linkInv_initial hc).2 tid _ ht
    obtain rfl : v = .done := hfollows
    refine ⟨c, .refl, ?_, howner.resolve_right htrue.1, rfl⟩
    obtain ⟨hlt, hret⟩ := List.getElem?_eq_some_iff.mp ht
    exact (hret ▸ List.set_getElem_self hlt).symm
  | call o k ih =>
    obtain ⟨v, htrue, -, hmay, -⟩ :=
      (linkTypestate_sound.reachable linkInv_initial hc).2 tid _ ht
    have hen : linkEnabled o c.world.state = true := by
      cases v with
      | waits =>
        obtain rfl : o = .lock := hmay
        rw [linkEnabled, howner.resolve_right htrue.1]
        rfl
      | holds => cases o <;> first | rfl | cases hmay
      | done => cases hmay
    have hstep : SettleStep cls remote c _ := settleStep_run ht hen
    have hlt := (List.getElem?_eq_some_iff.mp ht).1
    obtain ⟨c', hsettles, hthreads, hfree, hnotices⟩ := ih _
      (Settles.reachable (.single hstep) hc) (List.getElem?_set_self hlt) (owner_perform howner)
    refine ⟨c', .head hstep hsettles, ?_, hfree, hnotices.trans (linkHandle_notices _)⟩
    rw [hthreads, List.set_set]

/-- The thread that holds the mutex gives it back. -/
theorem settles_free (hc : (serviceLink cls remote).Reachable Machine.anyMove {} c) :
    ∃ c', Settles cls remote c c' ∧ c'.world.state.owner = none ∧
      c'.threads.length = c.threads.length ∧
      c'.world.state.notices = c.world.state.notices := by
  cases howner : c.world.state.owner with
  | none => exact ⟨c, .refl, howner, rfl, rfl⟩
  | some tid =>
    obtain ⟨e, he, rfl⟩ :=
      (linkTypestate_sound.reachable linkInv_initial hc).1.owner tid howner
    have ht := List.getElem?_eq_getElem (hc.fresh e he)
    obtain ⟨c', hsettles, hthreads, hfree, hnotices⟩ := settles_thread hc ht (.inr howner)
    refine ⟨c', hsettles, hfree, ?_, hnotices⟩
    rw [hthreads, List.length_set]

/-- One thread after the other comes to its end. -/
theorem settles_threads (hc : (serviceLink cls remote).Reachable Machine.anyMove {} c)
    (hfree : c.world.state.owner = none) (n : Nat) (hn : n ≤ c.threads.length) :
    ∃ c', Settles cls remote c c' ∧ c'.world.state.owner = none ∧
      c'.threads.length = c.threads.length ∧ (∀ i < n, c'.threads[i]? = some (.ret ())) ∧
      c'.world.state.notices = c.world.state.notices := by
  induction n with
  | zero => exact ⟨c, .refl, hfree, rfl, nofun, rfl⟩
  | succ n ih =>
    obtain ⟨c₁, hsettles₁, hfree₁, hlength₁, hreturned₁, hnotices₁⟩ := ih (Nat.le_of_succ_le hn)
    have hlt : n < c₁.threads.length := by omega
    obtain ⟨c₂, hsettles₂, hthreads₂, hfree₂, hnotices₂⟩ := settles_thread
      (hsettles₁.reachable hc) (List.getElem?_eq_getElem hlt) (.inl hfree₁)
    refine ⟨c₂, hsettles₁.trans hsettles₂, hfree₂, ?_, fun i hi => ?_, hnotices₂.trans hnotices₁⟩
    · rw [hthreads₂, List.length_set, hlength₁]
    · rw [hthreads₂]
      by_cases heq : n = i
      · subst heq
        exact List.getElem?_set_self hlt
      · rw [List.getElem?_set_ne heq]
        exact hreturned₁ i (by omega)

theorem forall_returned {ps : List (LinkProg Unit)}
    (h : ∀ i < ps.length, ps[i]? = some (.ret ())) : ∀ p ∈ ps, p = .ret () := by
  intro p hp
  obtain ⟨i, hi, rfl⟩ := List.mem_iff_getElem.mp hp
  exact Option.some.inj ((List.getElem?_eq_getElem hi).symm.trans (h i hi))

/-- The recipients are told one after the other. -/
theorem settles_notices (notices : List (RemoteObject × DeathRecipient))
    (hc : (serviceLink cls remote).Reachable Machine.anyMove {} c)
    (hfree : c.world.state.owner = none) (hthreads : ∀ p ∈ c.threads, p = .ret ())
    (hnotices : c.world.state.notices = notices) :
    ∃ c', Settles cls remote c c' ∧ Resting c' := by
  induction notices generalizing c with
  | nil => exact ⟨c, .refl, hthreads, hnotices⟩
  | cons notice notices ih =>
    obtain ⟨obj, dr⟩ := notice
    let s : LinkState := { c.world.state with
      notices := c.world.state.notices.erase (obj, dr) }
    let c₁ : LinkConfig := ⟨c.world.push s (.spawn c.threads.length (.onRemoteDied (some obj) dr)),
      c.threads ++ [onRemoteDied cls (some obj)]⟩
    have hmem : (obj, dr) ∈ c.world.state.notices := by
      rw [hnotices]
      exact List.mem_cons_self
    have hstep : SettleStep cls remote c c₁ := settleStep_told (if_pos hmem)
    have hlast : c₁.threads[c.threads.length]? = some (onRemoteDied cls (some obj)) :=
      List.getElem?_concat_length ..
    obtain ⟨c₂, hsettles, hthreads₂, hfree₂, hnotices₂⟩ :=
      settles_thread (Settles.reachable (.single hstep) hc) hlast (.inl hfree)
    have hrest : c₂.world.state.notices = notices := by
      rw [hnotices₂]
      show c.world.state.notices.erase (obj, dr) = notices
      rw [hnotices, List.erase_cons_head]
    have hreturned : ∀ p ∈ c₂.threads, p = .ret () := by
      rw [hthreads₂, show c₁.threads = c.threads ++ [onRemoteDied cls (some obj)] from rfl,
        List.set_append_right _ _ (Nat.le_refl _), Nat.sub_self, List.set_cons_zero]
      intro p hp
      rcases List.mem_append.mp hp with hp | hp
      · exact hthreads p hp
      · exact List.mem_singleton.mp hp
    obtain ⟨c₃, hsettles₃, hresting⟩ := ih
      (hsettles.reachable (Settles.reachable (.single hstep) hc)) hfree₂ hreturned hrest
    exact ⟨c₃, (Relation.ReflTransGen.head hstep hsettles).trans hsettles₃, hresting⟩

/-- **The link recovers.**  Whatever has happened, the threads can go on and the recipients be told
until all is at rest, and at rest no proxy of a service that has died is left. -/
theorem link_recovers (hc : (serviceLink cls remote).Reachable Machine.anyMove {} c) :
    (∃ c', Settles cls remote c c' ∧ Resting c') ∧
      (Resting c → ∀ obj, c.world.state.proxy = some obj → remote obj = true →
        c.world.state.dead obj = false) := by
  refine ⟨?_, fun hresting obj hproxy hremote => ?_⟩
  · obtain ⟨c₁, hsettles₁, hfree₁, -, -⟩ := settles_free hc
    obtain ⟨c₂, hsettles₂, hfree₂, hlength₂, hreturned₂, -⟩ :=
      settles_threads (hsettles₁.reachable hc) hfree₁ c₁.threads.length (Nat.le_refl _)
    obtain ⟨c₃, hsettles₃, hresting⟩ := settles_notices _
      (hsettles₂.reachable (hsettles₁.reachable hc)) hfree₂
      (forall_returned fun i hi => hreturned₂ i (hlength₂ ▸ hi)) rfl
    exact ⟨c₃, (hsettles₁.trans hsettles₂).trans hsettles₃, hresting⟩
  · cases hdead : c.world.state.dead obj with
    | false => rfl
    | true =>
      rcases dead_dropped hc hproxy hremote hdead with ⟨dr, hnotice⟩ | ⟨tid, dr, p, -, hp, hne⟩
      · rw [hresting.notices] at hnotice
        cases hnotice
      · exact absurd (hresting.threads p (List.mem_of_getElem? hp)) hne

/-- `GetProxy` has connected to service 7, and the service has died. -/
def connectedThenDead : List (Machine.Label LinkEnv LinkCall) :=
  .spawn .getProxy :: List.replicate 12 (.run 0 { obj := some 7 }) ++ [.spawn (.die 7)]

theorem link_recovers_connected : ∃ c : LinkConfig, c.world.state.proxy = some 7 ∧
    c.world.state.dead 7 = true ∧
    (∃ c', Settles userAuthNative (fun _ => true) c c' ∧ Resting c') ∧
      (Resting c → ∀ obj, c.world.state.proxy = some obj → true = true →
        c.world.state.dead obj = false) := by
  have hrun : (((serviceLink userAuthNative fun _ => true).exec Machine.anyMove ⟨⟨{}, []⟩, []⟩
      connectedThenDead).map fun c => (c.world.state.proxy, c.world.state.dead 7)) =
        some (some 7, true) := by
    decide +kernel
  obtain ⟨c, hc, hstate⟩ := Option.map_eq_some_iff.mp hrun
  obtain ⟨hproxy, hdead⟩ := Prod.mk.inj hstate
  exact ⟨c, hproxy, hdead, link_recovers (Machine.Reachable.init.exec hc)⟩

/-- The recipient is told of the death, and its thread is about to drop the proxy. -/
def aboutToDrop : List (Machine.Label LinkEnv LinkCall) :=
  connectedThenDead ++ .spawn (.onRemoteDied (some 7) 0) :: List.replicate 6 (.run 2 {})

theorem living_kept_dropped : ∃ (c c' : LinkConfig),
    (serviceLink userAuthNative fun _ => true).step Machine.anyMove c (.run 2 {}) = some c' ∧
      c.world.state.proxy = some 7 ∧ c'.world.state.proxy = none ∧
      c.world.state.dead 7 = true := by
  have hrun : (((serviceLink userAuthNative fun _ => true).exec Machine.anyMove ⟨⟨{}, []⟩, []⟩
      aboutToDrop).bind fun c => ((serviceLink userAuthNative fun _ => true).step Machine.anyMove c
        (.run 2 {})).map fun c' => (c.world.state.proxy, c'.world.state.proxy)) =
          some (some 7, none) := by
    decide +kernel
  obtain ⟨c, hc, hnext⟩ := Option.bind_eq_some_iff.mp hrun
  obtain ⟨c', hstep, hproxies⟩ := Option.map_eq_some_iff.mp hnext
  obtain ⟨hproxy, hdropped⟩ := Prod.mk.inj hproxies
  refine ⟨c, c', hstep, hproxy, hdropped,
    living_kept (Machine.Reachable.init.exec hc) hstep hproxy fun h => ?_⟩
  rw [hdropped] at h
  cases h

end Runs

end UserIam.Common
