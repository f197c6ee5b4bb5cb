import UserIam.Ipc.Parcel

/-!
# Records in a parcel

A record is a few values that are written one after the other.  Its reader takes them out again and
fails where one is missing; a loop of such readers keeps the records that were complete.
-/

namespace Ipc

/-! ## 1. Reads that may fail -/

/-- A parcel whose reads also come in a form that tells whether there was a value.  After such a
read has failed the parcel is not used any more. -/
structure CheckedApi (P Kind : Type) (Value : Kind → Type) extends ParcelApi P Kind Value where
  tryRead : (kind : Kind) → StateT P Option (Value kind)

section Records

variable {P Kind : Type} {Value : Kind → Type}

/-- A read finds the next value, and none past the end. -/
structure CheckedApi.Lawful (api : CheckedApi P Kind Value)
    (contents : P → List (ParcelApi.Item Kind Value)) : Prop
    extends api.toParcelApi.Lawful contents where
  tryRead : ∀ {p kind v rest}, contents p = ⟨kind, v⟩ :: rest →
    ∃ p', (api.tryRead kind).run p = some (v, p') ∧ contents p' = rest
  past_end : ∀ {p} kind, contents p = [] → (api.tryRead kind).run p = none

variable {contents : P → List (ParcelApi.Item Kind Value)} {α β : Type}

/-! ## 2. One record -/

/-- The reader takes these values for `a`, and fails on some of them. -/
structure Reads (contents : P → List (ParcelApi.Item Kind Value)) (read : StateT P Option α)
    (items : List (ParcelApi.Item Kind Value)) (a : α) : Prop where
  complete : ∀ {p rest}, contents p = items ++ rest →
    ∃ p', read.run p = some (a, p') ∧ contents p' = rest
  cut : ∀ {p}, contents p <+: items → contents p ≠ items → read.run p = none

theorem reads_pure (a : α) : Reads contents (pure a) [] a where
  complete hp := ⟨_, rfl, hp⟩
  cut hp hne := absurd (List.prefix_nil.mp hp) hne

theorem CheckedApi.Lawful.reads {api : CheckedApi P Kind Value} (h : api.Lawful contents)
    (kind : Kind) (v : Value kind) : Reads contents (api.tryRead kind) [⟨kind, v⟩] v where
  complete hp := h.tryRead hp
  cut hp hne := by
    refine h.past_end kind ?_
    rcases List.prefix_cons_iff.mp hp with hnil | ⟨rest, hrest, hprefix⟩
    · exact hnil
    · rw [List.prefix_nil.mp hprefix] at hrest
      exact absurd hrest hne

/-- A cut through two pieces goes through the first one, or leaves it whole. -/
theorem cut_append {γ : Type} {cut as bs : List γ} (h : cut <+: as ++ bs) :
    (cut <+: as ∧ cut ≠ as) ∨ ∃ rest, cut = as ++ rest ∧ rest <+: bs := by
  rcases List.prefix_or_prefix_of_prefix h (List.prefix_append as bs) with hcut | ⟨rest, rfl⟩
  · by_cases heq : cut = as
    · subst heq
      exact .inr ⟨[], (List.append_nil _).symm, List.nil_prefix⟩
    · exact .inl ⟨hcut, heq⟩
  · exact .inr ⟨rest, rfl, (List.prefix_append_right_inj as).mp h⟩

/-- One reader after the other. -/
theorem Reads.bind {read : StateT P Option α} {f : α → StateT P Option β}
    {items items' : List (ParcelApi.Item Kind Value)} {a : α} {b : β}
    (h : Reads contents read items a) (hf : Reads contents (f a) items' b) :
    Reads contents (read >>= f) (items ++ items') b where
  complete hp := by
    rw [List.append_assoc] at hp
    obtain ⟨p', hread, hp'⟩ := h.complete hp
    rw [StateT.run_bind, hread]
    exact hf.complete hp'
  cut {p} hp hne := by
    rw [StateT.run_bind]
    rcases cut_append hp with ⟨hcut, hlost⟩ | ⟨rest, hrest, hprefix⟩
    · rw [h.cut hcut hlost]
      rfl
    · obtain ⟨p', hread, hp'⟩ := h.complete hrest
      rw [hread]
      refine hf.cut (hp'.symm ▸ hprefix) fun heq => hne ?_
      rw [hrest, ← hp', heq]

/-! ## 3. A counted sequence -/

/-- Reads as many records behind those that it has, up to the first one that is not complete, and
tells whether it has got them all. -/
def readEach (read : StateT P Option α) : Nat → P → List α → Bool × List α
  | 0, _, as => (true, as)
  | n + 1, p, as =>
    match read.run p with
    | none => (false, as)
    | some (a, p) => readEach read n p (as ++ [a])

variable {read : StateT P Option α} {encode : α → List (ParcelApi.Item Kind Value)}
  (hread : ∀ a, Reads contents read (encode a) a)
include hread

theorem readEach_complete {as : List α} {p : P} {rest : List (ParcelApi.Item Kind Value)}
    (hp : contents p = as.flatMap encode ++ rest) (got : List α) :
    readEach read as.length p got = (true, got ++ as) := by
  induction as generalizing p got with
  | nil => rw [List.append_nil, List.length_nil, readEach]
  | cons a as ih =>
    rw [List.flatMap_cons, List.append_assoc] at hp
    obtain ⟨p', ha, hp'⟩ := (hread a).complete hp
    rw [List.length_cons, readEach, ha]
    exact (ih hp' (got ++ [a])).trans (by rw [List.append_assoc, List.singleton_append])

/-- What is read of a sequence that is cut off: the records before the first one that is not
complete. -/
theorem readEach_cut {as : List α} {p : P} (hp : contents p <+: as.flatMap encode)
    (hne : contents p ≠ as.flatMap encode) (got : List α) :
    ∃ as₁ a as₂, as = as₁ ++ a :: as₂ ∧ readEach read as.length p got = (false, got ++ as₁) ∧
      ∃ rest, contents p = as₁.flatMap encode ++ rest ∧ rest <+: encode a ∧ rest ≠ encode a := by
  induction as generalizing p got with
  | nil => exact absurd (List.prefix_nil.mp hp) hne
  | cons a as ih =>
    rw [List.flatMap_cons] at hp hne
    rw [List.length_cons, readEach]
    rcases cut_append hp with ⟨hcut, hlost⟩ | ⟨rest, hrest, hprefix⟩
    · -- the cut goes through the first record
      rw [(hread a).cut hcut hlost]
      exact ⟨[], a, as, rfl, by rw [List.append_nil], _, rfl, hcut, hlost⟩
    · obtain ⟨p', ha, hp'⟩ := (hread a).complete hrest
      have hne' : contents p' ≠ as.flatMap encode := by
        rintro heq
        rw [hrest, ← hp', heq] at hne
        exact hne rfl
      obtain ⟨as₁, a', as₂, rfl, hloop, rest', hrest', hcut⟩ :=
        ih (hp'.symm ▸ hprefix) hne' (got ++ [a])
      rw [ha]
      refine ⟨a :: as₁, a', as₂, rfl, ?_, rest', ?_, hcut⟩
      · exact hloop.trans (by rw [List.append_assoc, List.singleton_append])
      · rw [hrest, ← hp', hrest', List.flatMap_cons, List.append_assoc]

omit hread

/-! ### The parcel that is a list -/

section List

variable [DecidableEq Kind] [∀ kind, Inhabited (Value kind)]

/-- A read fails where the next value is of another type. -/
def CheckedApi.ofList : CheckedApi (List (ParcelApi.Item Kind Value)) Kind Value where
  toParcelApi := ParcelApi.ofList
  tryRead kind p :=
    match p with
    | [] => none
    | item :: rest => if h : item.1 = kind then some (h ▸ item.2, rest) else none

theorem CheckedApi.ofList_lawful :
    (CheckedApi.ofList : CheckedApi _ Kind Value).Lawful fun p => p where
  toLawful := ParcelApi.ofList_lawful
  tryRead h := by
    subst h
    exact ⟨_, dif_pos rfl, rfl⟩
  past_end kind h := by
    subst h
    rfl

end List

end Records

end Ipc
