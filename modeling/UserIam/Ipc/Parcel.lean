import Mathlib.Algebra.Ring.Nat
import Mathlib.Tactic.Common

/-!
# Parcels

A buffer of typed values that one process fills and another one reads.  Nothing here says how a
parcel keeps its values; the one law is that they come out as they went in, in the order in which
they were written.
-/

namespace Ipc

/-- What a parcel offers.  A write that fails has no result; a read always gives some value. -/
structure ParcelApi (P Kind : Type) (Value : Kind → Type) where
  empty : P
  write : P → (kind : Kind) → Value kind → Option P
  read : P → (kind : Kind) → Value kind × P

namespace ParcelApi

variable {P Kind : Type} {Value : Kind → Type}

/-- One value and its type. -/
abbrev Item (Kind : Type) (Value : Kind → Type) := (kind : Kind) × Value kind

/-- The values that are still to be read, first one first. -/
structure Lawful (api : ParcelApi P Kind Value) (contents : P → List (Item Kind Value)) :
    Prop where
  empty : contents api.empty = []
  write : ∀ {p p' kind v}, api.write p kind v = some p' → contents p' = contents p ++ [⟨kind, v⟩]
  read : ∀ {p kind v rest}, contents p = ⟨kind, v⟩ :: rest →
    (api.read p kind).1 = v ∧ contents (api.read p kind).2 = rest

/-- No write fails. -/
def Accepts (api : ParcelApi P Kind Value) : Prop :=
  ∀ p kind v, (api.write p kind v).isSome

variable {api : ParcelApi P Kind Value} {contents : P → List (Item Kind Value)}

theorem Lawful.read_of_contents (h : api.Lawful contents) {p : P} {kind : Kind} {v : Value kind}
    {rest : List (Item Kind Value)} (hp : contents p = ⟨kind, v⟩ :: rest) :
    ∃ p', api.read p kind = (v, p') ∧ contents p' = rest := by
  obtain ⟨hvalue, hrest⟩ := h.read hp
  exact ⟨_, Prod.ext hvalue rfl, hrest⟩

theorem Accepts.write (h : api.Accepts) (p : P) (kind : Kind) (v : Value kind) :
    ∃ p', api.write p kind v = some p' :=
  Option.isSome_iff_exists.mp (h p kind v)

/-- Reads values of these types one after the other. -/
def readAll (api : ParcelApi P Kind Value) : List Kind → P → List (Item Kind Value)
  | [], _ => []
  | kind :: kinds, p => ⟨kind, (api.read p kind).1⟩ :: api.readAll kinds (api.read p kind).2

theorem Lawful.readAll (h : api.Lawful contents) {p : P} {items : List (Item Kind Value)}
    (hp : contents p = items) : api.readAll (items.map Sigma.fst) p = items := by
  induction items generalizing p with
  | nil => rfl
  | cons item items ih =>
    obtain ⟨hvalue, hrest⟩ := h.read hp
    rw [List.map_cons, ParcelApi.readAll, ih hrest, hvalue]

/-! ## Messages that are cut off -/

section Cut

variable [∀ kind, Inhabited (Value kind)]

/-- A read past the end gives the default value of its type and leaves the parcel at its end. -/
def PastEnd (api : ParcelApi P Kind Value) (contents : P → List (Item Kind Value)) : Prop :=
  ∀ p kind, contents p = [] →
    (api.read p kind).1 = default ∧ contents (api.read p kind).2 = []

/-- Part of what was to be read is missing. -/
def Cut (contents : P → List (Item Kind Value)) (p : P) (items : List (Item Kind Value)) : Prop :=
  contents p <+: items ∧ contents p ≠ items

theorem Lawful.read_cut (h : api.Lawful contents) (hpast : api.PastEnd contents) {p : P}
    {item : Item Kind Value} {items : List (Item Kind Value)} (hp : Cut contents p (item :: items))
    (hitems : items ≠ []) : Cut contents (api.read p item.1).2 items := by
  obtain ⟨kind, v⟩ := item
  obtain ⟨hpre, hne⟩ := hp
  rcases List.prefix_cons_iff.mp hpre with hnil | ⟨rest, hrest, hpre⟩
  · rw [Cut, (hpast p kind hnil).2]
    exact ⟨List.nil_prefix, hitems.symm⟩
  · rw [Cut, (h.read hrest).2]
    refine ⟨hpre, fun heq => hne ?_⟩
    rw [hrest, heq]

/-- A single value that is missing is read as the default. -/
theorem PastEnd.read_last (hpast : api.PastEnd contents) {p : P} {item : Item Kind Value}
    (hp : Cut contents p [item]) : (api.read p item.1).1 = default := by
  obtain ⟨hpre, hne⟩ := hp
  rcases List.prefix_cons_iff.mp hpre with hnil | ⟨rest, hrest, hpre⟩
  · exact (hpast p item.1 hnil).1
  · rw [List.prefix_nil.mp hpre] at hrest
    exact absurd hrest hne

/-- Wherever a message is cut off, its last value is missing. -/
theorem Lawful.readAll_cut_last (h : api.Lawful contents) (hpast : api.PastEnd contents) {p : P}
    {items : List (Item Kind Value)} {item : Item Kind Value}
    (hp : Cut contents p (items ++ [item])) :
    ∃ values, api.readAll ((items ++ [item]).map Sigma.fst) p = values ++ [⟨item.1, default⟩] := by
  induction items generalizing p with
  | nil =>
    rw [List.nil_append] at hp
    refine ⟨[], ?_⟩
    rw [List.nil_append, List.map_singleton, ParcelApi.readAll, hpast.read_last hp]
    rfl
  | cons first items ih =>
    obtain ⟨values, hvalues⟩ := ih (h.read_cut hpast hp (by simp))
    refine ⟨⟨first.1, (api.read p first.1).1⟩ :: values, ?_⟩
    rw [List.cons_append, List.map_cons, ParcelApi.readAll, hvalues, List.cons_append]

end Cut

/-! ## The parcel that is a list -/

section List

variable [DecidableEq Kind] [∀ kind, Inhabited (Value kind)]

/-- A read of another type than the next value's leaves the parcel as it is. -/
def ofList : ParcelApi (List (Item Kind Value)) Kind Value where
  empty := []
  write p kind v := some (p ++ [⟨kind, v⟩])
  read p kind :=
    match p with
    | [] => (default, p)
    | item :: rest => if h : item.1 = kind then (h ▸ item.2, rest) else (default, p)

theorem ofList_lawful : (ofList : ParcelApi _ Kind Value).Lawful fun p => p where
  empty := rfl
  write h := (Option.some.inj h).symm
  read h := by
    subst h
    simp [ofList]

theorem ofList_accepts : (ofList : ParcelApi _ Kind Value).Accepts :=
  fun _ _ _ => rfl

theorem ofList_pastEnd : (ofList : ParcelApi _ Kind Value).PastEnd fun p => p := by
  rintro p kind rfl
  exact ⟨rfl, rfl⟩

end List

end ParcelApi
end Ipc
