import Mathlib.Algebra.Ring.Nat
import Mathlib.Tactic.Common

/-!
# Little-endian words in a byte buffer

Writing a natural number as a fixed number of little-endian bytes, reading it back, and reading it
back at a position of a larger buffer.
-/

namespace Bytes

/-- The `width` low bytes of `n`, lowest byte first. -/
def leBytes : Nat → Nat → List UInt8
  | 0, _ => []
  | width + 1, n => UInt8.ofNat n :: leBytes width (n / 256)

/-- The number that bytes stand for, lowest byte first. -/
def leNat : List UInt8 → Nat
  | [] => 0
  | b :: bs => b.toNat + 256 * leNat bs

/-- The number in the `width` bytes from position `pos` on. -/
def readLe (width : Nat) (buffer : List UInt8) (pos : Nat) : Nat :=
  leNat ((buffer.drop pos).take width)

@[simp] theorem length_leBytes (width n : Nat) : (leBytes width n).length = width := by
  induction width generalizing n with
  | zero => rfl
  | succ width ih => simp [leBytes, ih]

/-- Reading the written bytes gives the number back, up to the width. -/
theorem leNat_leBytes (width n : Nat) : leNat (leBytes width n) = n % 256 ^ width := by
  induction width generalizing n with
  | zero => simp [leBytes, leNat, Nat.mod_one]
  | succ width ih =>
    have hlow : (UInt8.ofNat n).toNat = n % 256 := UInt8.toNat_ofNat'
    rw [leBytes, leNat, ih, hlow, Nat.pow_succ', Nat.mod_mul]

/-- Only the low bytes are written. -/
theorem leBytes_mod (width n : Nat) : leBytes width (n % 256 ^ width) = leBytes width n := by
  induction width generalizing n with
  | zero => rfl
  | succ width ih =>
    have hlow : n % 256 ^ (width + 1) % 256 = n % 256 :=
      Nat.mod_mod_of_dvd n ⟨256 ^ width, Nat.pow_succ'⟩
    have hbyte : UInt8.ofNat (n % 256 ^ (width + 1)) = UInt8.ofNat n := by
      apply UInt8.toNat_inj.mp
      rw [UInt8.toNat_ofNat', UInt8.toNat_ofNat']
      exact hlow
    have hhigh : n % 256 ^ (width + 1) / 256 = n / 256 % 256 ^ width := by
      rw [Nat.pow_succ', Nat.mod_mul_right_div_self]
    rw [leBytes, leBytes, hbyte, hhigh, ih]

theorem leBytes_inj {width m n : Nat} (hm : m < 256 ^ width) (hn : n < 256 ^ width)
    (h : leBytes width m = leBytes width n) : m = n := by
  have hnat := congrArg leNat h
  rw [leNat_leBytes, leNat_leBytes, Nat.mod_eq_of_lt hm, Nat.mod_eq_of_lt hn] at hnat
  exact hnat

theorem leNat_lt (bytes : List UInt8) : leNat bytes < 256 ^ bytes.length := by
  induction bytes with
  | nil => exact Nat.one_pos
  | cons b bytes ih =>
    have hb : b.toNat < 256 := b.toNat_lt
    rw [leNat, List.length_cons, Nat.pow_succ']
    omega

/-- Writing the number that was read gives the bytes back. -/
theorem leBytes_leNat (bytes : List UInt8) : leBytes bytes.length (leNat bytes) = bytes := by
  induction bytes with
  | nil => rfl
  | cons b bytes ih =>
    have hb : b.toNat < 256 := b.toNat_lt
    have hlow : UInt8.ofNat (b.toNat + 256 * leNat bytes) = b := by
      apply UInt8.toNat_inj.mp
      rw [UInt8.toNat_ofNat']
      omega
    have hhigh : (b.toNat + 256 * leNat bytes) / 256 = leNat bytes := by omega
    rw [List.length_cons, leNat, leBytes, hlow, hhigh, ih]

/-! ## Windows of a buffer -/

/-- What follows a prefix is what is left when the prefix is dropped. -/
theorem drop_take_window {α : Type} (pre mid suf : List α) :
    ((pre ++ (mid ++ suf)).drop pre.length).take mid.length = mid := by
  rw [List.drop_left, List.take_left]

theorem readLe_window {width : Nat} (pre suf : List UInt8) (n : Nat) :
    readLe width (pre ++ (leBytes width n ++ suf)) pre.length = n % 256 ^ width := by
  have h := drop_take_window pre (leBytes width n) suf
  rw [length_leBytes] at h
  rw [readLe, h, leNat_leBytes]

/-! ## Arrays of words -/

section Array

variable {α : Type} {width : Nat} {encode : α → List UInt8}

theorem length_flatMap_encode (hwidth : ∀ w, (encode w).length = width) (ws : List α) :
    (ws.flatMap encode).length = ws.length * width := by
  induction ws with
  | nil => simp
  | cons w ws ih =>
    rw [List.flatMap_cons, List.length_append, hwidth, ih, List.length_cons, Nat.succ_mul]
    omega

/-- A word that can be read behind any prefix can be read at every position of an array. -/
theorem map_get_window (bound : Nat) (get : List UInt8 → Nat → α)
    (hwidth : ∀ w, (encode w).length = width)
    (hget : ∀ pre w suf, pre.length < bound → get (pre ++ (encode w ++ suf)) pre.length = w)
    (pre suf : List UInt8) (ws : List α) (hfit : ∀ i < ws.length, pre.length + i * width < bound) :
    (List.range ws.length).map
      (fun i => get (pre ++ (ws.flatMap encode ++ suf)) (pre.length + i * width)) = ws := by
  induction ws generalizing pre with
  | nil => rfl
  | cons w ws ih =>
    have hpos : ∀ i, pre.length + (i + 1) * width = (pre ++ encode w).length + i * width := by
      intro i
      rw [List.length_append, hwidth, Nat.succ_mul]
      omega
    have htail := ih (pre ++ encode w) fun i hi => by
      rw [← hpos]
      exact hfit (i + 1) (Nat.succ_lt_succ hi)
    have hhead : get (pre ++ (encode w ++ (ws.flatMap encode ++ suf))) pre.length = w := by
      have := hfit 0 (Nat.succ_pos _)
      exact hget pre w _ (by omega)
    rw [List.length_cons, List.range_succ_eq_map, List.map_cons, List.map_map, List.flatMap_cons,
      List.append_assoc, Nat.zero_mul, Nat.add_zero, hhead]
    refine congrArg (w :: ·) (Eq.trans (List.map_congr_left fun i _ => ?_) htail)
    rw [Function.comp_apply, Nat.succ_eq_add_one, hpos, List.append_assoc]

end Array

end Bytes
