import Mathlib.Data.List.TakeWhile
import Mathlib.Data.Int.DivMod
import Mathlib.Tactic.Ring
import Mathlib.Algebra.Order.Ring.Nat

set_option autoImplicit false

namespace ByteString

abbrev Bytes := List UInt8

def littleEndian : Nat → Nat → Bytes
  | 0, _ => []
  | width + 1, n => UInt8.ofNat n :: littleEndian width (n / 256)

def ofLittleEndian : Bytes → Nat
  | [] => 0
  | b :: bs => b.toNat + 256 * ofLittleEndian bs

@[simp] theorem littleEndian_length (width n : Nat) : (littleEndian width n).length = width := by
  induction width generalizing n with
  | zero => rfl
  | succ width ih => simp [littleEndian, ih]

theorem littleEndian_take (width more n : Nat) :
    (littleEndian (width + more) n).take width = littleEndian width n := by
  induction width generalizing n with
  | zero => rfl
  | succ width ih => simp [littleEndian, Nat.succ_add, ih]

theorem ofLittleEndian_littleEndian (width n : Nat) :
    ofLittleEndian (littleEndian width n) = n % 256 ^ width := by
  induction width generalizing n with
  | zero => simp [littleEndian, ofLittleEndian, Nat.mod_one]
  | succ width ih =>
    have split : n % 256 ^ (width + 1) = n % 256 + 256 * (n / 256 % 256 ^ width) := by
      rw [pow_succ', Nat.mod_mul]
    simp only [littleEndian, ofLittleEndian, ih, UInt8.toNat_ofNat', split]

/-- Two's complement: what a C++ signed integer of this width holds after a narrowing conversion. -/
def toSigned (width : Nat) (x : Int) : Int := x.bmod (2 ^ width)

def toUnsigned (width : Nat) (x : Int) : Nat := (x % 2 ^ width).toNat

theorem toSigned_eq_self {x : Int} (low : -2 ^ 31 ≤ x) (high : x < 2 ^ 31) :
    toSigned 32 x = x := by
  simp only [toSigned, Int.bmod]
  omega

theorem toUnsigned_eq_self {n : Nat} (small : n < 2 ^ 64) : toUnsigned 64 n = n := by
  simp only [toUnsigned]
  omega

/-- Bytes `pos`, `pos + 1`, ... of a heap block; past its end the memory is readable but arbitrary. -/
def load (beyond : Nat → UInt8) (block : Bytes) (size : Nat) : Bytes :=
  block.take size ++ (List.range (size - block.length)).map fun i => beyond (block.length + i)

@[simp] theorem load_length (beyond : Nat → UInt8) (block : Bytes) (size : Nat) :
    (load beyond block size).length = size := by
  simp only [load, List.length_append, List.length_take, List.length_map, List.length_range]
  omega

theorem load_inside (beyond : Nat → UInt8) {block : Bytes} {size : Nat}
    (inside : size ≤ block.length) : load beyond block size = block.take size := by
  have none : size - block.length = 0 := by omega
  simp [load, none]

theorem load_outside (beyond : Nat → UInt8) {block : Bytes} {size : Nat}
    (outside : block.length ≤ size) :
    load beyond block size =
      block ++ (List.range (size - block.length)).map fun i => beyond (block.length + i) := by
  simp [load, List.take_of_length_le outside]

/-- A string's storage ends with a zero byte, so strdup always stops. -/
def strdup (s : Bytes) : Bytes := s.takeWhile (· != 0) ++ [0]

theorem strdup_zero_free {s : Bytes} (free : 0 ∉ s) : strdup s = s ++ [0] := by
  have all : s.takeWhile (· != 0) = s := by
    apply List.takeWhile_eq_self_iff.mpr
    intro b member
    simpa using fun zero : b = 0 => free (zero ▸ member)
  rw [strdup, all]

theorem strdup_append_zero {s rest : Bytes} (free : 0 ∉ s) :
    strdup (s ++ 0 :: rest) = s ++ [0] := by
  have pass : ∀ b ∈ s, (b != 0) = true := by
    intro b member
    simpa using fun zero : b = 0 => free (zero ▸ member)
  simp [strdup, List.takeWhile_append_of_pos pass]

theorem load_strdup_exact_iff {s : Bytes} :
    (∀ beyond, load beyond (strdup s) s.length = s) ↔ 0 ∉ s.dropLast := by
  by_cases zero : 0 ∈ s
  · obtain ⟨front, rest, rfl, free⟩ := List.eq_append_cons_of_mem zero
    have copied : strdup (front ++ 0 :: rest) = front ++ [0] := strdup_append_zero free
    cases rest with
    | nil =>
      have whole (beyond : Nat → UInt8) :
          load beyond (strdup (front ++ [0])) (front ++ [0]).length = front ++ [0] := by
        rw [copied, load_inside beyond le_rfl, List.take_length]
      exact iff_of_true whole (by simpa using free)
    | cons b rest =>
      have cut : 0 ∈ (front ++ 0 :: b :: rest).dropLast := by
        simp [List.dropLast_append_of_ne_nil]
      refine iff_of_false (fun exact => ?_) (not_not_intro cut)
      have read := exact fun _ => b + 1
      rw [copied, load_outside _ (by simp)] at read
      have tail := List.append_cancel_left (read.trans (List.append_cons front 0 (b :: rest)))
      have count : (front ++ 0 :: b :: rest).length - (front ++ [0]).length = rest.length + 1 := by
        simp only [List.length_append, List.length_cons, List.length_nil]
        omega
      rw [count, List.range_succ_eq_map] at tail
      have first : b + 1 = b := (List.cons.inj tail).1
      simp at first
  · have whole (beyond : Nat → UInt8) : load beyond (strdup s) s.length = s := by
      rw [strdup_zero_free zero, load_inside beyond (by simp), List.take_left]
    exact iff_of_true whole fun member => zero (List.dropLast_subset _ member)

end ByteString
