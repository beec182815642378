import ReactorServer.Connection

set_option autoImplicit false

namespace Reactor

open ByteString

namespace Buffer

def lengthField (buf : Bytes) : Int := toSigned 32 (ofLittleEndian (buf.take 4))

def skip (len : Int) : Nat := toUnsigned 64 (toSigned 32 (len + 4))

theorem lengthField_range (buf : Bytes) : -2 ^ 31 ≤ lengthField buf ∧ lengthField buf < 2 ^ 31 := by
  have low := Int.le_bmod (x := ofLittleEndian (buf.take 4)) (m := 2 ^ 32) (by decide)
  have high := Int.bmod_lt (x := ofLittleEndian (buf.take 4)) (m := 2 ^ 32) (by decide)
  simp only [lengthField, toSigned]
  omega

theorem header_eq (stale : Nat → UInt8) {buf : Bytes} (sep : UInt16) (whole : 4 ≤ buf.length) :
    header stale ⟨buf, sep⟩ = lengthField buf := by
  have inside : 4 ≤ (buf ++ [0]).length := by simp; omega
  rw [header, load_inside stale inside, List.take_append_of_le_length whole]
  rfl

theorem skip_near {len : Int} (low : -4 ≤ len) (high : len < 2 ^ 31 - 4) : (skip len : Int) = len + 4 := by
  simp only [skip, toSigned, toUnsigned, Int.bmod]
  omega

-- Below -4, and where len + 4 overflows an int: no string is that long.
theorem skip_far {len : Int} (range : -2 ^ 31 ≤ len ∧ len < 2 ^ 31)
    (far : len < -4 ∨ 2 ^ 31 - 4 ≤ len) : (skip len : Int) = 2 ^ 64 + (len + 4).bmod (2 ^ 32) := by
  simp only [skip, toSigned, toUnsigned, Int.bmod]
  omega

theorem skip_zero {len : Int} (range : -2 ^ 31 ≤ len ∧ len < 2 ^ 31) : skip len = 0 ↔ len = -4 := by
  simp only [skip, toSigned, toUnsigned, Int.bmod]
  omega

theorem pickmessage_whole (stale : Nat → UInt8) (ss : Bytes) {buf : Bytes} (whole : 4 ≤ buf.length) :
    pickmessage stale ⟨buf, 1⟩ ss =
      if buf.length < skip (lengthField buf) then .ok (false, ⟨buf, 1⟩, ss)
      else .ok (true, ⟨buf.drop (skip (lengthField buf)), 1⟩,
        (buf.drop 4).take (toUnsigned 64 (lengthField buf))) := by
  have nonempty : buf.length ≠ 0 := by omega
  have inside : ¬ buf.length < 4 := by omega
  have len := header_eq stale 1 whole
  by_cases guard : buf.length < skip (lengthField buf)
  · rw [if_pos guard]
    unfold skip at guard
    simp only [pickmessage, nonempty, if_false, len, guard, if_true]
    rfl
  · rw [if_neg guard]
    unfold skip at guard ⊢
    simp only [pickmessage, nonempty, if_false, len, guard, substr, inside, erase_front]
    rfl

-- The parser as it is meant: a frame is delivered when all of it is there, and nothing else is.
def parse (buf ss : Bytes) : Bool × Buffer × Bytes :=
  if 0 ≤ lengthField buf ∧ lengthField buf + 4 ≤ buf.length then
    (true, ⟨buf.drop ((lengthField buf).toNat + 4), 1⟩, (buf.drop 4).take (lengthField buf).toNat)
  else (false, ⟨buf, 1⟩, ss)

def Regular (len : Int) (size : Nat) : Prop :=
  0 ≤ len ∧ (len < 2 ^ 31 - 4 ∨ size < len + 4) ∨ len < -4 ∧ size < 2 ^ 64 + len + 4

theorem regular_iff {len : Int} {size : Nat} (range : -2 ^ 31 ≤ len ∧ len < 2 ^ 31) (whole : 4 ≤ size) :
    Regular len size ↔
      (size < skip len ∧ ¬ (0 ≤ len ∧ len + 4 ≤ size)) ∨
        (¬ size < skip len ∧ (0 ≤ len ∧ len + 4 ≤ size) ∧ skip len = len.toNat + 4) := by
  by_cases near : -4 ≤ len ∧ len < 2 ^ 31 - 4
  · have skipped := skip_near near.1 near.2
    simp only [Regular]
    omega
  · have skipped := skip_far range (by omega)
    rw [Int.bmod] at skipped
    simp only [Regular]
    omega

theorem pickmessage_exact_iff (stale : Nat → UInt8) (ss : Bytes) {buf : Bytes} (whole : 4 ≤ buf.length) :
    pickmessage stale ⟨buf, 1⟩ ss = .ok (parse buf ss) ↔ Regular (lengthField buf) buf.length := by
  have range := lengthField_range buf
  rw [pickmessage_whole stale ss whole, regular_iff range whole]
  unfold parse
  generalize lengthField buf = len at range ⊢
  by_cases refused : buf.length < skip len <;> by_cases meant : 0 ≤ len ∧ len + 4 ≤ buf.length
  · simp [refused, meant]
  · simp [refused, meant]
  · rw [if_neg refused, if_pos meant]
    have count : toUnsigned 64 len = len.toNat := by
      simp only [toUnsigned]
      omega
    constructor
    · intro same
      refine .inr ⟨refused, meant, ?_⟩
      have rest : buf.drop (skip len) = buf.drop (len.toNat + 4) := by
        injection same with same
        simp only [Prod.mk.injEq, Buffer.mk.injEq] at same
        exact same.2.1.1
      have lengths := congrArg List.length rest
      simp only [List.length_drop] at lengths
      omega
    · intro regular
      have offset : skip len = len.toNat + 4 := by omega
      rw [offset, count]
  · simp [refused, meant]

theorem short_frame_exact :
    pickmessage (fun _ => 0) ⟨[1, 0, 0, 0, 7, 8], 1⟩ [] = .ok (parse [1, 0, 0, 0, 7, 8] []) ↔
      Regular (lengthField [1, 0, 0, 0, 7, 8]) 6 :=
  pickmessage_exact_iff _ _ (by decide)

-- The length -1: three bytes come off, and the last byte of the header starts the next one.
theorem negative_length_delivered :
    lengthField [255, 255, 255, 255, 7, 8] = -1 ∧
      parse [255, 255, 255, 255, 7, 8] [9] = (false, ⟨[255, 255, 255, 255, 7, 8], 1⟩, [9]) ∧
      pickmessage (fun _ => 0) ⟨[255, 255, 255, 255, 7, 8], 1⟩ [9] = .ok (true, ⟨[255, 7, 8], 1⟩, [7, 8]) := by
  decide

theorem pickmessage_shrinks_iff (buf : Bytes) :
    (∀ stale ss rest message, pickmessage stale ⟨buf, 1⟩ ss = .ok (true, rest, message) →
      rest.buf.length < buf.length) ↔ ¬ (4 ≤ buf.length ∧ lengthField buf = -4) := by
  have range := lengthField_range buf
  by_cases whole : 4 ≤ buf.length
  · constructor
    · intro shrinks stuck
      have nothing : skip (lengthField buf) = 0 := (skip_zero range).mpr stuck.2
      have found := pickmessage_whole (fun _ => 0) [] whole
      rw [nothing, if_neg (Nat.not_lt_zero _)] at found
      have less := shrinks _ _ _ _ found
      simp at less
    · intro moves stale ss rest message found
      have some : skip (lengthField buf) ≠ 0 := fun nothing => moves ⟨whole, (skip_zero range).mp nothing⟩
      rw [pickmessage_whole stale ss whole] at found
      by_cases refused : buf.length < skip (lengthField buf)
      · rw [if_pos refused] at found
        simp at found
      · rw [if_neg refused] at found
        simp only [Except.ok.injEq, Prod.mk.injEq] at found
        obtain ⟨-, rfl, -⟩ := found
        simp only [List.length_drop]
        omega
  · constructor
    · intro _ stuck
      exact whole stuck.1
    · intro _ stale ss rest message found
      rw [pickmessage_short stale ss (by omega)] at found
      cases found

inductive Stalls : Bytes → Prop where
  | here {buf : Bytes} (whole : 4 ≤ buf.length) (stuck : lengthField buf = -4) : Stalls buf
  | next {buf : Bytes} (whole : 4 ≤ buf.length) (present : skip (lengthField buf) ≤ buf.length)
      (later : Stalls (buf.drop (skip (lengthField buf)))) : Stalls buf

theorem Stalls.taken {buf : Bytes} (stalls : Stalls buf) :
    4 ≤ buf.length ∧ skip (lengthField buf) ≤ buf.length ∧
      Stalls (buf.drop (skip (lengthField buf))) := by
  cases stalls with
  | here whole stuck =>
    have nothing := (skip_zero (lengthField_range buf)).mpr stuck
    rw [nothing]
    exact ⟨whole, Nat.zero_le _, .here whole stuck⟩
  | next whole present later => exact ⟨whole, present, later⟩

end Buffer

namespace Connection

open Buffer

variable (onmessagecallback : Bytes → Bytes) (stale : Nat → Nat → UInt8)

theorem drain_stalls (fuel : Nat) {buf : Bytes} (stalls : Stalls buf) (message : Bytes) :
    drain onmessagecallback stale fuel ⟨buf, 1⟩ message = .error .outOfFuel := by
  induction fuel generalizing buf message with
  | zero => rfl
  | succ fuel ih =>
    obtain ⟨whole, present, later⟩ := stalls.taken
    have found := pickmessage_whole (stale fuel) message whole
    rw [if_neg (by omega)] at found
    simp [drain, found, ih later]

theorem drain_ends {buf : Bytes} (moves : ¬ Stalls buf) (message : Bytes) :
    ∃ fuel result, drain onmessagecallback stale fuel ⟨buf, 1⟩ message = .ok result := by
  induction size : buf.length using Nat.strong_induction_on generalizing buf message with
  | _ n ih =>
    subst size
    by_cases whole : 4 ≤ buf.length
    · by_cases refused : buf.length < skip (lengthField buf)
      · have found := pickmessage_whole (stale 0) message whole
        rw [if_pos refused] at found
        exact ⟨1, _, by simp [drain, found]; rfl⟩
      · have some : skip (lengthField buf) ≠ 0 :=
          fun nothing => moves (.here whole ((skip_zero (lengthField_range buf)).mp nothing))
        have later : ¬ Stalls (buf.drop (skip (lengthField buf))) :=
          fun stalls => moves (.next whole (by omega) stalls)
        have smaller : (buf.drop (skip (lengthField buf))).length < buf.length := by
          simp only [List.length_drop]
          omega
        obtain ⟨fuel, result, ended⟩ := ih _ smaller later
          (onmessagecallback ((buf.drop 4).take (toUnsigned 64 (lengthField buf)))) rfl
        have found := pickmessage_whole (stale fuel) message whole
        rw [if_neg refused] at found
        exact ⟨fuel + 1, _, by simp [drain, found, ended]; rfl⟩
    · have found := pickmessage_short (stale 0) message (show buf.length < 4 by omega)
      exact ⟨1, _, by simp [drain, found]; rfl⟩

theorem drain_terminates_iff (buf message : Bytes) :
    ((∃ fuel result, drain onmessagecallback stale fuel ⟨buf, 1⟩ message = .ok result) ↔
      ¬ Stalls buf) ∧
    ((∀ stale ss rest message, pickmessage stale ⟨buf, 1⟩ ss = .ok (true, rest, message) →
      rest.buf.length < buf.length) ↔ ¬ (4 ≤ buf.length ∧ lengthField buf = -4)) := by
  refine ⟨?_, pickmessage_shrinks_iff buf⟩
  constructor
  · intro ends stalls
    obtain ⟨fuel, result, ended⟩ := ends
    rw [drain_stalls onmessagecallback stale fuel stalls message] at ended
    cases ended
  · intro moves
    exact drain_ends onmessagecallback stale moves message

-- The length -4: each call finds a message and leaves the header where it was.
theorem minus_four_spins :
    pickmessage (fun _ => 0) ⟨[252, 255, 255, 255], 1⟩ [] = .ok (true, ⟨[252, 255, 255, 255], 1⟩, []) ∧
      ∀ fuel, drain id (fun _ _ => 0) fuel ⟨[252, 255, 255, 255], 1⟩ [] = .error .outOfFuel :=
  ⟨by decide, fun fuel => drain_stalls _ _ fuel (.here (by decide) (by decide)) []⟩

end Connection

end Reactor
