import ReactorServer.HostileFrames

set_option autoImplicit false

namespace Reactor.Buffer

open ByteString

variable {sep : UInt16} {m rest : Bytes}

theorem encoded_frame (mode : sep = 1 ∨ sep = 2) (m rest : Bytes) :
    ((make sep).appendwithsep m).append rest = ⟨frame m ++ rest, sep⟩ := by
  rcases mode with rfl | rfl <;> simp [make, appendwithsep, append, frame]

theorem lengthField_frame (m rest : Bytes) : lengthField (frame m ++ rest) = toSigned 32 m.length := by
  have four : (frame m ++ rest).take 4 = sizeHeader m.length := by
    rw [frame, List.append_assoc]
    exact List.take_left' (by simp)
  have width : (256 : Nat) ^ 4 = 2 ^ 32 := by decide
  rw [lengthField, four, sizeHeader_eq, ofLittleEndian_littleEndian, width]
  exact Int.emod_bmod m.length (2 ^ 32)

theorem skip_long {size : Nat} (long : 2 ^ 31 - 5 < size) (bound : size < 2 ^ 32) :
    skip (toSigned 32 size) ≠ size + 4 := by
  have range : -2 ^ 31 ≤ toSigned 32 size ∧ toSigned 32 size < 2 ^ 31 := by
    simp only [toSigned, Int.bmod]
    omega
  have low : toSigned 32 size < 0 ∨ toSigned 32 size = size := by
    simp only [toSigned, Int.bmod]
    omega
  by_cases near : -4 ≤ toSigned 32 size ∧ toSigned 32 size < 2 ^ 31 - 4
  · have skipped := skip_near near.1 near.2
    omega
  · have skipped := skip_far range (by omega)
    simp only [Int.bmod] at skipped
    omega

theorem picked_skip (stale : Nat → UInt8) {ss : Bytes}
    (picked : pickmessage stale ⟨frame m ++ rest, 1⟩ ss = .ok (true, ⟨rest, 1⟩, m)) :
    skip (toSigned 32 m.length) = m.length + 4 := by
  rw [pickmessage_whole stale ss (by simp; omega), lengthField_frame] at picked
  by_cases refused : (frame m ++ rest).length < skip (toSigned 32 m.length)
  · rw [if_pos refused] at picked
    simp at picked
  · rw [if_neg refused] at picked
    simp only [Except.ok.injEq, Prod.mk.injEq, Buffer.mk.injEq] at picked
    have lengths := congrArg List.length picked.2.1.1
    simp only [List.length_drop, List.length_append, frame_length] at lengths refused
    omega

-- The branch for this mode is empty, and the call returns true.
theorem pickmessage_two (stale : Nat → UInt8) (ss : Bytes) {buf : Bytes} (some : buf.length ≠ 0) :
    pickmessage stale ⟨buf, 2⟩ ss = .ok (true, ⟨buf, 2⟩, ss) := by
  simp [pickmessage, some]

theorem decode_encode_iff (stale : Nat → UInt8) (ss : Bytes) (mode : sep = 1 ∨ sep = 2)
    (bound : m.length < 2 ^ 32) :
    pickmessage stale (((make sep).appendwithsep m).append rest) ss = .ok (true, ⟨rest, sep⟩, m) ↔
      sep = 1 ∧ m.length ≤ 2 ^ 31 - 5 := by
  rw [encoded_frame mode]
  rcases mode with rfl | rfl
  · constructor
    · intro picked
      refine ⟨rfl, ?_⟩
      by_contra long
      exact skip_long (Nat.lt_of_not_le long) bound (picked_skip stale picked)
    · intro short
      exact pickmessage_frame stale ss short.2
  · rw [pickmessage_two stale ss (by simp)]
    constructor
    · intro picked
      simp only [Except.ok.injEq, Prod.mk.injEq, Buffer.mk.injEq] at picked
      have lengths := congrArg List.length picked.2.1.1
      simp at lengths
    · intro one
      exact absurd one.1 (by decide)

theorem decode_encode_followed :
    pickmessage (fun _ => 0) (((make 1).appendwithsep [7, 0]).append [9]) [] = .ok (true, ⟨[9], 1⟩, [7, 0]) ↔
      (1 : UInt16) = 1 ∧ [(7 : UInt8), 0].length ≤ 2 ^ 31 - 5 :=
  decode_encode_iff _ _ (.inl rfl) (by decide)

theorem mode_two_not_decoded :
    ((make 2).appendwithsep [7]).buf = [1, 0, 0, 0, 7] ∧
      pickmessage (fun _ => 0) (((make 2).appendwithsep [7]).append [9]) [] =
        .ok (true, ⟨[1, 0, 0, 0, 7, 9], 2⟩, []) := by
  decide

end Reactor.Buffer
