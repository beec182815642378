import Mathlib.Data.List.Basic

set_option autoImplicit false

namespace Framing

variable {β μ : Type}

def stream (frame : μ → List β) (ms : List μ) : List β := ms.flatMap frame

def complete (frame : μ → List β) : List μ → Nat → List μ
  | [], _ => []
  | m :: ms, n => if (frame m).length ≤ n then m :: complete frame ms (n - (frame m).length) else []

def Pending (frame : μ → List β) (ms : List μ) (residue : List β) : Prop :=
  residue = [] ∨ ∃ m ∈ ms, ∃ post, frame m = residue ++ post ∧ post ≠ []

variable (frame : μ → List β)

@[simp] theorem stream_nil : stream frame [] = [] := rfl

@[simp] theorem stream_cons (m : μ) (ms : List μ) :
    stream frame (m :: ms) = frame m ++ stream frame ms := rfl

@[simp] theorem stream_append (ms ns : List μ) :
    stream frame (ms ++ ns) = stream frame ms ++ stream frame ns := List.flatMap_append

theorem complete_extend (ms : List μ) {n n' : Nat} (more : n ≤ n') :
    ∃ extra, complete frame ms n' = complete frame ms n ++ extra := by
  induction ms generalizing n n' with
  | nil => exact ⟨[], rfl⟩
  | cons m ms ih =>
    by_cases fits : (frame m).length ≤ n
    · obtain ⟨extra, h⟩ := ih (show n - (frame m).length ≤ n' - (frame m).length by omega)
      exact ⟨extra, by simp [complete, fits, Nat.le_trans fits more, h]⟩
    · exact ⟨complete frame (m :: ms) n', by simp [complete, fits]⟩

theorem complete_prefix (ms : List μ) (n : Nat) : complete frame ms n <+: ms := by
  induction ms generalizing n with
  | nil => exact List.prefix_rfl
  | cons m ms ih =>
    by_cases fits : (frame m).length ≤ n
    · simpa [complete, fits] using ih _
    · simp [complete, fits]

theorem complete_all (ms : List μ) {n : Nat} (whole : (stream frame ms).length ≤ n) :
    complete frame ms n = ms := by
  induction ms generalizing n with
  | nil => rfl
  | cons m ms ih =>
    simp only [stream_cons, List.length_append] at whole
    simp [complete, show (frame m).length ≤ n by omega, ih (n := n - (frame m).length) (by omega)]

theorem stream_cut {ms : List μ} {fed unfed : List β} (cut : fed ++ unfed = stream frame ms) :
    ∃ residue, fed = stream frame (complete frame ms fed.length) ++ residue ∧
      Pending frame ms residue := by
  induction ms generalizing fed with
  | nil =>
    have empty : fed = [] := (List.append_eq_nil_iff.mp cut).1
    exact ⟨[], by simp [empty, complete], .inl rfl⟩
  | cons m ms ih =>
    have ofFed : fed <+: frame m ++ stream frame ms := ⟨unfed, cut⟩
    have ofFrame : frame m <+: frame m ++ stream frame ms := ⟨_, rfl⟩
    by_cases fits : (frame m).length ≤ fed.length
    · obtain ⟨later, rfl⟩ := List.prefix_of_prefix_length_le ofFrame ofFed fits
      have rest : later ++ unfed = stream frame ms := by
        simpa using cut
      obtain ⟨residue, split, pending⟩ := ih rest
      refine ⟨residue, ?_, pending.imp_right ?_⟩
      · simpa [complete] using split
      · rintro ⟨m', member, post⟩
        exact ⟨m', List.mem_cons_of_mem m member, post⟩
    · obtain ⟨post, whole⟩ := List.prefix_of_prefix_length_le ofFed ofFrame (by omega)
      refine ⟨fed, by simp [complete, fits], .inr ⟨m, List.mem_cons_self, post, whole.symm, ?_⟩⟩
      rintro rfl
      exact fits (by simp [← whole])

/-- A receiver that has handed out the frames complete at `n` holds whole frames and a residue. -/
theorem buffered_split {ms : List μ} {fed unfed buffered : List β} {n : Nat}
    (cut : fed ++ unfed = stream frame ms) (before : n ≤ fed.length)
    (held : stream frame (complete frame ms n) ++ buffered = fed) :
    ∃ extra residue, buffered = stream frame extra ++ residue ∧ Pending frame ms residue ∧
      complete frame ms fed.length = complete frame ms n ++ extra := by
  obtain ⟨residue, split, pending⟩ := stream_cut frame cut
  obtain ⟨extra, grown⟩ := complete_extend frame ms before
  refine ⟨extra, residue, ?_, pending, grown⟩
  rw [grown, stream_append, List.append_assoc] at split
  exact List.append_cancel_left (held.trans split)

end Framing
