import ReactorServer.Shared.ByteString
import ReactorServer.Shared.Framing

set_option autoImplicit false

namespace Reactor

open ByteString

-- How a call can end other than by returning; `outOfFuel` is the model's own.
inductive Stop where
  | outOfRange
  | exited
  | outOfFuel
  deriving DecidableEq, Repr

@[simp] theorem ok_bind {α β : Type} (a : α) (f : α → Except Stop β) :
    (Except.ok a >>= f) = f a := rfl

@[simp] theorem error_bind {α β : Type} (stop : Stop) (f : α → Except Stop β) :
    ((Except.error stop : Except Stop α) >>= f) = .error stop := rfl

theorem bind_ok {α β : Type} {x : Except Stop α} {f : α → Except Stop β} {b : β}
    (done : (x >>= f) = .ok b) : ∃ a, x = .ok a ∧ f a = .ok b := by
  cases x with
  | error stop => simp at done
  | ok a => exact ⟨a, rfl, done⟩

@[simp] theorem pure_eq_ok {α : Type} (a : α) : (pure a : Except Stop α) = .ok a := rfl

def substr (s : Bytes) (pos count : Nat) : Except Stop Bytes :=
  if s.length < pos then .error .outOfRange else .ok ((s.drop pos).take count)

def eraseString (s : Bytes) (pos count : Nat) : Except Stop Bytes :=
  if s.length < pos then .error .outOfRange else .ok (s.take pos ++ s.drop (pos + count))

structure Buffer where
  buf : Bytes
  sep : UInt16
  deriving DecidableEq, Repr

namespace Buffer

def make (sep : UInt16) : Buffer := ⟨[], sep⟩

def append (b : Buffer) (data : Bytes) : Buffer := { b with buf := b.buf ++ data }

-- `(char*)&size, 4`: the low half of a 64-bit little-endian size_t.
def sizeHeader (size : Nat) : Bytes := (littleEndian 8 size).take 4

def appendwithsep (b : Buffer) (data : Bytes) : Buffer :=
  if b.sep = 0 then { b with buf := b.buf ++ data }
  else if b.sep = 1 then { b with buf := b.buf ++ sizeHeader data.length ++ data }
  else if b.sep = 2 then { b with buf := b.buf ++ sizeHeader data.length ++ data }
  else b

def erase (b : Buffer) (pos nn : Nat) : Except Stop Buffer := do
  return { b with buf := ← eraseString b.buf pos nn }

-- memcpy reads four bytes whatever the size: first the terminator, then `stale` memory.
def header (stale : Nat → UInt8) (b : Buffer) : Int :=
  toSigned 32 (ofLittleEndian (load stale (b.buf ++ [0]) 4))

def pickmessage (stale : Nat → UInt8) (b : Buffer) (ss : Bytes) :
    Except Stop (Bool × Buffer × Bytes) :=
  if b.buf.length = 0 then .ok (false, b, ss)
  else if b.sep = 0 then .ok (true, b, ss)
  else if b.sep = 1 then do
    let len := b.header stale
    let total := toUnsigned 64 (toSigned 32 (len + 4))
    if b.buf.length < total then return (false, b, ss)
    let message ← substr b.buf 4 (toUnsigned 64 len)
    let rest ← b.erase 0 total
    return (true, rest, message)
  else if b.sep = 2 then .ok (true, b, ss)
  else .ok (true, b, ss)

def frame (m : Bytes) : Bytes := sizeHeader m.length ++ m

@[simp] theorem append_buf (b : Buffer) (data : Bytes) : (b.append data).buf = b.buf ++ data := rfl

@[simp] theorem append_sep (b : Buffer) (data : Bytes) : (b.append data).sep = b.sep := rfl

theorem sizeHeader_eq (size : Nat) : sizeHeader size = littleEndian 4 size :=
  littleEndian_take 4 4 size

@[simp] theorem sizeHeader_length (size : Nat) : (sizeHeader size).length = 4 := by
  simp [sizeHeader_eq]

@[simp] theorem frame_length (m : Bytes) : (frame m).length = m.length + 4 := by
  simp [frame, Nat.add_comm]

theorem appendwithsep_one {b : Buffer} (sep : b.sep = 1) (data : Bytes) :
    b.appendwithsep data = { b with buf := b.buf ++ frame data } := by
  simp [appendwithsep, sep, frame]

theorem erase_front (b : Buffer) (nn : Nat) : b.erase 0 nn = .ok { b with buf := b.buf.drop nn } := by
  simp [erase, eraseString]

theorem header_of_sizeHeader (stale : Nat → UInt8) {m rest : Bytes} {sep : UInt16}
    (bound : m.length ≤ 2 ^ 31 - 5) :
    header stale ⟨sizeHeader m.length ++ rest, sep⟩ = m.length := by
  have read : load stale (sizeHeader m.length ++ rest ++ [0]) 4 = sizeHeader m.length := by
    rw [load_inside stale (by simp), List.append_assoc,
      List.take_append_of_le_length (by simp), List.take_of_length_le (by simp)]
  rw [header, read, sizeHeader_eq, ofLittleEndian_littleEndian, Nat.mod_eq_of_lt (by omega)]
  exact toSigned_eq_self (by omega) (by omega)

theorem pickmessage_frame (stale : Nat → UInt8) (ss : Bytes) {m rest : Bytes}
    (bound : m.length ≤ 2 ^ 31 - 5) :
    pickmessage stale ⟨frame m ++ rest, 1⟩ ss = .ok (true, ⟨rest, 1⟩, m) := by
  have len : header stale ⟨frame m ++ rest, 1⟩ = m.length := by
    rw [frame, List.append_assoc]
    exact header_of_sizeHeader stale bound
  have total : toUnsigned 64 (toSigned 32 ((m.length : Int) + 4)) = m.length + 4 := by
    rw [toSigned_eq_self (by omega) (by omega)]
    exact_mod_cast toUnsigned_eq_self (n := m.length + 4) (by omega)
  have count : toUnsigned 64 (m.length : Int) = m.length := toUnsigned_eq_self (by omega)
  have nonempty : (frame m ++ rest).length ≠ 0 := by simp
  have enough : ¬ (frame m ++ rest).length < m.length + 4 := by simp
  have body : (frame m ++ rest).drop 4 = m ++ rest := by
    rw [frame, List.append_assoc]
    exact List.drop_left' (by simp)
  have after : (frame m ++ rest).drop (m.length + 4) = rest := List.drop_left' (by simp)
  simp only [pickmessage, nonempty, if_false, len, total, count, enough, erase_front, after, substr,
    body, List.take_left, show ¬ (frame m ++ rest).length < 4 by simp; omega]
  rfl

-- No residue of fewer than four bytes can look like a frame: the terminator is one of the four read.
theorem pickmessage_short (stale : Nat → UInt8) (ss : Bytes) {buf : Bytes} (short : buf.length < 4) :
    pickmessage stale ⟨buf, 1⟩ ss = .ok (false, ⟨buf, 1⟩, ss) := by
  by_cases empty : buf.length = 0
  · simp [pickmessage, empty]
  · have guard : buf.length < toUnsigned 64 (toSigned 32 (header stale ⟨buf, 1⟩ + 4)) := by
      have byte (b : UInt8) : b.toNat < 256 := b.toNat_lt
      rcases buf with _ | ⟨b₀, _ | ⟨b₁, _ | ⟨b₂, _ | ⟨b₃, buf⟩⟩⟩⟩
      · simp at empty
      · have h₀ := byte b₀
        have h₂ := byte (stale 2)
        have h₃ := byte (stale 3)
        simp [header, load, ofLittleEndian, toSigned, toUnsigned, Int.bmod, List.range_succ]
        omega
      · have h₀ := byte b₀
        have h₁ := byte b₁
        have h₃ := byte (stale 3)
        simp [header, load, ofLittleEndian, toSigned, toUnsigned, Int.bmod, List.range_succ]
        omega
      · have h₀ := byte b₀
        have h₁ := byte b₁
        have h₂ := byte b₂
        simp [header, load, ofLittleEndian, toSigned, toUnsigned, Int.bmod]
        omega
      · simp at short
        omega
    simp only [pickmessage, empty, if_false, guard, if_true]
    rfl

theorem pickmessage_partial (stale : Nat → UInt8) (ss : Bytes) {m residue post : Bytes}
    (bound : m.length ≤ 2 ^ 31 - 5) (whole : frame m = residue ++ post) (missing : post ≠ []) :
    pickmessage stale ⟨residue, 1⟩ ss = .ok (false, ⟨residue, 1⟩, ss) := by
  by_cases short : residue.length < 4
  · exact pickmessage_short stale ss short
  · have size : residue.length + post.length = m.length + 4 := by
      rw [← frame_length, whole, List.length_append]
    have some : 0 < post.length := List.length_pos_iff.mpr missing
    obtain ⟨body, rfl⟩ : ∃ body, residue = sizeHeader m.length ++ body := by
      have ofResidue : residue <+: frame m := ⟨post, whole.symm⟩
      obtain ⟨body, h⟩ := List.prefix_of_prefix_length_le (⟨m, rfl⟩ : sizeHeader m.length <+: frame m)
        ofResidue (by simp; omega)
      exact ⟨body, h.symm⟩
    have len := @header_of_sizeHeader stale m body 1 bound
    have guard : (sizeHeader m.length ++ body).length < toUnsigned 64 (toSigned 32 ((m.length : Int) + 4)) := by
      simp only [toSigned, toUnsigned, Int.bmod]
      omega
    have nonempty : (sizeHeader m.length ++ body).length ≠ 0 := by simp
    simp only [pickmessage, nonempty, if_false, len, guard, if_true]
    rfl

end Buffer

end Reactor
