import ReactorServer.Connection

set_option autoImplicit false

namespace Reactor

open ByteString Framing

namespace Connection

theorem drain_frames (onmessagecallback : Bytes → Bytes) (stale : Nat → Nat → UInt8)
    {later : List Bytes} {residue : Bytes} (sizes : ∀ m ∈ later, m.length ≤ 2 ^ 31 - 5)
    (rest : ∀ stale ss, Buffer.pickmessage stale ⟨residue, 1⟩ ss = .ok (false, ⟨residue, 1⟩, ss))
    {fuel : Nat} (enough : later.length < fuel) (message : Bytes) :
    ∃ last, drain onmessagecallback stale fuel ⟨stream Buffer.frame later ++ residue, 1⟩ message =
      .ok (later, ⟨residue, 1⟩, last) := by
  induction later generalizing fuel message with
  | nil =>
    obtain ⟨fuel, rfl⟩ := Nat.exists_eq_add_one_of_ne_zero (Nat.ne_of_gt enough)
    refine ⟨message, ?_⟩
    rw [stream_nil, List.nil_append, drain, rest, ok_bind]
    rfl
  | cons m later ih =>
    obtain ⟨fuel, rfl⟩ := Nat.exists_eq_add_one_of_ne_zero (Nat.ne_zero_of_lt enough)
    have picked := @Buffer.pickmessage_frame (stale fuel) message m
      (stream Buffer.frame later ++ residue) (sizes m List.mem_cons_self)
    obtain ⟨last, h⟩ := ih (fun m' member => sizes m' (List.mem_cons_of_mem m member))
      (by simpa using enough) (onmessagecallback m)
    refine ⟨last, ?_⟩
    rw [stream_cons, List.append_assoc, drain, picked, ok_bind]
    simp only [if_true, h, ok_bind, pure_eq_ok]

end Connection

namespace Buffer

theorem pickmessage_pending {msgs : List Bytes} (sizes : ∀ m ∈ msgs, m.length ≤ 2 ^ 31 - 5)
    {residue : Bytes} (pending : Pending frame msgs residue) (stale : Nat → UInt8) (ss : Bytes) :
    pickmessage stale ⟨residue, 1⟩ ss = .ok (false, ⟨residue, 1⟩, ss) := by
  rcases pending with rfl | ⟨m, member, post, whole, missing⟩
  · rfl
  · exact pickmessage_partial stale ss (sizes m member) whole missing

def encoded (msgs : List Bytes) : Bytes := (msgs.foldl appendwithsep (make 1)).buf

theorem encoded_eq_stream (msgs : List Bytes) : encoded msgs = stream frame msgs := by
  have grow (b : Buffer) (sep : b.sep = 1) :
      (msgs.foldl appendwithsep b).buf = b.buf ++ stream frame msgs := by
    induction msgs generalizing b with
    | nil => simp
    | cons m msgs ih =>
      rw [List.foldl_cons, appendwithsep_one sep, ih ⟨b.buf ++ frame m, b.sep⟩ sep]
      simp
  exact grow (make 1) rfl

end Buffer

structure Receiver where
  fed : Bytes
  delivered : List Bytes
  inputbuffer : Buffer
  deriving DecidableEq, Repr

namespace Receiver

open Buffer

def make : Receiver := ⟨[], [], .make 1⟩

def append (r : Receiver) (chunk : Bytes) : Receiver :=
  { r with fed := r.fed ++ chunk, inputbuffer := r.inputbuffer.append chunk }

def drain (onmessagecallback : Bytes → Bytes) (stale : Nat → Nat → UInt8) (fuel : Nat)
    (r : Receiver) : Except Stop Receiver := do
  let (messages, inputbuffer, _) ←
    Connection.drain onmessagecallback stale fuel r.inputbuffer []
  return { r with delivered := r.delivered ++ messages, inputbuffer := inputbuffer }

-- Each chunk comes with whether a drain follows it; the log has the receiver after every drain,
-- the one after the last chunk included.
def receive (onmessagecallback : Bytes → Bytes) (stale : Nat → Nat → Nat → UInt8) (fuel : Nat) :
    List (Bytes × Bool) → Receiver → Except Stop (List Receiver)
  | [], r => do
    let r ← r.drain onmessagecallback (stale 0) fuel
    return [r]
  | (chunk, drained) :: script, r => do
    let r := r.append chunk
    if drained then
      let r ← r.drain onmessagecallback (stale (script.length + 1)) fuel
      let log ← receive onmessagecallback stale fuel script r
      return r :: log
    else receive onmessagecallback stale fuel script r

structure Fed (msgs : List Bytes) (r : Receiver) : Prop where
  sep : r.inputbuffer.sep = 1
  held : stream frame r.delivered ++ r.inputbuffer.buf = r.fed
  earlier : ∃ n, n ≤ r.fed.length ∧ r.delivered = complete frame msgs n

structure Drained (msgs : List Bytes) (r : Receiver) : Prop extends Fed msgs r where
  delivered_complete : r.delivered = complete frame msgs r.fed.length

theorem make_fed (msgs : List Bytes) : Fed msgs make := by
  refine ⟨rfl, rfl, 0, le_rfl, ?_⟩
  cases msgs with
  | nil => rfl
  | cons m msgs => simp [make, complete]

theorem append_fed {msgs : List Bytes} {r : Receiver} (fed : r.Fed msgs) (chunk : Bytes) :
    (r.append chunk).Fed msgs := by
  obtain ⟨sep, held, n, before, delivered⟩ := fed
  refine ⟨sep, ?_, n, ?_, delivered⟩
  · simp [append, ← held]
  · simp only [append, List.length_append]
    omega

variable (onmessagecallback : Bytes → Bytes) {fuel : Nat} {msgs : List Bytes}

theorem drain_fed (stale : Nat → Nat → UInt8) (sizes : ∀ m ∈ msgs, m.length ≤ 2 ^ 31 - 5)
    (enough : msgs.length < fuel) {r : Receiver} {unfed : Bytes}
    (cut : r.fed ++ unfed = stream frame msgs) (fed : r.Fed msgs) :
    ∃ r', r.drain onmessagecallback stale fuel = .ok r' ∧ r'.fed = r.fed ∧ r'.Drained msgs := by
  obtain ⟨fedBytes, delivered, buf, sep⟩ := r
  obtain ⟨rfl, held, n, before, rfl⟩ := fed
  obtain ⟨extra, residue, rfl, pending, grown⟩ := buffered_split frame cut before held
  have front := complete_prefix frame msgs fedBytes.length
  rw [grown] at front
  have few : extra.length < fuel := by
    have count := front.length_le
    rw [List.length_append] at count
    omega
  obtain ⟨last, picked⟩ := Connection.drain_frames onmessagecallback stale
    (fun m member => sizes m (front.subset (List.mem_append_right _ member)))
    (pickmessage_pending sizes pending) few []
  refine ⟨⟨fedBytes, complete frame msgs n ++ extra, ⟨residue, 1⟩⟩, ?_, rfl, ⟨rfl, ?_, ?_⟩, grown.symm⟩
  · rw [drain, picked]
    rfl
  · simpa using held
  · exact ⟨fedBytes.length, le_rfl, grown.symm⟩

theorem receive_drained (stale : Nat → Nat → Nat → UInt8)
    (sizes : ∀ m ∈ msgs, m.length ≤ 2 ^ 31 - 5) (enough : msgs.length < fuel)
    (script : List (Bytes × Bool)) {r : Receiver} {unfed : Bytes}
    (cut : r.fed ++ (script.map Prod.fst).flatten ++ unfed = stream frame msgs) (fed : r.Fed msgs) :
    ∃ log last, receive onmessagecallback stale fuel script r = .ok (log ++ [last]) ∧
      last.fed = r.fed ++ (script.map Prod.fst).flatten ∧
      ∀ r' ∈ log ++ [last], r'.Drained msgs := by
  induction script generalizing r with
  | nil =>
    obtain ⟨last, drained, same, complete⟩ :=
      drain_fed onmessagecallback (stale 0) sizes enough (by simpa using cut) fed
    refine ⟨[], last, ?_, by simpa using same, by simpa using complete⟩
    rw [receive, drained]
    rfl
  | cons entry script ih =>
    obtain ⟨chunk, flag⟩ := entry
    have bytes : r.fed ++ (((chunk, flag) :: script).map Prod.fst).flatten =
        (r.append chunk).fed ++ (script.map Prod.fst).flatten := by simp [append]
    have later := append_fed fed chunk
    rw [bytes] at cut ⊢
    cases flag with
    | false => exact ih cut later
    | true =>
      obtain ⟨next, drained, same, complete⟩ :=
        drain_fed onmessagecallback (stale (script.length + 1)) sizes enough
          (by rw [← List.append_assoc]; exact cut) later
      rw [← same] at cut ⊢
      obtain ⟨log, last, received, total, all⟩ := ih cut complete.toFed
      refine ⟨next :: log, last, ?_, total, ?_⟩
      · rw [receive, if_pos rfl, drained, ok_bind, received]
        rfl
      · simpa using ⟨complete, by simpa using all⟩

theorem fragmented_stream_delivered (stale : Nat → Nat → Nat → UInt8)
    (sizes : ∀ m ∈ msgs, m.length ≤ 2 ^ 31 - 5) (script : List (Bytes × Bool))
    (cut : (script.map Prod.fst).flatten = encoded msgs) (enough : msgs.length < fuel) :
    ∃ log last, receive onmessagecallback stale fuel script make = .ok (log ++ [last]) ∧
      (∀ r ∈ log ++ [last], r.delivered = complete frame msgs r.fed.length) ∧
      last.delivered = msgs ∧ last.inputbuffer.buf = [] := by
  rw [encoded_eq_stream] at cut
  have whole : make.fed ++ (script.map Prod.fst).flatten ++ [] = stream frame msgs := by
    simpa [make] using cut
  obtain ⟨log, last, received, total, all⟩ :=
    receive_drained onmessagecallback stale sizes enough script whole (make_fed msgs)
  have ended : last.fed = stream frame msgs := by simpa [total] using whole
  have final := all last (by simp)
  have delivered : last.delivered = msgs := by
    rw [final.delivered_complete, ended]
    exact complete_all frame msgs le_rfl
  have empty := final.held
  rw [delivered, ended] at empty
  exact ⟨log, last, received, fun r member => (all r member).delivered_complete, delivered,
    List.append_right_eq_self.mp empty⟩

-- A cut inside the header, then one inside the body; stale memory is all ones.
theorem fragmented_stream_delivered_header_cut :
    ∃ log last, receive id (fun _ _ _ => 255) 3
        [([3, 0], true), ([0, 0, 7], false), ([0, 9, 0, 0], true), ([0, 0], false)] make =
          .ok (log ++ [last]) ∧
      (∀ r ∈ log ++ [last], r.delivered = complete frame [[7, 0, 9], []] r.fed.length) ∧
      last.delivered = [[7, 0, 9], []] ∧ last.inputbuffer.buf = [] :=
  fragmented_stream_delivered id (fun _ _ _ => 255) (by decide) _ (by decide) (by decide)

end Receiver

end Reactor
