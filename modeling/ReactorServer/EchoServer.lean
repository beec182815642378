import ReactorServer.Connection

set_option autoImplicit false

namespace Reactor

open ByteString

def ascii (s : String) : Bytes := s.toList.map fun c => UInt8.ofNat c.toNat

-- Where HandleMessage sends a request, with what it leaves in `message`.
inductive Handled where
  | inloop (message : Bytes)
  | task (message : Bytes)
  deriving DecidableEq, Repr

def handleMessage (threadnum : Nat) (message : Bytes) : Handled :=
  if threadnum = 0 then .inloop (ascii "IO thread " ++ message)
  else .task (ascii "WORK thread " ++ message)

def onMessage (message : Bytes) : Bytes := ascii "reply:" ++ message

-- What a client is to get for a request that goes through a work thread.
def workReply (request : Bytes) : Bytes := ascii "reply:WORK thread " ++ request

theorem onMessage_work (request : Bytes) :
    onMessage (ascii "WORK thread " ++ request) = workReply request := rfl

theorem text_zero_free : 0 ∉ ascii "reply:WORK thread " := by decide

namespace Connection

def established (fd now : Int) : Connection :=
  ⟨⟨fd, true, EPOLLIN, 0⟩, .make 1, .make 1, false, now⟩

theorem make_fresh {ep : Interest} {fd : Int} (fresh : ep fd = none) (now : Int) :
    make ep fd now = .ok (Function.update ep fd (some EPOLLIN), established fd now) := by
  simp [make, Channel.make, Channel.enablereading, Channel.setevents, updatechannel, epollCtl, fresh,
    established]

-- Whatever lies beyond the copy made by strdup, and whatever became of the open connection since the
-- send, the closure that `send` queued appends the size and the bytes of `message`.
def QueuedExactly (message : Bytes) : Prop :=
  ∀ (before now : Connection) (ep : Interest) (dataCopy : Bytes) (size : Nat) (beyond : Nat → UInt8),
    before.send false message = .queued dataCopy size →
    now.outputbuffer.sep = 1 → now.channel.Registered ep →
    ∃ ep' after header, sendinloop beyond ep now dataCopy size = .ok (ep', after) ∧
      header.length = 4 ∧ ofLittleEndian header = message.length ∧
      after.outputbuffer.buf = now.outputbuffer.buf ++ header ++ message

theorem queuedExactly_iff {message : Bytes} (bound : message.length < 2 ^ 32) :
    QueuedExactly message ↔ ∀ beyond, load beyond (strdup message) message.length = message := by
  constructor
  · intro exact beyond
    obtain ⟨ep', after, header, sent, width, -, appended⟩ :=
      exact (established 5 0) (established 5 0) (Function.update (fun _ => none) 5 (some EPOLLIN))
        (strdup message) message.length beyond rfl rfl ⟨rfl, rfl⟩
    rw [sendinloop_registered ⟨rfl, rfl⟩ rfl] at sent
    cases sent
    have bytes : Buffer.sizeHeader (load beyond (strdup message) message.length).length ++
        load beyond (strdup message) message.length = header ++ message := appended
    exact (List.append_inj bytes (by simp [width])).2
  · intro read before now ep dataCopy size beyond queued sep registered
    have copied : dataCopy = strdup message ∧ size = message.length := by
      simp only [send] at queued
      split at queued
      · cases queued
      · cases queued
        exact ⟨rfl, rfl⟩
    obtain ⟨rfl, rfl⟩ := copied
    refine ⟨_, _, Buffer.sizeHeader message.length, sendinloop_registered registered sep _ _ _,
      by simp, ?_, ?_⟩
    · rw [Buffer.sizeHeader_eq, ofLittleEndian_littleEndian]
      exact Nat.mod_eq_of_lt bound
    · simp [read beyond, Buffer.frame]

theorem workReply_zero_free (request : Bytes) :
    0 ∉ (workReply request).dropLast ↔ 0 ∉ request.dropLast := by
  rw [workReply]
  cases request with
  | nil => simpa using fun member => text_zero_free (List.dropLast_subset _ member)
  | cons b request =>
    rw [List.dropLast_append_of_ne_nil (List.cons_ne_nil b request), List.mem_append, not_or]
    exact and_iff_right text_zero_free

theorem queued_send_exact_iff {message : Bytes} (bound : message.length ≤ 2 ^ 31 - 5) :
    (QueuedExactly message ↔ 0 ∉ message.dropLast) ∧
      (QueuedExactly (onMessage (ascii "WORK thread " ++ message)) ↔ 0 ∉ message.dropLast) := by
  have reply : (workReply message).length = message.length + 18 := by
    have text : (ascii "reply:WORK thread ").length = 18 := by decide
    rw [workReply, List.length_append, text, Nat.add_comm]
  refine ⟨?_, ?_⟩
  · rw [queuedExactly_iff (by omega), load_strdup_exact_iff]
  · rw [onMessage_work, queuedExactly_iff (by omega), load_strdup_exact_iff, workReply_zero_free]

theorem queued_send_exact_hello :
    (QueuedExactly [104, 0] ↔ 0 ∉ [(104 : UInt8), 0].dropLast) ∧
      (QueuedExactly (onMessage (ascii "WORK thread " ++ [104, 0])) ↔ 0 ∉ [(104 : UInt8), 0].dropLast) :=
  queued_send_exact_iff (by decide)

-- The zero byte in front ends the copy: the second byte comes from beyond it.
theorem queued_send_truncated : ¬ QueuedExactly [0, 65] := by
  intro exact
  obtain ⟨ep', after, header, sent, width, -, appended⟩ :=
    exact (established 5 0) (established 5 0) (Function.update (fun _ => none) 5 (some EPOLLIN))
      [0] 2 (fun _ => 66) (by decide) rfl ⟨rfl, rfl⟩
  rw [sendinloop_registered ⟨rfl, rfl⟩ rfl] at sent
  cases sent
  have bytes : [2, 0, 0, 0] ++ [0, 66] = header ++ [0, 65] := appended
  have last := (List.append_inj bytes (by simp [width])).2
  exact absurd last (by decide)

end Connection

end Reactor
