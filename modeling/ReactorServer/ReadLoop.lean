import ReactorServer.Fragmentation
import ReactorServer.Notifications

set_option autoImplicit false

namespace Reactor

open ByteString Framing

def EINTR : Nat := 4
def EAGAIN : Nat := 11
def EWOULDBLOCK : Nat := 11

-- `nread` and, where it is -1, `errno`.
inductive ReadResult where
  | data (buffer : Bytes) (size : 0 < buffer.length ∧ buffer.length ≤ 1024)
  | eof
  | failed (errno : Nat)
  deriving DecidableEq

namespace ReadResult

def bytes : ReadResult → Bytes
  | .data buffer _ => buffer
  | _ => []

def leaves : ReadResult → Bool
  | .data _ _ => false
  | .eof => true
  | .failed errno => errno = EAGAIN ∨ errno = EWOULDBLOCK

def Broken : ReadResult → Prop
  | .data _ _ => False
  | .eof => True
  | .failed errno => errno ≠ EINTR ∧ errno ≠ EAGAIN ∧ errno ≠ EWOULDBLOCK

def Transient : ReadResult → Prop
  | .data _ _ => True
  | .eof => False
  | .failed errno => errno = EINTR

theorem broken_of_stays {r : ReadResult} (settled : ¬ r.Transient) (stays : r.leaves = false) :
    r.Broken ∧ r ≠ .eof := by
  cases r with
  | data buffer size => exact absurd trivial settled
  | eof => cases stays
  | failed errno =>
    have other : ¬ (errno = EAGAIN ∨ errno = EWOULDBLOCK) := by simpa [leaves] using stays
    exact ⟨⟨settled, not_or.mp other⟩, by simp⟩

def received (results : List ReadResult) : Bytes := results.flatMap bytes

end ReadResult

namespace Connection

open ReadResult

variable (onmessagecallback : Bytes → Bytes) (stale : Nat → Nat → UInt8) (fuel : Nat) (now : Int)

-- Out of fuel where the results end: the loop goes on to the next read. The last branch of the source
-- is for nread == 0; a read that failed in any other way passes them all.
def onmessage (ep : Interest) (c : Connection) :
    List ReadResult → Except Stop (Interest × Connection × List Notice)
  | [] => .error .outOfFuel
  | .data buffer _ :: results =>
    onmessage ep { c with inputbuffer := c.inputbuffer.append buffer } results
  | .failed errno :: results =>
    if errno = EINTR then onmessage ep c results
    else if errno = EAGAIN ∨ errno = EWOULDBLOCK then do
      let (messages, inputbuffer, _) ← drain onmessagecallback stale fuel c.inputbuffer []
      let lasttime := if messages = [] then c.lasttime else now
      return (ep, { c with inputbuffer := inputbuffer, lasttime := lasttime }, messages.map .message)
    else onmessage ep c results
  | .eof :: _ => do
    let (ep, c) ← c.closecallback ep
    return (ep, c, [.closed])

variable {ep : Interest} {c : Connection}

theorem onmessage_reads {results : List ReadResult} (going : ∀ r ∈ results, r.leaves = false)
    (more : List ReadResult) :
    onmessage onmessagecallback stale fuel now ep c (results ++ more) =
      onmessage onmessagecallback stale fuel now ep
        { c with inputbuffer := c.inputbuffer.append (received results) } more := by
  induction results generalizing c with
  | nil => simp [received, Buffer.append]
  | cons r results ih =>
    have later := fun r member => going r (List.mem_cons_of_mem _ member)
    have here := going r List.mem_cons_self
    cases r with
    | data buffer size =>
      rw [List.cons_append, onmessage, ih later]
      simp [received, bytes, Buffer.append]
    | eof => cases here
    | failed errno =>
      have other : ¬ (errno = EAGAIN ∨ errno = EWOULDBLOCK) := by simpa [leaves] using here
      have skipped : onmessage onmessagecallback stale fuel now ep c (.failed errno :: (results ++ more)) =
          onmessage onmessagecallback stale fuel now ep c (results ++ more) := by
        rw [onmessage, if_neg other]
        split <;> rfl
      rw [List.cons_append, skipped, ih later]
      simp [received, bytes]

theorem onmessage_pending {results : List ReadResult} (going : ∀ r ∈ results, r.leaves = false) :
    onmessage onmessagecallback stale fuel now ep c results = .error .outOfFuel := by
  have all : onmessage onmessagecallback stale fuel now ep c (results ++ []) = _ :=
    onmessage_reads onmessagecallback stale fuel now going []
  rw [List.append_nil] at all
  rw [all, onmessage]

theorem onmessage_eof (registered : c.channel.Registered ep) (more : List ReadResult) :
    ∃ ep' c', onmessage onmessagecallback stale fuel now ep c (.eof :: more) = .ok (ep', c', [.closed]) := by
  simp only [onmessage, closecallback, disconnectchannel_registered registered, ok_bind]
  exact ⟨_, _, rfl⟩

theorem onmessage_drained (ep : Interest) {msgs : List Bytes} {unfed : Bytes}
    (sizes : ∀ m ∈ msgs, m.length ≤ 2 ^ 31 - 5)
    (sep : c.inputbuffer.sep = 1) (cut : c.inputbuffer.buf ++ unfed = stream Buffer.frame msgs)
    (enough : msgs.length < fuel) {errno : Nat} (ends : errno = EAGAIN ∨ errno = EWOULDBLOCK)
    (more : List ReadResult) :
    ∃ ep' c', onmessage onmessagecallback stale fuel now ep c (.failed errno :: more) =
      .ok (ep', c', (complete Buffer.frame msgs c.inputbuffer.buf.length).map .message) := by
  obtain ⟨channel, ⟨buf, sep₁⟩, outputbuffer, disconnect, lasttime⟩ := c
  dsimp only at sep cut
  subst sep
  obtain ⟨residue, split, pending⟩ := stream_cut Buffer.frame cut
  have front := complete_prefix Buffer.frame msgs buf.length
  obtain ⟨last, picked⟩ := drain_frames onmessagecallback stale
    (fun m member => sizes m (front.subset member)) (Buffer.pickmessage_pending sizes pending)
    (Nat.lt_of_le_of_lt front.length_le enough) []
  have interrupted : errno ≠ EINTR := by
    rcases ends with rfl | rfl <;> decide
  rw [← split] at picked
  simp only [onmessage, interrupted, if_false, ends, if_true, picked, ok_bind]
  exact ⟨_, _, rfl⟩

-- Every frame that is complete in the bytes there are is delivered in order, before the close.
def Delivers (msgs : List Bytes) (ep : Interest) (c : Connection) (results : List ReadResult)
    (last : ReadResult) :
    Prop :=
  ∃ fuel ep' c', onmessage onmessagecallback stale fuel now ep c (results ++ [last]) =
    .ok (ep', c',
      (complete Buffer.frame msgs (c.inputbuffer.buf ++ received results).length).map .message ++
        if last = .eof then [.closed] else [])

theorem delivered_before_return_iff {msgs : List Bytes} {unfed : Bytes} {results : List ReadResult}
    {last : ReadResult} (sizes : ∀ m ∈ msgs, m.length ≤ 2 ^ 31 - 5) (registered : c.channel.Registered ep)
    (sep : c.inputbuffer.sep = 1)
    (cut : c.inputbuffer.buf ++ received results ++ unfed = stream Buffer.frame msgs)
    (going : ∀ r ∈ results, r.leaves = false) (ends : last.leaves = true) :
    Delivers onmessagecallback stale now msgs ep c results last ↔
      (last = .eof → complete Buffer.frame msgs (c.inputbuffer.buf ++ received results).length = []) := by
  let c' := { c with inputbuffer := c.inputbuffer.append (received results) }
  have reads (fuel : Nat) : onmessage onmessagecallback stale fuel now ep c (results ++ [last]) =
      onmessage onmessagecallback stale fuel now ep c' [last] :=
    onmessage_reads onmessagecallback stale fuel now going [last]
  cases last with
  | data buffer size => cases ends
  | eof =>
    constructor
    · intro delivers _
      obtain ⟨fuel, ep₁, c₁, returned⟩ := delivers
      obtain ⟨ep₂, c₂, closed⟩ := onmessage_eof onmessagecallback stale fuel now (c := c') registered []
      rw [reads, closed, Except.ok.injEq, Prod.mk.injEq, Prod.mk.injEq] at returned
      simpa using returned.2.2
    · intro none
      obtain ⟨ep₁, c₁, closed⟩ := onmessage_eof onmessagecallback stale 0 now (c := c') registered []
      refine ⟨0, ep₁, c₁, ?_⟩
      rw [reads, closed, none rfl]
      rfl
  | failed errno =>
    have other : errno = EAGAIN ∨ errno = EWOULDBLOCK := by simpa [leaves] using ends
    obtain ⟨ep₁, c₁, drained⟩ := onmessage_drained onmessagecallback stale (msgs.length + 1) now (c := c')
      ep sizes sep cut (Nat.lt_succ_self _) other []
    refine iff_of_true ⟨msgs.length + 1, ep₁, c₁, ?_⟩ (fun eof => by cases eof)
    rw [reads, drained]
    simp [c', Buffer.append]

-- The frame is in the buffer when read returns 0, and closecallback_ is all that is called.
theorem frame_before_eof_lost :
    complete Buffer.frame [[104, 105]] [2, 0, 0, 0, 104, 105].length = [[104, 105]] ∧
      ∀ fuel, (onmessage id (fun _ _ => 0) fuel 0 (Function.update (fun _ => none) 5 (some EPOLLIN))
        (established 5 0) [.data [2, 0, 0, 0, 104, 105] (by decide), .eof]).map (fun r => r.2.2) =
          .ok [.closed] :=
  ⟨by decide, fun _ => rfl⟩

theorem delivered_before_return_again :
    Delivers id (fun _ _ => 0) 7 [[104, 105]] (Function.update (fun _ => none) 5 (some EPOLLIN))
        (established 5 0) [.data [2, 0, 0] (by decide), .failed EINTR, .data [0, 104, 105] (by decide)]
        (.failed EAGAIN) ↔
      (ReadResult.failed EAGAIN = .eof → complete Buffer.frame [[104, 105]] 6 = []) :=
  delivered_before_return_iff id (fun _ _ => 0) 7 (by decide) ⟨rfl, rfl⟩ rfl
    (show _ ++ [] = _ by decide) (by decide) rfl

def upto (reads : Nat → ReadResult) (k : Nat) : List ReadResult := (List.range k).map reads

theorem upto_succ (reads : Nat → ReadResult) (k : Nat) : upto reads (k + 1) = upto reads k ++ [reads k] := by
  simp [upto, List.range_succ]

def Returns (ep : Interest) (c : Connection) (reads : Nat → ReadResult) : Prop :=
  ∃ k fuel ep' c' notices,
    onmessage onmessagecallback stale fuel now ep c (upto reads (k + 1)) = .ok (ep', c', notices) ∧
      (∀ fuel, onmessage onmessagecallback stale fuel now ep c (upto reads k) = .error .outOfFuel) ∧
      ((reads k).Broken → notices.countP Notice.final = 1)

theorem onmessage_leaves {msgs : List Bytes} {unfed : Bytes} {last : ReadResult}
    (sizes : ∀ m ∈ msgs, m.length ≤ 2 ^ 31 - 5) (registered : c.channel.Registered ep)
    (sep : c.inputbuffer.sep = 1) (cut : c.inputbuffer.buf ++ unfed = stream Buffer.frame msgs)
    (ends : last.leaves = true) :
    ∃ fuel ep' c' notices, onmessage onmessagecallback stale fuel now ep c [last] = .ok (ep', c', notices) ∧
      (last.Broken → notices.countP Notice.final = 1) := by
  cases last with
  | data buffer size => cases ends
  | eof =>
    obtain ⟨ep', c', closed⟩ := onmessage_eof onmessagecallback stale 0 now registered []
    exact ⟨0, ep', c', [.closed], closed, fun _ => rfl⟩
  | failed errno =>
    have other : errno = EAGAIN ∨ errno = EWOULDBLOCK := by simpa [leaves] using ends
    obtain ⟨ep', c', drained⟩ := onmessage_drained onmessagecallback stale (msgs.length + 1) now ep sizes sep
      cut (Nat.lt_succ_self _) other []
    refine ⟨msgs.length + 1, ep', c', _, drained, fun broken => ?_⟩
    rcases other with same | same
    · exact absurd same broken.2.1
    · exact absurd same broken.2.2

theorem returns_iff_leaves {reads : Nat → ReadResult} {msgs : List Bytes}
    (sizes : ∀ m ∈ msgs, m.length ≤ 2 ^ 31 - 5) (registered : c.channel.Registered ep)
    (sep : c.inputbuffer.sep = 1)
    (framed : ∀ k, c.inputbuffer.buf ++ received (upto reads k) <+: stream Buffer.frame msgs) :
    Returns onmessagecallback stale now ep c reads ↔ ∃ k, (reads k).leaves = true := by
  have pending (k : Nat) (going : ∀ j < k, (reads j).leaves = false) :
      ∀ r ∈ upto reads k, r.leaves = false := by
    intro r member
    obtain ⟨j, before, rfl⟩ := List.mem_map.mp member
    exact going j (List.mem_range.mp before)
  constructor
  · intro returns
    obtain ⟨k, fuel, ep', c', notices, returned, -⟩ := returns
    by_contra never
    have going (j : Nat) (_ : j < k + 1) : (reads j).leaves = false := by
      simpa using not_exists.mp never j
    rw [onmessage_pending onmessagecallback stale fuel now (pending (k + 1) going)] at returned
    cases returned
  · intro exits
    classical
    let k := Nat.find exits
    have ends : (reads k).leaves = true := Nat.find_spec exits
    have going : ∀ r ∈ upto reads k, r.leaves = false :=
      pending k fun j before => by simpa using Nat.find_min exits before
    let c₁ := { c with inputbuffer := c.inputbuffer.append (received (upto reads k)) }
    have first (fuel : Nat) : onmessage onmessagecallback stale fuel now ep c (upto reads (k + 1)) =
        onmessage onmessagecallback stale fuel now ep c₁ [reads k] := by
      rw [upto_succ]
      exact onmessage_reads onmessagecallback stale fuel now going [reads k]
    have before (fuel : Nat) : onmessage onmessagecallback stale fuel now ep c (upto reads k) =
        .error .outOfFuel :=
      onmessage_pending onmessagecallback stale fuel now going
    obtain ⟨unfed, cut⟩ := framed k
    obtain ⟨fuel, ep', c', notices, returned, closed⟩ :=
      onmessage_leaves onmessagecallback stale now (c := c₁) sizes registered sep cut ends
    exact ⟨k, fuel, ep', c', notices, (first fuel).trans returned, before, closed⟩

theorem returns_iff {reads : Nat → ReadResult} {msgs : List Bytes}
    (sizes : ∀ m ∈ msgs, m.length ≤ 2 ^ 31 - 5) (registered : c.channel.Registered ep)
    (sep : c.inputbuffer.sep = 1)
    (framed : ∀ k, c.inputbuffer.buf ++ received (upto reads k) <+: stream Buffer.frame msgs)
    (settles : ∃ n, ∀ k, n ≤ k → ¬ (reads k).Transient) :
    (Returns onmessagecallback stale now ep c reads ↔ ∃ k, (reads k).leaves = true) ∧
      (¬ Returns onmessagecallback stale now ep c reads →
        ∃ n, ∀ k, n ≤ k → (reads k).Broken ∧ reads k ≠ .eof) := by
  have returns := returns_iff_leaves onmessagecallback stale now sizes registered sep framed
  refine ⟨returns, fun never => ?_⟩
  obtain ⟨n, settled⟩ := settles
  refine ⟨n, fun k late => ?_⟩
  have stays : (reads k).leaves = false := by
    simpa using not_exists.mp (mt returns.mpr never) k
  exact broken_of_stays (settled k late) stays

def lastRequest (k : Nat) : ReadResult := if k = 0 then .data [1, 0, 0, 0, 7] (by decide) else .eof

theorem returns_last_request :
    (Returns id (fun _ _ => 0) 0 (Function.update (fun _ => none) 5 (some EPOLLIN)) (established 5 0)
        lastRequest ↔ ∃ k, (lastRequest k).leaves = true) ∧
      (¬ Returns id (fun _ _ => 0) 0 (Function.update (fun _ => none) 5 (some EPOLLIN)) (established 5 0)
        lastRequest → ∃ n, ∀ k, n ≤ k → (lastRequest k).Broken ∧ lastRequest k ≠ .eof) := by
  have sizes : ∀ m ∈ [[(7 : UInt8)]], m.length ≤ 2 ^ 31 - 5 := by decide
  apply returns_iff id (fun _ _ => 0) 0 sizes ⟨rfl, rfl⟩ rfl
  · intro k
    cases k with
    | zero => exact List.nil_prefix
    | succ k =>
      have all : received (upto lastRequest (k + 1)) = [1, 0, 0, 0, 7] := by
        simp [received, upto, List.range_succ_eq_map, List.flatMap_map, lastRequest, bytes]
      rw [all]
      exact List.prefix_rfl
  · refine ⟨1, fun k late => ?_⟩
    have eof : lastRequest k = .eof := if_neg (by omega)
    simp [eof, Transient]

-- ENOTCONN for as long as the loop asks.
theorem not_connected_never_returns :
    (∀ k fuel, onmessage id (fun _ _ => 0) fuel 0 (Function.update (fun _ => none) 5 (some EPOLLIN))
        (established 5 0) (upto (fun _ => .failed 107) k) = .error .outOfFuel) ∧
      ¬ Returns id (fun _ _ => 0) 0 (Function.update (fun _ => none) 5 (some EPOLLIN)) (established 5 0)
        fun _ => .failed 107 := by
  have pending (k fuel : Nat) :
      onmessage id (fun _ _ => 0) fuel 0 (Function.update (fun _ => none) 5 (some EPOLLIN))
        (established 5 0) (upto (fun _ => .failed 107) k) = .error .outOfFuel := by
    apply onmessage_pending
    intro r member
    obtain ⟨j, -, rfl⟩ := List.mem_map.mp member
    rfl
  refine ⟨pending, ?_⟩
  intro returns
  obtain ⟨k, fuel, ep', c', notices, returned, -⟩ := returns
  cases (pending (k + 1) fuel).symm.trans returned

end Connection

end Reactor
