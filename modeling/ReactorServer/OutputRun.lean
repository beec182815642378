import ReactorServer.EchoServer
import ReactorServer.Shared.Transition

set_option autoImplicit false

namespace Reactor.OutputRun

open ByteString Framing Transition

structure State where
  epoll : Interest
  conn : Connection
  wire : Bytes
  completes : Nat
  emptied : Nat
  idle : Nat

inductive Act where
  | sendinloop (data : Bytes)
  | writecallback (accepted : Int)

def calls (acts : List Act) : List Bytes :=
  acts.filterMap fun
    | .sendinloop data => some data
    | .writecallback _ => none

-- `epoll` is what the constructor leaves of an interest list without the fd.
def initial (others : Interest) (fd now : Int) : State :=
  ⟨Function.update others fd (some EPOLLIN), .established fd now, [], 0, 0, 0⟩

def sendinloop (s : State) (data : Bytes) : Except Stop State := do
  let (epoll, conn) ← s.conn.sendinloop (fun _ => 0) s.epoll data data.length
  return { s with epoll := epoll, conn := conn }

def writecallback (s : State) (accepted : Int) : Except Stop State := do
  let offered := s.conn.outputbuffer.buf
  let (epoll, conn, complete) ← s.conn.writecallback accepted s.epoll
  return { s with
    epoll := epoll
    conn := conn
    wire := s.wire ++ offered.take accepted.toNat
    completes := if complete then s.completes + 1 else s.completes
    emptied := if offered ≠ [] ∧ conn.outputbuffer.buf = [] then s.emptied + 1 else s.emptied
    idle := if offered = [] then s.idle + 1 else s.idle }

def step (s : State) : Act → Option State
  | .sendinloop data => (sendinloop s data).toOption
  | .writecallback accepted =>
    if -1 ≤ accepted ∧ accepted ≤ s.conn.outputbuffer.buf.length then
      (writecallback s accepted).toOption
    else none

def writable (s : State) : Prop :=
  ∃ mask, s.epoll s.conn.fd = some mask ∧ mask &&& EPOLLOUT ≠ 0

def watched (buf : Bytes) : UInt32 := if buf = [] then EPOLLIN else EPOLLIN ||| EPOLLOUT

structure Inv (s : State) : Prop where
  registered : s.conn.channel.Registered s.epoll
  sep : s.conn.outputbuffer.sep = 1
  events : s.conn.channel.events = watched s.conn.outputbuffer.buf
  completes : s.completes = s.emptied + s.idle

theorem watched_enable (buf : Bytes) : watched buf ||| EPOLLOUT = EPOLLIN ||| EPOLLOUT := by
  unfold watched
  split <;> decide

theorem watched_disable (buf : Bytes) : watched buf &&& ~~~EPOLLOUT = EPOLLIN := by
  unfold watched
  split <;> decide

theorem watched_writable (buf : Bytes) : watched buf &&& EPOLLOUT ≠ 0 ↔ buf ≠ [] := by
  unfold watched
  split <;> rename_i h <;> simp [h] <;> decide

theorem frame_ne_nil (m : Bytes) : Buffer.frame m ≠ [] := by
  intro empty
  have length := congrArg List.length empty
  simp at length

theorem writable_iff {s : State} (inv : Inv s) : writable s ↔ s.conn.outputbuffer.buf ≠ [] := by
  have mask : s.epoll s.conn.fd = some (watched s.conn.outputbuffer.buf) := by
    rw [← inv.events]
    exact inv.registered.2
  simp only [writable, mask, Option.some.injEq, exists_eq_left', watched_writable]

theorem sendinloop_eq {s : State} (inv : Inv s) (data : Bytes) :
    sendinloop s data = .ok { s with
      epoll := Function.update s.epoll s.conn.fd (some (EPOLLIN ||| EPOLLOUT))
      conn := { s.conn with
        outputbuffer := ⟨s.conn.outputbuffer.buf ++ Buffer.frame data, 1⟩
        channel := { s.conn.channel with events := EPOLLIN ||| EPOLLOUT } } } := by
  have read : load (fun _ => 0) data data.length = data := by simp [load]
  simp [sendinloop, Connection.sendinloop_registered inv.registered inv.sep, inv.events,
    watched_enable, read, inv.sep]

def remaining (buf : Bytes) (accepted : Int) : Bytes := buf.drop (toSigned 32 accepted).toNat

theorem erased (b : Buffer) (sep : b.sep = 1) (accepted : Int) :
    Connection.erasesent b (toSigned 32 accepted) = .ok ⟨remaining b.buf accepted, 1⟩ := by
  rw [Connection.erasesent_eq, sep]
  rfl

theorem writecallback_drained {s : State} (inv : Inv s) {accepted : Int}
    (empty : remaining s.conn.outputbuffer.buf accepted = []) :
    writecallback s accepted = .ok { s with
      epoll := Function.update s.epoll s.conn.fd (some EPOLLIN)
      conn := { s.conn with
        outputbuffer := ⟨[], 1⟩
        channel := { s.conn.channel with events := EPOLLIN } }
      wire := s.wire ++ s.conn.outputbuffer.buf.take accepted.toNat
      completes := s.completes + 1
      emptied := if s.conn.outputbuffer.buf ≠ [] then s.emptied + 1 else s.emptied
      idle := if s.conn.outputbuffer.buf = [] then s.idle + 1 else s.idle } := by
  have disabled : s.conn.channel.events &&& ~~~EPOLLOUT = EPOLLIN := by
    rw [inv.events]
    exact watched_disable _
  simp [writecallback, Connection.writecallback, erased _ inv.sep, empty, Channel.disablewriting,
    Channel.setevents_registered inv.registered, disabled, Connection.fd]

theorem writecallback_left {s : State} (inv : Inv s) {accepted : Int}
    (left : remaining s.conn.outputbuffer.buf accepted ≠ []) :
    writecallback s accepted = .ok { s with
      conn := { s.conn with outputbuffer := ⟨remaining s.conn.outputbuffer.buf accepted, 1⟩ }
      wire := s.wire ++ s.conn.outputbuffer.buf.take accepted.toNat } := by
  have offered : s.conn.outputbuffer.buf ≠ [] := by
    intro empty
    simp [remaining, empty] at left
  simp [writecallback, Connection.writecallback, erased _ inv.sep, left, offered]

theorem step_cases {s t : State} {a : Act} (inv : Inv s) (taken : step s a = some t) :
    (∃ data, a = .sendinloop data ∧ sendinloop s data = .ok t) ∨
      ∃ accepted, a = .writecallback accepted ∧ -1 ≤ accepted ∧
        accepted ≤ s.conn.outputbuffer.buf.length ∧ writecallback s accepted = .ok t := by
  cases a with
  | sendinloop data =>
    simp only [step, sendinloop_eq inv, Except.toOption, Option.some.injEq] at taken
    exact .inl ⟨data, rfl, by rw [sendinloop_eq inv, taken]⟩
  | writecallback accepted =>
    simp only [step] at taken
    split at taken
    · rename_i range
      refine .inr ⟨accepted, rfl, range.1, range.2, ?_⟩
      cases h : writecallback s accepted with
      | ok t' =>
        rw [h] at taken
        cases taken
        rfl
      | error stop =>
        rw [h] at taken
        cases taken
    · cases taken

theorem step_writecallback {s t : State} {accepted : Int}
    (range : -1 ≤ accepted ∧ accepted ≤ s.conn.outputbuffer.buf.length)
    (done : writecallback s accepted = .ok t) : step s (.writecallback accepted) = some t := by
  simp [step, range, done, Except.toOption]

theorem step_enabled {s : State} {a : Act} (inv : Inv s)
    (range : ∀ n, a = .writecallback n → -1 ≤ n ∧ n ≤ s.conn.outputbuffer.buf.length) :
    ∃ t, step s a = some t := by
  cases a with
  | sendinloop data => exact ⟨_, congrArg Except.toOption (sendinloop_eq inv data)⟩
  | writecallback accepted =>
    by_cases empty : remaining s.conn.outputbuffer.buf accepted = []
    · exact ⟨_, step_writecallback (range accepted rfl) (writecallback_drained inv empty)⟩
    · exact ⟨_, step_writecallback (range accepted rfl) (writecallback_left inv empty)⟩

theorem step_inv (s : State) (a : Act) (t : State) (inv : Inv s) (taken : step s a = some t) :
    Inv t := by
  have inepoll := inv.registered.1
  have counts := inv.completes
  obtain ⟨data, rfl, h⟩ | ⟨accepted, rfl, -, -, h⟩ := step_cases inv taken
  · rw [sendinloop_eq inv] at h
    cases h
    exact ⟨Channel.registered_update inepoll _, rfl, by simp [watched, frame_ne_nil], counts⟩
  · by_cases empty : remaining s.conn.outputbuffer.buf accepted = []
    · rw [writecallback_drained inv empty] at h
      cases h
      refine ⟨Channel.registered_update inepoll _, rfl, rfl, ?_⟩
      by_cases offered : s.conn.outputbuffer.buf = [] <;> simp [offered] <;> omega
    · have offered : s.conn.outputbuffer.buf ≠ [] := by
        intro none
        simp [remaining, none] at empty
      rw [writecallback_left inv empty] at h
      cases h
      refine ⟨inv.registered, rfl, ?_, counts⟩
      simpa [watched, offered, empty] using inv.events

theorem initial_inv (others : Interest) (fd now : Int) : Inv (initial others fd now) :=
  ⟨⟨rfl, by simp [initial, Connection.established]⟩, rfl, rfl, rfl⟩

-- The int holds the count exactly, so what leaves the buffer is what the kernel took.
theorem remaining_exact (buf : Bytes) {accepted : Int} (low : -1 ≤ accepted)
    (high : accepted ≤ 2 ^ 31 - 1) : remaining buf accepted = buf.drop accepted.toNat := by
  rw [remaining, toSigned_eq_self (by omega) (by omega)]

theorem step_accounted {s t : State} {a : Act} (inv : Inv s) (taken : step s a = some t)
    (narrow : ∀ n, a = .writecallback n → n ≤ 2 ^ 31 - 1) :
    t.wire ++ t.conn.outputbuffer.buf =
      s.wire ++ s.conn.outputbuffer.buf ++ stream Buffer.frame (calls [a]) := by
  obtain ⟨data, rfl, h⟩ | ⟨accepted, rfl, low, -, h⟩ := step_cases inv taken
  · rw [sendinloop_eq inv] at h
    cases h
    simp [calls]
  · have split := remaining_exact s.conn.outputbuffer.buf low (narrow accepted rfl)
    have whole := List.take_append_drop accepted.toNat s.conn.outputbuffer.buf
    rw [← split] at whole
    have none : stream Buffer.frame (calls [.writecallback accepted]) = [] := rfl
    by_cases empty : remaining s.conn.outputbuffer.buf accepted = []
    · rw [writecallback_drained inv empty] at h
      cases h
      rw [empty, List.append_nil] at whole
      simp [none, whole]
    · rw [writecallback_left inv empty] at h
      cases h
      simp [none, whole]

theorem run_accounted {s t : State} {acts : List Act} (inv : Inv s)
    (taken : run step s acts = some t) (narrow : ∀ n, .writecallback n ∈ acts → n ≤ 2 ^ 31 - 1) :
    t.wire ++ t.conn.outputbuffer.buf =
      s.wire ++ s.conn.outputbuffer.buf ++ stream Buffer.frame (calls acts) := by
  induction acts generalizing s with
  | nil =>
    cases taken
    simp [calls]
  | cons a acts ih =>
    obtain ⟨u, first, rest⟩ := run_cons_some.mp taken
    have now := step_accounted inv first fun n h => narrow n (h ▸ List.mem_cons_self)
    have later := ih (step_inv s a u inv first) rest fun n member =>
      narrow n (List.mem_cons_of_mem a member)
    have split : calls (a :: acts) = calls [a] ++ calls acts := by
      simp only [calls, ← List.filterMap_append, List.singleton_append]
    rw [later, now, split, stream_append, List.append_assoc, List.append_assoc]

theorem step_idle {s t : State} {a : Act} (inv : Inv s) (taken : step s a = some t)
    (armed : ∀ n, a = .writecallback n → writable s) : t.idle = s.idle := by
  obtain ⟨data, rfl, h⟩ | ⟨accepted, rfl, -, -, h⟩ := step_cases inv taken
  · rw [sendinloop_eq inv] at h
    cases h
    rfl
  · have offered := (writable_iff inv).mp (armed accepted rfl)
    by_cases empty : remaining s.conn.outputbuffer.buf accepted = []
    · rw [writecallback_drained inv empty] at h
      cases h
      simp [offered]
    · rw [writecallback_left inv empty] at h
      cases h
      rfl

theorem output_run {others : Interest} {fd now : Int} {acts : List Act} {s : State}
    (taken : run step (initial others fd now) acts = some s) :
    ((∀ n, .writecallback n ∈ acts → n ≤ 2 ^ 31 - 1) →
      s.wire ++ s.conn.outputbuffer.buf = stream Buffer.frame (calls acts)) ∧
    (writable s ↔ s.conn.outputbuffer.buf ≠ []) ∧
    s.completes = s.emptied + s.idle ∧
    (Guarded step (fun s a => ∀ n, a = .writecallback n → writable s) (initial others fd now) acts →
      s.completes = s.emptied) := by
  have inv := run_invariant step_inv (initial_inv others fd now) taken
  refine ⟨fun narrow => ?_, writable_iff inv, inv.completes, fun armed => ?_⟩
  · simpa [initial, Connection.established, Buffer.make] using
      run_accounted (initial_inv others fd now) taken narrow
  · have none := guarded_invariant
      (fun s a t (h : Inv s ∧ s.idle = 0) armed first =>
        ⟨step_inv s a t h.1 first, (step_idle h.1 first armed).trans h.2⟩)
      ⟨initial_inv others fd now, rfl⟩ armed taken
    rw [inv.completes, none.2, Nat.add_zero]

theorem output_run_partial :
    ∃ s, run step (initial (fun _ => none) 5 0)
        [.sendinloop [1], .writecallback 2, .writecallback (-1), .writecallback 3] = some s ∧
      s.wire = [1, 0, 0, 0, 1] ∧ s.wire ++ s.conn.outputbuffer.buf = stream Buffer.frame [[1]] ∧
      s.completes = s.emptied + s.idle := by
  let acts : List Act := [.sendinloop [1], .writecallback 2, .writecallback (-1), .writecallback 3]
  have taken : run step (initial (fun _ => none) 5 0) acts =
      some ((run step (initial (fun _ => none) 5 0) acts).get (by decide)) := by simp
  have all := output_run taken
  exact ⟨_, taken, by decide, all.1 (by simp [acts]), all.2.2.1⟩

-- The whole frame goes out, but as an int the count is negative and nothing is erased.
theorem step_overlong {s : State} (inv : Inv s) (size : s.conn.outputbuffer.buf.length = 2 ^ 31 + 4) :
    ∃ t, step s (.writecallback (2 ^ 31 + 4)) = some t ∧
      t.wire ++ t.conn.outputbuffer.buf =
        s.wire ++ s.conn.outputbuffer.buf ++ s.conn.outputbuffer.buf := by
  have kept : remaining s.conn.outputbuffer.buf (2 ^ 31 + 4) = s.conn.outputbuffer.buf := by
    have narrowed : (toSigned 32 (2 ^ 31 + 4)).toNat = 0 := by decide
    rw [remaining, narrowed, List.drop_zero]
  have left : remaining s.conn.outputbuffer.buf (2 ^ 31 + 4) ≠ [] := by
    rw [kept]
    intro empty
    simp [empty] at size
  have range : (-1 : Int) ≤ 2 ^ 31 + 4 ∧ (2 ^ 31 + 4 : Int) ≤ s.conn.outputbuffer.buf.length := by
    omega
  refine ⟨_, step_writecallback range (writecallback_left inv left), ?_⟩
  have taken : s.conn.outputbuffer.buf.take (2 ^ 31 + 4 : Int).toNat = s.conn.outputbuffer.buf :=
    List.take_of_length_le (by omega)
  simp only [kept, taken]

theorem output_run_exceptions :
    (∃ s, run step (initial (fun _ => none) 5 0) [.writecallback 0] = some s ∧
      s.completes = 1 ∧ s.emptied = 0) ∧
    ∃ m s, run step (initial (fun _ => none) 5 0) [.sendinloop m, .writecallback (2 ^ 31 + 4)] = some s ∧
      s.wire ++ s.conn.outputbuffer.buf ≠ stream Buffer.frame [m] := by
  constructor
  · exact ⟨_, Option.some_get (show (run step _ _).isSome by decide) |>.symm, by decide, by decide⟩
  · obtain ⟨m, long⟩ : ∃ m : Bytes, m.length = 2 ^ 31 := ⟨.replicate (2 ^ 31) 0, List.length_replicate⟩
    have inv := initial_inv (fun _ => none) 5 0
    obtain ⟨t, queued⟩ := step_enabled inv (a := .sendinloop m) nofun
    have buf : t.wire = [] ∧ t.conn.outputbuffer.buf = Buffer.frame m := by
      rw [step, sendinloop_eq inv] at queued
      cases queued
      exact ⟨rfl, rfl⟩
    obtain ⟨s, sent, twice⟩ := step_overlong (step_inv _ _ _ inv queued) (by simp [buf.2, long])
    refine ⟨m, s, run_append_some (run_single queued) (run_single sent), fun claimed => ?_⟩
    rw [twice, buf.1, buf.2] at claimed
    have lengths := congrArg List.length claimed
    simp [long] at lengths

end Reactor.OutputRun
