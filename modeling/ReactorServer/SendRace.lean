import Mathlib.Data.Fintype.Basic
import ReactorServer.EchoServer
import ReactorServer.Shared.Transition

set_option autoImplicit false

namespace Reactor.SendRace

open ByteString Transition

-- `sending` is past the test of disconnect_ and before the push; `finished` still owns its task.
inductive Worker where
  | idle
  | running (message : Bytes)
  | sending (dataCopy : Bytes) (size : Nat)
  | finished
  deriving DecidableEq

-- `freed` is a sendinloop on a connection that no longer exists.
inductive Status where
  | running
  | exited
  | freed
  deriving DecidableEq

structure State (n : Nat) where
  epoll : Interest
  conn : Connection
  inServer : Bool
  inLoop : Bool
  works : List Bytes
  workers : Fin n → Worker
  taskqueue : List (Bytes × Nat)
  draining : Bool
  status : Status

inductive Act (n : Nat) where
  | onmessage (message : Bytes)
  | take (w : Fin n)
  | send (w : Fin n)
  | queueinloop (w : Fin n)
  | finish (w : Fin n)
  | handlewakeup
  | sendinloop (beyond : Nat → UInt8)
  | drained
  | writecallback (accepted : Int)
  | closecallback
  | errorcallback
  | handletimer
  | removeconn

variable {n : Nat}

def Owned (s : State n) : Prop :=
  s.inServer = true ∨ s.inLoop = true ∨ s.works ≠ [] ∨ ∃ w, s.workers w ≠ .idle

instance (s : State n) : Decidable (Owned s) := inferInstanceAs (Decidable (_ ∨ _ ∨ _ ∨ _))

-- What the loop thread can do with an event of the connection: not inside handlewakeup, and only as
-- long as the channel is on the interest list.
def Ready (s : State n) : Prop :=
  Owned s ∧ s.draining = false ∧ (s.epoll s.conn.fd).isSome

instance (s : State n) : Decidable (Ready s) := inferInstanceAs (Decidable (_ ∧ _ ∧ _))

def setworker (s : State n) (w : Fin n) (worker : Worker) : State n :=
  { s with workers := Function.update s.workers w worker }

def onmessage (s : State n) (message : Bytes) : Option (State n) :=
  match handleMessage n message with
  | .inloop _ => none
  | .task message => if Ready s then some { s with works := s.works ++ [message] } else none

def take (s : State n) (w : Fin n) : Option (State n) :=
  match s.workers w, s.works with
  | .idle, message :: rest => some { setworker s w (.running message) with works := rest }
  | _, _ => none

def send (s : State n) (w : Fin n) : Option (State n) :=
  match s.workers w with
  | .running message =>
    match s.conn.send false (onMessage message) with
    | .refused => some (setworker s w .finished)
    | .inloop => none
    | .queued dataCopy size => some (setworker s w (.sending dataCopy size))
  | _ => none

-- handlewakeup keeps mutex_ until its queue is empty.
def queueinloop (s : State n) (w : Fin n) : Option (State n) :=
  match s.workers w with
  | .sending dataCopy size =>
    if s.draining then none
    else some { setworker s w .finished with taskqueue := s.taskqueue ++ [(dataCopy, size)] }
  | _ => none

def finish (s : State n) (w : Fin n) : Option (State n) :=
  match s.workers w with
  | .finished => some (setworker s w .idle)
  | _ => none

def sendinloop (s : State n) (beyond : Nat → UInt8) : Option (State n) :=
  match s.draining, s.taskqueue with
  | true, (dataCopy, size) :: rest =>
    if Owned s then
      match s.conn.sendinloop beyond s.epoll dataCopy size with
      | .error _ => some { s with status := .exited }
      | .ok (epoll, conn) => some { s with epoll := epoll, conn := conn, taskqueue := rest }
    else some { s with status := .freed }
  | _, _ => none

def writecallback (s : State n) (accepted : Int) : Option (State n) :=
  if Ready s then
    match s.conn.writecallback accepted s.epoll with
    | .error _ => some { s with status := .exited }
    | .ok (epoll, conn, _) => some { s with epoll := epoll, conn := conn }
  else none

-- Up to the erase of closeconnection or errorconnection.
def close (s : State n) (callback : Interest → Connection → Except Stop (Interest × Connection)) :
    Option (State n) :=
  if Ready s then
    match callback s.epoll s.conn with
    | .error _ => some { s with status := .exited }
    | .ok (epoll, conn) => some { s with epoll := epoll, conn := conn, inServer := false }
  else none

def step (s : State n) (a : Act n) : Option (State n) :=
  if s.status ≠ .running then none
  else
    match a with
    | .onmessage message => onmessage s message
    | .take w => take s w
    | .send w => send s w
    | .queueinloop w => queueinloop s w
    | .finish w => finish s w
    | .handlewakeup => if s.draining then none else some { s with draining := true }
    | .sendinloop beyond => sendinloop s beyond
    | .drained =>
      if s.draining ∧ s.taskqueue = [] then some { s with draining := false } else none
    | .writecallback accepted => writecallback s accepted
    | .closecallback => close s Connection.closecallback
    | .errorcallback => close s Connection.errorcallback
    | .handletimer =>
      if s.draining = false ∧ s.inLoop then some { s with inLoop := false } else none
    | .removeconn =>
      if s.draining = false ∧ s.inServer then some { s with inServer := false } else none

def initial (n : Nat) (others : Interest) (fd now : Int) : State n where
  epoll := Function.update others fd (some EPOLLIN)
  conn := .established fd now
  inServer := true
  inLoop := true
  works := []
  workers _ := .idle
  taskqueue := []
  draining := false
  status := .running

def Ended (s : State n) : Prop := s.conn.disconnect = true ∨ ¬ Owned s

def InFlight (s : State n) : Prop :=
  s.taskqueue ≠ [] ∨ ∃ w dataCopy size, s.workers w = .sending dataCopy size

structure Inv (s : State n) : Prop where
  sep : s.conn.outputbuffer.sep = 1
  opened : s.conn.disconnect = false → s.conn.channel.Registered s.epoll
  closed : s.conn.disconnect = true → s.conn.channel.Removed s.epoll

inductive Step (s : State n) : Act n → State n → Prop where
  | delivered {m message : Bytes} (ready : Ready s) :
      Step s (.onmessage m) { s with works := s.works ++ [message] }
  | taken {w : Fin n} {message : Bytes} {rest : List Bytes} (idle : s.workers w = .idle)
      (works : s.works = message :: rest) :
      Step s (.take w) { setworker s w (.running message) with works := rest }
  | refused {w : Fin n} {message : Bytes} (running : s.workers w = .running message)
      (closed : s.conn.disconnect = true) : Step s (.send w) (setworker s w .finished)
  | copied {w : Fin n} {message dataCopy : Bytes} {size : Nat} (running : s.workers w = .running message)
      (opened : s.conn.disconnect = false) : Step s (.send w) (setworker s w (.sending dataCopy size))
  | pushed {w : Fin n} {dataCopy : Bytes} {size : Nat} (sending : s.workers w = .sending dataCopy size) :
      Step s (.queueinloop w)
        { setworker s w .finished with taskqueue := s.taskqueue ++ [(dataCopy, size)] }
  | returned {w : Fin n} (finished : s.workers w = .finished) :
      Step s (.finish w) (setworker s w .idle)
  | woken : Step s .handlewakeup { s with draining := true }
  | emptied : Step s .drained { s with draining := false }
  | appended {beyond : Nat → UInt8} {task : Bytes × Nat} {rest : List (Bytes × Nat)} {epoll : Interest}
      {conn : Connection} (opened : s.conn.disconnect = false) (owned : Owned s)
      (queue : s.taskqueue = task :: rest) (registered : conn.channel.Registered epoll)
      (same : conn.disconnect = s.conn.disconnect) (sep : conn.outputbuffer.sep = 1) :
      Step s (.sendinloop beyond) { s with epoll := epoll, conn := conn, taskqueue := rest }
  | stopped {beyond : Nat → UInt8} {status : Status} (ended : Ended s) (queue : s.taskqueue ≠ [])
      (dead : status ≠ .running) : Step s (.sendinloop beyond) { s with status := status }
  | wrote {accepted : Int} {epoll : Interest} {conn : Connection} (ready : Ready s)
      (opened : s.conn.disconnect = false) (registered : conn.channel.Registered epoll)
      (same : conn.disconnect = s.conn.disconnect) (sep : conn.outputbuffer.sep = 1) :
      Step s (.writecallback accepted) { s with epoll := epoll, conn := conn }
  | closed {a : Act n} {epoll : Interest} {conn : Connection}
      (callback : a = .closecallback ∨ a = .errorcallback) (ready : Ready s)
      (opened : s.conn.disconnect = false) (removed : conn.channel.Removed epoll)
      (closed : conn.disconnect = true) (sep : conn.outputbuffer.sep = 1) :
      Step s a { s with epoll := epoll, conn := conn, inServer := false }
  | timedout (listed : s.inLoop = true) : Step s .handletimer { s with inLoop := false }
  | unlisted (listed : s.inServer = true) : Step s .removeconn { s with inServer := false }

variable {s t : State n} {a : Act n}

theorem Ready.opened (inv : Inv s) (ready : Ready s) : s.conn.disconnect = false := by
  cases closed : s.conn.disconnect with
  | false => rfl
  | true =>
    have listed := ready.2.2
    rw [Connection.fd, (inv.closed closed).2] at listed
    cases listed

theorem onmessage_cases {m : Bytes} (taken : onmessage s m = some t) : Step s (.onmessage m) t := by
  simp only [onmessage] at taken
  split at taken
  · cases taken
  · split at taken
    · rename_i message ready
      cases taken
      exact .delivered ready
    · cases taken

theorem take_cases {w : Fin n} (taken : take s w = some t) : Step s (.take w) t := by
  simp only [take] at taken
  split at taken
  · rename_i message rest idle works
    cases taken
    exact .taken idle works
  · cases taken

theorem send_cases {w : Fin n} (taken : send s w = some t) : Step s (.send w) t := by
  simp only [send, Connection.send] at taken
  split at taken
  · rename_i message running
    by_cases closed : s.conn.disconnect = true
    · simp [closed] at taken
      subst taken
      exact .refused running closed
    · simp [closed] at taken
      subst taken
      exact .copied running (by simpa using closed)
  · cases taken

theorem queueinloop_cases {w : Fin n} (taken : queueinloop s w = some t) : Step s (.queueinloop w) t := by
  simp only [queueinloop] at taken
  split at taken
  · rename_i dataCopy size sending
    split at taken
    · cases taken
    · cases taken
      exact .pushed sending
  · cases taken

theorem finish_cases {w : Fin n} (taken : finish s w = some t) : Step s (.finish w) t := by
  simp only [finish] at taken
  split at taken
  · rename_i finished
    cases taken
    exact .returned finished
  · cases taken

theorem sendinloop_cases (inv : Inv s) {beyond : Nat → UInt8} (taken : sendinloop s beyond = some t) :
    Step s (.sendinloop beyond) t := by
  simp only [sendinloop] at taken
  split at taken
  · rename_i dataCopy size rest draining queue
    have queued : s.taskqueue ≠ [] := by simp [queue]
    split at taken
    · rename_i owned
      cases closed : s.conn.disconnect with
      | false =>
        have registered := inv.opened closed
        rw [Connection.sendinloop_registered registered inv.sep] at taken
        cases taken
        exact .appended closed owned queue (Channel.registered_update registered.1 _) rfl inv.sep
      | true =>
        rw [Connection.sendinloop_removed (inv.closed closed)] at taken
        cases taken
        exact .stopped (.inl closed) queued (by simp)
    · rename_i unowned
      cases taken
      exact .stopped (.inr unowned) queued (by simp)
  · cases taken

theorem writecallback_cases (inv : Inv s) {accepted : Int} (taken : writecallback s accepted = some t) :
    Step s (.writecallback accepted) t := by
  simp only [writecallback] at taken
  split at taken
  · rename_i ready
    have opened := ready.opened inv
    obtain ⟨epoll, conn, complete, done, registered, same, sep⟩ :=
      Connection.writecallback_registered (inv.opened opened) accepted
    rw [done] at taken
    cases taken
    exact .wrote ready opened registered same (sep.trans inv.sep)
  · cases taken

theorem close_cases (inv : Inv s) (callback : a = .closecallback ∨ a = .errorcallback)
    (taken : close s Connection.disconnectchannel = some t) : Step s a t := by
  simp only [close] at taken
  split at taken
  · rename_i ready
    have opened := ready.opened inv
    rw [Connection.disconnectchannel_registered (inv.opened opened)] at taken
    cases taken
    exact .closed callback ready opened (Channel.removed_update (inv.opened opened).1) rfl inv.sep
  · cases taken

theorem step_cases (inv : Inv s) (taken : step s a = some t) : s.status = .running ∧ Step s a t := by
  simp only [step] at taken
  split at taken
  · cases taken
  · rename_i running
    refine ⟨not_not.mp running, ?_⟩
    cases a with
    | onmessage m => exact onmessage_cases taken
    | take w => exact take_cases taken
    | send w => exact send_cases taken
    | queueinloop w => exact queueinloop_cases taken
    | finish w => exact finish_cases taken
    | handlewakeup =>
      dsimp only at taken
      split at taken
      · cases taken
      · cases taken
        exact .woken
    | sendinloop beyond => exact sendinloop_cases inv taken
    | drained =>
      dsimp only at taken
      split at taken
      · cases taken
        exact .emptied
      · cases taken
    | writecallback accepted => exact writecallback_cases inv taken
    | closecallback => exact close_cases inv (.inl rfl) taken
    | errorcallback => exact close_cases inv (.inr rfl) taken
    | handletimer =>
      obtain ⟨enabled, next⟩ := Option.ite_none_right_eq_some.mp taken
      cases next
      exact .timedout enabled.2
    | removeconn =>
      obtain ⟨enabled, next⟩ := Option.ite_none_right_eq_some.mp taken
      cases next
      exact .unlisted enabled.2

theorem inv_step (inv : Inv s) (step : Step s a t) : Inv t := by
  cases step with
  | appended opened owned queue registered same sep =>
    exact ⟨sep, fun _ => registered, fun closed => by simp [same, opened] at closed⟩
  | wrote ready opened registered same sep =>
    exact ⟨sep, fun _ => registered, fun closed => by simp [same, opened] at closed⟩
  | closed callback ready opened removed closed sep =>
    exact ⟨sep, fun opened => by simp [closed] at opened, fun _ => removed⟩
  | _ => exact ⟨inv.sep, inv.opened, inv.closed⟩

structure Quiet (s : State n) : Prop where
  inv : Inv s
  ended : Ended s → ¬ InFlight s
  running : s.status = .running

theorem Ended.closed (ended : Ended s) (owned : Owned s) : s.conn.disconnect = true := by
  rcases ended with closed | unowned
  · exact closed
  · exact absurd owned unowned

end Reactor.SendRace
