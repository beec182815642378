import ReactorServer.Shared.Tally
import ReactorServer.Shared.Transition

set_option autoImplicit false

namespace Reactor

-- A worker from `evaluating` to its next release holds mutex_. `notified` says that it has been woken
-- on condition_ since it last blocked there.
inductive WorkerPc (α : Type) where
  | testing
  | locking
  | evaluating (notified : Bool)
  | blocking
  | waiting
  | woken
  | checking (notified : Bool)
  | dequeuing (notified : Bool)
  | running (task : α)
  | exited
  deriving DecidableEq

def WorkerPc.isWaiting {α : Type} : WorkerPc α → Bool
  | .waiting => true
  | _ => false

def WorkerPc.isExited {α : Type} : WorkerPc α → Bool
  | .exited => true
  | _ => false

-- `joining k` has issued notify_all and joined k of the threads.
inductive StopPc where
  | idle
  | stored
  | joining (k : Nat)
  | returned
  deriving DecidableEq

structure ThreadPool (α : Type) (n : Nat) where
  stop : Bool
  mutex : Option (Fin n)
  taskqueue : List α
  threads : Fin n → WorkerPc α
  -- The addtask calls between their push and their notify_one.
  adding : Nat
  stopper : StopPc
  pushed : List α
  dequeued : List (Fin n × α)
  executed : List (Fin n × α)
  underflow : Bool

namespace ThreadPool

inductive Act (α : Type) (n : Nat) where
  | work (w : Fin n)
  | spurious (w : Fin n)
  | push (task : α)
  | notifyone (w : Option (Fin n))
  | stop
  | notifyall
  | join
  deriving DecidableEq

variable {α : Type} {n : Nat}

def initial : ThreadPool α n where
  stop := false
  mutex := none
  taskqueue := []
  threads := fun _ => .testing
  adding := 0
  stopper := .idle
  pushed := []
  dequeued := []
  executed := []
  underflow := false

@[simp] def setpc (s : ThreadPool α n) (w : Fin n) (pc : WorkerPc α) : ThreadPool α n :=
  { s with threads := Function.update s.threads w pc }

def acquire (s : ThreadPool α n) (w : Fin n) (notified : Bool) : Option (ThreadPool α n) :=
  if s.mutex = none then some { s.setpc w (.evaluating notified) with mutex := some w } else none

def work (s : ThreadPool α n) (w : Fin n) : Option (ThreadPool α n) :=
  match s.threads w with
  | .testing => some (s.setpc w (if s.stop = false then .locking else .exited))
  | .locking => s.acquire w false
  -- condition_.wait tests the predicate before it blocks and again each time it wakes.
  | .evaluating notified =>
    some (s.setpc w (if s.stop = true ∨ s.taskqueue.isEmpty = false then .checking notified else .blocking))
  | .blocking => some { s.setpc w .waiting with mutex := none }
  | .waiting => none
  | .woken => s.acquire w true
  | .checking notified =>
    if s.stop = true ∧ s.taskqueue.isEmpty = true then
      some { s.setpc w .exited with mutex := none }
    else some (s.setpc w (.dequeuing notified))
  | .dequeuing _ =>
    match s.taskqueue with
    | [] => some { s with underflow := true }
    | task :: rest =>
      some { s.setpc w (.running task) with
        mutex := none, taskqueue := rest, dequeued := s.dequeued ++ [(w, task)] }
  | .running task => some { s.setpc w .testing with executed := s.executed ++ [(w, task)] }
  | .exited => none

def wakeall (threads : Fin n → WorkerPc α) (w : Fin n) : WorkerPc α :=
  if (threads w).isWaiting then .woken else threads w

def step (s : ThreadPool α n) : Act α n → Option (ThreadPool α n)
  | .work w => s.work w
  | .spurious w => if (s.threads w).isWaiting then some (s.setpc w .woken) else none
  | .push task =>
    if s.mutex = none then
      some { s with
        taskqueue := s.taskqueue ++ [task], pushed := s.pushed ++ [task], adding := s.adding + 1 }
    else none
  | .notifyone (some w) =>
    if 0 < s.adding ∧ (s.threads w).isWaiting then
      some { s.setpc w .woken with adding := s.adding - 1 }
    else none
  | .notifyone none =>
    if 0 < s.adding ∧ ∀ w, (s.threads w).isWaiting = false then
      some { s with adding := s.adding - 1 }
    else none
  -- Also the call the destructor makes once Stop has returned.
  | .stop =>
    if s.stopper = .idle ∨ s.stopper = .returned then
      if s.stop = true then some { s with stopper := .returned }
      else some { s with stop := true, stopper := .stored }
    else none
  | .notifyall =>
    if s.stopper = .stored then some { s with threads := wakeall s.threads, stopper := .joining 0 }
    else none
  | .join =>
    match s.stopper with
    | .joining k =>
      if h : k < n then
        if (s.threads ⟨k, h⟩).isExited then some { s with stopper := .joining (k + 1) } else none
      else some { s with stopper := .returned }
    | _ => none

end ThreadPool

end Reactor
