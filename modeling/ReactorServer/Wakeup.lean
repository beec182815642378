import ReactorServer.Shared.Transition
import Mathlib.Algebra.Group.Nat.Defs
import Mathlib.Data.List.Basic

set_option autoImplicit false

namespace Reactor

open Transition

-- What a batch of epoll_wait can hold besides the eventfd does not touch the queue.
inductive Ready where
  | wakeup
  | other
  deriving DecidableEq

-- `polling` has found stop_ false and is on its way into epoll_wait or in it; `locking` has read the
-- eventfd. mutex_ is held from `draining` on, also while a task runs.
inductive RunPc (α : Type) where
  | testing
  | polling
  | dispatching (channels : List Ready)
  | locking (channels : List Ready)
  | draining (channels : List Ready)
  | running (fn : α) (channels : List Ready)
  | exited

structure EventLoop (α : Type) where
  stop : Bool
  wakeupfd : Nat
  taskqueue : List α
  -- queueinloop calls between the push and the write, and stop calls between the store and the write.
  queueing : Nat
  stopping : Nat
  pc : RunPc α
  pushed : List α
  ran : List α

def RunPc.locked {α : Type} : RunPc α → Bool
  | .draining _ => true
  | .running _ _ => true
  | _ => false

def RunPc.handling {α : Type} : RunPc α → Bool
  | .locking _ => true
  | .draining _ => true
  | .running _ _ => true
  | _ => false

def RunPc.held {α : Type} : RunPc α → List α
  | .running fn _ => [fn]
  | _ => []

namespace EventLoop

inductive Act (α : Type) where
  | queueinloop (fn : α)
  | queueinloopWakeup
  | stop
  | stopWakeup
  | loop (channels : List Ready)
  | run

variable {α : Type}

def initial : EventLoop α where
  stop := false
  wakeupfd := 0
  taskqueue := []
  queueing := 0
  stopping := 0
  pc := .testing
  pushed := []
  ran := []

-- A write that would take the eventfd to 2^64 - 1 fails with EAGAIN.
def wakeup (wakeupfd : Nat) : Nat := if wakeupfd < 2 ^ 64 - 2 then wakeupfd + 1 else wakeupfd

def run (s : EventLoop α) : Option (EventLoop α) :=
  match s.pc with
  | .testing => some { s with pc := if s.stop = false then .polling else .exited }
  | .polling => none
  | .dispatching [] => some { s with pc := .testing }
  | .dispatching (.other :: channels) => some { s with pc := .dispatching channels }
  | .dispatching (.wakeup :: channels) => some { s with pc := .locking channels, wakeupfd := 0 }
  | .locking channels => some { s with pc := .draining channels }
  | .draining channels =>
    match s.taskqueue with
    | [] => some { s with pc := .dispatching channels }
    | fn :: rest => some { s with pc := .running fn channels, taskqueue := rest }
  | .running fn channels => some { s with pc := .draining channels, ran := s.ran ++ [fn] }
  | .exited => none

def step (s : EventLoop α) : Act α → Option (EventLoop α)
  | .queueinloop fn =>
    if s.pc.locked = false then
      some { s with
        taskqueue := s.taskqueue ++ [fn], pushed := s.pushed ++ [fn], queueing := s.queueing + 1 }
    else none
  | .queueinloopWakeup =>
    if 0 < s.queueing then some { s with queueing := s.queueing - 1, wakeupfd := wakeup s.wakeupfd }
    else none
  | .stop => some { s with stop := true, stopping := s.stopping + 1 }
  | .stopWakeup =>
    if 0 < s.stopping then some { s with stopping := s.stopping - 1, wakeupfd := wakeup s.wakeupfd }
    else none
  -- What epoll_wait returns; empty after its timeout.
  | .loop channels =>
    match s.pc with
    | .polling =>
      if .wakeup ∈ channels → 0 < s.wakeupfd then some { s with pc := .dispatching channels } else none
    | _ => none
  | .run => s.run

variable {s t : EventLoop α} {a : Act α}

inductive Runs (s : EventLoop α) : EventLoop α → Prop where
  | entered (pc : s.pc = .testing) (running : s.stop = false) : Runs s { s with pc := .polling }
  | left (pc : s.pc = .testing) (stopped : s.stop = true) : Runs s { s with pc := .exited }
  | finished (pc : s.pc = .dispatching []) : Runs s { s with pc := .testing }
  | passed {channels : List Ready} (pc : s.pc = .dispatching (.other :: channels)) :
      Runs s { s with pc := .dispatching channels }
  | read {channels : List Ready} (pc : s.pc = .dispatching (.wakeup :: channels)) :
      Runs s { s with pc := .locking channels, wakeupfd := 0 }
  | locked {channels : List Ready} (pc : s.pc = .locking channels) :
      Runs s { s with pc := .draining channels }
  | drained {channels : List Ready} (pc : s.pc = .draining channels) (empty : s.taskqueue = []) :
      Runs s { s with pc := .dispatching channels }
  | popped {channels : List Ready} {fn : α} {rest : List α} (pc : s.pc = .draining channels)
      (front : s.taskqueue = fn :: rest) :
      Runs s { s with pc := .running fn channels, taskqueue := rest }
  | ran {channels : List Ready} {fn : α} (pc : s.pc = .running fn channels) :
      Runs s { s with pc := .draining channels, ran := s.ran ++ [fn] }

inductive Step (s : EventLoop α) : Act α → EventLoop α → Prop where
  | pushed {fn : α} (free : s.pc.locked = false) :
      Step s (.queueinloop fn)
        { s with
          taskqueue := s.taskqueue ++ [fn], pushed := s.pushed ++ [fn], queueing := s.queueing + 1 }
  | queued (due : 0 < s.queueing) :
      Step s .queueinloopWakeup
        { s with queueing := s.queueing - 1, wakeupfd := wakeup s.wakeupfd }
  | stored : Step s .stop { s with stop := true, stopping := s.stopping + 1 }
  | stopped (due : 0 < s.stopping) :
      Step s .stopWakeup { s with stopping := s.stopping - 1, wakeupfd := wakeup s.wakeupfd }
  | waited {channels : List Ready} (pc : s.pc = .polling) (ready : .wakeup ∈ channels → 0 < s.wakeupfd) :
      Step s (.loop channels) { s with pc := .dispatching channels }
  | runs {t : EventLoop α} (runs : Runs s t) : Step s .run t

theorem run_cases (taken : s.run = some t) : Runs s t := by
  unfold run at taken
  split at taken
  next pc =>
    cases taken
    split
    next running => exact .entered pc running
    next stopped => exact .left pc (by simpa using stopped)
  next => cases taken
  next pc =>
    cases taken
    exact .finished pc
  next channels pc =>
    cases taken
    exact .passed pc
  next channels pc =>
    cases taken
    exact .read pc
  next channels pc =>
    cases taken
    exact .locked pc
  next channels pc =>
    split at taken
    next empty =>
      cases taken
      exact .drained pc empty
    next fn rest front =>
      cases taken
      exact .popped pc front
  next fn channels pc =>
    cases taken
    exact .ran pc
  next => cases taken

theorem step_cases (taken : step s a = some t) : Step s a t := by
  cases a with
  | queueinloop fn =>
    obtain ⟨free, next⟩ := Option.ite_none_right_eq_some.mp taken
    cases next
    exact .pushed free
  | queueinloopWakeup =>
    obtain ⟨due, next⟩ := Option.ite_none_right_eq_some.mp taken
    cases next
    exact .queued due
  | stop =>
    cases taken
    exact .stored
  | stopWakeup =>
    obtain ⟨due, next⟩ := Option.ite_none_right_eq_some.mp taken
    cases next
    exact .stopped due
  | loop channels =>
    simp only [step] at taken
    split at taken
    next pc =>
      split at taken
      next ready =>
        cases taken
        exact .waited pc ready
      next => cases taken
    next => cases taken
  | run => exact .runs (run_cases taken)

theorem wakeup_pos (wakeupfd : Nat) : 0 < wakeup wakeupfd := by
  unfold wakeup
  split <;> omega

-- A queued task or a stop request has a wakeup on its way, in the eventfd, or being handled.
structure Inv (s : EventLoop α) : Prop where
  queued : s.taskqueue ≠ [] → 0 < s.queueing ∨ 0 < s.wakeupfd ∨ s.pc.handling = true
  stopped : s.stop = true → 0 < s.stopping ∨ 0 < s.wakeupfd ∨ s.pc ≠ .polling
  fifo : s.pushed = s.ran ++ s.pc.held ++ s.taskqueue

theorem initial_inv : Inv (initial : EventLoop α) where
  queued := by simp [initial]
  stopped := by simp [initial]
  fifo := rfl

theorem runs_inv (inv : Inv s) (runs : Runs s t) : Inv t := by
  obtain ⟨queued, stopped, fifo⟩ := inv
  cases runs with
  | entered pc running =>
    simp only [pc, RunPc.handling, RunPc.held] at queued fifo
    exact ⟨queued, by simp [running], fifo⟩
  | left pc _ =>
    simp only [pc, RunPc.handling, RunPc.held] at queued fifo
    exact ⟨queued, by simp, fifo⟩
  | finished pc =>
    simp only [pc, RunPc.handling, RunPc.held] at queued fifo
    exact ⟨queued, by simp, fifo⟩
  | passed pc =>
    simp only [pc, RunPc.handling, RunPc.held] at queued fifo
    exact ⟨queued, by simp, fifo⟩
  | read pc =>
    simp only [pc, RunPc.held] at fifo
    exact ⟨fun _ => .inr (.inr rfl), by simp, fifo⟩
  | locked pc =>
    simp only [pc, RunPc.held] at fifo
    exact ⟨fun _ => .inr (.inr rfl), by simp, fifo⟩
  | drained pc empty =>
    simp only [pc, RunPc.held] at fifo
    exact ⟨fun nonempty => absurd empty nonempty, by simp, fifo⟩
  | popped pc front =>
    simp only [pc, RunPc.held, front] at fifo
    exact ⟨fun _ => .inr (.inr rfl), by simp, by simpa [RunPc.held] using fifo⟩
  | ran pc =>
    simp only [pc, RunPc.held] at fifo
    exact ⟨fun _ => .inr (.inr rfl), by simp, by simpa [RunPc.held] using fifo⟩

theorem step_inv (inv : Inv s) (taken : step s a = some t) : Inv t := by
  obtain ⟨queued, stopped, fifo⟩ := inv
  cases step_cases taken with
  | pushed free =>
    refine ⟨fun _ => .inl (Nat.succ_pos _), stopped, ?_⟩
    simp [fifo]
  | queued due => exact ⟨fun _ => .inr (.inl (wakeup_pos _)), fun _ => .inr (.inl (wakeup_pos _)), fifo⟩
  | stored => exact ⟨queued, fun _ => .inl (Nat.succ_pos _), fifo⟩
  | stopped due => exact ⟨fun _ => .inr (.inl (wakeup_pos _)), fun _ => .inr (.inl (wakeup_pos _)), fifo⟩
  | waited pc ready =>
    simp only [pc, RunPc.handling, RunPc.held] at queued fifo
    exact ⟨queued, by simp, fifo⟩
  | runs runs => exact runs_inv ⟨queued, stopped, fifo⟩ runs

theorem no_lost_wakeup {acts : List (Act α)} {s : EventLoop α}
    (taken : Transition.run step initial acts = some s) :
    (s.pc = .polling → s.wakeupfd = 0 →
      (s.taskqueue = [] ∨ 0 < s.queueing) ∧ (s.stop = false ∨ 0 < s.stopping)) ∧
    s.pushed = s.ran ++ s.pc.held ++ s.taskqueue ∧ s.ran <+: s.pushed := by
  have inv : Inv s := run_invariant (fun _ _ _ => step_inv) initial_inv taken
  refine ⟨fun polling silent => ⟨?_, ?_⟩, inv.fifo, ?_⟩
  · by_cases empty : s.taskqueue = []
    · exact .inl empty
    · have due := inv.queued empty
      simp only [polling, RunPc.handling, silent] at due
      exact .inr (by simpa using due)
  · cases stop : s.stop with
    | false => exact .inl rfl
    | true =>
      have due := inv.stopped stop
      simp only [polling, silent] at due
      simpa using due
  · rw [inv.fifo, List.append_assoc]
    exact List.prefix_append _ _

-- The second task is queued after the read of the eventfd and before the drain.
def lateTask : List (Act Nat) :=
  [.queueinloop 7, .queueinloopWakeup, .run, .loop [.wakeup], .run, .queueinloop 8, .run, .run, .run,
    .run, .run, .run, .queueinloopWakeup, .stop, .run, .run]

-- The loop is in epoll_wait and the eventfd is 0: each run stops between the push or the store and the
-- write.
def pendingTask : List (Act Nat) := [.run, .queueinloop 7]

def pendingStop : List (Act Nat) := [.run, .stop]

theorem late_task_not_lost :
    ((final step initial pendingTask).taskqueue = [7] ∧ 0 < (final step initial pendingTask).queueing) ∧
    ((final step initial pendingStop).stop = true ∧ 0 < (final step initial pendingStop).stopping) ∧
    (final step initial lateTask).pushed =
      (final step initial lateTask).ran ++ (final step initial lateTask).pc.held ++
        (final step initial lateTask).taskqueue ∧
    (final step initial lateTask).ran <+: (final step initial lateTask).pushed := by
  have pending := no_lost_wakeup (run_final (show (Transition.run step initial pendingTask).isSome by decide))
  have stopped := no_lost_wakeup (run_final (show (Transition.run step initial pendingStop).isSome by decide))
  have late := no_lost_wakeup (run_final (show (Transition.run step initial lateTask).isSome by decide))
  have queueing := (pending.1 rfl rfl).1.resolve_left (by decide)
  have stopping := (stopped.1 rfl rfl).2.resolve_left (by decide)
  exact ⟨⟨rfl, queueing⟩, ⟨rfl, stopping⟩, late.2⟩

end EventLoop

end Reactor
