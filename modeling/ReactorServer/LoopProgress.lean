import ReactorServer.Shared.Progress
import ReactorServer.Wakeup

set_option autoImplicit false

namespace Reactor

open Transition

variable {α : Type}

def MaxEvents : Nat := 100

-- How far the loop is from its next call of epoll_wait; a channel it still has to deal with counts three.
def RunPc.rank : RunPc α → Nat
  | .exited => 0
  | .polling => 1
  | .testing => 2
  | .dispatching channels => 3 * channels.length + 3
  | .draining channels => 3 * channels.length + 4
  | .locking channels => 3 * channels.length + 5
  | .running _ channels => 3 * channels.length + 5

def RunPc.reported : RunPc α → Bool
  | .dispatching channels => channels.contains .wakeup
  | _ => false

namespace EventLoop

-- What goes on without new calls: the calls that are under way write to the eventfd, and the loop runs.
-- epoll_wait reports a readable eventfd, and other events only along with it.
def Due : Act α → Prop
  | .queueinloop _ => False
  | .stop => False
  | .loop channels => .wakeup ∈ channels ∧ channels.length ≤ MaxEvents
  | _ => True

def unread (s : EventLoop α) : Nat := if 0 < s.wakeupfd ∧ s.pc.reported = false then 1 else 0

-- A write to the eventfd pays for the batch in which it is reported.
def effort (s : EventLoop α) : Nat :=
  s.pc.rank + 2 * s.taskqueue.length + (3 * MaxEvents + 4) * unread s +
    (3 * MaxEvents + 5) * (s.queueing + s.stopping)

structure AtRest (s : EventLoop α) : Prop where
  waits : s.pc = .polling ∧ s.stop = false ∨ s.pc = .exited ∧ s.stop = true
  served : s.stop = false → s.ran = s.pushed

structure Settling (s : EventLoop α) : Prop where
  inv : Inv s
  exited : s.pc = .exited → s.stop = true

variable {s t : EventLoop α} {a : Act α}

theorem step_exited (exited : s.pc = .exited → s.stop = true) (step : Step s a t) :
    t.pc = .exited → t.stop = true := by
  cases step with
  | stored => exact fun _ => rfl
  | waited pc ready => simp
  | runs runs =>
    cases runs with
    | left pc stopped => exact fun _ => stopped
    | _ => simp
  | _ => exact exited

theorem step_settling (settling : Settling s) (taken : step s a = some t) : Settling t :=
  ⟨step_inv settling.inv taken, step_exited settling.exited (step_cases taken)⟩

theorem unread_le (counter : t.wakeupfd = s.wakeupfd)
    (reported : s.pc.reported = true → t.pc.reported = true) : unread t ≤ unread s := by
  unfold unread
  rw [counter]
  cases before : s.pc.reported with
  | false => split <;> simp_all
  | true => simp [reported before]

theorem runs_effort (runs : Runs s t) : effort t < effort s := by
  cases runs with
  | entered pc running =>
    have less := unread_le (s := s) (t := { s with pc := .polling }) rfl (by simp [pc, RunPc.reported])
    simp only [effort, MaxEvents, pc, RunPc.rank] at less ⊢
    omega
  | left pc stopped =>
    have less := unread_le (s := s) (t := { s with pc := .exited }) rfl (by simp [pc, RunPc.reported])
    simp only [effort, MaxEvents, pc, RunPc.rank] at less ⊢
    omega
  | finished pc =>
    have less := unread_le (s := s) (t := { s with pc := .testing }) rfl (by simp [pc, RunPc.reported])
    simp only [effort, MaxEvents, pc, RunPc.rank, List.length_nil] at less ⊢
    omega
  | @passed channels pc =>
    have less := unread_le (s := s) (t := { s with pc := .dispatching channels }) rfl
      (by simp [pc, RunPc.reported])
    simp only [effort, MaxEvents, pc, RunPc.rank, List.length_cons] at less ⊢
    omega
  | @read channels pc =>
    have none : unread { s with pc := .locking channels, wakeupfd := 0 } = 0 := by simp [unread]
    simp only [effort, MaxEvents, none, pc, RunPc.rank, List.length_cons]
    omega
  | @locked channels pc =>
    have less := unread_le (s := s) (t := { s with pc := .draining channels }) rfl
      (by simp [pc, RunPc.reported])
    simp only [effort, MaxEvents, pc, RunPc.rank] at less ⊢
    omega
  | @drained channels pc empty =>
    have less := unread_le (s := s) (t := { s with pc := .dispatching channels }) rfl
      (by simp [pc, RunPc.reported])
    simp only [effort, MaxEvents, pc, RunPc.rank] at less ⊢
    omega
  | @popped channels fn rest pc front =>
    have less := unread_le (s := s) (t := { s with pc := .running fn channels, taskqueue := rest }) rfl
      (by simp [pc, RunPc.reported])
    simp only [effort, MaxEvents, pc, front, RunPc.rank, List.length_cons] at less ⊢
    omega
  | @ran channels fn pc =>
    have less := unread_le (s := s) (t := { s with pc := .draining channels, ran := s.ran ++ [fn] }) rfl
      (by simp [pc, RunPc.reported])
    simp only [effort, MaxEvents, pc, RunPc.rank] at less ⊢
    omega

theorem step_effort (due : Due a) (taken : step s a = some t) : effort t < effort s := by
  have bit (s : EventLoop α) : unread s ≤ 1 := by
    unfold unread
    split <;> omega
  cases step_cases taken with
  | pushed free => exact due.elim
  | stored => exact due.elim
  | queued some =>
    have written := bit { s with queueing := s.queueing - 1, wakeupfd := wakeup s.wakeupfd }
    simp only [effort, MaxEvents]
    omega
  | stopped some =>
    have written := bit { s with stopping := s.stopping - 1, wakeupfd := wakeup s.wakeupfd }
    simp only [effort, MaxEvents]
    omega
  | @waited channels pc ready =>
    obtain ⟨told, short⟩ := due
    have before : unread s = 1 := by simp [unread, pc, RunPc.reported, ready told]
    have after : unread { s with pc := .dispatching channels } = 0 := by
      simp [unread, RunPc.reported, told]
    simp only [effort, MaxEvents, before, after, pc, RunPc.rank] at short ⊢
    omega
  | runs runs => exact runs_effort runs

theorem stuck_at_rest (settling : Settling s) (stuck : Stuck step (fun _ => Due) s) : AtRest s := by
  have queueing : s.queueing = 0 := by
    by_contra some
    have none := stuck .queueinloopWakeup trivial
    have positive : 0 < s.queueing := by omega
    simp [step, positive] at none
  have stopping : s.stopping = 0 := by
    by_contra some
    have none := stuck .stopWakeup trivial
    have positive : 0 < s.stopping := by omega
    simp [step, positive] at none
  have none : s.run = none := stuck .run trivial
  have waits : s.pc = .polling ∨ s.pc = .exited := by
    unfold run at none
    split at none
    next => simp at none
    next pc => exact .inl pc
    next => simp at none
    next => simp at none
    next => simp at none
    next => simp at none
    next => split at none <;> simp at none
    next => simp at none
    next pc => exact .inr pc
  cases waits with
  | inl pc =>
    have silent : s.wakeupfd = 0 := by
      by_contra some
      have disabled := stuck (.loop [.wakeup]) ⟨List.mem_singleton_self _, by simp [MaxEvents]⟩
      have positive : 0 < s.wakeupfd := by omega
      simp [step, pc, positive] at disabled
    have running : s.stop = false := by
      cases stop : s.stop with
      | false => rfl
      | true =>
        have due := settling.inv.stopped stop
        simp [stopping, silent, pc] at due
    have empty : s.taskqueue = [] := by
      by_contra some
      have due := settling.inv.queued some
      simp [queueing, silent, pc, RunPc.handling] at due
    refine ⟨.inl ⟨pc, running⟩, fun _ => ?_⟩
    simpa [pc, RunPc.held, empty] using settling.inv.fifo.symm
  | inr pc =>
    have stopped := settling.exited pc
    exact ⟨.inr ⟨pc, stopped⟩, fun running => by simp [running] at stopped⟩

theorem due_kept (due : Due a) (taken : step s a = some t) : t.stop = s.stop ∧ t.pushed = s.pushed := by
  cases step_cases taken with
  | pushed free => exact due.elim
  | stored => exact due.elim
  | runs runs => cases runs <;> exact ⟨rfl, rfl⟩
  | _ => exact ⟨rfl, rfl⟩

theorem run_settling {acts : List (Act α)} (taken : Transition.run step initial acts = some s) :
    Settling s := by
  have start : Settling (initial : EventLoop α) := ⟨initial_inv, by simp [initial]⟩
  exact run_invariant (fun _ _ _ => step_settling) start taken

theorem loop_settles {acts : List (Act α)} (taken : Transition.run step initial acts = some s) :
    Inevitable step (fun _ => Due) s
      (fun t => (s.stop = true → t.pc = .exited) ∧
        (s.stop = false → t.pc = .polling ∧ t.taskqueue = [] ∧ t.ran = s.pushed))
      (effort s) := by
  apply inevitable effort
  · intro u a t (reached : Settling u ∧ u.stop = s.stop ∧ u.pushed = s.pushed) due taken
    obtain ⟨stop, pushed⟩ := due_kept due taken
    exact ⟨step_settling reached.1 taken, stop.trans reached.2.1, pushed.trans reached.2.2⟩
  · intro u a t reached due taken
    exact step_effort due taken
  · intro u reached stuck
    obtain ⟨settling, stop, pushed⟩ := reached
    obtain ⟨waits, served⟩ := stuck_at_rest settling stuck
    rw [← stop, ← pushed]
    refine ⟨fun stopped => ?_, fun running => ?_⟩
    · rcases waits with ⟨pc, running⟩ | ⟨pc, -⟩
      · simp [running] at stopped
      · exact pc
    · rcases waits with ⟨pc, -⟩ | ⟨-, stopped⟩
      · have all := settling.inv.fifo
        rw [← served running, pc] at all
        exact ⟨pc, by simpa [RunPc.held] using all, served running⟩
      · simp [running] at stopped
  · exact ⟨run_settling taken, rfl, rfl⟩

theorem loop_settles_late :
    effort (final step initial (lateTask.take 8)) = 312 ∧
      Inevitable step (fun _ => Due) (final step initial (lateTask.take 8))
        (fun t => ((final step initial (lateTask.take 8)).stop = true → t.pc = .exited) ∧
          ((final step initial (lateTask.take 8)).stop = false → t.pc = .polling ∧ t.taskqueue = [] ∧
            t.ran = (final step initial (lateTask.take 8)).pushed))
        (effort (final step initial (lateTask.take 8))) :=
  ⟨by decide, loop_settles (run_final (by decide))⟩

end EventLoop

end Reactor
