import Mathlib.Data.List.Perm.Subperm
import ReactorServer.Shared.Progress
import ReactorServer.WorkConservation

set_option autoImplicit false

namespace Reactor

open Tally Transition

variable {α : Type} {n : Nat}

def WorkerPc.rank : WorkerPc α → Nat
  | .running _ => 6
  | .testing => 5
  | .locking => 4
  | .woken => 4
  | .evaluating _ => 3
  | .checking _ => 2
  | .dequeuing _ => 1
  | .blocking => 1
  | .waiting => 0
  | .exited => 0

namespace ThreadPool

-- What goes on without new calls: the workers, as far as their tasks return, and the notifications of
-- the addtask calls that have pushed.
def Due (returns : α → Prop) (s : ThreadPool α n) : Act α n → Prop
  | .work w => ∀ task, s.threads w = .running task → returns task
  | .notifyone _ => True
  | _ => False

structure AtRest (returns : α → Prop) (s : ThreadPool α n) : Prop where
  occupied : ∀ w, s.threads w = .waiting ∨ ∃ task, s.threads w = .running task ∧ ¬ returns task
  attended : ∀ w, s.threads w = .waiting → s.taskqueue = []

def effort (s : ThreadPool α n) : Nat :=
  6 * s.taskqueue.length + 5 * s.adding + tally WorkerPc.rank s.threads

structure Working (s : ThreadPool α n) : Prop where
  inv : Inv s
  attended : Attended s
  running : s.stop = false
  alive : ∀ w, s.threads w ≠ .exited

variable {returns : α → Prop} {s t : ThreadPool α n} {a : Act α n}

theorem step_alive (running : t.stop = false) (alive : s.stop = false → ∀ w, s.threads w ≠ .exited)
    (step : Step s a t) (w : Fin n) : t.threads w ≠ .exited := by
  have moved {v : Fin n} {pc : WorkerPc α} (before : ∀ w, s.threads w ≠ .exited) (inside : pc ≠ .exited)
      (w : Fin n) : Function.update s.threads v pc w ≠ .exited :=
    (Function.forall_update_iff s.threads fun _ pc => pc ≠ .exited).mpr
      ⟨inside, fun w _ => before w⟩ w
  cases step with
  | worked works =>
    cases works with
    | left pc stopped => simp [stopped] at running
    | drained pc stopped empty => simp [stopped] at running
    | underflowed pc empty => exact alive running w
    | _ => exact moved (alive running) (by simp) w
  | woken pc => exact moved (alive running) (by simp) w
  | notified due pc => exact moved (alive running) (by simp) w
  | stored stopper before => cases running
  | notifiedall stopper =>
    by_cases pc : s.threads w = .waiting
    · simp [wakeall_waiting pc]
    · simpa [wakeall_other pc] using alive running w
  | _ => exact alive running w

theorem step_working (working : Working s) (due : Due returns s a) (taken : step s a = some t) :
    Working t := by
  have step := step_cases taken
  have running : t.stop = false := by
    cases step with
    | worked works => exact (works_stop works).1.trans working.running
    | stored => exact due.elim
    | _ => exact working.running
  exact ⟨step_inv working.inv taken, step_attended working.inv working.attended step, running,
    step_alive running (fun _ => working.alive) step⟩

theorem effort_update {w : Fin n} {pc : WorkerPc α} (threads : t.threads = Function.update s.threads w pc)
    (less : 6 * t.taskqueue.length + 5 * t.adding + pc.rank <
      6 * s.taskqueue.length + 5 * s.adding + (s.threads w).rank) : effort t < effort s := by
  have moved := tally_update WorkerPc.rank s.threads w pc
  unfold effort
  rw [threads]
  omega

theorem works_effort (inv : Inv s) {w : Fin n} (works : Works s w t) : effort t < effort s := by
  cases works with
  | entered pc running => exact effort_update rfl (by simp [pc, WorkerPc.rank])
  | left pc stopped => exact effort_update rfl (by simp [pc, WorkerPc.rank])
  | acquired pc free =>
    refine effort_update rfl ?_
    rcases pc with ⟨pc, rfl⟩ | ⟨pc, rfl⟩ <;> simp [pc, WorkerPc.rank]
  | passed pc found => exact effort_update rfl (by simp [pc, WorkerPc.rank])
  | failed pc running empty => exact effort_update rfl (by simp [pc, WorkerPc.rank])
  | blocked pc => exact effort_update rfl (by simp [pc, WorkerPc.rank])
  | drained pc stopped empty => exact effort_update rfl (by simp [pc, WorkerPc.rank])
  | kept pc left => exact effort_update rfl (by simp [pc, WorkerPc.rank])
  | underflowed pc empty =>
    have some := inv.found w
    rw [pc] at some
    exact absurd empty some
  | dequeued pc front =>
    refine effort_update rfl ?_
    simp only [setpc, pc, front, WorkerPc.rank, List.length_cons]
    omega
  | executed pc => exact effort_update rfl (by simp [pc, WorkerPc.rank])

theorem step_effort (inv : Inv s) (due : Due returns s a) (taken : step s a = some t) :
    effort t < effort s := by
  cases step_cases taken with
  | worked works => exact works_effort inv works
  | notified some pc =>
    refine effort_update rfl ?_
    simp only [setpc, pc, WorkerPc.rank]
    omega
  | wasted some nobody =>
    simp only [effort]
    omega
  | _ => exact due.elim

section Stuck

variable (inv : Inv s) (stuck : Stuck step (Due returns) s)
include inv stuck

theorem stuck_free : s.mutex = none := by
  cases holder : s.mutex with
  | none => rfl
  | some w =>
    have inside := (inv.owner w).mp holder
    have disabled (allowed : Due returns s (.work w)) : s.work w = none := stuck (.work w) allowed
    cases pc : s.threads w with
    | evaluating notified =>
      have none := disabled (by simp [Due, pc])
      simp [work, pc] at none
    | blocking =>
      have none := disabled (by simp [Due, pc])
      simp [work, pc] at none
    | checking notified =>
      have none := disabled (by simp [Due, pc])
      simp only [work, pc] at none
      split at none <;> simp at none
    | dequeuing notified =>
      have none := disabled (by simp [Due, pc])
      simp only [work, pc] at none
      split at none <;> simp at none
    | _ => simp [pc, WorkerPc.critical] at inside

theorem stuck_occupied (w : Fin n) :
    s.threads w = .waiting ∨ s.threads w = .exited ∨ ∃ task, s.threads w = .running task ∧ ¬ returns task := by
  have free := stuck_free inv stuck
  have outside := inv.owner.free free w
  have disabled (allowed : Due returns s (.work w)) : s.work w = none := stuck (.work w) allowed
  cases pc : s.threads w with
  | waiting => exact .inl rfl
  | exited => exact .inr (.inl rfl)
  | running task =>
    refine .inr (.inr ⟨task, rfl, fun back => ?_⟩)
    have none := disabled (by simp [Due, pc, back])
    simp [work, pc] at none
  | testing =>
    have none := disabled (by simp [Due, pc])
    simp [work, pc] at none
  | locking =>
    have none := disabled (by simp [Due, pc])
    simp [work, pc, acquire, free] at none
  | woken =>
    have none := disabled (by simp [Due, pc])
    simp [work, pc, acquire, free] at none
  | _ => simp [pc, WorkerPc.critical] at outside

omit inv in
theorem stuck_at_rest (working : Working s) : AtRest returns s := by
  have occupied (w : Fin n) :
      s.threads w = .waiting ∨ ∃ task, s.threads w = .running task ∧ ¬ returns task :=
    (stuck_occupied working.inv stuck w).imp_right fun rest => rest.resolve_left (working.alive w)
  refine ⟨occupied, fun w asleep => ?_⟩
  have due : tally WorkerPc.due s.threads = 0 := by
    apply tally_zero.mpr
    intro v
    rcases occupied v with pc | ⟨task, pc, -⟩ <;>
      simp [pc, WorkerPc.due, WorkerPc.unchecked, WorkerPc.taking]
  have notified : s.adding = 0 := by
    by_contra some
    have none := stuck (.notifyone (.some w)) trivial
    have positive : 0 < s.adding := by omega
    simp [step, asleep, WorkerPc.isWaiting, positive] at none
  have bound := working.attended working.running ⟨w, asleep⟩
  exact List.eq_nil_of_length_eq_zero (by omega)

end Stuck

theorem due_pushed (due : Due returns s a) (taken : step s a = some t) : t.pushed = s.pushed := by
  cases step_cases taken with
  | worked works => cases works <;> rfl
  | notified => rfl
  | wasted => rfl
  | _ => exact due.elim

theorem pool_settles (working : Working s) :
    Inevitable step (Due returns) s
      (fun t => Working t ∧ t.pushed = s.pushed ∧ AtRest returns t) (effort s) := by
  apply inevitable effort
  · intro u a t (reached : Working u ∧ u.pushed = s.pushed) due taken
    exact ⟨step_working reached.1 due taken, (due_pushed due taken).trans reached.2⟩
  · intro u a t reached due taken
    exact step_effort reached.1.inv due taken
  · intro u reached stuck
    exact ⟨reached.1, reached.2, stuck_at_rest stuck reached.1⟩
  · exact ⟨working, rfl⟩

theorem run_working {acts : List (Act α n)} (taken : run step initial acts = some s)
    (running : s.stop = false) : Working s := by
  have preserved (s : ThreadPool α n) (a : Act α n) (t : ThreadPool α n)
      (alive : s.stop = false → ∀ w, s.threads w ≠ .exited) (taken : step s a = some t)
      (running : t.stop = false) : ∀ w, t.threads w ≠ .exited :=
    step_alive running alive (step_cases taken)
  have start : (initial : ThreadPool α n).stop = false →
      ∀ w, (initial : ThreadPool α n).threads w ≠ .exited := by simp [initial]
  exact ⟨run_inv taken, run_attended taken, running, run_invariant preserved start taken running⟩

theorem every_task_executed {acts : List (Act α n)} (workers : 0 < n)
    (taken : run step initial acts = some s) (running : s.stop = false) :
    Inevitable step (Due fun _ => True) s
      (fun t => t.pushed = s.pushed ∧ t.taskqueue = [] ∧ (t.executed.map Prod.snd).Perm s.pushed ∧
        ∀ w, t.threads w = .waiting)
      (effort s) := by
  refine (pool_settles (run_working taken running)).imp fun t reached => ?_
  obtain ⟨working, pushed, rest⟩ := reached
  have asleep (w : Fin n) : t.threads w = .waiting := by
    rcases rest.occupied w with pc | ⟨task, -, never⟩
    · exact pc
    · exact absurd trivial never
  have empty := rest.attended ⟨0, workers⟩ (asleep _)
  have same (w : Fin n) : tasksof w t.executed = tasksof w t.dequeued := by
    have held := working.inv.held w
    rw [asleep w] at held
    simpa [WorkerPc.held] using held.symm
  refine ⟨pushed, empty, ?_, asleep⟩
  rw [← pushed, working.inv.fifo, empty, List.append_nil]
  exact (perm_of_tasksof same).map Prod.snd

theorem every_task_executed_asleep :
    effort (final step initial bothAsleep) = 10 ∧
      Inevitable step (Due fun _ => True) (final step initial bothAsleep)
        (fun t => t.pushed = (final step initial bothAsleep).pushed ∧ t.taskqueue = [] ∧
          (t.executed.map Prod.snd).Perm (final step initial bothAsleep).pushed ∧
          ∀ w, t.threads w = .waiting)
        (effort (final step initial bothAsleep)) :=
  ⟨by decide, every_task_executed (by decide) (run_final (by decide)) (by decide)⟩

end ThreadPool

end Reactor
