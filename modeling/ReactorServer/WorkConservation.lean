import ReactorServer.PoolInvariants

set_option autoImplicit false

namespace Reactor

open Tally Transition

variable {α : Type} {n : Nat}

def WorkerPc.unchecked : WorkerPc α → Nat
  | .woken => 1
  | .evaluating true => 1
  | _ => 0

-- Woken and let through by the predicate, mutex_ still held and the task not popped yet.
def WorkerPc.taking : WorkerPc α → Nat
  | .checking true => 1
  | .dequeuing true => 1
  | _ => 0

def WorkerPc.due (pc : WorkerPc α) : Nat := pc.unchecked + pc.taking

namespace ThreadPool

variable {s t : ThreadPool α n} {a : Act α n}

theorem tasks_conserved {acts : List (Act α n)} {s : ThreadPool α n}
    (taken : run step initial acts = some s) :
    s.pushed = s.dequeued.map Prod.snd ++ s.taskqueue ∧
    (∀ w, tasksof w s.dequeued = tasksof w s.executed ++ (s.threads w).held) ∧
    (s.underflow = false ∧ ∀ w notified, s.threads w = .dequeuing notified → s.taskqueue ≠ []) ∧
    (n = 1 → s.executed.map Prod.snd <+: s.pushed) := by
  have inv := run_inv taken
  refine ⟨inv.fifo, inv.held, ⟨inv.underflow, ?_⟩, ?_⟩
  · intro w notified pc
    have found := inv.found w
    rw [pc] at found
    exact found
  · intro single
    subst single
    have all (log : List (Fin 1 × α)) : tasksof 0 log = log.map Prod.snd := by
      simp [tasksof, Fin.fin_one_eq_zero]
    have order := inv.held 0
    rw [all, all] at order
    rw [inv.fifo, order, List.append_assoc]
    exact List.prefix_append _ _

def threeTasks : List (Act Nat 2) :=
  [.push 7, .push 8, .notifyone none, .work 0, .work 0, .work 0, .work 0, .work 0, .work 1, .push 9,
    .work 1, .work 1, .work 1, .work 1, .work 1, .stop, .work 0]

def oneByOne (w : Fin 1) : List (Act Nat 1) :=
  [.push 7, .push 8, .work w, .work w, .work w, .work w, .work w, .work w, .work w, .work w, .work w,
    .work w, .work w]

theorem three_tasks_conserved :
    (∃ s : ThreadPool Nat 2, run step initial threeTasks = some s ∧
      s.pushed = s.dequeued.map Prod.snd ++ s.taskqueue ∧
      (∀ w, tasksof w s.dequeued = tasksof w s.executed ++ (s.threads w).held) ∧
      s.underflow = false ∧ ∀ w notified, s.threads w = .dequeuing notified → s.taskqueue ≠ []) ∧
    (final step initial (oneByOne 0)).executed.map Prod.snd <+:
      (final step initial (oneByOne 0)).pushed := by
  have taken := run_final (show (run step initial threeTasks).isSome by decide +kernel)
  obtain ⟨fifo, held, within, -⟩ := tasks_conserved taken
  have single := run_final (show (run step initial (oneByOne 0)).isSome by decide +kernel)
  obtain ⟨-, -, -, prefixed⟩ := tasks_conserved single
  exact ⟨⟨_, taken, fifo, held, within⟩, prefixed rfl⟩

def Sleeping (s : ThreadPool α n) : Prop := ∃ w, s.threads w = .waiting

def Attended (s : ThreadPool α n) : Prop :=
  s.stop = false → Sleeping s → s.taskqueue.length ≤ tally WorkerPc.due s.threads + s.adding

theorem attended_empty (empty : s.taskqueue = []) : Attended s := by
  intro running asleep
  simp [empty]

theorem Attended.update (attended : Attended s) {w : Fin n} {pc : WorkerPc α}
    (threads : t.threads = Function.update s.threads w pc) (stop : t.stop = s.stop)
    (awake : pc ≠ .waiting)
    (covered : t.taskqueue.length + (s.threads w).due + s.adding ≤
      s.taskqueue.length + pc.due + t.adding) : Attended t := by
  intro running asleep
  obtain ⟨v, asleep⟩ := asleep
  have before : Sleeping s := by
    rw [threads] at asleep
    by_cases here : v = w
    · subst here
      exact absurd (by simpa using asleep) awake
    · exact ⟨v, by simpa [here] using asleep⟩
  have bound := attended (stop ▸ running) before
  have moved := tally_update WorkerPc.due s.threads w pc
  rw [threads]
  omega

theorem works_attended (inv : Inv s) (attended : Attended s) {w : Fin n} (works : Works s w t) :
    Attended t := by
  cases works with
  | entered pc running =>
    refine attended.update rfl rfl (by simp) ?_
    simp [pc, WorkerPc.due, WorkerPc.unchecked, WorkerPc.taking]
  | left pc stopped =>
    refine attended.update rfl rfl (by simp) ?_
    simp [pc, WorkerPc.due, WorkerPc.unchecked, WorkerPc.taking]
  | acquired pc free =>
    refine attended.update rfl rfl (by simp) ?_
    rcases pc with ⟨pc, rfl⟩ | ⟨pc, rfl⟩ <;> simp [pc, WorkerPc.due, WorkerPc.unchecked, WorkerPc.taking]
  | @passed notified pc found =>
    refine attended.update rfl rfl (by simp) ?_
    cases notified <;> simp [pc, WorkerPc.due, WorkerPc.unchecked, WorkerPc.taking]
  | failed pc running empty => exact attended_empty empty
  | blocked pc =>
    have empty := inv.found w
    rw [pc] at empty
    exact attended_empty empty
  | drained pc stopped empty => exact attended_empty empty
  | @kept notified pc left =>
    refine attended.update rfl rfl (by simp) ?_
    cases notified <;> simp [pc, WorkerPc.due, WorkerPc.unchecked, WorkerPc.taking]
  | underflowed pc empty => exact attended_empty empty
  | @dequeued notified task rest pc front =>
    refine attended.update rfl rfl (by simp) ?_
    cases notified <;> simp [pc, front, WorkerPc.due, WorkerPc.unchecked, WorkerPc.taking]
  | executed pc =>
    refine attended.update rfl rfl (by simp) ?_
    simp [pc, WorkerPc.due, WorkerPc.unchecked, WorkerPc.taking]

theorem step_attended (inv : Inv s) (attended : Attended s) (step : Step s a t) : Attended t := by
  cases step with
  | worked works => exact works_attended inv attended works
  | woken pc =>
    refine attended.update rfl rfl (by simp) ?_
    simp [pc, WorkerPc.due, WorkerPc.unchecked, WorkerPc.taking]
  | pushed free =>
    intro running asleep
    have bound := attended running asleep
    simp only [List.length_append, List.length_singleton]
    omega
  | notified due pc =>
    refine attended.update rfl rfl (by simp) ?_
    simp only [setpc, pc, WorkerPc.due, WorkerPc.unchecked, WorkerPc.taking]
    omega
  | wasted due nobody =>
    intro running asleep
    obtain ⟨w, asleep⟩ := asleep
    exact absurd asleep (nobody w)
  | stored stopper running =>
    intro running
    cases running
  | again stopper stopped => exact attended
  | notifiedall stopper =>
    intro running
    have idle := inv.idle.mp running
    simp [stopper] at idle
  | joined stopper h pc => exact attended
  | finished stopper all => exact attended

theorem run_attended {acts : List (Act α n)} (taken : run step initial acts = some s) : Attended s := by
  have start : Attended (initial : ThreadPool α n) := attended_empty rfl
  have preserved (s : ThreadPool α n) (a : Act α n) (t : ThreadPool α n)
      (both : Inv s ∧ Attended s) (first : step s a = some t) : Inv t ∧ Attended t :=
    ⟨step_inv both.1 first, step_attended both.1 both.2 (step_cases first)⟩
  exact (run_invariant preserved ⟨initial_inv, start⟩ taken).2

theorem taking_critical {pc : WorkerPc α} (free : pc.critical = false) : pc.taking = 0 := by
  cases pc <;> simp_all [WorkerPc.critical, WorkerPc.taking]

theorem taking_le (pc : WorkerPc α) : pc.taking ≤ 1 := by
  unfold WorkerPc.taking
  split <;> omega

theorem Owner.taking_free (owner : Owner s) (free : s.mutex = none) : tally WorkerPc.taking s.threads = 0 :=
  tally_zero.mpr fun w => taking_critical (owner.free free w)

theorem Owner.taking_le (owner : Owner s) : tally WorkerPc.taking s.threads ≤ 1 := by
  cases holder : s.mutex with
  | none => simp [owner.taking_free holder]
  | some w =>
    have inside := (owner w).mp holder
    rw [tally_single fun v other => taking_critical (owner.others inside other)]
    exact ThreadPool.taking_le _

theorem work_conserving {acts : List (Act α n)} {s : ThreadPool α n}
    (taken : run step initial acts = some s) (running : s.stop = false) :
    ((∀ w, s.threads w ≠ .waiting) ∨
      s.taskqueue.length ≤
        tally WorkerPc.unchecked s.threads + s.adding + tally WorkerPc.taking s.threads) ∧
    tally WorkerPc.taking s.threads ≤ 1 ∧ (s.mutex = none → tally WorkerPc.taking s.threads = 0) := by
  have owner := (run_inv taken).owner
  refine ⟨?_, owner.taking_le, owner.taking_free⟩
  by_cases asleep : Sleeping s
  · right
    have bound := run_attended taken running asleep
    have split := tally_add WorkerPc.unchecked WorkerPc.taking s.threads
    have due : tally WorkerPc.due s.threads =
        tally WorkerPc.unchecked s.threads + tally WorkerPc.taking s.threads := split
    omega
  · left
    intro w pc
    exact asleep ⟨w, pc⟩

def bothAsleep : List (Act Nat 2) :=
  [.work 0, .work 0, .work 0, .work 0, .work 1, .work 1, .work 1, .work 1, .push 7, .notifyone (some 0)]

theorem both_asleep_conserving :
    (∀ w, (final step initial bothAsleep).threads w ≠ .waiting) ∨
      (final step initial bothAsleep).taskqueue.length ≤
        tally WorkerPc.unchecked (final step initial bothAsleep).threads +
          (final step initial bothAsleep).adding +
            tally WorkerPc.taking (final step initial bothAsleep).threads :=
  (work_conserving (run_final (by decide)) (by decide)).1

-- Worker 0 has tested the predicate and still holds mutex_; worker 1 sleeps.
theorem checked_before_pop :
    ∃ s : ThreadPool Nat 2, run step initial (bothAsleep ++ [.work 0, .work 0]) = some s ∧
      s.stop = false ∧ ¬ ((∀ w, s.threads w ≠ .waiting) ∨
        s.taskqueue.length ≤ tally WorkerPc.unchecked s.threads + s.adding) :=
  ⟨_, run_final (by decide), by decide, by
    intro claimed
    rcases claimed with awake | bound
    · exact awake 1 rfl
    · exact absurd bound (by decide)⟩

end ThreadPool

end Reactor
