import ReactorServer.PoolInvariants

set_option autoImplicit false

namespace Reactor

open Tally Transition

variable {α : Type} {n : Nat}

-- Past the test of stop_ in the loop and not yet out of the critical section with a task.
def WorkerPc.entered : WorkerPc α → Nat
  | .testing => 0
  | .running _ => 0
  | .exited => 0
  | _ => 1

def StopPc.notified : StopPc → Bool
  | .joining _ => true
  | .returned => true
  | _ => false

namespace ThreadPool

variable {s t : ThreadPool α n} {a : Act α n}

def AddedBefore (s : ThreadPool α n) : Act α n → Prop
  | .push _ => s.stop = false
  | _ => True

def Drainable (s : ThreadPool α n) : Act α n → Prop
  | .stop => s.taskqueue.length ≤ tally WorkerPc.entered s.threads
  | _ => True

instance (s : ThreadPool α n) (a : Act α n) : Decidable (Drainable s a) := by
  unfold Drainable
  split <;> infer_instance

-- Once stop_ is set, a worker leaves the critical section with a task or finds none.
inductive Settles (s t : ThreadPool α n) : Prop where
  | paired (k : Nat) (tasks : t.taskqueue.length + k = s.taskqueue.length)
      (workers : tally WorkerPc.entered t.threads + k = tally WorkerPc.entered s.threads) : Settles s t
  | empty (before : s.taskqueue = []) (after : t.taskqueue = []) : Settles s t

theorem settles_update {w : Fin n} {pc : WorkerPc α} (threads : t.threads = Function.update s.threads w pc)
    {k : Nat} (tasks : t.taskqueue.length + k = s.taskqueue.length)
    (worker : pc.entered + k = (s.threads w).entered) : Settles s t := by
  have moved := tally_update WorkerPc.entered s.threads w pc
  apply Settles.paired k tasks
  rw [threads]
  omega

theorem works_settles (stopped : s.stop = true) {w : Fin n} (works : Works s w t) : Settles s t := by
  cases works with
  | entered pc running => simp [running] at stopped
  | left pc _ => exact settles_update rfl (Nat.add_zero _) (by simp [pc, WorkerPc.entered])
  | acquired pc free =>
    refine settles_update rfl (Nat.add_zero _) ?_
    rcases pc with ⟨pc, -⟩ | ⟨pc, -⟩ <;> simp [pc, WorkerPc.entered]
  | passed pc found => exact settles_update rfl (Nat.add_zero _) (by simp [pc, WorkerPc.entered])
  | failed pc running empty => simp [running] at stopped
  | blocked pc => exact settles_update rfl (Nat.add_zero _) (by simp [pc, WorkerPc.entered])
  | drained pc _ empty => exact .empty empty empty
  | kept pc left => exact settles_update rfl (Nat.add_zero _) (by simp [pc, WorkerPc.entered])
  | underflowed pc empty => exact .empty empty empty
  | dequeued pc front =>
    have one : 0 + 1 = (s.threads w).entered := by simp [pc, WorkerPc.entered]
    exact settles_update rfl (by simp [front]) one
  | executed pc => exact settles_update rfl (Nat.add_zero _) (by simp [pc, WorkerPc.entered])

theorem wakeall_entered (w : Fin n) : (wakeall s.threads w).entered = (s.threads w).entered := by
  by_cases pc : s.threads w = .waiting
  · simp [wakeall_waiting pc, pc, WorkerPc.entered]
  · rw [wakeall_other pc]

theorem step_settles (stopped : s.stop = true) (added : AddedBefore s a) (step : Step s a t) :
    Settles s t := by
  cases step with
  | worked works => exact works_settles stopped works
  | woken pc => exact settles_update rfl (Nat.add_zero _) (by simp [pc, WorkerPc.entered])
  | pushed free => simp [AddedBefore, stopped] at added
  | notified due pc => exact settles_update rfl (Nat.add_zero _) (by simp [pc, WorkerPc.entered])
  | wasted due nobody => exact .paired 0 rfl rfl
  | stored stopper running => exact .paired 0 rfl rfl
  | again stopper _ => exact .paired 0 rfl rfl
  | notifiedall stopper => exact .paired 0 rfl (tally_congr fun w => wakeall_entered w)
  | joined stopper h pc => exact .paired 0 rfl rfl
  | finished stopper all => exact .paired 0 rfl rfl

theorem step_stop (step : Step s a t) (stopped : s.stop = true) : t.stop = true := by
  cases step with
  | worked works => exact (works_stop works).1.trans stopped
  | stored stopper running => rfl
  | _ => exact stopped

def Covered (s : ThreadPool α n) : Prop :=
  s.stop = true → s.taskqueue.length ≤ tally WorkerPc.entered s.threads

def Uncovered (s : ThreadPool α n) : Prop :=
  s.stop = true ∧ tally WorkerPc.entered s.threads < s.taskqueue.length

theorem step_covered (covered : Covered s) (added : AddedBefore s a) (drainable : Drainable s a)
    (step : Step s a t) : Covered t := by
  cases stopped : s.stop with
  | true =>
    have bound := covered stopped
    intro _
    cases step_settles stopped added step with
    | paired k tasks workers => omega
    | empty before after => simp [after]
  | false =>
    cases step with
    | stored stopper running =>
      intro _
      exact drainable
    | worked works =>
      intro after
      rw [(works_stop works).1, stopped] at after
      cases after
    | _ =>
      intro after
      exact absurd (stopped.symm.trans after) (by decide)

theorem step_broken (covered : Covered s) (drainable : ¬ Drainable s a) (step : Step s a t) :
    Uncovered t := by
  cases step with
  | stored stopper running => exact ⟨rfl, not_le.mp drainable⟩
  | again stopper stopped => exact absurd (covered stopped) drainable
  | _ => exact absurd trivial drainable

theorem step_uncovered (uncovered : Uncovered s) (added : AddedBefore s a) (step : Step s a t) :
    Uncovered t := by
  obtain ⟨stopped, more⟩ := uncovered
  refine ⟨step_stop step stopped, ?_⟩
  cases step_settles stopped added step with
  | paired k tasks workers => omega
  | empty before after => simp [before] at more

theorem Inv.stopped (inv : Inv s) (notified : s.stopper.notified = true) : s.stop = true := by
  have idle := inv.idle
  cases stop : s.stop with
  | true => rfl
  | false => simp [idle.mp stop, StopPc.notified] at notified

theorem returned_exited (inv : Inv s) (returned : s.stopper = .returned) (w : Fin n) :
    s.threads w = .exited := by
  apply inv.joined
  rw [returned]
  exact w.isLt

theorem returned_entered (inv : Inv s) (returned : s.stopper = .returned) :
    tally WorkerPc.entered s.threads = 0 := by
  apply tally_zero.mpr
  intro w
  rw [returned_exited inv returned w]
  rfl

theorem returned_executed (inv : Inv s) (returned : s.stopper = .returned) :
    s.dequeued.Perm s.executed := by
  apply perm_of_tasksof
  intro w
  rw [inv.held w, returned_exited inv returned w]
  exact List.append_nil _

theorem drainable_or_uncovered {acts : List (Act α n)} {s : ThreadPool α n}
    (taken : run step initial acts = some s) (added : Guarded step AddedBefore initial acts) :
    Guarded step Drainable initial acts ∧ Covered s ∨
      ¬ Guarded step Drainable initial acts ∧ Uncovered s := by
  apply guarded_dichotomy _ _ _ _ added taken
  · intro s a t covered added drainable first
    exact step_covered covered added drainable (step_cases first)
  · intro s a t covered _ never first
    exact step_broken covered never (step_cases first)
  · intro s a t uncovered added first
    exact step_uncovered uncovered added (step_cases first)
  · intro running
    cases running

theorem shutdown_drains_iff {acts : List (Act α n)} {s : ThreadPool α n}
    (taken : run step initial acts = some s) (added : Guarded step AddedBefore initial acts)
    (returned : s.stopper = .returned) :
    (s.taskqueue = [] ∧ (s.executed.map Prod.snd).Perm s.pushed) ↔
      Guarded step Drainable initial acts := by
  have inv := run_inv taken
  have stopped : s.stop = true := inv.stopped (by simp [returned, StopPc.notified])
  rcases drainable_or_uncovered taken added with ⟨drainable, covered⟩ | ⟨broken, -, more⟩
  · have empty : s.taskqueue = [] := by
      have bound := covered stopped
      rw [returned_entered inv returned] at bound
      exact List.length_eq_zero_iff.mp (Nat.le_zero.mp bound)
    have pushed : s.pushed = s.dequeued.map Prod.snd := by simp [inv.fifo, empty]
    constructor
    · intro _
      exact drainable
    · intro _
      rw [pushed]
      exact ⟨empty, ((returned_executed inv returned).map Prod.snd).symm⟩
  · constructor
    · intro claimed
      simp [claimed.1] at more
    · intro drainable
      exact absurd drainable broken

-- Stop finds worker 0 running the first task and the second one still in the queue.
def twoTasks : List (Act Nat 1) :=
  [.push 7, .notifyone none, .push 8, .notifyone none, .work 0, .work 0, .work 0, .work 0, .work 0,
    .stop, .notifyall, .work 0, .work 0, .join, .join]

-- Stop finds worker 0 already past its test of stop_ when the second task is left.
def bothTasks : List (Act Nat 1) :=
  [.push 7, .notifyone none, .push 8, .notifyone none, .work 0, .work 0, .work 0, .work 0, .work 0,
    .work 0, .work 0, .stop, .notifyall, .work 0, .work 0, .work 0, .work 0, .work 0, .work 0, .join, .join]

theorem both_tasks_drained :
    (Guarded step Drainable initial bothTasks ∧ (final step initial bothTasks).taskqueue = [] ∧
      ((final step initial bothTasks).executed.map Prod.snd).Perm (final step initial bothTasks).pushed) ∧
    ¬ Guarded step Drainable initial twoTasks := by
  have added (acts : List (Act Nat 1)) (early : acts = bothTasks ∨ acts = twoTasks) :
      Guarded step AddedBefore initial acts := by
    rcases early with rfl | rfl <;> simp [bothTasks, twoTasks, Guarded, AddedBefore, step, initial]
  have drained := shutdown_drains_iff (run_final (by decide)) (added bothTasks (.inl rfl)) (by decide)
  have left := shutdown_drains_iff (run_final (by decide)) (added twoTasks (.inr rfl)) (by decide)
  have drainable : Guarded step Drainable initial bothTasks := by decide
  refine ⟨⟨drainable, drained.mpr drainable⟩, fun drainable => ?_⟩
  exact absurd (left.mpr drainable).1 (by decide)

theorem second_task_lost :
    ∃ s : ThreadPool Nat 1, run step initial twoTasks = some s ∧
      Guarded step AddedBefore initial twoTasks ∧ s.stopper = .returned ∧
      s.pushed = [7, 8] ∧ s.executed.map Prod.snd = [7] ∧ s.taskqueue = [8] :=
  ⟨_, run_final (by decide), by simp [twoTasks, Guarded, AddedBefore, step, initial], by decide,
    by decide, by decide, by decide⟩

def Caught (s : ThreadPool α n) : Act α n → Prop
  | .notifyall => ∀ w, s.threads w ≠ .blocking
  | _ => True

instance [DecidableEq α] (s : ThreadPool α n) (a : Act α n) : Decidable (Caught s a) := by
  unfold Caught
  split <;> infer_instance

-- notify_all and every notify_one are over, and a worker is blocked on condition_ or about to be.
def Hung (s : ThreadPool α n) : Prop :=
  s.stopper.notified = true ∧ s.adding = 0 ∧ ∃ w, s.threads w = .waiting ∨ s.threads w = .blocking

def Awake (s : ThreadPool α n) : Prop :=
  s.stopper.notified = true → ∀ w, s.threads w ≠ .waiting ∧ s.threads w ≠ .blocking

theorem works_awake (inv : Inv s) (awake : Awake s) {w : Fin n} (works : Works s w t) : Awake t := by
  intro notified
  rw [(works_stop works).2] at notified
  have stopped := inv.stopped notified
  have moved {pc : WorkerPc α} (awakes : pc ≠ .waiting ∧ pc ≠ .blocking) (v : Fin n) :
      Function.update s.threads w pc v ≠ .waiting ∧ Function.update s.threads w pc v ≠ .blocking := by
    by_cases here : v = w
    · subst here
      simpa using awakes
    · simpa [here] using awake notified v
  cases works with
  | entered pc running => simp [stopped] at running
  | failed pc running empty => simp [stopped] at running
  | blocked pc => exact absurd pc (awake notified w).2
  | underflowed pc empty => exact awake notified
  | left pc _ => exact moved (by simp)
  | acquired pc free => exact moved (by simp)
  | passed pc found => exact moved (by simp)
  | drained pc _ empty => exact moved (by simp)
  | kept pc left => exact moved (by simp)
  | dequeued pc front => exact moved (by simp)
  | executed pc => exact moved (by simp)

theorem step_awake (inv : Inv s) (awake : Awake s) (caught : Caught s a) (step : Step s a t) :
    Awake t := by
  cases step with
  | worked works => exact works_awake inv awake works
  | woken pc =>
    intro notified
    exact absurd pc (awake notified _).1
  | notified due pc =>
    intro notified
    exact absurd pc (awake notified _).1
  | notifiedall stopper =>
    intro _ w
    by_cases pc : s.threads w = .waiting
    · simp [wakeall_waiting pc]
    · simp [wakeall_other pc, pc, caught w]
  | pushed free => exact awake
  | wasted due nobody => exact awake
  | stored stopper running =>
    intro notified
    cases notified
  | again stopper stopped =>
    rcases stopper with stopper | stopper
    · simp [inv.idle.mpr stopper] at stopped
    · intro _
      exact awake (by simp [stopper, StopPc.notified])
  | joined stopper h pc =>
    intro _
    exact awake (by simp [stopper, StopPc.notified])
  | finished stopper all =>
    intro _
    exact awake (by simp [stopper, StopPc.notified])

theorem run_awake {s u : ThreadPool α n} {acts : List (Act α n)} (inv : Inv s) (awake : Awake s)
    (caught : Guarded step Caught s acts) (taken : run step s acts = some u) : Awake u := by
  have preserved (s : ThreadPool α n) (a : Act α n) (t : ThreadPool α n) (both : Inv s ∧ Awake s)
      (caught : Caught s a) (first : step s a = some t) : Inv t ∧ Awake t :=
    ⟨step_inv both.1 first, step_awake both.1 both.2 caught (step_cases first)⟩
  exact (guarded_invariant preserved ⟨inv, awake⟩ caught taken).2

theorem Awake.not_hung (awake : Awake s) : ¬ Hung s := by
  intro hung
  obtain ⟨notified, -, w, waiting | blocking⟩ := hung
  · exact (awake notified w).1 waiting
  · exact (awake notified w).2 blocking

theorem step_notified (inv : Inv s) (notified : s.stopper.notified = true) (step : Step s a t) :
    t.stopper.notified = true := by
  cases step with
  | worked works => exact (works_stop works).2 ▸ notified
  | stored stopper running => simp [inv.stopped notified] at running
  | again stopper stopped => rfl
  | notifiedall stopper => rfl
  | joined stopper h pc => rfl
  | finished stopper all => rfl
  | _ => exact notified

theorem notified_stays_awake {s u : ThreadPool α n} {acts : List (Act α n)} (inv : Inv s)
    (notified : s.stopper.notified = true) (awake : Awake s) (taken : run step s acts = some u) :
    Awake u := by
  have preserved (s : ThreadPool α n) (a : Act α n) (t : ThreadPool α n)
      (all : Inv s ∧ s.stopper.notified = true ∧ Awake s) (first : step s a = some t) :
      Inv t ∧ t.stopper.notified = true ∧ Awake t := by
    obtain ⟨inv, notified, awake⟩ := all
    have caught : Caught s a := by
      cases a with
      | notifyall =>
        intro w
        exact (awake notified w).2
      | _ => trivial
    exact ⟨step_inv inv first, step_notified inv notified (step_cases first),
      step_awake inv awake caught (step_cases first)⟩
  exact (run_invariant preserved ⟨inv, notified, awake⟩ taken).2.2

theorem notifications_wasted {k : Nat} (due : s.adding = k) (nobody : ∀ w, s.threads w ≠ .waiting) :
    run step s (List.replicate k (.notifyone none)) = some { s with adding := 0 } := by
  induction k generalizing s with
  | zero =>
    cases s
    cases due
    rfl
  | succ k ih =>
    have sleepless (w : Fin n) : (s.threads w).isWaiting = false := by
      rw [← Bool.not_eq_true, isWaiting_iff]
      exact nobody w
    have wasted : step s (.notifyone none) = some { s with adding := k } := by
      simp [step, due, sleepless]
    exact run_cons_some.mpr ⟨_, wasted, ih rfl nobody⟩

theorem blocking_hangs (stored : s.stopper = .stored) {w : Fin n} (blocking : s.threads w = .blocking) :
    ∃ more t, run step s (.notifyall :: more) = some t ∧ Hung t := by
  have issued : step s .notifyall =
      some { s with threads := wakeall s.threads, stopper := .joining 0 } := by
    simp [step, stored]
  have nobody (v : Fin n) : wakeall s.threads v ≠ .waiting := by
    by_cases pc : s.threads v = .waiting
    · simp [wakeall_waiting pc]
    · simp [wakeall_other pc, pc]
  have still : wakeall s.threads w = .blocking := by
    rw [wakeall_other (by simp [blocking]), blocking]
  exact ⟨_, _, run_cons_some.mpr ⟨_, issued, notifications_wasted rfl nobody⟩, rfl, rfl, w, .inr still⟩

theorem shutdown_hangs_iff {acts : List (Act α n)} {s : ThreadPool α n}
    (taken : run step initial acts = some s) :
    (Guarded step Caught initial acts → ¬ Hung s) ∧
    (s.stopper = .stored →
      ((∃ more t, run step s (.notifyall :: more) = some t ∧ Hung t) ↔
        ∃ w, s.threads w = .blocking)) := by
  have inv := run_inv taken
  constructor
  · intro caught
    have start : Awake (initial : ThreadPool α n) := by
      intro notified
      cases notified
    exact (run_awake initial_inv start caught taken).not_hung
  · intro stored
    constructor
    · intro hangs
      obtain ⟨more, u, issued, hung⟩ := hangs
      obtain ⟨t, first, rest⟩ := run_cons_some.mp issued
      by_contra blocking
      have caught : Caught s .notifyall := not_exists.mp blocking
      have awake : Awake s := by
        intro notified
        simp [stored, StopPc.notified] at notified
      have woken : Awake t :=
        step_awake inv awake caught (step_cases first)
      have notified : t.stopper.notified = true := by
        cases step_cases first
        rfl
      exact (notified_stays_awake (step_inv inv first) notified woken rest).not_hung hung
    · intro found
      obtain ⟨w, blocking⟩ := found
      exact blocking_hangs stored blocking

-- The worker has found the predicate false when Stop stores stop_, and blocks after notify_all.
def lateSleeper : List (Act Nat 1) := [.work 0, .work 0, .work 0, .stop, .notifyall, .work 0]

-- The worker blocks before Stop is called, and notify_all wakes it.
def earlySleeper : List (Act Nat 1) :=
  [.work 0, .work 0, .work 0, .work 0, .stop, .notifyall, .work 0, .work 0, .work 0, .join, .join]

theorem early_sleeper_woken :
    (Guarded step Caught initial earlySleeper ∧ ¬ Hung (final step initial earlySleeper) ∧
      (final step initial earlySleeper).stopper = .returned) ∧
    ∃ more t, run step (final step initial (lateSleeper.take 4)) (.notifyall :: more) = some t ∧
      Hung t := by
  have caught : Guarded step Caught initial earlySleeper := by decide
  have prompt := shutdown_hangs_iff (run_final (show (run step initial earlySleeper).isSome by decide))
  have late := shutdown_hangs_iff (run_final (show (run step initial (lateSleeper.take 4)).isSome by decide))
  exact ⟨⟨caught, prompt.1 caught, by decide⟩, (late.2 (by decide)).mpr ⟨0, by decide⟩⟩

theorem late_sleeper_hangs :
    ∃ s : ThreadPool Nat 1, run step initial lateSleeper = some s ∧ Hung s ∧
      s.threads 0 = .waiting ∧ ∀ a, a ≠ .spurious 0 → (∀ task, a ≠ .push task) → step s a = none := by
  refine ⟨_, run_final (by decide), ⟨rfl, rfl, 0, .inl rfl⟩, rfl, ?_⟩
  intro a awaited added
  cases a with
  | push task => exact absurd rfl (added task)
  | spurious w => exact absurd (congrArg Act.spurious (Subsingleton.elim w 0)) awaited
  | work w =>
    rw [Subsingleton.elim w 0]
    rfl
  | notifyone w => cases w <;> rfl
  | stop => rfl
  | notifyall => rfl
  | join => rfl

end ThreadPool

end Reactor
