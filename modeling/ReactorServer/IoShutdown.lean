import ReactorServer.IoThreads

set_option autoImplicit false

namespace Reactor

open Tally Transition

namespace ThreadPool

variable {α : Type} {n : Nat} {s t : ThreadPool α n}

theorem wakeall_effort (s : ThreadPool α n) :
    effort { s with threads := wakeall s.threads, stopper := .joining 0 } ≤ effort s + 4 * n := by
  have each (w : Fin n) : (wakeall s.threads w).rank ≤ (s.threads w).rank + 4 := by
    by_cases pc : s.threads w = .waiting
    · simp [wakeall_waiting pc, WorkerPc.rank]
    · simp [wakeall_other pc]
  have all : tally WorkerPc.rank (wakeall s.threads) ≤ tally (fun pc => pc.rank + 4) s.threads :=
    Finset.sum_le_sum fun w _ => each w
  have split := tally_add WorkerPc.rank (fun _ => 4) s.threads
  have four : tally (fun _ : WorkerPc α => 4) s.threads = 4 * n := by simp [tally, Nat.mul_comm]
  simp only [effort]
  omega

end ThreadPool

namespace IoThreads

variable {β : Type} {n : Nat} {s t : IoThreads β n} {a : Act β n}

-- What goes on once nobody calls queueinloop any more, with no thread waking up for no reason.
def Ending : Act β n → Prop
  | .spurious _ => False
  | .queueinloop _ _ => False
  | .loop _ channels => .wakeup ∈ channels ∧ channels.length ≤ MaxEvents
  | _ => True

structure StopInv (s : IoThreads β n) : Prop where
  stopping : ∀ i : Fin n, (s.subloops i).stopping = if s.stopper = .waking i.val then 1 else 0
  waking : ∀ k, s.stopper = .waking k → k < n
  stored : s.stopper = .pool → s.threadpool.stopper ≠ .idle
  built : s.built ≤ n

theorem initial_stopInv : StopInv (initial : IoThreads β n) :=
  ⟨fun _ => rfl, by simp [initial], by simp [initial], by simp [initial]⟩

theorem own_stopping {s t : EventLoop β} {b : EventLoop.Act β} (step : EventLoop.Step s b t)
    (store : b ≠ .stop) (write : b ≠ .stopWakeup) : t.stopping = s.stopping := by
  cases step with
  | stored => exact absurd rfl store
  | stopped due => exact absurd rfl write
  | runs runs => cases runs <;> rfl
  | _ => rfl

theorem stopping_step (orderly : StopInv s) (step : Step s a t) (i : Fin n) :
    (t.subloops i).stopping = if t.stopper = .waking i.val then 1 else 0 := by
  have before := orderly.stopping i
  have same {j : Fin n} {b : EventLoop.Act β} {subloop : EventLoop β}
      (moved : (s.subloops j).step b = some subloop) (store : b ≠ .stop) (write : b ≠ .stopWakeup) :
      (Function.update s.subloops j subloop i).stopping = if s.stopper = .waking i.val then 1 else 0 := by
    by_cases here : i = j
    · subst here
      simpa [own_stopping (EventLoop.step_cases moved) store write] using before
    · simpa [here] using before
  cases step with
  | looped inside moved own act =>
    refine same moved ?_ ?_ <;> rcases own with rfl | ⟨channels, rfl⟩ <;> simp
  | queued moved others act =>
    refine same moved ?_ ?_ <;> rcases others with rfl | ⟨fn, rfl⟩ <;> simp
  | stopping stopper built => simpa [stopper] using before
  | @stored k subloop stopper h moved =>
    cases EventLoop.step_cases moved with
    | stored =>
      by_cases here : i = ⟨k, h⟩
      · subst here
        simpa [stopper] using before
      · have apart : k ≠ i.val := fun equal => here (Fin.ext equal.symm)
        simpa [stopper, here, apart] using before
  | @woken k subloop stopper h moved =>
    cases EventLoop.step_cases moved with
    | stopped due =>
      by_cases here : i = ⟨k, h⟩
      · subst here
        simp only [stopper, if_true] at before
        simp [before]
      · have apart : k ≠ i.val := fun equal => here (Fin.ext equal.symm)
        simpa [stopper, here, apart] using before
  | pooled stopper all moved => simpa [stopper] using before
  | _ => exact before

theorem waking_step (orderly : StopInv s) (step : Step s a t) (k : Nat) (waking : t.stopper = .waking k) :
    k < n := by
  cases step with
  | stored stopper h moved =>
    cases waking
    exact h
  | stopping stopper built => cases waking
  | woken stopper h moved => cases waking
  | pooled stopper all moved => cases waking
  | _ => exact orderly.waking k waking

theorem stored_step (orderly : StopInv s) (step : Step s a t) (pooled : t.stopper = .pool) :
    t.threadpool.stopper ≠ .idle := by
  have kept {b : ThreadPool.Act (Fin n) n} {pool : ThreadPool (Fin n) n} (stopper : s.stopper = .pool)
      (moved : s.threadpool.step b = some pool) : pool.stopper ≠ .idle := by
    have before := orderly.stored stopper
    cases ThreadPool.step_cases moved with
    | worked works => rwa [(ThreadPool.works_stop works).2]
    | stored => simp
    | again => simp
    | notifiedall => simp
    | joined => simp
    | finished => simp
    | _ => exact before
  cases step with
  | pooled stopper all moved =>
    cases ThreadPool.step_cases moved with
    | stored => simp
    | again => simp
  | stopping stopper built => cases pooled
  | stored stopper h moved => cases pooled
  | woken stopper h moved => cases pooled
  | looped inside moved own act => exact orderly.stored pooled
  | queued moved others act => exact orderly.stored pooled
  | built h moved => exact kept pooled moved
  | worked moved exited => exact kept pooled moved
  | notified moved => exact kept pooled moved
  | spurious moved => exact kept pooled moved
  | joined stopper moved own => exact kept pooled moved

theorem step_stopInv (orderly : StopInv s) (step : Step s a t) : StopInv t where
  stopping := stopping_step orderly step
  waking := waking_step orderly step
  stored := stored_step orderly step
  built := by
    cases step with
    | built h moved => exact h
    | _ => exact orderly.built

-- A loop whose stop_ has still to be stored counts for the batch in which its eventfd is reported, and
-- notify_all for the threads that it can wake.
def remaining (n : Nat) : ServerStop → StopPc → Nat
  | .idle, _ => (3 * MaxEvents + 6) * n + 5 * n + 4
  | .storing k, _ => (3 * MaxEvents + 6) * (n - k) + 5 * n + 3
  | .waking k, _ => (3 * MaxEvents + 6) * (n - (k + 1)) + 5 * n + 3
  | .pool, .stored => 5 * n + 2
  | .pool, .joining k => n - k + 1
  | .pool, _ => 0

def distance (s : IoThreads β n) : Nat :=
  effort s + tally EventLoop.effort s.subloops + remaining n s.stopper s.threadpool.stopper

theorem loop_distance {i : Fin n} {subloop : EventLoop β}
    (subloops : t.subloops = Function.update s.subloops i subloop) (threadpool : t.threadpool = s.threadpool)
    (built : t.built = s.built)
    (less : subloop.effort + remaining n t.stopper s.threadpool.stopper <
      (s.subloops i).effort + remaining n s.stopper s.threadpool.stopper) : distance t < distance s := by
  have moved := tally_update EventLoop.effort s.subloops i subloop
  simp only [distance, effort, subloops, threadpool, built]
  omega

theorem pool_distance {pool : ThreadPool (Fin n) n} (threadpool : t.threadpool = pool)
    (subloops : t.subloops = s.subloops) (built : t.built = s.built)
    (less : pool.effort + remaining n t.stopper pool.stopper <
      s.threadpool.effort + remaining n s.stopper s.threadpool.stopper) : distance t < distance s := by
  simp only [distance, effort, subloops, threadpool, built]
  omega

theorem joined_distance {b : ThreadPool.Act (Fin n) n} {pool : ThreadPool (Fin n) n}
    (stopper : s.stopper = .pool)
    (moved : s.threadpool.step b = some pool) (own : b = .notifyall ∨ b = .join) :
    distance { s with threadpool := pool } < distance s := by
  refine pool_distance rfl rfl rfl ?_
  cases ThreadPool.step_cases moved with
  | notifiedall stored =>
    have woken := ThreadPool.wakeall_effort s.threadpool
    simp only [stopper, stored, remaining]
    omega
  | @joined k joining h pc =>
    simp only [ThreadPool.effort, stopper, joining, remaining]
    omega
  | @finished k joining all =>
    simp only [ThreadPool.effort, stopper, joining, remaining]
    omega
  | _ => simp at own

theorem step_distance (inv : Inv s) (ending : Ending a) (taken : step s a = some t) :
    distance t < distance s := by
  have worker {b : ThreadPool.Act (Fin n) n} {pool : ThreadPool (Fin n) n}
      (moved : s.threadpool.step b = some pool)
      (due : ThreadPool.Due (fun i => (s.subloops i).pc = .exited) s.threadpool b)
      (kept : pool.stopper = s.threadpool.stopper) : distance { s with threadpool := pool } < distance s := by
    refine pool_distance rfl rfl rfl ?_
    have less := ThreadPool.step_effort inv.pool due moved
    simp only [kept]
    omega
  have loop {i : Fin n} {b : EventLoop.Act β} {subloop : EventLoop β}
      (moved : (s.subloops i).step b = some subloop) (due : EventLoop.Due b) :
      distance { s with subloops := Function.update s.subloops i subloop } < distance s := by
    refine loop_distance rfl rfl rfl ?_
    have less := EventLoop.step_effort due moved
    simp only
    omega
  cases step_cases taken with
  | built h moved =>
    cases ThreadPool.step_cases moved with
    | pushed free =>
      simp only [distance, effort, ThreadPool.effort, List.length_append, List.length_singleton]
      omega
  | worked moved exited =>
    refine worker moved exited ?_
    cases ThreadPool.step_cases moved with
    | worked works => exact (ThreadPool.works_stop works).2
  | notified moved =>
    refine worker moved trivial ?_
    cases ThreadPool.step_cases moved <;> rfl
  | spurious moved => exact ending.elim
  | looped inside moved own act =>
    subst act
    refine loop moved ?_
    rcases own with rfl | ⟨channels, rfl⟩
    · exact trivial
    · exact ending
  | queued moved others act =>
    subst act
    refine loop moved ?_
    rcases others with rfl | ⟨fn, rfl⟩
    · exact trivial
    · exact ending.elim
  | stopping stopper built =>
    simp only [distance, effort, stopper, remaining, Nat.sub_zero]
    omega
  | @stored k subloop stopper h moved =>
    cases EventLoop.step_cases moved with
    | stored =>
      refine loop_distance rfl rfl rfl ?_
      simp only [EventLoop.effort, EventLoop.unread, stopper, remaining, MaxEvents]
      omega
  | @woken k subloop stopper h moved =>
    refine loop_distance rfl rfl rfl ?_
    have less := EventLoop.step_effort (show EventLoop.Due .stopWakeup from trivial) moved
    simp only [stopper, remaining]
    omega
  | @pooled k pool stopper all moved =>
    refine pool_distance rfl rfl rfl ?_
    have idle := inv.idle (by simp [stopper])
    cases ThreadPool.step_cases moved with
    | stored before running =>
      simp only [ThreadPool.effort, stopper, remaining]
      omega
    | again before stopped =>
      have running := inv.pool.idle.mpr idle
      simp [stopped] at running
  | joined stopper moved own => exact joined_distance stopper moved own

-- Every loop has left `run`, and `stop` has returned or joins a thread that nobody is going to wake.
structure Ended (s : IoThreads β n) : Prop where
  stopper : s.stopper = .pool
  outside : ∀ i, ¬ Within s i ∧ (s.subloops i).stop = true
  joined : s.threadpool.stopper = .returned ∨
    ∃ w : Fin n, s.threadpool.stopper = .joining w ∧ s.threadpool.threads w = .waiting

section Stuck

variable (inv : Inv s) (orderly : StopInv s) (stuck : Stuck step (fun _ => Ending) s)
include stuck

theorem stuck_threads :
    Stuck ThreadPool.step (ThreadPool.Due fun i => (s.subloops i).pc = .exited) s.threadpool := by
  intro b due
  cases b with
  | work w =>
    have none := stuck (.work w) trivial
    simp only [step] at none
    split at none
    next i pc => simpa [poolStep, isExited_iff.mpr (due i pc)] using none
    next => simpa [poolStep] using none
  | notifyone w =>
    have none := stuck (.notifyone w) trivial
    simpa [step, poolStep] using none
  | _ => exact due.elim

theorem stuck_loop {i : Fin n} (inside : Within s i) (written : (s.subloops i).stopping = 0) :
    Stuck EventLoop.step (fun _ => EventLoop.Due) (s.subloops i) := by
  intro b due
  cases b with
  | queueinloop fn => exact due.elim
  | stop => exact due.elim
  | queueinloopWakeup =>
    have none := stuck (.queueinloopWakeup i) trivial
    simpa [step, loopStep] using none
  | stopWakeup => simp [EventLoop.step, written]
  | loop channels =>
    have none := stuck (.loop i channels) due
    simpa [step, loopStep, inside] using none
  | run =>
    have none := stuck (.run i) trivial
    simpa [step, loopStep, inside] using none

include inv orderly

theorem stuck_stopper : s.stopper = .pool := by
  have none : s.stop = none := stuck .stop trivial
  unfold stop at none
  split at none
  next stopper =>
    have free := ThreadPool.stuck_free inv.pool (stuck_threads stuck)
    have bound := orderly.built
    have all : n ≤ s.built := by
      by_contra fewer
      have none := stuck .addtask trivial
      simp [step, poolStep, ThreadPool.step, free, Nat.lt_of_not_le fewer] at none
    have built : s.built = n := by omega
    simp [built] at none
  next k stopper =>
    have idle := inv.idle (by simp [stopper])
    have running := inv.pool.idle.mpr idle
    split at none
    next h => simp [loopStep, EventLoop.step] at none
    next => simp [poolStep, ThreadPool.step, idle, running] at none
  next k stopper =>
    have h := orderly.waking k stopper
    have due := orderly.stopping ⟨k, h⟩
    simp [stopper] at due
    simp [h, loopStep, EventLoop.step, due] at none
  next stopper => exact stopper

theorem stuck_outside (i : Fin n) : ¬ Within s i ∧ (s.subloops i).stop = true := by
  have stopper := stuck_stopper inv orderly stuck
  have stop : (s.subloops i).stop = true := inv.stopped i (by simp [stopper, ServerStop.reached])
  refine ⟨fun inside => ?_, stop⟩
  have written : (s.subloops i).stopping = 0 := by simpa [stopper] using orderly.stopping i
  obtain ⟨acts, taken⟩ := inv.subloops i
  have rest := EventLoop.stuck_at_rest (EventLoop.run_settling taken) (stuck_loop stuck inside written)
  have exited : (s.subloops i).pc = .exited := by
    rcases rest.waits with ⟨pc, running⟩ | ⟨pc, -⟩
    · simp [stop] at running
    · exact pc
  obtain ⟨w, runs⟩ := inside
  rcases ThreadPool.stuck_occupied inv.pool (stuck_threads stuck) w with pc | pc | ⟨j, pc, never⟩
  · simp [pc, WorkerPc.runs] at runs
  · simp [pc, WorkerPc.runs] at runs
  · rw [pc, runs_iff] at runs
    cases runs
    exact never exited

theorem stuck_ended : Ended s where
  stopper := stuck_stopper inv orderly stuck
  outside := stuck_outside inv orderly stuck
  joined := by
    have stopper := stuck_stopper inv orderly stuck
    have none : s.stop = none := stuck .stop trivial
    simp only [stop, stopper] at none
    cases joining : s.threadpool.stopper with
    | idle => exact absurd joining (orderly.stored stopper)
    | stored => simp [joining, poolStep, ThreadPool.step] at none
    | returned => exact .inl rfl
    | joining k =>
      by_cases h : k < n
      · refine .inr ⟨⟨k, h⟩, rfl, ?_⟩
        rcases ThreadPool.stuck_occupied inv.pool (stuck_threads stuck) ⟨k, h⟩ with pc | pc | ⟨i, pc, -⟩
        · exact pc
        · simp [joining, poolStep, ThreadPool.step, h, pc, WorkerPc.isExited] at none
        · exact absurd ⟨⟨k, h⟩, runs_iff.mpr pc⟩ (stuck_outside inv orderly stuck i).1
      · simp [joining, poolStep, ThreadPool.step, h] at none

end Stuck

theorem shutdown_ends {acts : List (Act β n)} (taken : Transition.run step initial acts = some s) :
    Inevitable step (fun _ => Ending) s Ended (distance s) := by
  apply inevitable distance
  · intro u a t (reached : Inv u ∧ StopInv u) ending taken
    exact ⟨step_inv reached.1 taken, step_stopInv reached.2 (step_cases taken)⟩
  · intro u a t reached ending taken
    exact step_distance reached.1 ending taken
  · intro u reached stuck
    exact stuck_ended reached.1 reached.2 stuck
  · have preserved (s : IoThreads β n) (a : Act β n) (t : IoThreads β n) (orderly : StopInv s)
        (taken : step s a = some t) : StopInv t := step_stopInv orderly (step_cases taken)
    exact ⟨run_inv taken, run_invariant preserved initial_stopInv taken⟩

theorem shutdown_ends_halfway :
    distance (final step initial (upAndDown 0 1)) = 331 ∧
      Inevitable step (fun _ => Ending) (final step initial (upAndDown 0 1)) Ended
        (distance (final step initial (upAndDown 0 1))) :=
  ⟨by decide +kernel, shutdown_ends (run_final (by decide +kernel))⟩

-- The thread has found the queue empty and stop_ false, and blocks after notify_all.
def asleep (w : Fin 1) : List (Act Nat 1) :=
  [.addtask, .notifyone none, .work w, .work w, .work w, .work w, .work w, .run w, .stop, .stop, .stop,
    .loop w [.wakeup], .run w, .run w, .run w, .run w, .run w, .work w, .work w, .work w, .work w,
    .stop, .stop, .work w]

example : (Transition.run step initial (asleep 0)).isSome ∧
    (final step initial (asleep 0)).threadpool.stopper = .joining 0 ∧
    ((final step initial (asleep 0)).threadpool.threads 0).isWaiting = true ∧
    ((final step initial (asleep 0)).step .stop).isNone := by decide +kernel

end IoThreads

end Reactor
