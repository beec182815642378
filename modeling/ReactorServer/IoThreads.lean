import Mathlib.Data.Fintype.EquivFin
import ReactorServer.LoopProgress
import ReactorServer.PoolProgress

set_option autoImplicit false

namespace Reactor

open Transition

-- How far `TcpServer::stop` is: sub loop k is next, or its stop_ is stored and it has to be woken up.
inductive ServerStop where
  | idle
  | storing (k : Nat)
  | waking (k : Nat)
  | pool
  deriving DecidableEq

def ServerStop.reached (n : Nat) : ServerStop → Nat
  | .idle => 0
  | .storing k => k
  | .waking k => k + 1
  | .pool => n

structure IoThreads (β : Type) (threadnum : Nat) where
  threadpool : ThreadPool (Fin threadnum) threadnum
  subloops : Fin threadnum → EventLoop β
  built : Nat
  stopper : ServerStop

def WorkerPc.runs {n : Nat} (i : Fin n) : WorkerPc (Fin n) → Bool
  | .running j => i = j
  | _ => false

def RunPc.isExited {β : Type} : RunPc β → Bool
  | .exited => true
  | _ => false

namespace ThreadPool

variable {α : Type} {n : Nat} {s t : ThreadPool α n} {a : Act α n}

theorem running_stays (step : Step s a t) {v : Fin n} {task : α} (inside : s.threads v = .running task) :
    t.threads v = .running task ∨ a = .work v := by
  have elsewhere {w : Fin n} {pc : WorkerPc α} (other : v ≠ w) :
      Function.update s.threads w pc v = .running task := by
    simpa [other] using inside
  cases step with
  | @worked w t works =>
    by_cases here : v = w
    · exact .inr (by rw [here])
    · left
      cases works with
      | underflowed pc empty => exact inside
      | _ => exact elsewhere here
  | @woken w pc => exact .inl (elsewhere fun here => by simp [← here, inside] at pc)
  | @notified w due pc => exact .inl (elsewhere fun here => by simp [← here, inside] at pc)
  | notifiedall stopper => exact .inl ((wakeall_other (by simp [inside])).trans inside)
  | _ => exact .inl inside

theorem executed_stays (step : Step s a t) :
    t.executed = s.executed ∨ ∃ w task, a = .work w ∧ s.threads w = .running task := by
  cases step with
  | worked works =>
    cases works with
    | executed pc => exact .inr ⟨_, _, rfl, pc⟩
    | _ => exact .inl rfl
  | _ => exact .inl rfl

theorem pushed_stays (step : Step s a t) : t.pushed = s.pushed ∨ ∃ task, a = .push task := by
  cases step with
  | worked works => cases works <;> exact .inl rfl
  | pushed free => exact .inr ⟨_, rfl⟩
  | _ => exact .inl rfl

theorem stopper_stays (step : Step s a t) :
    t.stopper = s.stopper ∨ a = .stop ∨ a = .notifyall ∨ a = .join := by
  cases step with
  | worked works => exact .inl (works_stop works).2
  | stored stopper running => exact .inr (.inl rfl)
  | again stopper stopped => exact .inr (.inl rfl)
  | notifiedall stopper => exact .inr (.inr (.inl rfl))
  | joined stopper h pc => exact .inr (.inr (.inr rfl))
  | finished stopper all => exact .inr (.inr (.inr rfl))
  | _ => exact .inl rfl

end ThreadPool

namespace EventLoop

variable {β : Type} {s t : EventLoop β} {a : Act β}

theorem own_stop (own : a = .run ∨ ∃ channels, a = .loop channels) (step : Step s a t) : t.stop = s.stop := by
  cases step with
  | waited pc ready => rfl
  | runs runs => cases runs <;> rfl
  | _ => simp at own

theorem foreign_pc (own : a ≠ .run) (foreign : ∀ channels, a ≠ .loop channels) (step : Step s a t) :
    t.pc = s.pc := by
  cases step with
  | waited pc ready => exact absurd rfl (foreign _)
  | runs runs => exact absurd rfl own
  | _ => rfl

theorem queued_stop (others : a = .queueinloopWakeup ∨ ∃ fn, a = .queueinloop fn) (step : Step s a t) :
    t.stop = s.stop ∧ t.pc = s.pc := by
  cases step with
  | pushed free => exact ⟨rfl, rfl⟩
  | queued due => exact ⟨rfl, rfl⟩
  | _ => simp at others

end EventLoop

namespace IoThreads

inductive Act (β : Type) (n : Nat) where
  | addtask
  | notifyone (w : Option (Fin n))
  | work (w : Fin n)
  | spurious (w : Fin n)
  | loop (i : Fin n) (channels : List Ready)
  | run (i : Fin n)
  | queueinloop (i : Fin n) (fn : β)
  | queueinloopWakeup (i : Fin n)
  | stop

variable {β : Type} {n : Nat}

def initial : IoThreads β n := ⟨.initial, fun _ => .initial, 0, .idle⟩

def poolStep (s : IoThreads β n) (a : ThreadPool.Act (Fin n) n) : Option (IoThreads β n) :=
  (s.threadpool.step a).map fun pool => { s with threadpool := pool }

def loopStep (s : IoThreads β n) (i : Fin n) (a : EventLoop.Act β) : Option (IoThreads β n) :=
  ((s.subloops i).step a).map fun subloop =>
    { s with subloops := Function.update s.subloops i subloop }

def Within (s : IoThreads β n) (i : Fin n) : Prop := ∃ w, (s.threadpool.threads w).runs i = true

instance (s : IoThreads β n) (i : Fin n) : Decidable (Within s i) :=
  inferInstanceAs (Decidable (∃ w, (s.threadpool.threads w).runs i = true))

def stop (s : IoThreads β n) : Option (IoThreads β n) :=
  match s.stopper with
  | .idle => if s.built = n then some { s with stopper := .storing 0 } else none
  | .storing k =>
    if h : k < n then (s.loopStep ⟨k, h⟩ .stop).map fun s => { s with stopper := .waking k }
    else (s.poolStep .stop).map fun s => { s with stopper := .pool }
  | .waking k =>
    if h : k < n then (s.loopStep ⟨k, h⟩ .stopWakeup).map fun s => { s with stopper := .storing (k + 1) }
    else none
  | .pool =>
    match s.threadpool.stopper with
    | .stored => s.poolStep .notifyall
    | .joining _ => s.poolStep .join
    | _ => none

def step (s : IoThreads β n) : Act β n → Option (IoThreads β n)
  | .addtask =>
    if h : s.built < n then (s.poolStep (.push ⟨s.built, h⟩)).map fun s => { s with built := s.built + 1 }
    else none
  | .notifyone w => s.poolStep (.notifyone w)
  -- The task is over when `run` has returned.
  | .work w =>
    match s.threadpool.threads w with
    | .running i => if (s.subloops i).pc.isExited then s.poolStep (.work w) else none
    | _ => s.poolStep (.work w)
  | .spurious w => s.poolStep (.spurious w)
  | .loop i channels => if Within s i then s.loopStep i (.loop channels) else none
  | .run i => if Within s i then s.loopStep i .run else none
  | .queueinloop i fn => s.loopStep i (.queueinloop fn)
  | .queueinloopWakeup i => s.loopStep i .queueinloopWakeup
  | .stop => s.stop

def Act.ofLoop (i : Fin n) : EventLoop.Act β → Act β n
  | .queueinloop fn => .queueinloop i fn
  | .queueinloopWakeup => .queueinloopWakeup i
  | .stop => .stop
  | .stopWakeup => .stop
  | .loop channels => .loop i channels
  | .run => .run i

inductive Step (s : IoThreads β n) : Act β n → IoThreads β n → Prop where
  | built {pool : ThreadPool (Fin n) n} (h : s.built < n)
      (moved : s.threadpool.step (.push ⟨s.built, h⟩) = some pool) :
      Step s .addtask { s with threadpool := pool, built := s.built + 1 }
  | worked {w : Fin n} {pool : ThreadPool (Fin n) n} (moved : s.threadpool.step (.work w) = some pool)
      (ended : ∀ i, s.threadpool.threads w = .running i → (s.subloops i).pc = .exited) :
      Step s (.work w) { s with threadpool := pool }
  | notified {w : Option (Fin n)} {pool : ThreadPool (Fin n) n}
      (moved : s.threadpool.step (.notifyone w) = some pool) :
      Step s (.notifyone w) { s with threadpool := pool }
  | spurious {w : Fin n} {pool : ThreadPool (Fin n) n}
      (moved : s.threadpool.step (.spurious w) = some pool) :
      Step s (.spurious w) { s with threadpool := pool }
  | looped {a : Act β n} {i : Fin n} {b : EventLoop.Act β} {subloop : EventLoop β} (inside : Within s i)
      (moved : (s.subloops i).step b = some subloop) (own : b = .run ∨ ∃ channels, b = .loop channels)
      (act : a = .ofLoop i b) :
      Step s a { s with subloops := Function.update s.subloops i subloop }
  | queued {a : Act β n} {i : Fin n} {b : EventLoop.Act β} {subloop : EventLoop β}
      (moved : (s.subloops i).step b = some subloop)
      (others : b = .queueinloopWakeup ∨ ∃ fn, b = .queueinloop fn) (act : a = .ofLoop i b) :
      Step s a { s with subloops := Function.update s.subloops i subloop }
  | stopping (stopper : s.stopper = .idle) (built : s.built = n) :
      Step s .stop { s with stopper := .storing 0 }
  | stored {k : Nat} {subloop : EventLoop β} (stopper : s.stopper = .storing k) (h : k < n)
      (moved : (s.subloops ⟨k, h⟩).step .stop = some subloop) :
      Step s .stop { s with
        subloops := Function.update s.subloops ⟨k, h⟩ subloop, stopper := .waking k }
  | woken {k : Nat} {subloop : EventLoop β} (stopper : s.stopper = .waking k) (h : k < n)
      (moved : (s.subloops ⟨k, h⟩).step .stopWakeup = some subloop) :
      Step s .stop { s with
        subloops := Function.update s.subloops ⟨k, h⟩ subloop, stopper := .storing (k + 1) }
  | pooled {k : Nat} {pool : ThreadPool (Fin n) n} (stopper : s.stopper = .storing k) (all : n ≤ k)
      (moved : s.threadpool.step .stop = some pool) :
      Step s .stop { s with threadpool := pool, stopper := .pool }
  | joined {b : ThreadPool.Act (Fin n) n} {pool : ThreadPool (Fin n) n} (stopper : s.stopper = .pool)
      (moved : s.threadpool.step b = some pool) (own : b = .notifyall ∨ b = .join) :
      Step s .stop { s with threadpool := pool }

variable {s t : IoThreads β n} {a : Act β n}

theorem isExited_iff {pc : RunPc β} : pc.isExited = true ↔ pc = .exited := by
  cases pc <;> simp [RunPc.isExited]

theorem runs_iff {pc : WorkerPc (Fin n)} {i : Fin n} : pc.runs i = true ↔ pc = .running i := by
  cases pc <;> simp [WorkerPc.runs, eq_comm]

theorem poolStep_some {b : ThreadPool.Act (Fin n) n} (taken : s.poolStep b = some t) :
    ∃ pool, s.threadpool.step b = some pool ∧ { s with threadpool := pool } = t :=
  Option.map_eq_some_iff.mp taken

theorem loopStep_some {i : Fin n} {b : EventLoop.Act β} (taken : s.loopStep i b = some t) :
    ∃ subloop, (s.subloops i).step b = some subloop ∧
      { s with subloops := Function.update s.subloops i subloop } = t :=
  Option.map_eq_some_iff.mp taken

theorem stop_cases (taken : s.stop = some t) : Step s .stop t := by
  unfold stop at taken
  split at taken
  next stopper =>
    obtain ⟨built, next⟩ := Option.ite_none_right_eq_some.mp taken
    cases next
    exact .stopping stopper built
  next k stopper =>
    split at taken
    next h =>
      obtain ⟨s', stored, rfl⟩ := Option.map_eq_some_iff.mp taken
      obtain ⟨subloop, moved, rfl⟩ := loopStep_some stored
      exact .stored stopper h moved
    next all =>
      obtain ⟨s', stopped, rfl⟩ := Option.map_eq_some_iff.mp taken
      obtain ⟨pool, moved, rfl⟩ := poolStep_some stopped
      exact .pooled stopper (by omega) moved
  next k stopper =>
    split at taken
    next h =>
      obtain ⟨s', woken, rfl⟩ := Option.map_eq_some_iff.mp taken
      obtain ⟨subloop, moved, rfl⟩ := loopStep_some woken
      exact .woken stopper h moved
    next => cases taken
  next stopper =>
    split at taken
    next =>
      obtain ⟨pool, moved, rfl⟩ := poolStep_some taken
      exact .joined stopper moved (.inl rfl)
    next =>
      obtain ⟨pool, moved, rfl⟩ := poolStep_some taken
      exact .joined stopper moved (.inr rfl)
    next => cases taken

theorem step_cases (taken : step s a = some t) : Step s a t := by
  cases a with
  | addtask =>
    simp only [step] at taken
    split at taken
    next h =>
      obtain ⟨s', pushed, rfl⟩ := Option.map_eq_some_iff.mp taken
      obtain ⟨pool, moved, rfl⟩ := poolStep_some pushed
      exact .built h moved
    next => cases taken
  | notifyone w =>
    obtain ⟨pool, moved, rfl⟩ := poolStep_some taken
    exact .notified moved
  | work w =>
    simp only [step] at taken
    split at taken
    next i pc =>
      obtain ⟨exited, next⟩ := Option.ite_none_right_eq_some.mp taken
      obtain ⟨pool, moved, rfl⟩ := poolStep_some next
      refine .worked moved fun j same => ?_
      obtain rfl : i = j := by simpa [pc] using same
      exact isExited_iff.mp exited
    next free =>
      obtain ⟨pool, moved, rfl⟩ := poolStep_some taken
      exact .worked moved fun i pc => absurd pc (free i)
  | spurious w =>
    obtain ⟨pool, moved, rfl⟩ := poolStep_some taken
    exact .spurious moved
  | loop i channels =>
    obtain ⟨inside, next⟩ := Option.ite_none_right_eq_some.mp taken
    obtain ⟨subloop, moved, rfl⟩ := loopStep_some next
    exact .looped inside moved (.inr ⟨channels, rfl⟩) rfl
  | run i =>
    obtain ⟨inside, next⟩ := Option.ite_none_right_eq_some.mp taken
    obtain ⟨subloop, moved, rfl⟩ := loopStep_some next
    exact .looped inside moved (.inl rfl) rfl
  | queueinloop i fn =>
    obtain ⟨subloop, moved, rfl⟩ := loopStep_some taken
    exact .queued moved (.inr ⟨fn, rfl⟩) rfl
  | queueinloopWakeup i =>
    obtain ⟨subloop, moved, rfl⟩ := loopStep_some taken
    exact .queued moved (.inl rfl) rfl
  | stop => exact stop_cases taken

structure Inv (s : IoThreads β n) : Prop where
  threadpool : Reached ThreadPool.step .initial s.threadpool
  subloops : ∀ i, Reached EventLoop.step .initial (s.subloops i)
  pushed : s.threadpool.pushed = (List.finRange n).take s.built
  within : ∀ i, Within s i ∨ (s.subloops i).pc = .testing ∨ (s.subloops i).pc = .exited
  running : s.stopper = .idle → (∀ i, (s.subloops i).stop = false) ∧ s.threadpool.executed = []
  idle : s.stopper ≠ .pool → s.threadpool.stopper = .idle
  stopped : ∀ i : Fin n, i.val < s.stopper.reached n → (s.subloops i).stop = true

theorem initial_inv : Inv (initial : IoThreads β n) where
  threadpool := .start _
  subloops _ := .start _
  pushed := by simp [initial, ThreadPool.initial]
  within _ := .inr (.inl rfl)
  running _ := ⟨fun _ => rfl, rfl⟩
  idle _ := rfl
  stopped := by simp [initial, ServerStop.reached]

theorem threadpool_step (inv : Inv s) (step : Step s a t) :
    Reached ThreadPool.step .initial t.threadpool := by
  cases step with
  | built h moved => exact inv.threadpool.next moved
  | worked moved ended => exact inv.threadpool.next moved
  | notified moved => exact inv.threadpool.next moved
  | spurious moved => exact inv.threadpool.next moved
  | pooled stopper all moved => exact inv.threadpool.next moved
  | joined stopper moved own => exact inv.threadpool.next moved
  | _ => exact inv.threadpool

theorem subloops_step (inv : Inv s) (step : Step s a t) (i : Fin n) :
    Reached EventLoop.step .initial (t.subloops i) := by
  have moves {j : Fin n} {b : EventLoop.Act β} {subloop : EventLoop β}
      (moved : (s.subloops j).step b = some subloop) :
      Reached EventLoop.step .initial (Function.update s.subloops j subloop i) := by
    by_cases here : i = j
    · subst here
      simpa using (inv.subloops i).next moved
    · simpa [here] using inv.subloops i
  cases step with
  | looped inside moved own act => exact moves moved
  | queued moved others act => exact moves moved
  | stored stopper h moved => exact moves moved
  | woken stopper h moved => exact moves moved
  | _ => exact inv.subloops i

theorem pushed_step (inv : Inv s) (step : Step s a t) :
    t.threadpool.pushed = (List.finRange n).take t.built := by
  have same {b : ThreadPool.Act (Fin n) n} {pool : ThreadPool (Fin n) n}
      (moved : s.threadpool.step b = some pool) (other : ∀ task, b ≠ .push task) :
      pool.pushed = (List.finRange n).take s.built := by
    rcases ThreadPool.pushed_stays (ThreadPool.step_cases moved) with kept | ⟨task, push⟩
    · exact kept.trans inv.pushed
    · exact absurd push (other task)
  cases step with
  | built h moved =>
    cases ThreadPool.step_cases moved with
    | pushed free =>
      have length : s.built < (List.finRange n).length := by simpa using h
      simp [inv.pushed, List.take_succ_eq_append_getElem length]
  | worked moved ended => exact same moved (by simp)
  | notified moved => exact same moved (by simp)
  | spurious moved => exact same moved (by simp)
  | pooled stopper all moved => exact same moved (by simp)
  | joined stopper moved own =>
    refine same moved fun task => ?_
    rcases own with rfl | rfl <;> simp
  | _ => exact inv.pushed

theorem within_step (inv : Inv s) (step : Step s a t) (i : Fin n) :
    Within t i ∨ (t.subloops i).pc = .testing ∨ (t.subloops i).pc = .exited := by
  have before := inv.within i
  have pool {b : ThreadPool.Act (Fin n) n} {pool : ThreadPool (Fin n) n}
      (moved : s.threadpool.step b = some pool)
      (ended : ∀ w, b = .work w → s.threadpool.threads w = .running i → (s.subloops i).pc = .exited) :
      (∃ w, (pool.threads w).runs i = true) ∨ (s.subloops i).pc = .testing ∨
        (s.subloops i).pc = .exited := by
    rcases before with ⟨w, inside⟩ | outside
    · rcases ThreadPool.running_stays (ThreadPool.step_cases moved) (runs_iff.mp inside) with stays | own
      · exact .inl ⟨w, runs_iff.mpr stays⟩
      · exact .inr (.inr (ended w own (runs_iff.mp inside)))
    · exact .inr outside
  have loop {j : Fin n} {b : EventLoop.Act β} {subloop : EventLoop β}
      (moved : (s.subloops j).step b = some subloop)
      (inside : Within s j ∨ b ≠ .run ∧ ∀ channels, b ≠ .loop channels) :
      Within s i ∨ (Function.update s.subloops j subloop i).pc = .testing ∨
        (Function.update s.subloops j subloop i).pc = .exited := by
    by_cases here : i = j
    · subst here
      rcases inside with inside | ⟨own, foreign⟩
      · exact .inl inside
      · simpa [EventLoop.foreign_pc own foreign (EventLoop.step_cases moved)] using before
    · simpa [here] using before
  cases step with
  | built h moved => exact pool moved (by simp)
  | worked moved ended =>
    refine pool moved fun w own => ?_
    cases own
    exact ended i
  | notified moved => exact pool moved (by simp)
  | spurious moved => exact pool moved (by simp)
  | pooled stopper all moved => exact pool moved (by simp)
  | joined stopper moved own =>
    refine pool moved fun w work => ?_
    rcases own with rfl | rfl <;> cases work
  | looped inside moved own act => exact loop moved (.inl inside)
  | queued moved others act =>
    refine loop moved (.inr ?_)
    rcases others with rfl | ⟨fn, rfl⟩ <;> simp
  | stored stopper h moved => exact loop moved (.inr (by simp))
  | woken stopper h moved => exact loop moved (.inr (by simp))
  | stopping => exact before

theorem Inv.unreturned (inv : Inv s) (idle : s.stopper = .idle) (i : Fin n) :
    (s.subloops i).pc ≠ .exited := by
  intro exited
  obtain ⟨acts, taken⟩ := inv.subloops i
  have stopped := (EventLoop.run_settling taken).exited exited
  simp [(inv.running idle).1 i] at stopped

theorem running_step (inv : Inv s) (step : Step s a t) (idle : t.stopper = .idle) :
    (∀ i, (t.subloops i).stop = false) ∧ t.threadpool.executed = [] := by
  have pool {b : ThreadPool.Act (Fin n) n} {pool : ThreadPool (Fin n) n}
      (before : s.stopper = .idle) (moved : s.threadpool.step b = some pool)
      (ended : ∀ w, b = .work w → ∀ i, s.threadpool.threads w = .running i →
        (s.subloops i).pc = .exited) : pool.executed = [] := by
    rcases ThreadPool.executed_stays (ThreadPool.step_cases moved) with kept | ⟨w, i, work, inside⟩
    · exact kept.trans (inv.running before).2
    · exact absurd (ended w work i inside) (inv.unreturned before i)
  have loop {j : Fin n} {subloop : EventLoop β} (before : s.stopper = .idle)
      (kept : subloop.stop = (s.subloops j).stop) (i : Fin n) :
      (Function.update s.subloops j subloop i).stop = false := by
    by_cases here : i = j
    · subst here
      simpa [kept] using (inv.running before).1 i
    · simpa [here] using (inv.running before).1 i
  cases step with
  | built h moved => exact ⟨(inv.running idle).1, pool idle moved (by simp)⟩
  | worked moved ended =>
    refine ⟨(inv.running idle).1, pool idle moved fun w work => ?_⟩
    cases work
    exact ended
  | notified moved => exact ⟨(inv.running idle).1, pool idle moved (by simp)⟩
  | spurious moved => exact ⟨(inv.running idle).1, pool idle moved (by simp)⟩
  | looped inside moved own act =>
    exact ⟨loop idle (EventLoop.own_stop own (EventLoop.step_cases moved)), (inv.running idle).2⟩
  | queued moved others act =>
    exact ⟨loop idle (EventLoop.queued_stop others (EventLoop.step_cases moved)).1, (inv.running idle).2⟩
  | joined stopper moved own =>
    rw [stopper] at idle
    cases idle
  | _ => cases idle

theorem idle_step (inv : Inv s) (step : Step s a t) (early : t.stopper ≠ .pool) :
    t.threadpool.stopper = .idle := by
  have same {b : ThreadPool.Act (Fin n) n} {pool : ThreadPool (Fin n) n} (before : s.stopper ≠ .pool)
      (moved : s.threadpool.step b = some pool) (other : b ≠ .stop ∧ b ≠ .notifyall ∧ b ≠ .join) :
      pool.stopper = .idle := by
    rcases ThreadPool.stopper_stays (ThreadPool.step_cases moved) with kept | stops
    · exact kept.trans (inv.idle before)
    · simp [other] at stops
  cases step with
  | built h moved => exact same early moved (by simp)
  | worked moved ended => exact same early moved (by simp)
  | notified moved => exact same early moved (by simp)
  | spurious moved => exact same early moved (by simp)
  | pooled stopper all moved => exact absurd rfl early
  | joined stopper moved own => exact absurd stopper early
  | looped inside moved own act => exact inv.idle early
  | queued moved others act => exact inv.idle early
  | stopping stopper built => exact inv.idle (by simp [stopper])
  | stored stopper h moved => exact inv.idle (by simp [stopper])
  | woken stopper h moved => exact inv.idle (by simp [stopper])

theorem stopped_step (inv : Inv s) (step : Step s a t) (i : Fin n)
    (through : i.val < t.stopper.reached n) : (t.subloops i).stop = true := by
  have loop {j : Fin n} {subloop : EventLoop β} (kept : subloop.stop = (s.subloops j).stop)
      (before : (s.subloops i).stop = true) : (Function.update s.subloops j subloop i).stop = true := by
    by_cases here : i = j
    · subst here
      simpa [kept] using before
    · simpa [here] using before
  cases step with
  | looped inside moved own act =>
    exact loop (EventLoop.own_stop own (EventLoop.step_cases moved)) (inv.stopped i through)
  | queued moved others act =>
    exact loop (EventLoop.queued_stop others (EventLoop.step_cases moved)).1 (inv.stopped i through)
  | stopping stopper built => exact absurd through (Nat.not_lt_zero _)
  | @stored k subloop stopper h moved =>
    cases EventLoop.step_cases moved with
    | stored =>
      by_cases here : i = ⟨k, h⟩
      · subst here
        simp
      · have earlier : i.val ≠ k := fun same => here (Fin.ext same)
        have below : i.val < s.stopper.reached n := by
          simp only [stopper, ServerStop.reached] at through ⊢
          omega
        simpa [here] using inv.stopped i below
  | @woken k subloop stopper h moved =>
    cases EventLoop.step_cases moved with
    | stopped due => exact loop rfl (inv.stopped i (by simpa [stopper, ServerStop.reached] using through))
  | @pooled k pool stopper all moved =>
    have below : i.val < s.stopper.reached n := by
      simp only [stopper, ServerStop.reached]
      omega
    exact inv.stopped i below
  | built h moved => exact inv.stopped i through
  | worked moved ended => exact inv.stopped i through
  | notified moved => exact inv.stopped i through
  | spurious moved => exact inv.stopped i through
  | joined stopper moved own => exact inv.stopped i through

theorem step_inv (inv : Inv s) (taken : step s a = some t) : Inv t where
  threadpool := threadpool_step inv (step_cases taken)
  subloops := subloops_step inv (step_cases taken)
  pushed := pushed_step inv (step_cases taken)
  within := within_step inv (step_cases taken)
  running := running_step inv (step_cases taken)
  idle := idle_step inv (step_cases taken)
  stopped := stopped_step inv (step_cases taken)

theorem run_inv {acts : List (Act β n)} (taken : Transition.run step initial acts = some s) : Inv s :=
  run_invariant (fun _ _ _ => step_inv) initial_inv taken

theorem Inv.pool (inv : Inv s) : ThreadPool.Inv s.threadpool := by
  obtain ⟨acts, taken⟩ := inv.threadpool
  exact ThreadPool.run_inv taken

theorem Inv.entered_once (inv : Inv s) :
    (s.threadpool.dequeued.map Prod.snd ++ s.threadpool.taskqueue).Nodup := by
  rw [← inv.pool.fifo, inv.pushed]
  exact (List.nodup_finRange n).sublist (List.take_sublist _ _)

theorem Inv.entered (inv : Inv s) {w i : Fin n} (inside : s.threadpool.threads w = .running i) :
    (w, i) ∈ s.threadpool.dequeued := by
  have held := inv.pool.held w
  rw [inside] at held
  have member : i ∈ ThreadPool.tasksof w s.threadpool.dequeued := by simp [held, WorkerPc.held]
  simpa [ThreadPool.tasksof] using member

theorem Inv.alone (inv : Inv s) {v w i : Fin n} (first : s.threadpool.threads v = .running i)
    (second : s.threadpool.threads w = .running i) : v = w := by
  have once := (List.nodup_append.mp inv.entered_once).1
  have same := List.inj_on_of_nodup_map once (inv.entered first) (inv.entered second) rfl
  exact congrArg Prod.fst same

theorem one_thread_per_loop {acts : List (Act β n)} (taken : Transition.run step initial acts = some s) :
    (∀ v w i, s.threadpool.threads v = .running i → s.threadpool.threads w = .running i → v = w) ∧
    (s.threadpool.dequeued.map Prod.snd).Nodup ∧
    (∀ i, Within s i ∨ (s.subloops i).pc = .testing ∨ (s.subloops i).pc = .exited) ∧
    (s.stopper = .pool → s.threadpool.stopper = .returned → ∀ i,
      s.threadpool.threads i = .exited ∧ ¬ Within s i ∧ (s.subloops i).stop = true ∧
        ((s.subloops i).pc = .testing ∨ (s.subloops i).pc = .exited)) := by
  have inv := run_inv taken
  refine ⟨fun v w i => inv.alone, (List.nodup_append.mp inv.entered_once).1, inv.within,
    fun stopper returned i => ?_⟩
  have gone (w : Fin n) : s.threadpool.threads w = .exited :=
    inv.pool.joined w (by simp [returned, StopPc.joined])
  have outside : ¬ Within s i := by
    rintro ⟨w, inside⟩
    simp [gone w, WorkerPc.runs] at inside
  have through : i.val < s.stopper.reached n := by simp [stopper, ServerStop.reached]
  exact ⟨gone i, outside, inv.stopped i through, (inv.within i).resolve_left outside⟩

-- The loops of two sub threads have begun, and end one after the other.
def upAndDown (v w : Fin 2) : List (Act Nat 2) :=
  [.addtask, .addtask, .notifyone none, .notifyone none, .work w, .work w, .work w, .work w, .work w,
    .work v, .work v, .work v, .work v, .work v, .run v, .run w, .stop, .stop, .stop, .loop v [.wakeup],
    .run v, .run v, .run v, .run v, .run v, .work w]

-- The second loop ends as well, and stop joins both threads.
def downAgain (v w : Fin 2) : List (Act Nat 2) :=
  upAndDown v w ++ [.stop, .stop, .loop w [.wakeup], .run w, .run w, .run w, .run w, .run w, .work v,
    .stop, .stop, .work v, .work w, .stop, .stop, .stop]

theorem one_thread_per_loop_stopping :
    (∃ s, Transition.run step initial (upAndDown 0 1) = some s ∧
      (∀ v w i, s.threadpool.threads v = .running i → s.threadpool.threads w = .running i → v = w) ∧
      (s.threadpool.dequeued.map Prod.snd).Nodup ∧
      ∀ i, Within s i ∨ (s.subloops i).pc = .testing ∨ (s.subloops i).pc = .exited) ∧
    ∃ s, Transition.run step initial (downAgain 0 1) = some s ∧ s.threadpool.stopper = .returned ∧
      ∀ i, s.threadpool.threads i = .exited ∧ ¬ Within s i ∧ (s.subloops i).stop = true ∧
        ((s.subloops i).pc = .testing ∨ (s.subloops i).pc = .exited) := by
  have taken := run_final (show (Transition.run step initial (upAndDown 0 1)).isSome by decide +kernel)
  have returned := run_final (show (Transition.run step initial (downAgain 0 1)).isSome by decide +kernel)
  obtain ⟨alone, once, within, -⟩ := one_thread_per_loop taken
  obtain ⟨-, -, -, stopped⟩ := one_thread_per_loop returned
  exact ⟨⟨_, taken, alone, once, within⟩, _, returned, by decide +kernel,
    stopped (by decide +kernel) (by decide +kernel)⟩

def Starting : Act β n → Prop
  | .addtask => True
  | .notifyone _ => True
  | .work _ => True
  | _ => False

def effort (s : IoThreads β n) : Nat := s.threadpool.effort + 12 * (n - s.built)

theorem Inv.working (inv : Inv s) (idle : s.stopper = .idle) : ThreadPool.Working s.threadpool := by
  obtain ⟨acts, taken⟩ := inv.threadpool
  have stopper := inv.idle (by simp [idle])
  exact ThreadPool.run_working taken (inv.pool.idle.mpr stopper)

theorem starting_idle (starting : Starting a) (step : Step s a t) : t.stopper = s.stopper := by
  cases step with
  | built h moved => rfl
  | worked moved ended => rfl
  | notified moved => rfl
  | looped inside moved own act => rfl
  | queued moved others act => rfl
  | _ => exact starting.elim

theorem step_effort (inv : Inv s) (idle : s.stopper = .idle) (starting : Starting a)
    (taken : step s a = some t) : effort t < effort s := by
  have less {b : ThreadPool.Act (Fin n) n} {pool : ThreadPool (Fin n) n}
      (moved : s.threadpool.step b = some pool)
      (due : ThreadPool.Due (fun _ => False) s.threadpool b) : pool.effort < s.threadpool.effort :=
    ThreadPool.step_effort inv.pool due moved
  cases step_cases taken with
  | built h moved =>
    cases ThreadPool.step_cases moved with
    | pushed free =>
      simp only [effort, ThreadPool.effort, List.length_append, List.length_singleton]
      omega
  | worked moved ended =>
    have inside := less moved fun i pc => inv.unreturned idle i (ended i pc)
    simp only [effort]
    omega
  | notified moved =>
    have inside := less moved trivial
    simp only [effort]
    omega
  | looped inside moved own act =>
    subst act
    rcases own with rfl | ⟨channels, rfl⟩ <;> exact starting.elim
  | queued moved others act =>
    subst act
    rcases others with rfl | ⟨fn, rfl⟩ <;> exact starting.elim
  | _ => exact starting.elim

theorem stuck_pool (stuck : Stuck step (fun _ => Starting) s) :
    Stuck ThreadPool.step (ThreadPool.Due fun _ => False) s.threadpool := by
  intro b due
  cases b with
  | work w =>
    have none := stuck (.work w) trivial
    simp only [step] at none
    split at none
    next i pc => exact (due i pc).elim
    next => simpa [poolStep] using none
  | notifyone w =>
    have none := stuck (.notifyone w) trivial
    simpa [step, poolStep] using none
  | _ => exact due.elim

theorem stuck_built (inv : Inv s) (stuck : Stuck step (fun _ => Starting) s) :
    s.threadpool.pushed = List.finRange n := by
  have free := ThreadPool.stuck_free inv.pool (stuck_pool stuck)
  have all : n ≤ s.built := by
    by_contra fewer
    have none := stuck .addtask trivial
    simp [step, poolStep, ThreadPool.step, free, Nat.lt_of_not_le fewer] at none
  rw [inv.pushed]
  exact List.take_of_length_le (by simpa using all)

theorem stuck_started (inv : Inv s) (idle : s.stopper = .idle)
    (stuck : Stuck step (fun _ => Starting) s) (i : Fin n) : ∃ w, s.threadpool.threads w = .running i := by
  obtain ⟨occupied, attended⟩ := ThreadPool.stuck_at_rest (stuck_pool stuck) (inv.working idle)
  have taken (w : Fin n) (i : Fin n) (member : (w, i) ∈ s.threadpool.dequeued) :
      s.threadpool.threads w = .running i := by
    have held := inv.pool.held w
    rw [(inv.running idle).2, ThreadPool.tasksof_nil, List.nil_append] at held
    have mine : i ∈ ThreadPool.tasksof w s.threadpool.dequeued := by
      simpa [ThreadPool.tasksof] using member
    rw [held] at mine
    rcases occupied w with pc | ⟨j, pc, -⟩
    · simp [pc, WorkerPc.held] at mine
    · simp only [pc, WorkerPc.held, List.mem_singleton] at mine
      rw [pc, mine]
  have all : i ∈ s.threadpool.dequeued.map Prod.snd ++ s.threadpool.taskqueue := by
    rw [← inv.pool.fifo, stuck_built inv stuck]
    exact List.mem_finRange i
  rcases List.mem_append.mp all with dequeued | queued
  · obtain ⟨⟨w, j⟩, member, rfl⟩ := List.mem_map.mp dequeued
    exact ⟨w, taken w j member⟩
  · -- Every thread would have a loop, so that this one could not be left over.
    have busy (w : Fin n) : ∃ j, s.threadpool.threads w = .running j := by
      rcases occupied w with pc | ⟨j, pc, -⟩
      · rw [attended w pc] at queued
        cases queued
      · exact ⟨j, pc⟩
    choose of running using busy
    have injective : Function.Injective of := by
      intro v w same
      exact inv.alone (running v) (same ▸ running w)
    obtain ⟨w, rfl⟩ := Finite.surjective_of_injective injective i
    exact ⟨w, running w⟩

theorem every_loop_started {acts : List (Act β n)} (taken : Transition.run step initial acts = some s)
    (idle : s.stopper = .idle) :
    Inevitable step (fun _ => Starting) s
      (fun t => ∀ i, (∃ w, t.threadpool.threads w = .running i) ∧ (t.subloops i).pc ≠ .exited)
      (effort s) := by
  apply inevitable effort
  · intro u a t (reached : Inv u ∧ u.stopper = .idle) starting taken
    exact ⟨step_inv reached.1 taken, (starting_idle starting (step_cases taken)).trans reached.2⟩
  · intro u a t reached starting taken
    exact step_effort reached.1 reached.2 starting taken
  · intro u reached stuck i
    exact ⟨stuck_started reached.1 reached.2 stuck i, reached.1.unreturned reached.2 i⟩
  · exact ⟨run_inv taken, idle⟩

theorem every_loop_started_three :
    effort (initial : IoThreads Nat 3) = 51 ∧
      Inevitable step (fun _ => Starting) (initial : IoThreads Nat 3)
        (fun t => ∀ i, (∃ w, t.threadpool.threads w = .running i) ∧ (t.subloops i).pc ≠ .exited)
        (effort (initial : IoThreads Nat 3)) :=
  ⟨by decide, every_loop_started (run_nil _) rfl⟩

end IoThreads

end Reactor
