import ReactorServer.Codec
import ReactorServer.IoShutdown
import ReactorServer.Shared.Progress
import ReactorServer.ThreadedRefinement

set_option autoImplicit false

namespace Reactor

open ByteString Tally Transition

namespace Buffer

variable {b b' : Buffer} {stale : Nat → UInt8} {ss message : Bytes} {found : Bool}

theorem pickmessage_cases (sep : b.sep = 1) (picked : b.pickmessage stale ss = .ok (found, b', message)) :
    found = false ∧ b' = b ∧ (4 ≤ b.buf.length → b.buf.length < skip (lengthField b.buf)) ∨
      found = true ∧ 4 ≤ b.buf.length ∧ skip (lengthField b.buf) ≤ b.buf.length ∧
        b' = ⟨b.buf.drop (skip (lengthField b.buf)), 1⟩ := by
  obtain ⟨buf, mode⟩ := b
  obtain rfl : mode = 1 := sep
  by_cases whole : 4 ≤ buf.length
  · rw [pickmessage_whole stale ss whole] at picked
    split at picked
    next refused =>
      cases picked
      exact .inl ⟨rfl, rfl, fun _ => refused⟩
    next present =>
      simp only [Except.ok.injEq, Prod.mk.injEq] at picked
      exact .inr ⟨picked.1.symm, whole, Nat.le_of_not_lt present, picked.2.1.symm⟩
  · rw [pickmessage_short stale ss (by omega)] at picked
    cases picked
    exact .inl ⟨rfl, rfl, fun four => absurd four whole⟩

theorem pickmessage_returns (sep : b.sep = 1) (stale : Nat → UInt8) (ss : Bytes) :
    ∃ found b' message, b.pickmessage stale ss = .ok (found, b', message) := by
  obtain ⟨buf, mode⟩ := b
  obtain rfl : mode = 1 := sep
  by_cases whole : 4 ≤ buf.length
  · rw [pickmessage_whole stale ss whole]
    split <;> exact ⟨_, _, _, rfl⟩
  · rw [pickmessage_short stale ss (by omega)]
    exact ⟨_, _, _, rfl⟩

theorem pickmessage_sep (sep : b.sep = 1) (picked : b.pickmessage stale ss = .ok (found, b', message)) :
    b'.sep = 1 := by
  rcases pickmessage_cases sep picked with ⟨-, same, -⟩ | ⟨-, -, -, rest⟩
  · rw [same, sep]
  · rw [rest]

theorem pickmessage_moves (sep : b.sep = 1) (moves : ¬ Stalls b.buf)
    (picked : b.pickmessage stale ss = .ok (true, b', message)) :
    ¬ Stalls b'.buf ∧ b'.buf.length < b.buf.length := by
  rcases pickmessage_cases sep picked with ⟨missing, -⟩ | ⟨-, whole, present, rest⟩
  · cases missing
  · have some : skip (lengthField b.buf) ≠ 0 := fun nothing =>
      moves (.here whole ((skip_zero (lengthField_range b.buf)).mp nothing))
    have later : ¬ Stalls (b.buf.drop (skip (lengthField b.buf))) :=
      fun stalls => moves (.next whole present stalls)
    have left : b'.buf = b.buf.drop (skip (lengthField b.buf)) := by rw [rest]
    rw [left, List.length_drop]
    exact ⟨later, by omega⟩

theorem pickmessage_stalls (sep : b.sep = 1) (stalls : Stalls b.buf)
    (picked : b.pickmessage stale ss = .ok (found, b', message)) : found = true ∧ Stalls b'.buf := by
  obtain ⟨whole, present, later⟩ := stalls.taken
  rcases pickmessage_cases sep picked with ⟨-, -, refused⟩ | ⟨found, -, -, rest⟩
  · have short := refused whole
    omega
  · have left : b'.buf = b.buf.drop (skip (lengthField b.buf)) := by rw [rest]
    exact ⟨found, left ▸ later⟩

theorem frame_moves {m rest : Bytes} (bound : m.length ≤ 2 ^ 31 - 5) (moves : ¬ Stalls rest) :
    ¬ Stalls (frame m ++ rest) := by
  have len : lengthField (frame m ++ rest) = m.length := by
    rw [lengthField_frame, toSigned_eq_self (by omega) (by omega)]
  have skipped : skip (m.length : Int) = m.length + 4 := by
    have near : (skip (m.length : Int) : Int) = m.length + 4 := skip_near (by omega) (by omega)
    exact_mod_cast near
  intro stalls
  cases stalls with
  | here whole stuck =>
    rw [len] at stuck
    omega
  | next whole present later =>
    rw [len, skipped, List.drop_left' (by simp)] at later
    exact moves later

theorem nil_moves : ¬ Stalls [] := by
  intro stalls
  simpa using stalls.taken.1

end Buffer

namespace ThreadPool

variable {α : Type} {n : Nat} {s t : ThreadPool α n} {w : Fin n}

theorem work_adding (taken : s.step (.work w) = some t) : t.adding = s.adding := by
  cases step_cases taken with
  | worked works => cases works <;> rfl

theorem stopping_adding {b : Act α n} (own : b = .stop ∨ b = .notifyall ∨ b = .join)
    (taken : s.step b = some t) : t.adding = s.adding := by
  cases step_cases taken <;> simp at own <;> rfl

end ThreadPool

namespace EventLoop

variable {β : Type} {s t : EventLoop β} {a : Act β}

theorem stop_stays (taken : s.step a = some t) :
    t.stop = s.stop ∧ t.stopping = s.stopping ∨ a = .stop ∨ a = .stopWakeup := by
  cases step_cases taken with
  | stored => exact .inr (.inl rfl)
  | stopped due => exact .inr (.inr rfl)
  | runs runs => cases runs <;> exact .inl ⟨rfl, rfl⟩
  | _ => exact .inl ⟨rfl, rfl⟩

theorem queueing_stays (queues : ∀ fn, a ≠ .queueinloop fn) (wakes : a ≠ .queueinloopWakeup)
    (taken : s.step a = some t) : t.queueing = s.queueing := by
  cases step_cases taken with
  | pushed free => exact absurd rfl (queues _)
  | queued due => exact absurd rfl wakes
  | runs runs => cases runs <;> rfl
  | _ => rfl

end EventLoop

namespace Threaded

variable {ι : Type} {n m : Nat}

def notifies : ChannelPc ι → Nat
  | .notifying _ _ => 1
  | _ => 0

def wakes (loop : ι → Fin m) (i : Fin m) (threads : Fin n → WorkerPc (ι × Bytes)) (task : Fin n → TaskPc)
    (w : Fin n) : Nat :=
  match threads w, task w with
  | .running (c, _), .waking => if loop c = i then 1 else 0
  | _, _ => 0

structure Inv (loop : ι → Fin m) (s : Threaded ι n m) : Prop where
  threadpool : Reached ThreadPool.step .initial s.threadpool
  begun : s.stopper = .idle ↔ s.threadpool.stopper = .idle
  returned : s.stopper ≠ .idle → s.stopper ≠ .works → s.threadpool.stopper = .returned
  subloops : ∀ i, Reached EventLoop.step .initial (s.subloops i)
  waking : ∀ k, s.stopper = .waking k → k < m
  stopped : ∀ i, (s.subloops i).stop = true ↔ i.val < s.stopper.stored m
  stopping : ∀ i, (s.subloops i).stopping = if s.stopper = .waking i.val then 1 else 0
  adding : s.threadpool.adding = tally notifies s.pc
  queueing : ∀ i, (s.subloops i).queueing = Finset.univ.sum (wakes loop i s.threadpool.threads s.task)
  input : ∀ c, (s.conn c).inputbuffer.sep = 1

variable {loop : ι → Fin m} {s t : Threaded ι n m} {p : Pipeline.State ι}

theorem wakes_free {threads : Fin n → WorkerPc (ι × Bytes)} {task : Fin n → TaskPc} {w : Fin n}
    (free : (threads w).held = []) (i : Fin m) : wakes loop i threads task w = 0 := by
  unfold wakes
  cases pc : threads w with
  | running task => simp [pc, WorkerPc.held] at free
  | _ => rfl

theorem initial_inv (initial : Initial loop s) : Inv loop s where
  threadpool := by
    rw [initial.threadpool]
    exact .start _
  begun := by simp [initial.stopper, initial.threadpool, ThreadPool.initial]
  returned begun := absurd initial.stopper begun
  subloops i := by
    rw [initial.subloops]
    exact .start _
  waking k waking := by simp [initial.stopper] at waking
  stopped i := by simp [initial.subloops, EventLoop.initial, initial.stopper, EchoStop.stored]
  stopping i := by simp [initial.subloops, EventLoop.initial, initial.stopper]
  adding := by simp [initial.threadpool, ThreadPool.initial, tally, initial.pc, notifies]
  queueing i := by
    have free (w : Fin n) : (s.threadpool.threads w).held = [] := by
      rw [initial.threadpool]
      rfl
    rw [Finset.sum_eq_zero fun w _ => wakes_free (free w) i, initial.subloops]
    rfl
  input c := by
    obtain ⟨fd, now, made⟩ := initial.established c
    rw [made]
    rfl

variable [DecidableEq ι] {a : Act ι n m}

theorem threadpool_step (inv : Inv loop s) (step : Step loop s a t) :
    Reached ThreadPool.step .initial t.threadpool := by
  cases step with
  | picked picking found handled moved => exact inv.threadpool.next moved
  | notified notifying moved => exact inv.threadpool.next moved
  | worked free moved => exact inv.threadpool.next moved
  | returned running returned moved => exact inv.threadpool.next moved
  | spurious moved => exact inv.threadpool.next moved
  | stopping stopper moved => exact inv.threadpool.next moved
  | joined stopper own moved => exact inv.threadpool.next moved
  | _ => exact inv.threadpool

theorem stopper_step (inv : Inv loop s) (step : Step loop s a t) :
    (t.stopper = .idle ↔ t.threadpool.stopper = .idle) ∧
      (t.stopper ≠ .idle → t.stopper ≠ .works → t.threadpool.stopper = .returned) := by
  have same := And.intro inv.begun inv.returned
  have others {b : ThreadPool.Act (ι × Bytes) n} {pool : ThreadPool (ι × Bytes) n}
      (moved : s.threadpool.step b = some pool) (other : ¬ (b = .stop ∨ b = .notifyall ∨ b = .join)) :
      (s.stopper = .idle ↔ pool.stopper = .idle) ∧
        (s.stopper ≠ .idle → s.stopper ≠ .works → pool.stopper = .returned) := by
    rw [(ThreadPool.stopper_stays (ThreadPool.step_cases moved)).resolve_right other]
    exact same
  cases step with
  | picked picking found handled moved => exact others moved (by simp)
  | notified notifying moved => exact others moved (by simp)
  | worked free moved => exact others moved (by simp)
  | returned running returned moved => exact others moved (by simp)
  | spurious moved => exact others moved (by simp)
  | stopping stopper moved => cases ThreadPool.step_cases moved <;> exact ⟨by simp, by simp⟩
  | joined stopper own moved =>
    cases ThreadPool.step_cases moved with
    | notifiedall stored => simp [stopper]
    | joined joining h pc => simp [stopper]
    | finished joining all => simp [stopper]
    | _ => simp at own
  | joinedAll stopper returned => simp [returned]
  | stored stopper h moved => simp [inv.returned (by simp [stopper]) (by simp [stopper])]
  | storedAll stopper all => simp [inv.returned (by simp [stopper]) (by simp [stopper])]
  | written stopper h moved => simp [inv.returned (by simp [stopper]) (by simp [stopper])]
  | _ => exact same

theorem subloops_step (inv : Inv loop s) (step : Step loop s a t) (i : Fin m) :
    Reached EventLoop.step .initial (t.subloops i) := by
  have moves {j : Fin m} {b : EventLoop.Act (Pipeline.Closure ι)} {subloop : EventLoop (Pipeline.Closure ι)}
      (moved : (s.subloops j).step b = some subloop) :
      Reached EventLoop.step .initial (Function.update s.subloops j subloop i) := by
    by_cases here : i = j
    · subst here
      simpa using (inv.subloops i).next moved
    · simpa [here] using inv.subloops i
  cases step with
  | polled moved => exact moves moved
  | ran outside idle moved => exact moves moved
  | finished picking found moved => exact moves moved
  | wrote outside event written moved => exact moves moved
  | appended running sent moved => exact moves moved
  | pushed running sending moved => exact moves moved
  | woken running waking moved => exact moves moved
  | stored stopper h moved => exact moves moved
  | written stopper h moved => exact moves moved
  | _ => exact inv.subloops i

theorem waking_step (inv : Inv loop s) (step : Step loop s a t) (k : Nat) (waking : t.stopper = .waking k) :
    k < m := by
  cases step with
  | stored stopper h moved =>
    cases waking
    exact h
  | stopping stopper moved => cases waking
  | joinedAll stopper returned => cases waking
  | storedAll stopper all => cases waking
  | written stopper h moved => cases waking
  | _ => exact inv.waking k waking

theorem stopped_step (inv : Inv loop s) (step : Step loop s a t) (i : Fin m) :
    ((t.subloops i).stop = true ↔ i.val < t.stopper.stored m) ∧
      (t.subloops i).stopping = if t.stopper = .waking i.val then 1 else 0 := by
  have before := And.intro (inv.stopped i) (inv.stopping i)
  have others {j : Fin m} {b : EventLoop.Act (Pipeline.Closure ι)} {subloop : EventLoop (Pipeline.Closure ι)}
      (moved : (s.subloops j).step b = some subloop) (other : ¬ (b = .stop ∨ b = .stopWakeup)) :
      ((Function.update s.subloops j subloop i).stop = true ↔ i.val < s.stopper.stored m) ∧
        (Function.update s.subloops j subloop i).stopping = if s.stopper = .waking i.val then 1 else 0 := by
    obtain ⟨stop, stopping⟩ := (EventLoop.stop_stays moved).resolve_right other
    by_cases here : i = j
    · subst here
      simpa [stop, stopping] using before
    · simpa [here] using before
  cases step with
  | polled moved => exact others moved (by simp)
  | ran outside idle moved => exact others moved (by simp)
  | finished picking found moved => exact others moved (by simp)
  | wrote outside event written moved => exact others moved (by simp)
  | appended running sent moved => exact others moved (by simp)
  | pushed running sending moved => exact others moved (by simp)
  | woken running waking moved => exact others moved (by simp)
  | stopping stopper moved => simpa [stopper, EchoStop.stored] using before
  | joinedAll stopper returned => simpa [stopper, EchoStop.stored] using before
  | storedAll stopper all =>
    have inside := i.isLt
    have past : i.val < _ := inside.trans_le all
    simpa [stopper, EchoStop.stored, past] using before
  | @stored k subloop stopper h moved =>
    cases EventLoop.step_cases moved with
    | stored =>
      by_cases here : i = ⟨k, h⟩
      · subst here
        simpa [stopper, EchoStop.stored] using before.2
      · have apart : k ≠ i.val := fun equal => here (Fin.ext equal.symm)
        have next : i.val < k + 1 ↔ i.val < k := by omega
        simpa [stopper, EchoStop.stored, here, apart, next] using before
  | @written k subloop stopper h moved =>
    cases EventLoop.step_cases moved with
    | stopped due =>
      by_cases here : i = ⟨k, h⟩
      · subst here
        simp only [stopper, EchoStop.stored, if_true] at before
        simp [before, EchoStop.stored]
      · have apart : k ≠ i.val := fun equal => here (Fin.ext equal.symm)
        simpa [stopper, EchoStop.stored, here, apart] using before
  | _ => exact before

theorem adding_step (inv : Inv loop s) (step : Step loop s a t) :
    t.threadpool.adding = tally notifies t.pc := by
  have before := inv.adding
  have silent {i : Fin m} {channel : ChannelPc ι} (was : notifies (s.pc i) = 0)
      (now : notifies channel = 0) :
      s.threadpool.adding = tally notifies (Function.update s.pc i channel) := by
    have moved := tally_update notifies s.pc i channel
    omega
  cases step with
  | readable outside event => exact silent (by simp [outside, notifies]) rfl
  | again reading => exact silent (by simp [reading, notifies]) rfl
  | finished picking found moved => exact silent (by simp [picking, notifies]) rfl
  | @picked i now stale c message ss task inputbuffer pool picking found handled moved =>
    have changed := tally_update notifies s.pc i (.notifying c task)
    cases ThreadPool.step_cases moved with
    | pushed free =>
      simp only [picking, notifies] at changed ⊢
      omega
  | @notified i w c message pool notifying moved =>
    have changed := tally_update notifies s.pc i (.picking c message)
    cases ThreadPool.step_cases moved with
    | notified due pc =>
      simp only [notifying, notifies] at changed ⊢
      omega
    | wasted due nobody =>
      simp only [notifying, notifies] at changed ⊢
      omega
  | worked free moved => exact (ThreadPool.work_adding moved).trans before
  | returned running returned moved => exact (ThreadPool.work_adding moved).trans before
  | spurious moved =>
    cases ThreadPool.step_cases moved with
    | woken pc => exact before
  | stopping stopper moved => exact (ThreadPool.stopping_adding (.inl rfl) moved).trans before
  | joined stopper own moved => exact (ThreadPool.stopping_adding (.inr own) moved).trans before
  | _ => exact before

omit [DecidableEq ι] in
theorem queueing_own {i j : Fin m} {b : EventLoop.Act (Pipeline.Closure ι)}
    {subloop : EventLoop (Pipeline.Closure ι)} (queues : ∀ fn, b ≠ .queueinloop fn)
    (wakes : b ≠ .queueinloopWakeup) (moved : (s.subloops j).step b = some subloop) :
    (Function.update s.subloops j subloop i).queueing = (s.subloops i).queueing := by
  by_cases here : i = j
  · subst here
    simpa using EventLoop.queueing_stays queues wakes moved
  · simp [here]

omit [DecidableEq ι] in
theorem wakes_calm {pool : ThreadPool (ι × Bytes) n} (calm : ThreadPool.Calm s.threadpool pool)
    (i : Fin m) (w : Fin n) :
    wakes loop i pool.threads s.task w = wakes loop i s.threadpool.threads s.task w := by
  rcases calm.threads w with same | ⟨free, free'⟩
  · simp [wakes, same]
  · rw [wakes_free free, wakes_free free']

omit [DecidableEq ι] in
theorem wakes_aside {i : Fin m} {w : Fin n} {task : TaskPc}
    (was : wakes loop i s.threadpool.threads s.task w = 0)
    (now : wakes loop i s.threadpool.threads (s.settask w task).task w = 0) (v : Fin n) :
    wakes loop i (s.settask w task).threadpool.threads (s.settask w task).task v =
      wakes loop i s.threadpool.threads s.task v := by
  by_cases here : v = w
  · subst here
    exact now.trans was.symm
  · simp [settask, wakes, here]

omit [DecidableEq ι] in
-- Worker w comes to its wakeup or has it behind it, and so do the calls that the loop of c counts.
theorem Inv.queueing_counted (inv : Inv loop s) {i : Fin m} {w : Fin n} {c : ι} {task : TaskPc}
    {subloop : EventLoop (Pipeline.Closure ι)} {was now : Nat}
    (left : wakes loop i s.threadpool.threads s.task w = if loop c = i then was else 0)
    (entered : wakes loop i s.threadpool.threads (Function.update s.task w task) w =
      if loop c = i then now else 0)
    (moved : subloop.queueing + was = (s.subloops (loop c)).queueing + now) :
    (Function.update s.subloops (loop c) subloop i).queueing =
      Finset.univ.sum (wakes loop i s.threadpool.threads (Function.update s.task w task)) := by
  have before := inv.queueing i
  have changed : Finset.univ.sum (wakes loop i s.threadpool.threads (Function.update s.task w task)) +
        wakes loop i s.threadpool.threads s.task w =
      Finset.univ.sum (wakes loop i s.threadpool.threads s.task) +
        wakes loop i s.threadpool.threads (Function.update s.task w task) w :=
    sum_changed (Finset.mem_univ w) fun v _ other => by simp [wakes, other]
  rw [left, entered] at changed
  by_cases here : loop c = i
  · subst here
    rw [if_pos rfl, if_pos rfl] at changed
    rw [Function.update_self]
    omega
  · rw [if_neg here, if_neg here] at changed
    rw [Function.update_of_ne (Ne.symm here)]
    omega

theorem queueing_step (inv : Inv loop s) (refines : Refines s p) (step : Step loop s a t) (i : Fin m) :
    (t.subloops i).queueing = Finset.univ.sum (wakes loop i t.threadpool.threads t.task) := by
  have before := inv.queueing i
  -- Nobody comes between its push and its wakeup, and nobody leaves there.
  have silent {pool : ThreadPool (ι × Bytes) n} {task : Fin n → TaskPc}
      (same : ∀ w, wakes loop i pool.threads task w = wakes loop i s.threadpool.threads s.task w) :
      (s.subloops i).queueing = Finset.univ.sum (wakes loop i pool.threads task) := by
    rw [before]
    exact Finset.sum_congr rfl fun w _ => (same w).symm
  cases step with
  | polled moved => exact (queueing_own (by simp) (by simp) moved).trans before
  | ran outside idle moved => exact (queueing_own (by simp) (by simp) moved).trans before
  | finished picking found moved => exact (queueing_own (by simp) (by simp) moved).trans before
  | wrote outside event written moved => exact (queueing_own (by simp) (by simp) moved).trans before
  | appended running sent moved => exact (queueing_own (by simp) (by simp) moved).trans before
  | stored stopper h moved => exact (queueing_own (by simp) (by simp) moved).trans before
  | written stopper h moved => exact (queueing_own (by simp) (by simp) moved).trans before
  | stopping stopper moved => exact silent (wakes_calm (ThreadPool.stopping_calm (.inl rfl) moved) i)
  | joined stopper own moved => exact silent (wakes_calm (ThreadPool.stopping_calm (.inr own) moved) i)
  | picked picking found handled moved =>
    cases ThreadPool.step_cases moved with
    | pushed free => exact before
  | notified notifying moved => exact silent (wakes_calm (ThreadPool.notifyone_calm moved) i)
  | spurious moved => exact silent (wakes_calm (ThreadPool.spurious_calm moved) i)
  | @worked w pool free moved =>
    rcases ThreadPool.work_calm free moved with still | ⟨⟨c, message⟩, rest, front, queue, threads⟩
    · exact silent (wakes_calm still i)
    · refine silent fun v => ?_
      by_cases here : v = w
      · subst here
        simp [threads, refines.fresh v free, wakes]
      · simp [threads, here, wakes]
  | @returned w task pool running returned moved =>
    cases ThreadPool.step_cases moved with
    | worked works =>
      cases works with
      | executed pc =>
        refine silent fun v => ?_
        by_cases here : v = w
        · subst here
          simp [running, returned, wakes]
        · simp [here, wakes]
      | _ => simp_all
  | refused running starting refused =>
    refine silent (wakes_aside ?_ ?_)
    · simp [running, starting, wakes]
    · simp [running, settask, wakes]
  | copied running starting copied =>
    refine silent (wakes_aside ?_ ?_)
    · simp [running, starting, wakes]
    · simp [running, settask, wakes]
  | @pushed w c message dataCopy size subloop running sending moved =>
    have more : subloop.queueing + 0 = (s.subloops (loop c)).queueing + 1 := by
      cases EventLoop.step_cases moved with
      | pushed free => rfl
    exact inv.queueing_counted (by simp [running, sending, wakes]) (by simp [running, wakes]) more
  | @woken w c message subloop running waking moved =>
    have less : subloop.queueing + 1 = (s.subloops (loop c)).queueing + 0 := by
      cases EventLoop.step_cases moved with
      | queued due => exact Nat.sub_add_cancel due
    exact inv.queueing_counted (by simp [running, waking, wakes]) (by simp [running, wakes]) less
  | _ => exact before

theorem input_step (inv : Inv loop s) (step : Step loop s a t) (c : ι) : (t.conn c).inputbuffer.sep = 1 := by
  have updated {d : ι} {conn : Connection} (sep : conn.inputbuffer.sep = 1) :
      (Function.update s.conn d conn c).inputbuffer.sep = 1 := by
    by_cases here : c = d
    · subst here
      simpa using sep
    · simpa [here] using inv.input c
  cases step with
  | read reading short => exact updated (inv.input _)
  | picked picking found handled moved => exact updated (Buffer.pickmessage_sep (inv.input _) found)
  | finished picking found moved => exact updated (Buffer.pickmessage_sep (inv.input _) found)
  | wrote outside event written moved =>
    exact updated (by simpa [(Connection.writecallback_buffers written).1] using inv.input _)
  | appended running sent moved =>
    exact updated (by simpa [Connection.sendinloop_input sent] using inv.input _)
  | _ => exact inv.input c

theorem step_inv (inv : Inv loop s) (refines : Refines s p) (step : Step loop s a t) : Inv loop t where
  threadpool := threadpool_step inv step
  begun := (stopper_step inv step).1
  returned := (stopper_step inv step).2
  subloops := subloops_step inv step
  waking := waking_step inv step
  stopped i := (stopped_step inv step i).1
  stopping i := (stopped_step inv step i).2
  adding := adding_step inv step
  queueing := queueing_step inv refines step
  input := input_step inv step

theorem reached_inv {s₀ : Threaded ι n m} (initial : Initial loop s₀) (reached : Reached (step loop) s₀ s) :
    Inv loop s := by
  have preserved (s : Threaded ι n m) (a : Act ι n m) (t : Threaded ι n m)
      (held : Inv loop s ∧ ∃ p, Refines s p) (taken : step loop s a = some t) :
      Inv loop t ∧ ∃ p, Refines t p := by
    obtain ⟨inv, p, refines⟩ := held
    obtain ⟨q, -, followed⟩ := simulates n loop s a t p refines taken
    exact ⟨step_inv inv refines (step_cases taken), q, followed⟩
  obtain ⟨acts, taken⟩ := reached
  exact (run_invariant preserved ⟨initial_inv initial, _, start_refines initial⟩ taken).1

end Threaded

end Reactor
