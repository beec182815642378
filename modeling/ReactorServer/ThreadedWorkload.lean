import ReactorServer.ThreadedInvariants

set_option autoImplicit false

namespace Reactor

open ByteString Tally Transition

namespace Threaded

variable {ι : Type} [DecidableEq ι] {n m : Nat} {loop : ι → Fin m} {s t : Threaded ι n m}
  {p : Pipeline.State ι} {a : Act ι n m}

-- What goes on once no more bytes come in, with no thread waking up for no reason.
def Quiet : Act ι n m → Prop
  | .readable _ => False
  | .read _ _ => False
  | .spurious _ => False
  | .loop _ channels => .wakeup ∈ channels ∧ channels.length ≤ MaxEvents
  | _ => True

def Serving : Act ι n m → Prop
  | .stop => False
  | a => Quiet a

-- A reply that is not in the queue of its loop yet counts for the batch in which its wakeup is reported.
def taskWork (threads : Fin n → WorkerPc (ι × Bytes)) (task : Fin n → TaskPc) (w : Fin n) : Nat :=
  match threads w, task w with
  | .running _, .starting => 3 * MaxEvents + 10
  | .running _, .sending _ _ => 3 * MaxEvents + 9
  | .running _, .waking => 1
  | _, _ => 0

def tasksWork (threads : Fin n → WorkerPc (ι × Bytes)) (task : Fin n → TaskPc) : Nat :=
  Finset.univ.sum (taskWork threads task)

-- A byte still to be picked may be a request of its own.
def channelWork (conn : ι → Connection) : ChannelPc ι → Nat
  | .outside => 0
  | .reading c => (3 * MaxEvents + 23) * (conn c).inputbuffer.buf.length + 2
  | .picking c _ => (3 * MaxEvents + 23) * (conn c).inputbuffer.buf.length + 1
  | .notifying c _ => (3 * MaxEvents + 23) * (conn c).inputbuffer.buf.length + 1

-- A loop whose stop_ has still to be stored counts for the batch in which its eventfd is reported, and
-- notify_all for the threads that it can wake.
def closing (n m : Nat) : EchoStop → StopPc → Nat
  | .idle, _ => (3 * MaxEvents + 6) * m + 5 * n + 5
  | .works, .stored => (3 * MaxEvents + 6) * m + 5 * n + 4
  | .works, .joining k => (3 * MaxEvents + 6) * m + (n - k) + 3
  | .works, _ => (3 * MaxEvents + 6) * m + 2
  | .storing k, _ => (3 * MaxEvents + 6) * (m - k) + 1
  | .waking k, _ => (3 * MaxEvents + 6) * (m - (k + 1)) + 1
  | .pool, _ => 0

def workload (s : Threaded ι n m) : Nat :=
  s.threadpool.effort + (3 * MaxEvents + 11) * s.threadpool.taskqueue.length +
    tasksWork s.threadpool.threads s.task + tally EventLoop.effort s.subloops +
      tally (channelWork s.conn) s.pc + closing n m s.stopper s.threadpool.stopper

-- No loop is in the pick loop of a buffer in which it would never come to an end.
def Moving (s : Threaded ι n m) : Prop :=
  ∀ i c, (s.pc i).conn = some c → ¬ Buffer.Stalls (s.conn c).inputbuffer.buf

omit [DecidableEq ι] in
theorem taskWork_free {threads : Fin n → WorkerPc (ι × Bytes)} {task : Fin n → TaskPc} {w : Fin n}
    (free : (threads w).held = []) : taskWork threads task w = 0 := by
  unfold taskWork
  cases pc : threads w with
  | running task => simp [pc, WorkerPc.held] at free
  | _ => rfl

omit [DecidableEq ι] in
theorem tasksWork_changed {threads threads' : Fin n → WorkerPc (ι × Bytes)} {task task' : Fin n → TaskPc}
    (w : Fin n) (others : ∀ v, v ≠ w → taskWork threads' task' v = taskWork threads task v) :
    tasksWork threads' task' + taskWork threads task w = tasksWork threads task + taskWork threads' task' w :=
  sum_changed (Finset.mem_univ w) fun v _ => others v

omit [DecidableEq ι] in
theorem tasksWork_calm {pool : ThreadPool (ι × Bytes) n} (calm : ThreadPool.Calm s.threadpool pool) :
    tasksWork pool.threads s.task = tasksWork s.threadpool.threads s.task := by
  refine Finset.sum_congr rfl fun v _ => ?_
  rcases calm.threads v with same | ⟨before, after⟩
  · simp [taskWork, same]
  · rw [taskWork_free before, taskWork_free after]

omit [DecidableEq ι] in
theorem loop_workload {i : Fin m} {subloop : EventLoop (Pipeline.Closure ι)}
    {b : EventLoop.Act (Pipeline.Closure ι)} (threadpool : t.threadpool = s.threadpool)
    (task : t.task = s.task) (stopper : t.stopper = s.stopper)
    (subloops : t.subloops = Function.update s.subloops i subloop)
    (channels : tally (channelWork t.conn) t.pc ≤ tally (channelWork s.conn) s.pc)
    (moved : (s.subloops i).step b = some subloop) (due : EventLoop.Due b) : workload t < workload s := by
  have changed := tally_update EventLoop.effort s.subloops i subloop
  have less := EventLoop.step_effort due moved
  simp only [workload, threadpool, task, stopper, subloops]
  omega

omit [DecidableEq ι] in
theorem task_workload {w : Fin n} {task : TaskPc} {subloops : Fin m → EventLoop (Pipeline.Closure ι)}
    (less :
      taskWork s.threadpool.threads (Function.update s.task w task) w + tally EventLoop.effort subloops <
        taskWork s.threadpool.threads s.task w + tally EventLoop.effort s.subloops) :
    workload { s with subloops := subloops, task := Function.update s.task w task } < workload s := by
  have others (v : Fin n) (other : v ≠ w) :
      taskWork s.threadpool.threads (Function.update s.task w task) v =
        taskWork s.threadpool.threads s.task v := by simp [taskWork, other]
  have moved := tasksWork_changed w others
  simp only [workload]
  omega

omit [DecidableEq ι] in
theorem worked_workload (inv : ThreadPool.Inv s.threadpool) (refines : Refines s p) {w : Fin n}
    {pool : ThreadPool (ι × Bytes) n} (free : (s.threadpool.threads w).held = [])
    (moved : s.threadpool.step (.work w) = some pool) :
    workload { s with threadpool := pool } < workload s := by
  have due : ThreadPool.Due (fun _ => True) s.threadpool (.work w) := fun _ _ => trivial
  have less := ThreadPool.step_effort inv due moved
  have stopper := (ThreadPool.stopper_stays (ThreadPool.step_cases moved)).resolve_right (by simp)
  rcases ThreadPool.work_calm free moved with calm | ⟨⟨c, message⟩, rest, front, queue, threads⟩
  · simp only [workload, tasksWork_calm calm, calm.taskqueue, stopper]
    omega
  · have others (v : Fin n) (other : v ≠ w) :
        taskWork pool.threads s.task v = taskWork s.threadpool.threads s.task v := by
      simp [taskWork, threads, other]
    have changed := tasksWork_changed w others
    have none : taskWork s.threadpool.threads s.task w = 0 := taskWork_free free
    have begun : taskWork pool.threads s.task w = 3 * MaxEvents + 10 := by
      simp [taskWork, threads, refines.fresh w free]
    simp only [workload, front, queue, stopper, List.length_cons]
    simp only [MaxEvents] at begun ⊢
    omega

omit [DecidableEq ι] in
theorem returned_workload (inv : ThreadPool.Inv s.threadpool) {w : Fin n} {request : ι × Bytes}
    {pool : ThreadPool (ι × Bytes) n} (running : s.threadpool.threads w = .running request)
    (returned : s.task w = .returned) (moved : s.threadpool.step (.work w) = some pool) :
    workload { s with threadpool := pool, task := Function.update s.task w .starting } < workload s := by
  have due : ThreadPool.Due (fun _ => True) s.threadpool (.work w) := fun _ _ => trivial
  have less := ThreadPool.step_effort inv due moved
  have stopper := (ThreadPool.stopper_stays (ThreadPool.step_cases moved)).resolve_right (by simp)
  obtain ⟨threads, queue⟩ : pool.threads = Function.update s.threadpool.threads w .testing ∧
      pool.taskqueue = s.threadpool.taskqueue := by
    cases ThreadPool.step_cases moved with
    | worked works =>
      cases works with
      | executed pc => exact ⟨rfl, rfl⟩
      | _ => simp_all
  have others (v : Fin n) (other : v ≠ w) : taskWork pool.threads (Function.update s.task w .starting) v =
      taskWork s.threadpool.threads s.task v := by simp [taskWork, threads, other]
  have changed := tasksWork_changed w others
  have none : taskWork s.threadpool.threads s.task w = 0 := by simp [taskWork, running, returned]
  have gone : taskWork pool.threads (Function.update s.task w .starting) w = 0 :=
    taskWork_free (by simp [threads, WorkerPc.held])
  simp only [workload, queue, stopper]
  omega

omit [DecidableEq ι] in
theorem channels_same {conn : ι → Connection} (pc : Fin m → ChannelPc ι)
    (same : ∀ c, (conn c).inputbuffer = (s.conn c).inputbuffer) :
    tally (channelWork conn) pc = tally (channelWork s.conn) pc := by
  refine tally_congr fun i => ?_
  cases pc i <;> simp [channelWork, same]

theorem conn_same {c : ι} {conn : Connection} (same : conn.inputbuffer = (s.conn c).inputbuffer) (d : ι) :
    (Function.update s.conn c conn d).inputbuffer = (s.conn d).inputbuffer := by
  by_cases here : d = c
  · subst here
    simpa using same
  · simp [here]

omit [DecidableEq ι] in
theorem notified_workload (inv : ThreadPool.Inv s.threadpool) {i : Fin m} {w : Option (Fin n)} {c : ι}
    {message : Bytes} {pool : ThreadPool (ι × Bytes) n} (notifying : s.pc i = .notifying c message)
    (moved : s.threadpool.step (.notifyone w) = some pool) :
    workload { s with threadpool := pool, pc := Function.update s.pc i (.picking c message) } <
      workload s := by
  have due : ThreadPool.Due (fun _ => True) s.threadpool (.notifyone w) := trivial
  have less := ThreadPool.step_effort inv due moved
  have calm := ThreadPool.notifyone_calm moved
  have stopper := (ThreadPool.stopper_stays (ThreadPool.step_cases moved)).resolve_right (by simp)
  have changed := tally_update (channelWork s.conn) s.pc i (.picking c message)
  simp only [notifying, channelWork] at changed
  simp only [workload, tasksWork_calm calm, calm.taskqueue, stopper]
  omega

-- The request that was picked pays for its task with its bytes.
theorem picked_workload {i : Fin m} {now : Int} {stale : Nat → UInt8} {c : ι} {message ss task : Bytes}
    {inputbuffer : Buffer} {pool : ThreadPool (ι × Bytes) n} (input : (s.conn c).inputbuffer.sep = 1)
    (moves : ¬ Buffer.Stalls (s.conn c).inputbuffer.buf) (picking : s.pc i = .picking c message)
    (found : (s.conn c).inputbuffer.pickmessage stale message = .ok (true, inputbuffer, ss))
    (moved : s.threadpool.step (.push (c, task)) = some pool) :
    workload { s with
      threadpool := pool
      conn := Function.update s.conn c { s.conn c with inputbuffer := inputbuffer, lasttime := now }
      pc := Function.update s.pc i (.notifying c task)
      delivered := Function.update s.delivered c (s.delivered c ++ [ss]) } < workload s := by
  obtain ⟨-, shorter⟩ := Buffer.pickmessage_moves input moves found
  let conn := Function.update s.conn c { s.conn c with inputbuffer := inputbuffer, lasttime := now }
  have size (d : ι) : (conn d).inputbuffer.buf.length ≤ (s.conn d).inputbuffer.buf.length := by
    by_cases here : d = c
    · subst here
      simpa [conn] using shorter.le
    · simp [conn, here]
  have here : (conn c).inputbuffer = inputbuffer := by simp [conn]
  have lower (j : Fin m) : channelWork conn (s.pc j) ≤ channelWork s.conn (s.pc j) := by
    cases s.pc j with
    | outside => exact le_rfl
    | reading d => exact Nat.add_le_add_right (Nat.mul_le_mul_left _ (size d)) _
    | picking d message => exact Nat.add_le_add_right (Nat.mul_le_mul_left _ (size d)) _
    | notifying d message => exact Nat.add_le_add_right (Nat.mul_le_mul_left _ (size d)) _
  have paid : channelWork conn (s.pc i) + (3 * MaxEvents + 23) ≤ channelWork s.conn (s.pc i) := by
    simp only [picking, channelWork, here, MaxEvents]
    omega
  have less := tally_lowered i lower paid
  have changed := tally_update (channelWork conn) s.pc i (.notifying c task)
  simp only [picking, channelWork] at changed
  cases ThreadPool.step_cases moved with
  | pushed free =>
    simp only [workload, ThreadPool.effort, List.length_append, List.length_singleton]
    change _ + tally (channelWork conn) (Function.update s.pc i (.notifying c task)) + _ < _
    simp only [MaxEvents] at less ⊢
    omega

theorem stop_workload (step : Step loop s .stop t) : workload t < workload s := by
  cases step with
  | stopping stopper moved =>
    have calm := ThreadPool.stopping_calm (.inl rfl) moved
    simp only [workload, tasksWork_calm calm, calm.taskqueue, stopper]
    cases ThreadPool.step_cases moved with
    | stored before running =>
      simp only [ThreadPool.effort, closing]
      omega
    | again before stopped =>
      simp only [ThreadPool.effort, closing]
      omega
  | joined stopper own moved =>
    have calm := ThreadPool.stopping_calm (.inr own) moved
    simp only [workload, tasksWork_calm calm, calm.taskqueue, stopper]
    cases ThreadPool.step_cases moved with
    | notifiedall stored =>
      have woken := ThreadPool.wakeall_effort s.threadpool
      simp only [stored, closing]
      omega
    | @joined k joining h pc =>
      simp only [ThreadPool.effort, joining, closing]
      omega
    | @finished k joining all =>
      simp only [ThreadPool.effort, joining, closing]
      omega
    | _ => simp at own
  | joinedAll stopper returned =>
    simp only [workload, stopper, returned, closing, Nat.sub_zero]
    omega
  | storedAll stopper all =>
    simp only [workload, stopper, closing]
    omega
  | @stored k subloop stopper h moved =>
    have changed := tally_update EventLoop.effort s.subloops ⟨k, h⟩ subloop
    have more : subloop.effort ≤ (s.subloops ⟨k, h⟩).effort + (3 * MaxEvents + 5) := by
      cases EventLoop.step_cases moved with
      | stored =>
        simp only [EventLoop.effort, EventLoop.unread, MaxEvents]
        omega
    simp only [workload, stopper, closing, MaxEvents] at more ⊢
    omega
  | @written k subloop stopper h moved =>
    have changed := tally_update EventLoop.effort s.subloops ⟨k, h⟩ subloop
    have less := EventLoop.step_effort (show EventLoop.Due .stopWakeup from trivial) moved
    simp only [workload, stopper, closing]
    omega

theorem step_workload (inv : Inv loop s) (refines : Refines s p) (moving : Moving s) (quiet : Quiet a)
    (taken : step loop s a = some t) : workload t < workload s := by
  obtain ⟨acts, reached⟩ := inv.threadpool
  have pool := ThreadPool.run_inv reached
  cases step_cases taken with
  | stopping | joined | joinedAll | stored | storedAll | written => exact stop_workload (step_cases taken)
  | polled moved => exact loop_workload rfl rfl rfl rfl le_rfl moved quiet
  | ran outside idle moved => exact loop_workload rfl rfl rfl rfl le_rfl moved trivial
  | wrote outside event written moved =>
    have same := channels_same s.pc (conn_same (Connection.writecallback_buffers written).1)
    exact loop_workload rfl rfl rfl rfl same.le moved trivial
  | appended running sent moved =>
    have same := channels_same s.pc (conn_same (Connection.sendinloop_input sent))
    exact loop_workload rfl rfl rfl rfl same.le moved trivial
  | readable outside event => exact quiet.elim
  | spurious moved => exact quiet.elim
  | read reading short => exact quiet.elim
  | @again i c reading =>
    have changed := tally_update (channelWork s.conn) s.pc i (.picking c [])
    simp only [reading, channelWork] at changed
    simp only [workload, setpc]
    omega
  | @picked i now stale c message ss task inputbuffer pool picking found handled moved =>
    have moves := moving i c (by simp [picking, ChannelPc.conn])
    exact picked_workload (inv.input c) moves picking found moved
  | @finished i now stale c message ss inputbuffer subloop picking found moved =>
    have same : inputbuffer = (s.conn c).inputbuffer := by
      rcases Buffer.pickmessage_cases (inv.input c) found with ⟨-, same, -⟩ | ⟨found, -⟩
      · exact same
      · cases found
    have left := channels_same (Function.update s.pc i .outside)
      (conn_same (show { s.conn c with inputbuffer := inputbuffer }.inputbuffer = _ from same))
    have changed := tally_update (channelWork s.conn) s.pc i .outside
    refine loop_workload rfl rfl rfl rfl (left.le.trans ?_) moved trivial
    simp only [picking, channelWork] at changed
    omega
  | notified notifying moved => exact notified_workload pool notifying moved
  | worked free moved => exact worked_workload pool refines free moved
  | returned running returned moved => exact returned_workload pool running returned moved
  | refused running starting refused =>
    apply task_workload
    simp [taskWork, running, starting, MaxEvents]
  | copied running starting copied =>
    apply task_workload
    simp [taskWork, running, starting, MaxEvents]
  | @pushed w c message dataCopy size subloop running sending moved =>
    apply task_workload
    have changed := tally_update EventLoop.effort s.subloops (loop c) subloop
    have more : subloop.effort = (s.subloops (loop c)).effort + (3 * MaxEvents + 7) := by
      cases EventLoop.step_cases moved with
      | pushed free =>
        simp only [EventLoop.effort, EventLoop.unread, List.length_append, List.length_singleton, MaxEvents]
        omega
    have was : taskWork s.threadpool.threads s.task w = 3 * MaxEvents + 9 := by
      simp [taskWork, running, sending]
    have now : taskWork s.threadpool.threads (Function.update s.task w .waking) w = 1 := by
      simp [taskWork, running]
    omega
  | @woken w c message subloop running waking moved =>
    apply task_workload
    have changed := tally_update EventLoop.effort s.subloops (loop c) subloop
    have due : EventLoop.Due (.queueinloopWakeup : EventLoop.Act (Pipeline.Closure ι)) := trivial
    have less := EventLoop.step_effort due moved
    have was : taskWork s.threadpool.threads s.task w = 1 := by simp [taskWork, running, waking]
    have now : taskWork s.threadpool.threads (Function.update s.task w .returned) w = 0 := by
      simp [taskWork, running]
    omega

omit [DecidableEq ι] in
theorem moving_kept (moving : Moving s)
    (handled : ∀ i c, (t.pc i).conn = some c → ∃ j, (s.pc j).conn = some c)
    (moves : ∀ c, ¬ Buffer.Stalls (s.conn c).inputbuffer.buf → ¬ Buffer.Stalls (t.conn c).inputbuffer.buf) :
    Moving t := by
  intro i c here
  obtain ⟨j, there⟩ := handled i c here
  exact moves c (moving j c there)

theorem moving_step (inv : Inv loop s) (moving : Moving s) (quiet : Quiet a) (step : Step loop s a t) :
    Moving t := by
  have channel {i : Fin m} {channel : ChannelPc ι}
      (same : ∀ c, channel.conn = some c → (s.pc i).conn = some c) (j : Fin m) (c : ι)
      (here : (Function.update s.pc i channel j).conn = some c) : ∃ k, (s.pc k).conn = some c := by
    by_cases equal : j = i
    · subst equal
      exact ⟨j, same c (by simpa using here)⟩
    · exact ⟨j, by simpa [equal] using here⟩
  have updated {d : ι} {conn : Connection}
      (moves : ¬ Buffer.Stalls (s.conn d).inputbuffer.buf → ¬ Buffer.Stalls conn.inputbuffer.buf) (c : ι)
      (before : ¬ Buffer.Stalls (s.conn c).inputbuffer.buf) :
      ¬ Buffer.Stalls (Function.update s.conn d conn c).inputbuffer.buf := by
    by_cases equal : c = d
    · subst equal
      simpa using moves before
    · simpa [equal] using before
  have stays (i : Fin m) (c : ι) (here : (s.pc i).conn = some c) : ∃ j, (s.pc j).conn = some c := ⟨i, here⟩
  cases step with
  | readable outside event => exact quiet.elim
  | read reading short => exact quiet.elim
  | again reading =>
    exact moving_kept moving (channel (by simp [reading, ChannelPc.conn])) fun _ same => same
  | notified notifying moved =>
    exact moving_kept moving (channel (by simp [notifying, ChannelPc.conn])) fun _ same => same
  | picked picking found handled moved =>
    exact moving_kept moving (channel (by simp [picking, ChannelPc.conn]))
      (updated fun moves => (Buffer.pickmessage_moves (inv.input _) moves found).1)
  | finished picking found moved =>
    refine moving_kept moving (channel (by simp [ChannelPc.conn])) (updated fun moves => ?_)
    rcases Buffer.pickmessage_cases (inv.input _) found with ⟨-, same, -⟩ | ⟨missing, -⟩
    · simpa [same] using moves
    · cases missing
  | wrote outside event written moved =>
    exact moving_kept moving stays
      (updated fun moves => by simpa [(Connection.writecallback_buffers written).1] using moves)
  | appended running sent moved =>
    exact moving_kept moving stays
      (updated fun moves => by simpa [Connection.sendinloop_input sent] using moves)
  | _ => exact moving

theorem stalling_step (inv : Inv loop s) (stalling : ¬ Moving s) (quiet : Quiet a) (step : Step loop s a t) :
    ¬ Moving t := by
  simp only [Moving, not_forall, not_not] at stalling
  obtain ⟨i, c, handled, stalls⟩ := stalling
  have stays (handled : (t.pc i).conn = some c) (stalls : Buffer.Stalls (t.conn c).inputbuffer.buf) :
      ¬ Moving t := fun moving => moving i c handled stalls
  have channel {j : Fin m} {channel : ChannelPc ι} (same : (s.pc j).conn = some c → channel.conn = some c) :
      (Function.update s.pc j channel i).conn = some c := by
    by_cases here : i = j
    · subst here
      simpa using same handled
    · simpa [here] using handled
  have updated {d : ι} {conn : Connection}
      (still : Buffer.Stalls (s.conn d).inputbuffer.buf → Buffer.Stalls conn.inputbuffer.buf) :
      Buffer.Stalls (Function.update s.conn d conn c).inputbuffer.buf := by
    by_cases here : c = d
    · subst here
      simpa using still stalls
    · simpa [here] using stalls
  cases step with
  | readable outside event => exact quiet.elim
  | read reading short => exact quiet.elim
  | again reading => exact stays (channel (by simp [reading, ChannelPc.conn])) stalls
  | notified notifying moved => exact stays (channel (by simp [notifying, ChannelPc.conn])) stalls
  | picked picking found handled moved =>
    exact stays (channel (by simp [picking, ChannelPc.conn]))
      (updated fun stalls => (Buffer.pickmessage_stalls (inv.input _) stalls found).2)
  | @finished j now stale d message ss inputbuffer subloop picking found moved =>
    -- The loop that stalls is not the one that comes to an end.
    have others (same : c = d) : False := by
      subst same
      have missing := (Buffer.pickmessage_stalls (inv.input c) stalls found).1
      cases missing
    refine stays (channel fun here => ?_)
      (updated fun stalls => (Buffer.pickmessage_stalls (inv.input _) stalls found).2)
    simp only [picking, ChannelPc.conn, Option.some.injEq] at here
    exact (others here.symm).elim
  | wrote outside event written moved =>
    exact stays handled
      (updated fun stalls => by simpa [(Connection.writecallback_buffers written).1] using stalls)
  | appended running sent moved =>
    exact stays handled (updated fun stalls => by simpa [Connection.sendinloop_input sent] using stalls)
  | _ => exact stays handled stalls

end Threaded

end Reactor
