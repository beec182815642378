import ReactorServer.Replies
import ReactorServer.ThreadedSteps

set_option autoImplicit false

namespace Reactor

open ByteString Transition
open Pipeline (Job jobOf)

namespace Pipeline

variable {ι : Type} {p : State ι} {w v : Nat} {c : ι} {job : Job}

theorem jobOf_none : jobOf p w = none ↔ w ∉ p.held.map Prod.fst := by
  constructor
  · intro none member
    obtain ⟨e, held, rfl⟩ := List.mem_map.mp member
    simp only [jobOf, Option.map_eq_none_iff, List.find?_eq_none] at none
    exact none e held (by simp)
  · intro absent
    simp only [jobOf, Option.map_eq_none_iff, List.find?_eq_none]
    intro e held same
    exact absent (List.mem_map.mpr ⟨e, held, by simpa using same⟩)

theorem jobOf_taken {works : List (ι × Bytes)} (idle : jobOf p w = none) :
    jobOf { p with works := works, held := p.held ++ [(w, c, job)] } v =
      if v = w then some (c, job) else jobOf p v := by
  simp only [jobOf, List.find?_append]
  by_cases same : v = w
  · subst same
    have none : (p.held.find? fun e => e.1 = v) = none := by simpa [jobOf] using idle
    simp [none]
  · simp [same, Ne.symm same]

theorem jobOf_replaced {found : ι × Job} (mine : jobOf p w = some found) :
    jobOf { p with held := p.held.map fun e => if e.1 = w then (w, c, job) else e } v =
      if v = w then some (c, job) else jobOf p v := by
  have entry (e : Nat × ι × Job) : (if e.1 = w then (w, c, job) else e).1 = e.1 := by
    split <;> simp_all
  simp only [jobOf, List.find?_map, Function.comp_def, entry, Option.map_map]
  by_cases same : v = w
  · subst same
    obtain ⟨e, there, -⟩ := Option.map_eq_some_iff.mp mine
    have key : e.1 = v := by simpa using List.find?_some there
    simp [there, key]
  · rw [if_neg same]
    apply Option.map_congr
    intro e there
    have key : e.1 = v := by simpa using List.find?_some there
    simp [key, same]

theorem jobOf_filtered {queues : Nat → List (Pipeline.Closure ι)} {queued : ι → List (Bytes × Nat)} :
    jobOf { p with taskqueue := queues, held := p.held.filter fun e => e.1 ≠ w, queued := queued } v =
      if v = w then none else jobOf p v := by
  simp only [jobOf, List.find?_filter]
  by_cases same : v = w
  · subst same
    simp
  · have key (e : Nat × ι × Job) : (!decide (e.1 = w) && decide (e.1 = v)) = decide (e.1 = v) := by
      by_cases here : e.1 = v <;> simp [here, same]
    simp [key, same]

end Pipeline

namespace ThreadPool

variable {α : Type} {n : Nat}

structure Calm (s t : ThreadPool α n) : Prop where
  taskqueue : t.taskqueue = s.taskqueue
  threads : ∀ v, t.threads v = s.threads v ∨ (s.threads v).held = [] ∧ (t.threads v).held = []

variable {s t : ThreadPool α n} {w : Fin n}

theorem calm_update {pc : WorkerPc α} (queue : t.taskqueue = s.taskqueue)
    (threads : t.threads = Function.update s.threads w pc) (before : (s.threads w).held = [])
    (after : pc.held = []) : Calm s t := by
  refine ⟨queue, fun v => ?_⟩
  by_cases here : v = w
  · subst here
    exact .inr ⟨before, by simpa [threads] using after⟩
  · exact .inl (by simp [threads, here])

theorem work_calm (free : (s.threads w).held = []) (taken : s.step (.work w) = some t) :
    Calm s t ∨ ∃ task rest, s.taskqueue = task :: rest ∧ t.taskqueue = rest ∧
      t.threads = Function.update s.threads w (.running task) := by
  cases step_cases taken with
  | worked works =>
    cases works with
    | dequeued pc front => exact .inr ⟨_, _, front, rfl, rfl⟩
    | executed pc => simp [pc, WorkerPc.held] at free
    | underflowed pc empty => exact .inl ⟨rfl, fun v => .inl rfl⟩
    | _ => exact .inl (calm_update rfl rfl free rfl)

theorem spurious_calm (taken : s.step (.spurious w) = some t) : Calm s t := by
  cases step_cases taken with
  | woken pc => exact calm_update rfl rfl (by simp [pc, WorkerPc.held]) rfl

theorem stopping_calm {b : Act α n} (own : b = .stop ∨ b = .notifyall ∨ b = .join)
    (taken : s.step b = some t) : Calm s t := by
  cases step_cases taken with
  | notifiedall stopper =>
    refine ⟨rfl, fun w => ?_⟩
    by_cases pc : s.threads w = .waiting
    · exact .inr ⟨by simp [pc, WorkerPc.held], by simp [wakeall_waiting pc, WorkerPc.held]⟩
    · exact .inl (wakeall_other pc)
  | stored => exact ⟨rfl, fun w => .inl rfl⟩
  | again => exact ⟨rfl, fun w => .inl rfl⟩
  | joined => exact ⟨rfl, fun w => .inl rfl⟩
  | finished => exact ⟨rfl, fun w => .inl rfl⟩
  | _ => simp at own

theorem notifyone_calm {w : Option (Fin n)} (taken : s.step (.notifyone w) = some t) : Calm s t := by
  cases step_cases taken with
  | notified due pc => exact calm_update rfl rfl (by simp [pc, WorkerPc.held]) rfl
  | wasted due nobody => exact ⟨rfl, fun v => .inl rfl⟩

end ThreadPool

namespace Threaded

variable {ι : Type} {n m : Nat}

def seen (n : Nat) (loop : ι → Fin m) : Pipeline.Config ι := ⟨n, fun c => (loop c).val⟩

-- Between two calls of handlewakeup and handleevent the loop counts as polling.
def seenPc : RunPc (Pipeline.Closure ι) → ChannelPc ι → Pipeline.LoopPc ι
  | .draining _, _ => .draining
  | .running _ _, _ => .draining
  | _, .outside => .polling
  | _, .reading c => .reading c
  | _, .picking c message => .picking c message
  | _, .notifying c message => .picking c message

-- The closure that is being called has not left the queue yet.
def seenQueue (subloop : EventLoop (Pipeline.Closure ι)) : List (Pipeline.Closure ι) :=
  subloop.pc.held ++ subloop.taskqueue

def seenJob : WorkerPc (ι × Bytes) → TaskPc → Option (ι × Job)
  | .running (c, message), .starting => some (c, .running message)
  | .running (c, _), .sending dataCopy size => some (c, .sending dataCopy size)
  | _, _ => none

structure Refines (s : Threaded ι n m) (p : Pipeline.State ι) : Prop where
  ep : ∀ i : Fin m, p.ep i = s.ep i
  conn : p.conn = s.conn
  pc : ∀ i : Fin m, p.pc i = seenPc (s.subloops i).pc (s.pc i)
  taskqueue : ∀ i : Fin m, p.taskqueue i = seenQueue (s.subloops i)
  works : p.works = s.threadpool.taskqueue
  held : ∀ w : Fin n, jobOf p w = seenJob (s.threadpool.threads w) (s.task w)
  delivered : p.delivered = s.delivered
  appended : p.appended = s.appended
  -- An IO thread is in a channel only at its event, and a worker in OnMessage only in a task.
  inside : ∀ i, s.pc i ≠ .outside → atEvent (s.subloops i).pc = true
  fresh : ∀ w, (s.threadpool.threads w).held = [] → s.task w = .starting

theorem update_seen {β : Type} {f : Nat → β} {g g' : Fin m → β} {i : Fin m} {b : β}
    (same : ∀ j : Fin m, f j = g j) (here : b = g' i) (others : ∀ j, j ≠ i → g' j = g j) (j : Fin m) :
    Function.update f i b j = g' j := by
  by_cases equal : j = i
  · subst equal
    simpa using here
  · have apart : j.val ≠ i.val := fun values => equal (Fin.ext values)
    rw [Function.update_of_ne apart, same, others j equal]

theorem seenPc_event {pc : RunPc (Pipeline.Closure ι)} (event : atEvent pc = true) (channel : ChannelPc ι) :
    seenPc pc channel = seenPc .testing channel := by
  cases pc with
  | dispatching channels => cases channel <;> rfl
  | _ => cases event

theorem run_event {subloop subloop' : EventLoop (Pipeline.Closure ι)} (event : atEvent subloop.pc = true)
    (moved : subloop.step .run = some subloop') :
    ∃ channels, subloop' = { subloop with pc := .dispatching channels } := by
  cases EventLoop.step_cases moved with
  | runs runs =>
    cases runs with
    | passed pc => exact ⟨_, rfl⟩
    | _ => simp_all [atEvent]

theorem seenJob_free {pc : WorkerPc (ι × Bytes)} (free : pc.held = []) (task : TaskPc) :
    seenJob pc task = none := by
  cases pc with
  | running task => cases free
  | _ => rfl

variable {loop : ι → Fin m} {s t : Threaded ι n m} {p : Pipeline.State ι}

theorem calm_refines (refines : Refines s p) {pool : ThreadPool (ι × Bytes) n}
    (calm : ThreadPool.Calm s.threadpool pool) : Refines { s with threadpool := pool } p where
  ep := refines.ep
  conn := refines.conn
  pc := refines.pc
  taskqueue := refines.taskqueue
  works := refines.works.trans calm.taskqueue.symm
  held w := by
    rcases calm.threads w with same | ⟨before, after⟩
    · simpa [same] using refines.held w
    · have none := refines.held w
      rw [seenJob_free before] at none
      simpa [seenJob_free after] using none
  delivered := refines.delivered
  appended := refines.appended
  inside := refines.inside
  fresh w free := by
    rcases calm.threads w with same | ⟨before, -⟩
    · exact refines.fresh w (by simpa [same] using free)
    · exact refines.fresh w before

theorem task_refines (refines : Refines s p) {w : Fin n} {task : TaskPc} {held : List (Nat × ι × Job)}
    (inside : (s.threadpool.threads w).held ≠ [])
    (jobs : ∀ v : Nat, jobOf { p with held := held } v =
      if v = w then seenJob (s.threadpool.threads w) task else jobOf p v) :
    Refines (s.settask w task) { p with held := held } := by
  refine { refines with held := fun v => ?_, fresh := fun v free => ?_ }
  · by_cases here : v = w
    · subst here
      simp [jobs, settask]
    · have apart : v.val ≠ w.val := fun values => here (Fin.ext values)
      simpa [jobs, apart, settask, here] using refines.held v
  · by_cases here : v = w
    · subst here
      exact absurd free inside
    · simpa [settask, here] using refines.fresh v free

theorem Refines.job (refines : Refines s p) {w : Fin n} {c : ι} {message : Bytes} {task : TaskPc}
    (running : s.threadpool.threads w = .running (c, message)) (here : s.task w = task) :
    (s.threadpool.threads w).held ≠ [] ∧ jobOf p w = seenJob (.running (c, message)) task :=
  ⟨by simp [running, WorkerPc.held], by rw [refines.held, running, here]⟩

theorem moved_refines (refines : Refines s p) (i : Fin m) (subloop : EventLoop (Pipeline.Closure ι))
    (channel : ChannelPc ι) {pc : Pipeline.LoopPc ι} {queue : List (Pipeline.Closure ι)}
    (here : pc = seenPc subloop.pc channel) (waiting : queue = seenQueue subloop)
    (inside : channel ≠ .outside → atEvent subloop.pc = true) :
    Refines
      { s with subloops := Function.update s.subloops i subloop, pc := Function.update s.pc i channel }
      { p with pc := Function.update p.pc i pc, taskqueue := Function.update p.taskqueue i queue } := by
  refine { refines with pc := ?_, taskqueue := ?_, inside := fun j busy => ?_ }
  · exact update_seen refines.pc (by simpa using here) fun j other => by simp [other]
  · exact update_seen refines.taskqueue (by simpa using waiting) fun j other => by simp [other]
  · by_cases same : j = i
    · subst same
      simpa using inside (by simpa using busy)
    · simpa [same] using refines.inside j (by simpa [same] using busy)

theorem loop_refines (refines : Refines s p) {i : Fin m} {subloop : EventLoop (Pipeline.Closure ι)}
    (pc : seenPc subloop.pc (s.pc i) = seenPc (s.subloops i).pc (s.pc i))
    (queue : seenQueue subloop = seenQueue (s.subloops i))
    (inside : s.pc i ≠ .outside → atEvent subloop.pc = true) :
    Refines { s with subloops := Function.update s.subloops i subloop } p := by
  simpa using moved_refines refines i subloop (s.pc i) ((refines.pc i).trans pc.symm)
    ((refines.taskqueue i).trans queue.symm) inside

theorem Refines.outside (refines : Refines s p) {i : Fin m} (event : atEvent (s.subloops i).pc = false) :
    s.pc i = .outside := by
  by_contra busy
  simp [refines.inside i busy] at event

theorem channel_refines (refines : Refines s p) {i : Fin m} (event : atEvent (s.subloops i).pc = true)
    (channel : ChannelPc ι) {pc : Pipeline.LoopPc ι} (here : pc = seenPc .testing channel) :
    Refines (s.setpc i channel) (Pipeline.setpc p i pc) := by
  have moved := moved_refines refines i (s.subloops i) channel (here.trans (seenPc_event event channel).symm)
    (refines.taskqueue i) fun _ => event
  simpa [setpc, Pipeline.setpc] using moved

theorem Refines.at (refines : Refines s p) {i : Fin m} {channel : ChannelPc ι} (here : s.pc i = channel)
    (busy : channel ≠ .outside) : atEvent (s.subloops i).pc = true ∧ p.pc i = seenPc .testing channel := by
  have event := refines.inside i (by rwa [here])
  exact ⟨event, by rw [refines.pc, here, seenPc_event event]⟩

theorem passed_refines (refines : Refines s p) {i : Fin m} {subloop : EventLoop (Pipeline.Closure ι)}
    (event : atEvent (s.subloops i).pc = true) (moved : (s.subloops i).step .run = some subloop) :
    Refines
      { s with subloops := Function.update s.subloops i subloop, pc := Function.update s.pc i .outside }
      (Pipeline.setpc p i .polling) := by
  obtain ⟨channels, rfl⟩ := run_event event moved
  have queue : p.taskqueue i = seenQueue { s.subloops i with pc := .dispatching channels } := by
    rw [refines.taskqueue]
    cases pc : (s.subloops i).pc with
    | dispatching channels => simp [seenQueue, pc, RunPc.held]
    | _ => simp [pc, atEvent] at event
  have polls : .polling = seenPc (.dispatching channels) (.outside : ChannelPc ι) := rfl
  have next := moved_refines refines i _ .outside polls queue fun busy => absurd rfl busy
  simpa [Pipeline.setpc] using next

variable [DecidableEq ι]

def Followed (loop : ι → Fin m) (p : Pipeline.State ι) (t : Threaded ι n m) : Prop :=
  ∃ q, Reached (Pipeline.step (seen n loop)) p q ∧ Refines t q

theorem Refines.followed (refines : Refines t p) : Followed loop p t := ⟨p, .start p, refines⟩

theorem polled_followed (refines : Refines s p) {i : Fin m} {channels : List Ready}
    {subloop : EventLoop (Pipeline.Closure ι)} (moved : (s.subloops i).step (.loop channels) = some subloop) :
    Followed loop p { s with subloops := Function.update s.subloops i subloop } := by
  cases EventLoop.step_cases moved with
  | waited pc ready =>
    have outside := refines.outside (i := i) (by simp [pc, atEvent])
    refine (loop_refines refines ?_ ?_ fun busy => absurd outside busy).followed
    · simp [pc, outside, seenPc]
    · simp [seenQueue, pc, RunPc.held]

theorem ran_followed (refines : Refines s p) {i : Fin m} {subloop : EventLoop (Pipeline.Closure ι)}
    (outside : s.pc i = .outside) (idle : (s.subloops i).pc.held = [])
    (moved : (s.subloops i).step .run = some subloop) :
    Followed loop p { s with subloops := Function.update s.subloops i subloop } := by
  have stays {subloop : EventLoop (Pipeline.Closure ι)}
      (pc : seenPc subloop.pc .outside = seenPc (s.subloops i).pc .outside)
      (queue : seenQueue subloop = seenQueue (s.subloops i)) :
      Followed loop p { s with subloops := Function.update s.subloops i subloop } :=
    (loop_refines refines (by rwa [outside]) queue fun busy => absurd outside busy).followed
  have polling (at_poll : seenPc (s.subloops i).pc .outside = .polling) : p.pc i = .polling := by
    rw [refines.pc, outside, at_poll]
  cases EventLoop.step_cases moved with
  | runs runs =>
    cases runs with
    | entered pc running => exact stays (by simp [pc, seenPc]) (by simp [seenQueue, pc, RunPc.held])
    | left pc stopped => exact stays (by simp [pc, seenPc]) (by simp [seenQueue, pc, RunPc.held])
    | finished pc => exact stays (by simp [pc, seenPc]) (by simp [seenQueue, pc, RunPc.held])
    | passed pc => exact stays (by simp [pc, seenPc]) (by simp [seenQueue, pc, RunPc.held])
    | read pc => exact stays (by simp [pc, seenPc]) (by simp [seenQueue, pc, RunPc.held])
    | popped pc front => exact stays (by simp [pc, seenPc]) (by simp [seenQueue, pc, RunPc.held, front])
    | ran pc => simp [pc, RunPc.held] at idle
    | @locked channels pc =>
      have called : Pipeline.step (seen n loop) p (.handlewakeup i) =
          some (Pipeline.setpc p i .draining) := by
        simp [Pipeline.step, Pipeline.handlewakeup, polling (by simp [pc, seenPc])]
      have queue : p.taskqueue i = seenQueue { s.subloops i with pc := .draining channels } := by
        simp [refines.taskqueue, seenQueue, pc, RunPc.held]
      refine ⟨_, Reached.next (.start p) called, ?_⟩
      simpa [Pipeline.setpc, seenPc] using
        moved_refines refines i _ (s.pc i) rfl queue fun busy => absurd outside busy
    | @drained channels pc empty =>
      have queue : p.taskqueue i = [] := by simp [refines.taskqueue, seenQueue, pc, RunPc.held, empty]
      have draining : p.pc i = .draining := by simp [refines.pc, pc, seenPc]
      have called : Pipeline.step (seen n loop) p (.drained i) = some (Pipeline.setpc p i .polling) := by
        simp [Pipeline.step, Pipeline.drained, draining, queue]
      refine ⟨_, Reached.next (.start p) called, ?_⟩
      have polls : .polling = seenPc (.dispatching channels) (s.pc i) := by simp [outside, seenPc]
      have waiting : [] = seenQueue { s.subloops i with pc := .dispatching channels } := by
        simp [seenQueue, RunPc.held, empty]
      simpa [Pipeline.setpc] using
        moved_refines refines i _ (s.pc i) polls (queue.trans waiting) fun busy => absurd outside busy

theorem conn_refines (refines : Refines s p) (c : ι) (conn : Connection) :
    Refines (s.setconn c conn) (Pipeline.setconn p c conn) :=
  { refines with conn := by simp [Pipeline.setconn, setconn, refines.conn] }

theorem readable_followed (refines : Refines s p) {c : ι} (outside : s.pc (loop c) = .outside)
    (event : atEvent (s.subloops (loop c)).pc = true) :
    Followed loop p (s.setpc (loop c) (.reading c)) := by
  have polling : p.pc (loop c) = .polling := by
    rw [refines.pc, outside, seenPc_event event]
    rfl
  have called : Pipeline.step (seen n loop) p (.readable c) =
      some (Pipeline.setpc p (loop c) (.reading c)) := by
    simp [Pipeline.step, Pipeline.readable, seen, polling]
  exact ⟨_, Reached.next (.start p) called, channel_refines refines event _ (by simp [seenPc])⟩

theorem read_followed (refines : Refines s p) {i : Fin m} {data : Bytes} {c : ι}
    (reading : s.pc i = .reading c) (short : data ≠ [] ∧ data.length ≤ 1024) :
    Followed loop p (s.setconn c { s.conn c with inputbuffer := (s.conn c).inputbuffer.append data }) := by
  have pc := (refines.at reading (by simp)).2
  have called : Pipeline.step (seen n loop) p (.read i data) = some (Pipeline.setconn p c
      { s.conn c with inputbuffer := (s.conn c).inputbuffer.append data }) := by
    simp [Pipeline.step, Pipeline.read, pc, seenPc, short, refines.conn]
  exact ⟨_, Reached.next (.start p) called, conn_refines refines c _⟩

theorem again_followed (refines : Refines s p) {i : Fin m} {c : ι} (reading : s.pc i = .reading c) :
    Followed loop p (s.setpc i (.picking c [])) := by
  obtain ⟨event, pc⟩ := refines.at reading (by simp)
  have called : Pipeline.step (seen n loop) p (.again i) =
      some (Pipeline.setpc p i (.picking c [])) := by
    simp [Pipeline.step, Pipeline.again, pc, seenPc]
  exact ⟨_, Reached.next (.start p) called, channel_refines refines event _ (by simp [seenPc])⟩

theorem picked_followed (refines : Refines s p) {i : Fin m} {now : Int} {stale : Nat → UInt8} {c : ι}
    {message ss task : Bytes} {inputbuffer : Buffer} {pool : ThreadPool (ι × Bytes) n}
    (picking : s.pc i = .picking c message)
    (found : (s.conn c).inputbuffer.pickmessage stale message = .ok (true, inputbuffer, ss))
    (handled : handleMessage n ss = .task task) (moved : s.threadpool.step (.push (c, task)) = some pool) :
    Followed loop p { s with
      threadpool := pool
      conn := Function.update s.conn c { s.conn c with inputbuffer := inputbuffer, lasttime := now }
      pc := Function.update s.pc i (.notifying c task)
      delivered := Function.update s.delivered c (s.delivered c ++ [ss]) } := by
  obtain ⟨event, pc⟩ := refines.at picking (by simp)
  let conn := { s.conn c with inputbuffer := inputbuffer, lasttime := now }
  have called : Pipeline.step (seen n loop) p (.pickmessage i now stale) = some
      { Pipeline.setpc (Pipeline.setconn p c conn) i (.picking c task) with
        works := p.works ++ [(c, task)]
        delivered := Function.update p.delivered c (p.delivered c ++ [ss]) } := by
    simp [Pipeline.step, Pipeline.pickmessage, pc, seenPc, refines.conn, found, seen, handled, conn]
  refine ⟨_, Reached.next (.start p) called, ?_⟩
  have inside := channel_refines (conn_refines refines c conn) event (.notifying c task) rfl
  cases ThreadPool.step_cases moved with
  | pushed free =>
    exact { inside with
      works := by simp [refines.works]
      delivered := by simp [refines.delivered] }

theorem finished_followed (refines : Refines s p) {i : Fin m} {stale : Nat → UInt8} {c : ι}
    {message ss : Bytes} {inputbuffer : Buffer} {subloop : EventLoop (Pipeline.Closure ι)}
    (picking : s.pc i = .picking c message)
    (found : (s.conn c).inputbuffer.pickmessage stale message = .ok (false, inputbuffer, ss))
    (moved : (s.subloops i).step .run = some subloop) :
    Followed loop p { s with
      subloops := Function.update s.subloops i subloop
      conn := Function.update s.conn c { s.conn c with inputbuffer := inputbuffer }
      pc := Function.update s.pc i .outside } := by
  obtain ⟨event, pc⟩ := refines.at picking (by simp)
  let conn := { s.conn c with inputbuffer := inputbuffer }
  have called : Pipeline.step (seen n loop) p (.pickmessage i 0 stale) =
      some (Pipeline.setpc (Pipeline.setconn p c conn) i .polling) := by
    simp [Pipeline.step, Pipeline.pickmessage, pc, seenPc, refines.conn, found, conn]
  exact ⟨_, Reached.next (.start p) called, passed_refines (conn_refines refines c conn) event moved⟩

theorem wrote_followed (refines : Refines s p) {c : ι} {accepted : Int} {ep : Interest} {conn : Connection}
    {complete : Bool} {subloop : EventLoop (Pipeline.Closure ι)} (outside : s.pc (loop c) = .outside)
    (event : atEvent (s.subloops (loop c)).pc = true)
    (written : (s.conn c).writecallback accepted (s.ep (loop c)) = .ok (ep, conn, complete))
    (moved : (s.subloops (loop c)).step .run = some subloop) :
    Followed loop p { s with
      subloops := Function.update s.subloops (loop c) subloop
      ep := Function.update s.ep (loop c) ep
      conn := Function.update s.conn c conn } := by
  have polling : p.pc (loop c) = .polling := by
    rw [refines.pc, outside, seenPc_event event]
    rfl
  have called : Pipeline.step (seen n loop) p (.writable c accepted) = some
      { Pipeline.setconn p c conn with ep := Function.update p.ep (loop c) ep } := by
    simp [Pipeline.step, Pipeline.writable, seen, polling, refines.conn, refines.ep, written]
  refine ⟨_, Reached.next (.start p) called, ?_⟩
  have passed := passed_refines (conn_refines refines c conn) event moved
  have still : Function.update s.pc (loop c) .outside = s.pc := by rw [← outside, Function.update_eq_self]
  have polls : Function.update p.pc (loop c) .polling = p.pc := by rw [← polling, Function.update_eq_self]
  simp only [setconn, Pipeline.setconn, Pipeline.setpc, still, polls] at passed
  exact { passed with ep := update_seen refines.ep (by simp) fun j other => by simp [other] }

theorem appended_followed (refines : Refines s p) {i : Fin m} {beyond : Nat → UInt8} {fn : Pipeline.Closure ι}
    {channels : List Ready} {ep : Interest} {conn : Connection} {subloop : EventLoop (Pipeline.Closure ι)}
    (running : (s.subloops i).pc = .running fn channels)
    (sent : (s.conn fn.conn).sendinloop beyond (s.ep i) fn.dataCopy fn.size = .ok (ep, conn))
    (moved : (s.subloops i).step .run = some subloop) :
    Followed loop p { s with
      subloops := Function.update s.subloops i subloop
      ep := Function.update s.ep i ep
      conn := Function.update s.conn fn.conn conn
      appended := Function.update s.appended fn.conn (s.appended fn.conn ++
        conn.outputbuffer.buf.drop (s.conn fn.conn).outputbuffer.buf.length) } := by
  have outside := refines.outside (i := i) (by simp [running, atEvent])
  have draining : p.pc i = .draining := by simp [refines.pc, running, seenPc]
  have queue : p.taskqueue i = fn :: (s.subloops i).taskqueue := by
    simp [refines.taskqueue, seenQueue, running, RunPc.held]
  have called : Pipeline.step (seen n loop) p (.sendinloop i beyond) = some
      { Pipeline.setconn p fn.conn conn with
        ep := Function.update p.ep i ep
        taskqueue := Function.update p.taskqueue i (s.subloops i).taskqueue
        appended := Function.update p.appended fn.conn (p.appended fn.conn ++
          conn.outputbuffer.buf.drop (s.conn fn.conn).outputbuffer.buf.length) } := by
    simp [Pipeline.step, Pipeline.sendinloop, draining, queue, refines.conn, refines.ep, sent]
  refine ⟨_, Reached.next (.start p) called, ?_⟩
  cases EventLoop.step_cases moved with
  | runs runs =>
    cases runs with
    | @ran channels fn' pc =>
      obtain ⟨rfl, rfl⟩ : fn = fn' ∧ _ = channels := by simpa [running] using pc
      have drains : p.pc i = seenPc (.draining channels) (s.pc i) := draining
      have next := moved_refines (conn_refines refines fn.conn conn) i
        { s.subloops i with pc := .draining channels, ran := (s.subloops i).ran ++ [fn] } (s.pc i) drains rfl
        fun busy => absurd outside busy
      simp only [setconn, Pipeline.setconn, Function.update_eq_self] at next
      exact { next with
        ep := update_seen refines.ep (by simp) fun j other => by simp [other]
        appended := by simp [refines.appended] }
    | _ => simp_all

theorem worked_followed (refines : Refines s p) {w : Fin n} {pool : ThreadPool (ι × Bytes) n}
    (free : (s.threadpool.threads w).held = []) (moved : s.threadpool.step (.work w) = some pool) :
    Followed loop p { s with threadpool := pool } := by
  rcases ThreadPool.work_calm free moved with calm | ⟨⟨c, message⟩, rest, front, queue, threads⟩
  · exact (calm_refines refines calm).followed
  · have idle : jobOf p w = none := by rw [refines.held, seenJob_free free]
    have works : p.works = (c, message) :: rest := refines.works.trans front
    have called : Pipeline.step (seen n loop) p (.take w) = some
        { p with works := rest, held := p.held ++ [(w.val, c, .running message)] } := by
      simp only [Pipeline.step, Pipeline.take, works]
      exact if_pos ⟨w.isLt, Pipeline.jobOf_none.mp idle⟩
    refine ⟨_, Reached.next (.start p) called, { refines with works := queue.symm, held := ?_, fresh := ?_ }⟩
    · intro v
      rw [Pipeline.jobOf_taken idle]
      by_cases here : v = w
      · subst here
        simp [threads, refines.fresh v free, seenJob]
      · have apart : v.val ≠ w.val := fun values => here (Fin.ext values)
        simpa [threads, here, apart] using refines.held v
    · intro v free'
      by_cases here : v = w
      · subst here
        exact refines.fresh v free
      · exact refines.fresh v (by simpa [threads, here] using free')

theorem returned_followed (refines : Refines s p) {w : Fin n} {task : ι × Bytes}
    {pool : ThreadPool (ι × Bytes) n} (running : s.threadpool.threads w = .running task)
    (returned : s.task w = .returned) (moved : s.threadpool.step (.work w) = some pool) :
    Followed loop p { s with threadpool := pool, task := Function.update s.task w .starting } := by
  cases ThreadPool.step_cases moved with
  | worked works =>
    cases works with
    | executed pc =>
      refine Refines.followed { refines with held := fun v => ?_, fresh := fun v free => ?_ }
      · by_cases here : v = w
        · subst here
          simpa [running, returned, seenJob] using refines.held v
        · simpa [here] using refines.held v
      · by_cases here : v = w
        · subst here
          simp
        · simpa [here] using refines.fresh v (by simpa [here] using free)
    | _ => simp_all

theorem refused_followed (refines : Refines s p) {w : Fin n} {c : ι} {message : Bytes}
    (running : s.threadpool.threads w = .running (c, message)) (starting : s.task w = .starting)
    (refused : (s.conn c).send false (onMessage message) = .refused) :
    Followed loop p (s.settask w .returned) := by
  obtain ⟨inside, job⟩ := refines.job running starting
  have called : Pipeline.step (seen n loop) p (.send w) = some
      { p with held := p.held.filter fun e => e.1 ≠ w.val } := by
    simp [Pipeline.step, Pipeline.send, job, seenJob, refines.conn, refused]
  refine ⟨_, Reached.next (.start p) called, task_refines refines inside fun v => ?_⟩
  rw [running]
  exact Pipeline.jobOf_filtered

theorem copied_followed (refines : Refines s p) {w : Fin n} {c : ι} {message dataCopy : Bytes} {size : Nat}
    (running : s.threadpool.threads w = .running (c, message)) (starting : s.task w = .starting)
    (copied : (s.conn c).send false (onMessage message) = .queued dataCopy size) :
    Followed loop p (s.settask w (.sending dataCopy size)) := by
  obtain ⟨inside, job⟩ := refines.job running starting
  have called : Pipeline.step (seen n loop) p (.send w) = some
      { p with
        held := p.held.map fun e => if e.1 = w.val then (w.val, c, .sending dataCopy size) else e } := by
    simp [Pipeline.step, Pipeline.send, job, seenJob, refines.conn, copied]
  refine ⟨_, Reached.next (.start p) called, task_refines refines inside fun v => ?_⟩
  rw [running]
  exact Pipeline.jobOf_replaced job

theorem pushed_followed (refines : Refines s p) {w : Fin n} {c : ι} {message dataCopy : Bytes} {size : Nat}
    {subloop : EventLoop (Pipeline.Closure ι)} (running : s.threadpool.threads w = .running (c, message))
    (sending : s.task w = .sending dataCopy size)
    (moved : (s.subloops (loop c)).step (.queueinloop ⟨c, dataCopy, size⟩) = some subloop) :
    Followed loop p { s with
      subloops := Function.update s.subloops (loop c) subloop
      task := Function.update s.task w .waking } := by
  obtain ⟨inside, job⟩ := refines.job running sending
  obtain ⟨free, pc, queue⟩ : (s.subloops (loop c)).pc.locked = false ∧
      subloop.pc = (s.subloops (loop c)).pc ∧
      subloop.taskqueue = (s.subloops (loop c)).taskqueue ++ [⟨c, dataCopy, size⟩] := by
    cases EventLoop.step_cases moved with
    | pushed free => exact ⟨free, rfl, rfl⟩
  have unlocked : p.pc (loop c) ≠ .draining := by
    rw [refines.pc]
    cases pc : (s.subloops (loop c)).pc with
    | draining channels => simp [pc, RunPc.locked] at free
    | running fn channels => simp [pc, RunPc.locked] at free
    | _ => cases s.pc (loop c) <;> simp [seenPc]
  have called : Pipeline.step (seen n loop) p (.queueinloop w) = some { p with
      taskqueue := Function.update p.taskqueue (loop c) (p.taskqueue (loop c) ++ [⟨c, dataCopy, size⟩])
      held := p.held.filter fun e => e.1 ≠ w.val
      queued := Function.update p.queued c (p.queued c ++ [(dataCopy, size)]) } := by
    simp [Pipeline.step, Pipeline.queueinloop, job, seenJob, seen, unlocked]
  have filtered (v : Nat) : jobOf { p with held := p.held.filter fun e => e.1 ≠ w.val } v =
      if v = w then seenJob (s.threadpool.threads w) .waking else jobOf p v := by
    rw [running]
    exact Pipeline.jobOf_filtered
  have waiting : p.taskqueue (loop c) ++ [⟨c, dataCopy, size⟩] = seenQueue subloop := by
    simp [refines.taskqueue, seenQueue, pc, queue]
  have next := moved_refines (task_refines refines inside filtered) (loop c) subloop (s.pc (loop c))
    (pc ▸ refines.pc (loop c)) waiting (pc ▸ refines.inside (loop c))
  simp only [settask, Function.update_eq_self] at next
  exact ⟨_, Reached.next (.start p) called, { next with }⟩

theorem woken_followed (refines : Refines s p) {w : Fin n} {c : ι} {message : Bytes}
    {subloop : EventLoop (Pipeline.Closure ι)} (running : s.threadpool.threads w = .running (c, message))
    (waking : s.task w = .waking) (moved : (s.subloops (loop c)).step .queueinloopWakeup = some subloop) :
    Followed loop p { s with
      subloops := Function.update s.subloops (loop c) subloop
      task := Function.update s.task w .returned } := by
  obtain ⟨inside, job⟩ := refines.job running waking
  obtain ⟨pc, queue⟩ : subloop.pc = (s.subloops (loop c)).pc ∧
      subloop.taskqueue = (s.subloops (loop c)).taskqueue := by
    cases EventLoop.step_cases moved with
    | queued due => exact ⟨rfl, rfl⟩
  have unchanged (v : Nat) : jobOf { p with held := p.held } v =
      if v = w then seenJob (s.threadpool.threads w) .returned else jobOf p v := by
    split
    next here =>
      rw [here, running]
      exact job
    next => rfl
  have stays := task_refines refines inside unchanged
  refine Refines.followed (loop_refines (i := loop c) stays ?_ ?_ (pc ▸ refines.inside (loop c)))
  · rw [pc]
    rfl
  · simp [seenQueue, settask, pc, queue]

theorem notified_followed (refines : Refines s p) {i : Fin m} {w : Option (Fin n)} {c : ι} {message : Bytes}
    {pool : ThreadPool (ι × Bytes) n} (notifying : s.pc i = .notifying c message)
    (moved : s.threadpool.step (.notifyone w) = some pool) :
    Followed loop p { s with
      threadpool := pool, pc := Function.update s.pc i (.picking c message) } := by
  obtain ⟨event, pc⟩ := refines.at notifying (by simp)
  have calm := calm_refines refines (ThreadPool.notifyone_calm moved)
  have next := channel_refines calm event (.picking c message) pc
  simp only [Pipeline.setpc, Function.update_eq_self] at next
  exact Refines.followed next

-- The pipeline knows nothing of Stop: a thread that has left is one that has nothing to do.
theorem stop_followed (refines : Refines s p) (step : Step loop s .stop t) : Followed loop p t := by
  have loops {i : Fin m} {b : EventLoop.Act (Pipeline.Closure ι)} {subloop : EventLoop (Pipeline.Closure ι)}
      (own : b = .stop ∨ b = .stopWakeup) (moved : (s.subloops i).step b = some subloop) :
      Refines { s with subloops := Function.update s.subloops i subloop } p := by
    obtain ⟨pc, queue⟩ : subloop.pc = (s.subloops i).pc ∧ subloop.taskqueue = (s.subloops i).taskqueue := by
      cases EventLoop.step_cases moved with
      | stored => exact ⟨rfl, rfl⟩
      | stopped due => exact ⟨rfl, rfl⟩
      | _ => simp at own
    exact loop_refines refines (by rw [pc]) (by simp [seenQueue, pc, queue]) (pc ▸ refines.inside i)
  cases step with
  | stopping stopper moved =>
    have calm := calm_refines refines (ThreadPool.stopping_calm (.inl rfl) moved)
    exact Refines.followed { calm with }
  | joined stopper own moved =>
    exact (calm_refines refines (ThreadPool.stopping_calm (.inr own) moved)).followed
  | joinedAll stopper returned => exact Refines.followed { refines with }
  | stored stopper h moved =>
    have stays := loops (.inl rfl) moved
    exact Refines.followed { stays with }
  | storedAll stopper all => exact Refines.followed { refines with }
  | written stopper h moved =>
    have stays := loops (.inr rfl) moved
    exact Refines.followed { stays with }

theorem simulates (n : Nat) (loop : ι → Fin m) :
    Simulates (step loop) (Pipeline.step (seen n loop))
      (Refines : Threaded ι n m → Pipeline.State ι → Prop) := by
  intro s a t p refines taken
  cases step_cases taken with
  | stopping | joined | joinedAll | stored | storedAll | written =>
    exact stop_followed refines (step_cases taken)
  | polled moved => exact polled_followed refines moved
  | ran outside idle moved => exact ran_followed refines outside idle moved
  | readable outside event => exact readable_followed refines outside event
  | read reading short => exact read_followed refines reading short
  | again reading => exact again_followed refines reading
  | picked picking found handled moved => exact picked_followed refines picking found handled moved
  | finished picking found moved => exact finished_followed refines picking found moved
  | notified notifying moved => exact notified_followed refines notifying moved
  | wrote outside event written moved => exact wrote_followed refines outside event written moved
  | appended running sent moved => exact appended_followed refines running sent moved
  | worked free moved => exact worked_followed refines free moved
  | returned running returned moved => exact returned_followed refines running returned moved
  | spurious moved => exact (calm_refines refines (ThreadPool.spurious_calm moved)).followed
  | refused running starting refused => exact refused_followed refines running starting refused
  | copied running starting copied => exact copied_followed refines running starting copied
  | pushed running sending moved => exact pushed_followed refines running sending moved
  | woken running waking moved => exact woken_followed refines running waking moved

def start (s : Threaded ι n m) : Pipeline.State ι where
  ep i := if h : i < m then s.ep ⟨i, h⟩ else fun _ => none
  conn := s.conn
  pc _ := .polling
  taskqueue _ := []
  works := []
  held := []
  delivered _ := []
  queued _ := []
  appended _ := []

omit [DecidableEq ι] in
theorem start_initial (initial : Initial loop s) : Pipeline.Initial (seen n loop) (start s) where
  established := initial.established
  listed c := by simpa [start, seen] using initial.listed c
  distinct c d together := initial.distinct c d (Fin.ext together)
  polling _ := rfl
  taskqueue _ := rfl
  works := rfl
  held := rfl
  delivered _ := rfl
  queued _ := rfl
  appended _ := rfl

omit [DecidableEq ι] in
theorem start_refines (initial : Initial loop s) : Refines s (start s) where
  ep i := by simp [start]
  conn := rfl
  pc i := by simp [start, initial.subloops, initial.pc, EventLoop.initial, seenPc]
  taskqueue i := by simp [start, initial.subloops, seenQueue, EventLoop.initial, RunPc.held]
  works := by simp [start, initial.threadpool, ThreadPool.initial]
  held w := by simp [start, initial.threadpool, ThreadPool.initial, seenJob, jobOf]
  delivered := by
    funext c
    simp [start, initial.delivered]
  appended := by
    funext c
    simp [start, initial.appended]
  inside i busy := absurd (initial.pc i) busy
  fresh w _ := initial.task w

theorem refines_pipeline {s₀ : Threaded ι n m} {acts : List (Act ι n m)} (initial : Initial loop s₀)
    (taken : Transition.run (step loop) s₀ acts = some s) :
    ∃ p₀ p, Pipeline.Initial (seen n loop) p₀ ∧ Refines s₀ p₀ ∧
      Reached (Pipeline.step (seen n loop)) p₀ p ∧ Refines s p := by
  obtain ⟨p, reached, refines⟩ := (simulates n loop).reached (start_refines initial) taken
  exact ⟨start s₀, p, start_initial initial, start_refines initial, reached, refines⟩

def accepted : Threaded Bool 2 1 where
  threadpool := .initial
  subloops _ := .initial
  ep _ := Pipeline.accepted.ep 0
  conn := Pipeline.accepted.conn
  pc _ := .outside
  task _ := .starting
  delivered _ := []
  appended _ := []
  stopper := .idle

theorem accepted_initial : Initial (fun _ => 0) accepted where
  threadpool := rfl
  subloops _ := rfl
  established := (Pipeline.accepted_initial 2).established
  listed := (Pipeline.accepted_initial 2).listed
  distinct c d _ := (Pipeline.accepted_initial 2).distinct c d rfl
  pc _ := rfl
  task _ := rfl
  delivered _ := rfl
  appended _ := rfl
  stopper := rfl

-- Two requests arrive together, and the second is still in the queue when the first is answered.
def answering (i : Fin 1) (w : Fin 2) : List (Act Bool 2 1) :=
  [.run i, .loop i [.other], .readable false, .read i (Buffer.frame [97] ++ Buffer.frame [98]), .again i,
    .pickmessage i 1 fun _ => 0, .notifyone i none, .pickmessage i 1 fun _ => 0, .work w, .work w,
    .notifyone i none, .pickmessage i 1 fun _ => 0, .work w, .work w, .work w, .run i, .run i, .send w,
    .queueinloop w, .wakeup w, .work w, .loop i [.wakeup], .run i, .run i, .run i,
    .sendinloop i fun _ => 0, .run i]

theorem refines_pipeline_answering :
    ∃ s, Transition.run (step fun _ => 0) accepted (answering 0 1) = some s ∧
      ∃ p₀ p, Pipeline.Initial (seen 2 fun _ => (0 : Fin 1)) p₀ ∧ Refines accepted p₀ ∧
        Reached (Pipeline.step (seen 2 fun _ => (0 : Fin 1))) p₀ p ∧ Refines s p := by
  have taken := run_final
    (show (Transition.run (step fun _ => 0) accepted (answering 0 1)).isSome by decide +kernel)
  exact ⟨_, taken, refines_pipeline accepted_initial taken⟩

end Threaded

end Reactor
