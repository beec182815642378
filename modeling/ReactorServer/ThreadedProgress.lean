import ReactorServer.ThreadedWorkload

set_option autoImplicit false

namespace Reactor

open ByteString Framing Tally Transition

namespace Threaded

variable {ι : Type} [DecidableEq ι] {n m : Nat} {loop : ι → Fin m} {s t : Threaded ι n m}
  {p : Pipeline.State ι} {a : Act ι n m}

section Stuck

variable (stuck : Stuck (step loop) (fun _ => Serving) s)
include stuck

theorem stuck_pool (inv : Inv loop s) :
    Stuck ThreadPool.step (ThreadPool.Due fun _ => False) s.threadpool := by
  intro b due
  cases b with
  | work w =>
    have none := stuck (.work w) trivial
    cases pc : s.threadpool.threads w with
    | running request => exact (due request pc).elim
    | _ => simpa [step, work, pc, poolStep] using none
  | notifyone w =>
    by_cases silent : s.threadpool.adding = 0
    · cases w <;> simp [ThreadPool.step, silent]
    · -- Some IO thread is in addtask, and would make the call.
      rw [inv.adding, tally_zero, not_forall] at silent
      obtain ⟨i, notifying⟩ := silent
      cases pc : s.pc i with
      | notifying c message =>
        have none := stuck (.notifyone i w) trivial
        simpa [step, notifyone, pc, poolStep, setpc] using none
      | _ => simp [pc, notifies] at notifying
  | _ => exact due.elim

theorem stuck_outside (workers : 0 < n) (inv : Inv loop s) (refines : Refines s p) (i : Fin m) :
    s.pc i = .outside := by
  have rest := stuck_pool stuck inv
  obtain ⟨acts, taken⟩ := inv.threadpool
  cases pc : s.pc i with
  | outside => rfl
  | reading c =>
    have none := stuck (.again i) trivial
    simp [step, again, pc] at none
  | notifying c message =>
    have adding : s.threadpool.adding ≠ 0 := by
      rw [inv.adding, Ne, tally_zero, not_forall]
      exact ⟨i, by simp [pc, notifies]⟩
    have due : 0 < s.threadpool.adding := Nat.pos_of_ne_zero adding
    by_cases asleep : ∃ w, (s.threadpool.threads w).isWaiting = true
    · obtain ⟨w, waiting⟩ := asleep
      have none := rest (.notifyone (some w)) trivial
      simp [ThreadPool.step, due, waiting] at none
    · have none := rest (.notifyone none) trivial
      simp [ThreadPool.step, due] at none
      exact absurd none (by simpa using asleep)
  | picking c message =>
    have free := ThreadPool.stuck_free (ThreadPool.run_inv taken) rest
    have event := refines.inside i (by simp [pc])
    obtain ⟨found, inputbuffer, ss, picked⟩ :=
      Buffer.pickmessage_returns (inv.input c) (fun _ => 0) message
    have none := stuck (.pickmessage i 0 fun _ => 0) trivial
    cases found with
    | false =>
      cases at_event : (s.subloops i).pc with
      | dispatching channels =>
        cases channels with
        | nil => simp [at_event, atEvent] at event
        | cons ready channels =>
          cases ready with
          | wakeup => simp [at_event, atEvent] at event
          | other =>
            simp [step, pickmessage, pc, picked, loopStep, setpc, setconn, EventLoop.step, EventLoop.run,
              at_event] at none
      | _ => simp [at_event, atEvent] at event
    | true =>
      have handled : handleMessage n ss = .task (ascii "WORK thread " ++ ss) := by
        simp [handleMessage, workers.ne']
      simp [step, pickmessage, pc, picked, handled, poolStep, setpc, setconn, ThreadPool.step, free] at none

theorem stuck_waking (inv : Inv loop s) (w : Fin n) {request : ι × Bytes}
    (running : s.threadpool.threads w = .running request) : s.task w ≠ .waking := by
  intro waking
  obtain ⟨c, message⟩ := request
  have none := stuck (.wakeup w) trivial
  have one : wakes loop (loop c) s.threadpool.threads s.task w = 1 := by simp [wakes, running, waking]
  have part : wakes loop (loop c) s.threadpool.threads s.task w ≤
      Finset.univ.sum (wakes loop (loop c) s.threadpool.threads s.task) :=
    Finset.single_le_sum (fun v _ => Nat.zero_le _) (Finset.mem_univ w)
  have some : 0 < (s.subloops (loop c)).queueing := by
    rw [inv.queueing]
    omega
  simp [step, wakeup, running, waking, loopStep, settask, EventLoop.step, some] at none

theorem stuck_queueing (inv : Inv loop s) (i : Fin m) : (s.subloops i).queueing = 0 := by
  rw [inv.queueing]
  refine Finset.sum_eq_zero fun w _ => ?_
  unfold wakes
  split
  next running waking => exact absurd waking (stuck_waking stuck inv w running)
  next => rfl

theorem stuck_calling (opened : Pipeline.Inv (seen n loop) p) (refines : Refines s p) (i : Fin m) :
    (s.subloops i).pc.held = [] := by
  cases running : (s.subloops i).pc with
  | running fn channels =>
    have queue : p.taskqueue i = fn :: (s.subloops i).taskqueue := by
      simp [refines.taskqueue, seenQueue, running, RunPc.held]
    have route : (loop fn.conn).val = i := opened.routed i fn (by simp [queue])
    have registered := opened.opened.registered fn.conn
    simp only [seen, route, refines.ep, refines.conn] at registered
    have sep := opened.opened.sep fn.conn
    rw [refines.conn] at sep
    have none := stuck (.sendinloop i fun _ => 0) trivial
    simp [step, sendinloop, running, Connection.sendinloop_registered registered sep, loopStep, setconn,
      EventLoop.step, EventLoop.run] at none
  | _ => rfl

theorem stuck_subloop (inv : Inv loop s) (outside : ∀ i, s.pc i = .outside)
    (idle : ∀ i, (s.subloops i).pc.held = []) (written : ∀ i, (s.subloops i).stopping = 0) (i : Fin m) :
    (s.subloops i).stop = false ∧ (s.subloops i).pc = .polling ∧ (s.subloops i).taskqueue = [] ∨
      (s.subloops i).stop = true ∧ (s.subloops i).pc = .exited := by
  have stuck : Stuck EventLoop.step (fun _ => EventLoop.Due) (s.subloops i) := by
    intro b due
    cases b with
    | queueinloop fn => exact due.elim
    | stop => exact due.elim
    | queueinloopWakeup => simp [EventLoop.step, stuck_queueing stuck inv i]
    | stopWakeup => simp [EventLoop.step, written i]
    | loop channels =>
      have none := stuck (.loop i channels) due
      simpa [step, loopStep] using none
    | run =>
      have none := stuck (.run i) trivial
      have idle := idle i
      cases pc : (s.subloops i).pc with
      | running fn channels => simp [pc, RunPc.held] at idle
      | _ => simpa [step, run, outside i, pc, loopStep] using none
  obtain ⟨acts, taken⟩ := inv.subloops i
  have settling := EventLoop.run_settling taken
  obtain ⟨waits, served⟩ := EventLoop.stuck_at_rest settling stuck
  rcases waits with ⟨pc, running⟩ | ⟨pc, stopped⟩
  · have fifo := settling.inv.fifo
    rw [served running, pc] at fifo
    exact .inl ⟨running, pc, by simpa [RunPc.held] using fifo⟩
  · exact .inr ⟨stopped, pc⟩

theorem stuck_idle (inv : Inv loop s) (unlocked : ∀ i, (s.subloops i).pc.locked = false) (w : Fin n) :
    (s.threadpool.threads w).held = [] := by
  cases running : s.threadpool.threads w with
  | running request =>
    obtain ⟨c, message⟩ := request
    cases at_task : s.task w with
    | starting =>
      have none := stuck (.send w) trivial
      cases disconnect : (s.conn c).disconnect <;>
        simp [step, send, running, at_task, Connection.send, disconnect] at none
    | sending dataCopy size =>
      have none := stuck (.queueinloop w) trivial
      simp [step, queueinloop, running, at_task, loopStep, settask, EventLoop.step, unlocked] at none
    | waking => exact absurd at_task (stuck_waking stuck inv w running)
    | returned =>
      have none := stuck (.work w) trivial
      simp [step, work, running, at_task, poolStep, settask, ThreadPool.step, ThreadPool.work] at none
  | _ => rfl

structure Rest (s : Threaded ι n m) : Prop where
  outside : ∀ i, s.pc i = .outside
  subloops : ∀ i, (s.subloops i).stop = false ∧ (s.subloops i).pc = .polling ∧ (s.subloops i).taskqueue = [] ∨
    (s.subloops i).stop = true ∧ (s.subloops i).pc = .exited
  threads : ∀ w, s.threadpool.threads w = .waiting ∨ s.threadpool.threads w = .exited

theorem stuck_rest (workers : 0 < n) (inv : Inv loop s) (opened : Pipeline.Inv (seen n loop) p)
    (refines : Refines s p) (written : ∀ i, (s.subloops i).stopping = 0) : Rest s := by
  have outside := stuck_outside stuck workers inv refines
  have subloops := stuck_subloop stuck inv outside (stuck_calling stuck opened refines) written
  have unlocked (i : Fin m) : (s.subloops i).pc.locked = false := by
    rcases subloops i with ⟨-, pc, -⟩ | ⟨-, pc⟩ <;> simp [pc, RunPc.locked]
  obtain ⟨acts, taken⟩ := inv.threadpool
  refine ⟨outside, subloops, fun w => ?_⟩
  have free := stuck_idle stuck inv unlocked w
  rcases ThreadPool.stuck_occupied (ThreadPool.run_inv taken) (stuck_pool stuck inv) w with
    pc | pc | ⟨request, pc, -⟩
  · exact .inl pc
  · exact .inr pc
  · simp [pc, WorkerPc.held] at free

theorem stuck_asleep (workers : 0 < n) (inv : Inv loop s) (rest : Rest s)
    (running : s.threadpool.stop = false) :
    (∀ w, s.threadpool.threads w = .waiting) ∧ s.threadpool.taskqueue = [] := by
  obtain ⟨acts, taken⟩ := inv.threadpool
  have working := ThreadPool.run_working taken running
  have asleep (w : Fin n) : s.threadpool.threads w = .waiting :=
    (rest.threads w).resolve_right (working.alive w)
  exact ⟨asleep, (ThreadPool.stuck_at_rest (stuck_pool stuck inv) working).attended ⟨0, workers⟩ (asleep _)⟩

end Stuck

def requestsOf (c : ι) (taskqueue : List (ι × Bytes)) : List Bytes :=
  taskqueue.filterMap fun e => if e.1 = c then some e.2 else none

def repliesOf (c : ι) (taskqueue : List (Pipeline.Closure ι)) : List (Bytes × Nat) :=
  taskqueue.filterMap fun fn => if fn.conn = c then some (fn.dataCopy, fn.size) else none

theorem rest_shows (inv : Pipeline.Inv (seen n loop) p) (refines : Refines s p) (rest : Rest s) {c : ι}
    {stages : Stages Bytes} {replies : List Bytes}
    (shows : Pipeline.Shows (seen n loop) p c stages replies) :
    repliesOf c (s.subloops (loop c)).taskqueue = stages.queued.map Pipeline.replyClosure ∧
      stages.held = [] ∧ requestsOf c s.threadpool.taskqueue = stages.waiting.map Pipeline.workTask := by
  have free (w : Fin n) : (s.threadpool.threads w).held = [] := by
    rcases rest.threads w with pc | pc <;> simp [pc, WorkerPc.held]
  have held : p.held = [] := by
    apply List.eq_nil_iff_forall_not_mem.mpr
    intro e member
    have entry := List.mem_map_of_mem (f := Prod.fst) member
    have none := refines.held ⟨e.1, inv.started e.1 entry⟩
    rw [seenJob_free (free _)] at none
    exact Pipeline.jobOf_none.mp none entry
  have queue : p.taskqueue (loop c) = (s.subloops (loop c)).taskqueue := by
    rw [refines.taskqueue]
    rcases rest.subloops (loop c) with ⟨-, pc, -⟩ | ⟨-, pc⟩ <;> simp [seenQueue, pc, RunPc.held]
  refine ⟨?_, ?_, ?_⟩
  · have queued := shows.queued
    simp only [Pipeline.queueOf, seen, queue] at queued
    exact queued
  · have carries := shows.held
    simp only [Pipeline.heldOf, held, List.filterMap_nil] at carries
    exact List.forall₂_nil_right_iff.mp carries
  · have waiting := shows.waiting
    simp only [Pipeline.worksOf, refines.works] at waiting
    exact waiting

-- The requests of c that were delivered are those that were answered, those whose reply is in the queue
-- of the loop and those in the queue of the pool; with one work thread the answered ones are the first
-- ones.
def Kept (loop : ι → Fin m) (s : Threaded ι n m) (c : ι) : Prop :=
  ∃ answered queued waiting replies : List Bytes,
    (s.delivered c).Perm (answered ++ queued ++ waiting) ∧
    (n ≤ 1 → s.delivered c = answered ++ queued ++ waiting) ∧
    List.Forall₂ Pipeline.Answers answered replies ∧
    s.appended c = stream Buffer.frame replies ∧
    repliesOf c (s.subloops (loop c)).taskqueue = queued.map Pipeline.replyClosure ∧
    requestsOf c s.threadpool.taskqueue = waiting.map Pipeline.workTask

theorem rest_kept {p₀ : Pipeline.State ι} (initial : Pipeline.Initial (seen n loop) p₀)
    (reached : Reached (Pipeline.step (seen n loop)) p₀ p) (refines : Refines s p) (rest : Rest s) (c : ι) :
    Kept loop s c := by
  obtain ⟨acts, taken⟩ := reached
  by_cases single : n ≤ 1
  · obtain ⟨inv, stages, replies, shows, ordered⟩ := Pipeline.run_ordered initial taken c (.inl single)
    obtain ⟨queued, held, waiting⟩ := rest_shows inv refines rest shows
    have same : s.delivered c = stages.left ++ stages.queued ++ stages.waiting := by
      have all : stages.entered = stages.left ++ stages.queued ++ stages.held ++ stages.waiting := ordered
      rw [held] at all
      rw [← refines.delivered, shows.entered]
      simpa using all
    exact ⟨stages.left, stages.queued, stages.waiting, replies, .of_eq same, fun _ => same, shows.left,
      refines.appended ▸ shows.appended, queued, waiting⟩
  · obtain ⟨inv, stages, replies, shows, conserved⟩ := Pipeline.run_conserved initial taken c
    obtain ⟨queued, held, waiting⟩ := rest_shows inv refines rest shows
    have moved : (s.delivered c).Perm (stages.left ++ stages.queued ++ stages.waiting) := by
      have all : stages.entered.Perm (stages.left ++ stages.queued ++ stages.held ++ stages.waiting) :=
        conserved
      rw [held] at all
      rw [← refines.delivered, shows.entered]
      simpa using all
    exact ⟨stages.left, stages.queued, stages.waiting, replies, moved, fun few => absurd few single,
      shows.left, refines.appended ▸ shows.appended, queued, waiting⟩

theorem delivered_step (step : Step loop s a t) (c : ι) : s.delivered c <+: t.delivered c := by
  cases step with
  | @picked i now stale d message ss task inputbuffer pool picking found handled moved =>
    by_cases here : c = d
    · subst here
      simp
    · simp [here]
  | _ => exact List.prefix_rfl

-- The guard is between Serving and Quiet, and keeps what is asked of the states where the server rests.
theorem moving_iff_settles (workers : 0 < n) {s₀ : Threaded ι n m} (initial : Initial loop s₀)
    (reached : Reached (step loop) s₀ s) {guard : Act ι n m → Prop} {rests : Threaded ι n m → Prop}
    (keeps : Threaded ι n m → Prop) (quiet : ∀ a, guard a → Quiet a) (serving : ∀ a, Serving a → guard a)
    (kept : keeps s)
    (preserved : ∀ u a t, keeps u → guard a → Step loop u a t → keeps t)
    (atRest : ∀ u p, Reached (step loop) s₀ u → Reached (Pipeline.step (seen n loop)) (start s₀) p →
      Refines u p → keeps u → Stuck (step loop) (fun _ => guard) u → rests u) :
    Moving s ↔ Inevitable (step loop) (fun _ => guard) s
      (fun t => (∀ c, s.delivered c <+: t.delivered c) ∧ rests t) (workload s) := by
  have followed {u : Threaded ι n m} (reached : Reached (step loop) s₀ u) :
      ∃ p, Reached (Pipeline.step (seen n loop)) (start s₀) p ∧ Refines u p := by
    obtain ⟨acts, taken⟩ := reached
    exact (simulates n loop).reached (start_refines initial) taken
  constructor
  · intro moving
    apply inevitable workload
    · intro u a t
        (held : Reached (step loop) s₀ u ∧ Moving u ∧ keeps u ∧ ∀ c, s.delivered c <+: u.delivered c)
        allowed taken
      obtain ⟨reached, moving, kept, delivered⟩ := held
      have step := step_cases taken
      exact ⟨reached.next taken, moving_step (reached_inv initial reached) moving (quiet a allowed) step,
        preserved u a t kept allowed step, fun c => (delivered c).trans (delivered_step step c)⟩
    · intro u a t held allowed taken
      obtain ⟨p, -, refines⟩ := followed held.1
      exact step_workload (reached_inv initial held.1) refines held.2.1 (quiet a allowed) taken
    · intro u held stuck
      obtain ⟨reached, -, kept, delivered⟩ := held
      obtain ⟨p, follows, refines⟩ := followed reached
      exact ⟨delivered, atRest u p reached follows refines kept stuck⟩
    · exact ⟨reached, moving, kept, fun _ => List.prefix_rfl⟩
  · intro ends
    by_contra stalling
    -- A loop that stalls can go on for ever.
    have preserved (u : Threaded ι n m) (a : Act ι n m) (t : Threaded ι n m)
        (held : Reached (step loop) s₀ u ∧ ¬ Moving u) (allowed : guard a) (taken : step loop u a = some t) :
        Reached (step loop) s₀ t ∧ ¬ Moving t :=
      ⟨held.1.next taken,
        stalling_step (reached_inv initial held.1) held.2 (quiet a allowed) (step_cases taken)⟩
    have enabled (u : Threaded ι n m) (held : Reached (step loop) s₀ u ∧ ¬ Moving u) :
        ¬ Stuck (step loop) (fun _ => guard) u := by
      intro stuck
      obtain ⟨p, -, refines⟩ := followed held.1
      have outside := stuck_outside (fun a allowed => stuck a (serving a allowed)) workers
        (reached_inv initial held.1) refines
      exact held.2 fun i c here => by simp [outside, ChannelPc.conn] at here
    obtain ⟨as, u, longer, guarded, size⟩ := endless preserved enabled ⟨reached, stalling⟩ (workload s + 1)
    have bounded := (ends as u longer guarded).1
    omega

theorem opened_inv {s₀ : Threaded ι n m} (initial : Initial loop s₀)
    (follows : Reached (Pipeline.step (seen n loop)) (start s₀) p) : Pipeline.Inv (seen n loop) p := by
  obtain ⟨acts, taken⟩ := follows
  exact run_invariant (fun _ _ _ inv taken => Pipeline.inv_step inv (Pipeline.step_cases inv taken))
    (Pipeline.initial_inv (start_initial initial)) taken

omit [DecidableEq ι] in
theorem Serving.quiet (serving : Serving a) : Quiet a := by
  cases a with
  | stop => exact serving.elim
  | _ => exact serving

structure Answered (loop : ι → Fin m) (s : Threaded ι n m) : Prop where
  threadpool : s.threadpool.taskqueue = [] ∧ ∀ w, s.threadpool.threads w = .waiting
  subloops : ∀ i, (s.subloops i).pc = .polling ∧ (s.subloops i).taskqueue = []
  kept : ∀ c, Kept loop s c

theorem idle_answered (workers : 0 < n) {s₀ : Threaded ι n m} (initial : Initial loop s₀)
    (reached : Reached (step loop) s₀ s) (follows : Reached (Pipeline.step (seen n loop)) (start s₀) p)
    (refines : Refines s p) (idle : s.stopper = .idle) (stuck : Stuck (step loop) (fun _ => Serving) s) :
    Answered loop s := by
  have inv := reached_inv initial reached
  have written (i : Fin m) : (s.subloops i).stopping = 0 := by simp [inv.stopping, idle]
  have rest := stuck_rest stuck workers inv (opened_inv initial follows) refines written
  obtain ⟨acts, taken⟩ := inv.threadpool
  have running := (ThreadPool.run_inv taken).idle.mpr (inv.begun.mp idle)
  obtain ⟨asleep, works⟩ := stuck_asleep stuck workers inv rest running
  refine ⟨⟨works, asleep⟩, fun i => ?_, rest_kept (start_initial initial) follows refines rest⟩
  rcases rest.subloops i with ⟨-, waits⟩ | ⟨stop, -⟩
  · exact waits
  · simp [inv.stopped, idle, EchoStop.stored] at stop

theorem requests_answered (workers : 0 < n) {s₀ : Threaded ι n m} (initial : Initial loop s₀)
    {acts : List (Act ι n m)} (taken : Transition.run (step loop) s₀ acts = some s)
    (idle : s.stopper = .idle) : Moving s ↔ Inevitable (step loop) (fun _ => Serving) s
      (fun t => (∀ c, s.delivered c <+: t.delivered c) ∧ Answered loop t) (workload s) := by
  refine moving_iff_settles workers initial ⟨acts, taken⟩ (fun u => u.stopper = .idle)
    (fun _ => Serving.quiet) (fun _ serving => serving) idle (fun u a t idle serving step => ?_)
    fun u p reached follows refines idle stuck =>
      idle_answered workers initial reached follows refines idle stuck
  cases step with
  | stopping | joined | joinedAll | stored | storedAll | written => exact serving.elim
  | _ => exact idle

omit [DecidableEq ι] in
theorem single_moving {s : Threaded ι n 1} {c : ι} {message : Bytes} (here : (s.pc 0).conn = some c)
    (short : message.length ≤ 2 ^ 31 - 5) (left : (s.conn c).inputbuffer.buf = Buffer.frame message) :
    Moving s := by
  intro i d picking
  rw [Subsingleton.elim i 0, here] at picking
  cases picking
  have moves := Buffer.frame_moves short Buffer.nil_moves
  rwa [List.append_nil, ← left] at moves

theorem requests_answered_second :
    workload (final (step fun _ => 0) accepted ((answering 0 1).take 6)) = 2275 ∧
      Inevitable (step fun _ => 0) (fun _ => Serving)
        (final (step fun _ => 0) accepted ((answering 0 1).take 6))
        (fun t => (∀ c, (final (step fun _ => 0) accepted ((answering 0 1).take 6)).delivered c <+:
          t.delivered c) ∧ Answered (fun _ => 0) t)
        (workload (final (step fun _ => 0) accepted ((answering 0 1).take 6))) := by
  have taken := run_final
    (show (Transition.run (step fun _ => 0) accepted ((answering 0 1).take 6)).isSome by decide +kernel)
  have left : ((final (step fun _ => 0) accepted ((answering 0 1).take 6)).conn false).inputbuffer.buf =
      Buffer.frame [98] := by decide +kernel
  have moving : Moving (final (step fun _ => 0) accepted ((answering 0 1).take 6)) :=
    single_moving rfl (by decide) left
  exact ⟨by decide +kernel, (requests_answered (by decide) accepted_initial taken rfl).mp moving⟩

-- Stop has come to the IO threads, with the work threads and the loops gone, or it joins a work thread
-- that missed notify_all and is asleep for good, with the loops running. What is still queued stays
-- there.
structure Stopped (loop : ι → Fin m) (s : Threaded ι n m) : Prop where
  stopper : s.stopper = .pool ∧ (∀ w, s.threadpool.threads w = .exited) ∧ (∀ i, (s.subloops i).pc = .exited) ∨
    s.stopper = .works ∧
      (∃ w : Fin n, s.threadpool.stopper = .joining w ∧ s.threadpool.threads w = .waiting) ∧
      ∀ i, (s.subloops i).pc = .polling ∧ (s.subloops i).taskqueue = []
  kept : ∀ c, Kept loop s c

omit [DecidableEq ι] in
theorem stop_stuck (inv : Inv loop s) (none : s.stop = none) :
    s.stopper = .pool ∨ s.stopper = .works ∧
      ∃ w : Fin n, s.threadpool.stopper = .joining w ∧ s.threadpool.threads w ≠ .exited := by
  unfold stop at none
  split at none
  next stopper =>
    have idle := inv.begun.mp stopper
    by_cases stopped : s.threadpool.stop = true <;>
      simp [poolStep, ThreadPool.step, idle, stopped] at none
  next stopper =>
    split at none
    next idle => simp [inv.begun.mpr idle] at stopper
    next stored => simp [poolStep, ThreadPool.step, stored] at none
    next k joining =>
      by_cases h : k < n
      · refine .inr ⟨stopper, ⟨k, h⟩, joining, fun exited => ?_⟩
        simp [poolStep, ThreadPool.step, joining, h, exited, WorkerPc.isExited] at none
      · simp [poolStep, ThreadPool.step, joining, h] at none
    next => cases none
  next k stopper =>
    split at none
    next h => simp [loopStep, EventLoop.step] at none
    next => cases none
  next k stopper =>
    have h := inv.waking k stopper
    have due := inv.stopping ⟨k, h⟩
    simp only [stopper, if_true] at due
    simp [h, loopStep, EventLoop.step, due] at none
  next stopper => exact .inl stopper

theorem rest_stopped (workers : 0 < n) {s₀ : Threaded ι n m} (initial : Initial loop s₀)
    (reached : Reached (step loop) s₀ s) (follows : Reached (Pipeline.step (seen n loop)) (start s₀) p)
    (refines : Refines s p) (stuck : Stuck (step loop) (fun _ => Quiet) s) : Stopped loop s := by
  have inv := reached_inv initial reached
  have stopper := stop_stuck inv (stuck .stop trivial)
  have written (i : Fin m) : (s.subloops i).stopping = 0 := by
    rcases stopper with stopper | ⟨stopper, -⟩ <;> simp [inv.stopping, stopper]
  have rest := stuck_rest (fun a serving => stuck a serving.quiet) workers inv (opened_inv initial follows)
    refines written
  refine ⟨?_, rest_kept (start_initial initial) follows refines rest⟩
  rcases stopper with stopper | ⟨stopper, w, joining, left⟩
  · left
    obtain ⟨acts, taken⟩ := inv.threadpool
    have returned := inv.returned (by simp [stopper]) (by simp [stopper])
    refine ⟨stopper, fun w => ?_, fun i => ?_⟩
    · exact (ThreadPool.run_inv taken).joined w (by simp [returned, StopPc.joined])
    · rcases rest.subloops i with ⟨running, -⟩ | ⟨-, pc⟩
      · have stop := (inv.stopped i).mpr (by simp [stopper, EchoStop.stored])
        simp [running] at stop
      · exact pc
  · right
    refine ⟨stopper, ⟨w, joining, (rest.threads w).resolve_right left⟩, fun i => ?_⟩
    rcases rest.subloops i with ⟨-, waits⟩ | ⟨stop, -⟩
    · exact waits
    · simp [inv.stopped, stopper, EchoStop.stored] at stop

theorem stop_ends (workers : 0 < n) {s₀ : Threaded ι n m} (initial : Initial loop s₀)
    {acts : List (Act ι n m)} (taken : Transition.run (step loop) s₀ acts = some s) :
    Moving s ↔ Inevitable (step loop) (fun _ => Quiet) s
      (fun t => (∀ c, s.delivered c <+: t.delivered c) ∧ Stopped loop t) (workload s) :=
  moving_iff_settles workers initial ⟨acts, taken⟩ (fun _ => True) (fun _ quiet => quiet)
    (fun _ => Serving.quiet) trivial (fun _ _ _ _ _ _ => trivial)
    fun _ _ reached follows refines _ stuck => rest_stopped workers initial reached follows refines stuck

theorem stop_ends_begun :
    (final (step fun _ => 0) accepted ((answering 0 1).take 6 ++ [.stop])).stopper = .works ∧
      Inevitable (step fun _ => 0) (fun _ => Quiet)
        (final (step fun _ => 0) accepted ((answering 0 1).take 6 ++ [.stop]))
        (fun t => (∀ c, (final (step fun _ => 0) accepted ((answering 0 1).take 6 ++ [.stop])).delivered c <+:
          t.delivered c) ∧ Stopped (fun _ => 0) t)
        (workload (final (step fun _ => 0) accepted ((answering 0 1).take 6 ++ [.stop]))) := by
  have taken := run_final
    (show (Transition.run (step fun _ => 0) accepted ((answering 0 1).take 6 ++ [.stop])).isSome by
      decide +kernel)
  have left : ((final (step fun _ => 0) accepted
      ((answering 0 1).take 6 ++ [.stop])).conn false).inputbuffer.buf = Buffer.frame [98] := by decide +kernel
  have moving : Moving (final (step fun _ => 0) accepted ((answering 0 1).take 6 ++ [.stop])) :=
    single_moving rfl (by decide) left
  exact ⟨by decide +kernel, (stop_ends (by decide) accepted_initial taken).mp moving⟩

end Threaded

end Reactor
