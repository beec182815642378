import Mathlib.Data.List.Forall2
import Mathlib.Data.List.Infix
import ReactorServer.PipelineSteps
import ReactorServer.Shared.Stages

set_option autoImplicit false

namespace Reactor.Pipeline

open ByteString Framing Transition

variable {ι : Type} [DecidableEq ι] {cfg : Config ι}

def workTask (request : Bytes) : Bytes := ascii "WORK thread " ++ request

def replyClosure (request : Bytes) : Bytes × Nat :=
  (strdup (workReply request), (workReply request).length)

def Carries (closure : Bytes → Bytes × Nat) (request : Bytes) (job : Job) : Prop :=
  job = .running (workTask request) ∨ job = .sending (closure request).1 (closure request).2

def Answers (request reply : Bytes) : Prop :=
  ∃ beyond, reply = load beyond (replyClosure request).1 (replyClosure request).2

structure Shows (cfg : Config ι) (s : State ι) (c : ι) (stages : Stages Bytes) (replies : List Bytes) :
    Prop where
  entered : s.delivered c = stages.entered
  waiting : worksOf s c = stages.waiting.map workTask
  held : List.Forall₂ (Carries replyClosure) stages.held (heldOf s c)
  queued : queueOf cfg s c = stages.queued.map replyClosure
  passed : s.queued c = (stages.left ++ stages.queued).map replyClosure
  left : List.Forall₂ Answers stages.left replies
  appended : s.appended c = stream Buffer.frame replies

theorem forall₂_split {α β : Type} {r : α → β → Prop} {xs : List α} {before after : List β} {b : β}
    (related : List.Forall₂ r xs (before ++ b :: after)) :
    ∃ front x back, xs = front ++ x :: back ∧ List.Forall₂ r front before ∧ r x b ∧
      List.Forall₂ r back after := by
  have front := List.forall₂_take_append xs before (b :: after) related
  have rest := List.forall₂_drop_append xs before (b :: after) related
  obtain ⟨x, back, first, others, dropped⟩ := List.forall₂_cons_right_iff.mp rest
  refine ⟨_, x, back, ?_, front, first, others⟩
  rw [← dropped, List.take_append_drop]

theorem forall₂_snoc {α β : Type} {r : α → β → Prop} {xs : List α} {ys : List β} {x : α} {y : β}
    (related : List.Forall₂ r xs ys) (last : r x y) : List.Forall₂ r (xs ++ [x]) (ys ++ [y]) :=
  List.rel_append related (.cons last .nil)

variable {s t : State ι} {a : Act ι} {c : ι} {stages : Stages Bytes} {replies : List Bytes}

-- A step simulates a move of the requests of c; the steps for other connections leave them in place.
def Simulated (cfg : Config ι) (s : State ι) (a : Act ι) (t : State ι) (c : ι)
    (stages : Stages Bytes) : Prop :=
  ∃ next replies, Stages.Move (InTurn c s a) stages next ∧ Shows cfg t c next replies

theorem picked_simulated (shows : Shows cfg s c stages replies) {d : ι} (ss : Bytes) {conn pc} :
    Simulated cfg s a { s with
      conn := conn, pc := pc
      works := s.works ++ [(d, workTask ss)]
      delivered := Function.update s.delivered d (s.delivered d ++ [ss]) } c stages := by
  obtain ⟨entered, waiting, held, queued, passed, left, appended⟩ := shows
  by_cases own : d = c
  · subst own
    refine ⟨⟨stages.entered ++ [ss], stages.waiting ++ [ss], stages.held, stages.queued, stages.left⟩,
      replies, .enter ss _ _ _ _ _, ?_, ?_, held, queued, passed, left, appended⟩
    · simp [entered]
    · simpa [worksOf] using waiting
  · refine ⟨stages, replies, .stay stages, ?_, ?_, held, queued, passed, left, appended⟩
    · simpa [Ne.symm own] using entered
    · simpa [worksOf, own] using waiting

theorem taken_simulated (shows : Shows cfg s c stages replies) {w : Nat} {d : ι} {message : Bytes}
    {rest : List (ι × Bytes)} (works : s.works = (d, message) :: rest) :
    Simulated cfg s a { s with works := rest, held := s.held ++ [(w, d, .running message)] } c
      stages := by
  obtain ⟨entered, waiting, held, queued, passed, left, appended⟩ := shows
  by_cases own : d = c
  · subst own
    have front : message :: worksOf { s with works := rest } d = stages.waiting.map workTask := by
      simpa [worksOf, works] using waiting
    obtain ⟨request, later, split, rfl, tail⟩ := List.map_eq_cons_iff.mp front.symm
    obtain ⟨e, w', h, q, l⟩ := stages
    obtain rfl : w' = request :: later := split
    refine ⟨⟨e, later, h ++ [request], q, l⟩, replies, .take request _ _ _ _ _, entered, tail.symm, ?_,
      queued, passed, left, appended⟩
    simpa [heldOf] using forall₂_snoc held
      (.inl rfl : Carries replyClosure request (.running (workTask request)))
  · refine ⟨stages, replies, .stay stages, entered, ?_, ?_, queued, passed, left, appended⟩
    · simpa [worksOf, works, own] using waiting
    · simpa [heldOf, own] using held

theorem copied_simulated (shows : Shows cfg s c stages replies) {w : Nat} {d : ι} {message : Bytes}
    {before after : List (Nat × ι × Job)}
    (entry : s.held = before ++ (w, d, .running message) :: after) :
    Simulated cfg s a { s with
      held := before ++
        (w, d, .sending (strdup (onMessage message)) (onMessage message).length) :: after } c
      stages := by
  obtain ⟨entered, waiting, held, queued, passed, left, appended⟩ := shows
  refine ⟨stages, replies, .stay stages, entered, waiting, ?_, queued, passed, left, appended⟩
  by_cases own : d = c
  · subst own
    simp only [heldOf, entry, List.filterMap_append, List.filterMap_cons, if_true] at held ⊢
    obtain ⟨front, request, back, split, earlier, running, later⟩ := forall₂_split held
    rw [split]
    refine List.rel_append earlier (.cons ?_ later)
    cases running with
    | inl task =>
      cases task
      right
      rw [workTask, onMessage_work, replyClosure]
    | inr sending => cases sending
  · simpa [heldOf, entry, own] using held

theorem first_in_turn (inv : Inv cfg s) {w : Nat} {job : Job} {before after : List (Nat × ι × Job)}
    (entry : s.held = before ++ (w, c, job) :: after) (turn : InTurn c s (.queueinloop w)) :
    ∀ e ∈ before, e.2.1 ≠ c := by
  have workers := inv.workers
  rw [entry, List.map_append, List.map_cons] at workers
  have others : ∀ e ∈ before, e.1 ≠ w := by
    intro e member same
    have apart := (List.nodup_append.mp workers).2.2 e.1 (List.mem_map_of_mem member) w (by simp)
    exact apart same
  have mine : jobOf s w = some (c, job) := by
    have skipped : before.find? (fun e => e.1 = w) = none := by
      simpa using fun e f g member => others (e, f, g) member
    simp [jobOf, entry, List.find?_append, skipped]
  have turn := turn job mine
  intro e member own
  obtain ⟨first, found⟩ : ∃ first, before.find? (fun e => e.2.1 = c) = some first := by
    apply Option.isSome_iff_exists.mp
    exact List.find?_isSome.mpr ⟨e, member, by simpa using own⟩
  rw [entry, List.find?_append, found] at turn
  have key : first.1 = w := by simpa using turn
  exact others first (List.mem_of_find?_eq_some found) key

theorem pushed_simulated (inv : Inv cfg s) (shows : Shows cfg s c stages replies) {w : Nat} {d : ι}
    {dataCopy : Bytes} {size : Nat} {before after : List (Nat × ι × Job)}
    (entry : s.held = before ++ (w, d, .sending dataCopy size) :: after) :
    Simulated cfg s (.queueinloop w) { s with
      taskqueue := Function.update s.taskqueue (cfg.loop d)
        (s.taskqueue (cfg.loop d) ++ [⟨d, dataCopy, size⟩])
      held := before ++ after
      queued := Function.update s.queued d (s.queued d ++ [(dataCopy, size)]) } c stages := by
  obtain ⟨entered, waiting, held, queued, passed, left, appended⟩ := shows
  by_cases own : d = c
  · subst own
    simp only [heldOf, entry, List.filterMap_append, List.filterMap_cons, if_true] at held
    obtain ⟨front, request, back, split, earlier, sending, later⟩ := forall₂_split held
    obtain ⟨e, w', h, q, l⟩ := stages
    obtain rfl : h = front ++ request :: back := split
    have closure : (dataCopy, size) = replyClosure request := by
      cases sending with
      | inl running => cases running
      | inr same =>
        cases same
        rfl
    refine ⟨⟨e, w', front ++ back, q ++ [request], l⟩, replies, .pass request _ _ _ _ _ _ ?_, entered,
      waiting, ?_, ?_, ?_, left, appended⟩
    · intro turn
      have none : (before.filterMap fun e => if e.2.1 = d then some e.2.2 else none) = [] := by
        apply List.filterMap_eq_nil_iff.mpr
        intro e member
        simp [first_in_turn inv entry turn e member]
      rw [none] at earlier
      exact List.forall₂_nil_right_iff.mp earlier
    · simpa [heldOf] using List.rel_append earlier later
    · simp only [queueOf, Function.update_self, List.filterMap_append, List.map_append] at queued ⊢
      simp [queued, closure]
    · simp [passed, closure]
  · refine ⟨stages, replies, .stay stages, entered, waiting, ?_, ?_, ?_, left, appended⟩
    · simpa [heldOf, entry, own] using held
    · by_cases together : cfg.loop c = cfg.loop d
      · simpa [queueOf, together, own] using queued
      · simpa [queueOf, together] using queued
    · simpa [Ne.symm own] using passed

theorem appended_simulated (inv : Inv cfg s) (shows : Shows cfg s c stages replies) {i : Nat}
    {task : Closure ι} {rest : List (Closure ι)} (beyond : Nat → UInt8) {ep conn}
    (queue : s.taskqueue i = task :: rest) :
    Simulated cfg s a { s with
      ep := ep, conn := conn
      taskqueue := Function.update s.taskqueue i rest
      appended := Function.update s.appended task.conn
        (s.appended task.conn ++ Buffer.frame (load beyond task.dataCopy task.size)) } c stages := by
  obtain rfl : cfg.loop task.conn = i := inv.routed i task (by simp [queue])
  obtain ⟨d, dataCopy, size⟩ := task
  dsimp only at queue ⊢
  obtain ⟨entered, waiting, held, queued, passed, left, appended⟩ := shows
  by_cases own : d = c
  · subst own
    simp only [queueOf, queue, List.filterMap_cons, if_true] at queued
    obtain ⟨request, later, split, closure, tail⟩ := List.map_eq_cons_iff.mp queued.symm
    obtain ⟨e, w, h, q, l⟩ := stages
    obtain rfl : q = request :: later := split
    refine ⟨⟨e, w, h, later, l ++ [request]⟩, replies ++ [load beyond dataCopy size],
      .leave request _ _ _ _ _, entered, waiting, held, ?_, ?_, ?_, ?_⟩
    · simpa [queueOf] using tail.symm
    · simpa using passed
    · refine forall₂_snoc left ⟨beyond, ?_⟩
      rw [closure]
    · simp [appended]
  · refine ⟨stages, replies, .stay stages, entered, waiting, held, ?_, passed, left, ?_⟩
    · by_cases together : cfg.loop c = cfg.loop d
      · simp only [queueOf, together, queue, List.filterMap_cons, own, if_false] at queued
        simpa [queueOf, together] using queued
      · simpa [queueOf, together] using queued
    · simpa [Ne.symm own] using appended

theorem step_simulated (inv : Inv cfg s) (shows : Shows cfg s c stages replies)
    (step : Step cfg s a t) : Simulated cfg s a t c stages := by
  cases step with
  | moved => exact ⟨stages, replies, .stay stages, { shows with }⟩
  | received => exact ⟨stages, replies, .stay stages, { shows with }⟩
  | picked ss => exact picked_simulated shows ss
  | taken works bound idle => exact taken_simulated shows works
  | copied entry => exact copied_simulated shows entry
  | pushed entry unlocked => exact pushed_simulated inv shows entry
  | appended beyond queue kept => exact appended_simulated inv shows beyond queue
  | wrote kept => exact ⟨stages, replies, .stay stages, { shows with }⟩

structure Accounted (cfg : Config ι) (c : ι) (keeps : Stages Bytes → Prop) (s : State ι) : Prop where
  inv : Inv cfg s
  shown : ∃ stages replies, Shows cfg s c stages replies ∧ keeps stages

variable {keeps : Stages Bytes → Prop}

theorem initial_accounted (initial : Initial cfg s) (c : ι) (empty : keeps .empty) :
    Accounted cfg c keeps s := by
  refine ⟨initial_inv initial, .empty, [], ⟨initial.delivered c, ?_, ?_, ?_, initial.queued c, .nil,
    initial.appended c⟩, empty⟩
  · simp [worksOf, initial.works, Stages.empty]
  · simp [heldOf, initial.held, Stages.empty]
  · simp [queueOf, initial.taskqueue, Stages.empty]

theorem step_accounted (accounted : Accounted cfg c keeps s) (taken : step cfg s a = some t)
    (moved : ∀ stages next, keeps stages → Stages.Move (InTurn c s a) stages next → keeps next) :
    Accounted cfg c keeps t := by
  obtain ⟨inv, stages, replies, shows, kept⟩ := accounted
  have step := step_cases inv taken
  obtain ⟨next, replies', move, shows'⟩ := step_simulated inv shows step
  exact ⟨inv_step inv step, next, replies', shows', moved stages next kept move⟩

theorem run_conserved {s₀ : State ι} {acts : List (Act ι)} (initial : Initial cfg s₀)
    (taken : run (step cfg) s₀ acts = some s) (c : ι) : Accounted cfg c Stages.Conserved s :=
  run_invariant (fun _ _ _ accounted first => step_accounted accounted first
      fun _ _ => Stages.conserved_move)
    (initial_accounted initial c (List.Perm.refl [])) taken

def twoClients (workthreadnum : Nat) : Config Bool := ⟨workthreadnum, fun _ => 0⟩

def accepted : State Bool where
  ep _ fd := if fd = 5 ∨ fd = 6 then some EPOLLIN else none
  conn c := .established (if c then 6 else 5) 0
  pc _ := .polling
  taskqueue _ := []
  works := []
  held := []
  delivered _ := []
  queued _ := []
  appended _ := []

theorem accepted_initial (workthreadnum : Nat) : Initial (twoClients workthreadnum) accepted where
  established c := ⟨_, _, rfl⟩
  listed c := by cases c <;> rfl
  distinct c d _ same := by cases c <;> cases d <;> simp_all [accepted, Connection.established, Connection.fd]
  polling _ := rfl
  taskqueue _ := rfl
  works := rfl
  held := rfl
  delivered _ := rfl
  queued _ := rfl
  appended _ := rfl

def pipelined : List (Act Bool) :=
  [.readable false, .read 0 (Buffer.frame [97] ++ Buffer.frame [98]), .again 0,
    .pickmessage 0 1 fun _ => 0, .pickmessage 0 1 fun _ => 0, .pickmessage 0 1 fun _ => 0]

def halfway : List (Act Bool) :=
  pipelined ++
    [.take 0, .send 0, .queueinloop 0, .take 0, .handlewakeup 0, .sendinloop 0 fun _ => 0, .drained 0]

theorem inTurn_single (inv : Inv cfg s) (single : cfg.workthreadnum ≤ 1) (c : ι) (a : Act ι) :
    InTurn c s a := by
  cases a with
  | queueinloop w =>
    intro job found
    obtain ⟨before, after, entry, earlier, later⟩ := held_split inv.workers found
    have started := inv.started
    simp only [entry, List.map_append, List.map_cons] at started
    have only : before = [] := by
      apply List.eq_nil_iff_forall_not_mem.mpr
      intro e member
      have mine := started w (by simp)
      have other := started e.1 (List.mem_append_left _ (List.mem_map_of_mem member))
      exact earlier e member (by omega)
    simp [entry, only]
  | _ => trivial

theorem run_ordered {s₀ : State ι} {acts : List (Act ι)} (initial : Initial cfg s₀)
    (taken : run (step cfg) s₀ acts = some s) (c : ι)
    (turn : cfg.workthreadnum ≤ 1 ∨ Guarded (step cfg) (InTurn c) s₀ acts) :
    Accounted cfg c Stages.Ordered s := by
  have start : Accounted cfg c Stages.Ordered s₀ := initial_accounted initial c rfl
  cases turn with
  | inl single =>
    exact run_invariant (fun _ a _ accounted first => step_accounted accounted first
      fun _ _ => Stages.ordered_move (inTurn_single accounted.inv single c a)) start taken
  | inr guarded =>
    exact guarded_invariant (fun _ _ _ accounted turn first => step_accounted accounted first
      fun _ _ => Stages.ordered_move turn) start guarded taken

-- The closure when the copy is the whole reply.
def wholeReply (request : Bytes) : Bytes × Nat :=
  (ascii "reply:WORK thread " ++ request ++ [0], (ascii "reply:WORK thread " ++ request).length)

theorem replyClosure_whole {request : Bytes} (free : 0 ∉ request) :
    replyClosure request = wholeReply request := by
  have whole : 0 ∉ workReply request := by
    rw [workReply, List.mem_append, not_or]
    exact ⟨text_zero_free, free⟩
  rw [replyClosure, strdup_zero_free whole, workReply, wholeReply]

theorem answers_whole {requests replies : List Bytes} (free : ∀ m ∈ requests, 0 ∉ m)
    (answers : List.Forall₂ Answers requests replies) : replies = requests.map workReply := by
  have exact (m r : Bytes) (each : 0 ∉ m ∧ Answers m r) : workReply m = r := by
    obtain ⟨zero, beyond, rfl⟩ := each
    rw [replyClosure_whole zero, wholeReply, workReply, load_inside beyond (by simp), List.take_left]
  have same := ((List.forall₂_and_left _ _).mpr ⟨free, answers⟩).imp exact
  rw [← List.forall₂_map_left_iff, List.forall₂_eq_eq_eq] at same
  exact same.symm

theorem carries_whole {requests : List Bytes} {jobs : List Job} (free : ∀ m ∈ requests, 0 ∉ m)
    (carries : List.Forall₂ (Carries replyClosure) requests jobs) :
    List.Forall₂ (Carries wholeReply) requests jobs := by
  refine ((List.forall₂_and_left _ _).mpr ⟨free, carries⟩).imp fun m job each => ?_
  have carried := each.2
  rwa [Carries, replyClosure_whole each.1] at carried

theorem requests_conserved {s₀ : State ι} {acts : List (Act ι)} (initial : Initial cfg s₀)
    (taken : run (step cfg) s₀ acts = some s) (c : ι) (free : ∀ m ∈ s.delivered c, 0 ∉ m) :
    ∃ waiting held queued answered : List Bytes,
      (s.delivered c).Perm (answered ++ queued ++ held ++ waiting) ∧
      worksOf s c = waiting.map (ascii "WORK thread " ++ ·) ∧
      List.Forall₂ (Carries wholeReply) held (heldOf s c) ∧
      queueOf cfg s c = queued.map wholeReply ∧
      s.appended c = stream Buffer.frame (answered.map (ascii "reply:WORK thread " ++ ·)) := by
  obtain ⟨stages, replies, shows, conserved⟩ := (run_conserved initial taken c).shown
  have all : (s.delivered c).Perm (stages.left ++ stages.queued ++ stages.held ++ stages.waiting) := by
    rw [shows.entered]
    exact conserved
  have part {requests : List Bytes}
      (within : requests ⊆ stages.left ++ stages.queued ++ stages.held ++ stages.waiting) :
      ∀ m ∈ requests, 0 ∉ m := fun m member => free m (all.mem_iff.mpr (within member))
  refine ⟨stages.waiting, stages.held, stages.queued, stages.left, all, shows.waiting,
    carries_whole (part fun m => by simp +contextual) shows.held, ?_, ?_⟩
  · rw [shows.queued]
    apply List.map_congr_left
    intro m member
    exact replyClosure_whole (part (fun m => by simp +contextual) m member)
  · rw [shows.appended, answers_whole (part fun m => by simp +contextual) shows.left]
    rfl

theorem requests_conserved_halfway :
    ∃ s, run (step (twoClients 2)) accepted halfway = some s ∧
      ∃ waiting held queued answered : List Bytes,
        (s.delivered false).Perm (answered ++ queued ++ held ++ waiting) ∧
        worksOf s false = waiting.map (ascii "WORK thread " ++ ·) ∧
        List.Forall₂ (Carries wholeReply) held (heldOf s false) ∧
        queueOf (twoClients 2) s false = queued.map wholeReply ∧
        s.appended false = stream Buffer.frame (answered.map (ascii "reply:WORK thread " ++ ·)) :=
  ⟨_, run_final (by decide +kernel),
    requests_conserved (accepted_initial 2) (run_final (by decide +kernel)) false (by decide +kernel)⟩

theorem replies_in_order {s₀ : State ι} {acts : List (Act ι)} (initial : Initial cfg s₀)
    (taken : run (step cfg) s₀ acts = some s) (c : ι) :
    ∃ answered replies : List Bytes,
      answered.map replyClosure <+: s.queued c ∧
      List.Forall₂ Answers answered replies ∧
      s.appended c = stream Buffer.frame replies ∧
      (cfg.workthreadnum ≤ 1 ∨ Guarded (step cfg) (InTurn c) s₀ acts →
        answered <+: s.delivered c) := by
  have first {stages : Stages Bytes} {replies : List Bytes} (shows : Shows cfg s c stages replies) :
      stages.left.map replyClosure <+: s.queued c := by
    rw [shows.passed, List.map_append]
    exact List.prefix_append _ _
  by_cases turn : cfg.workthreadnum ≤ 1 ∨ Guarded (step cfg) (InTurn c) s₀ acts
  · obtain ⟨stages, replies, shows, ordered⟩ := (run_ordered initial taken c turn).shown
    refine ⟨stages.left, replies, first shows, shows.left, shows.appended, fun _ => ?_⟩
    rw [shows.entered]
    exact Stages.ordered_left ordered
  · obtain ⟨stages, replies, shows, -⟩ := (run_conserved initial taken c).shown
    exact ⟨stages.left, replies, first shows, shows.left, shows.appended, fun kept => absurd kept turn⟩

theorem replies_in_order_single :
    ∃ s, run (step (twoClients 1)) accepted halfway = some s ∧
      ∃ answered replies : List Bytes,
        answered.map replyClosure <+: s.queued false ∧ List.Forall₂ Answers answered replies ∧
        s.appended false = stream Buffer.frame replies ∧ answered <+: s.delivered false := by
  have taken : run (step (twoClients 1)) accepted halfway = some _ := run_final (by decide +kernel)
  obtain ⟨answered, replies, first, read, appended, order⟩ :=
    replies_in_order (accepted_initial 1) taken false
  exact ⟨_, taken, answered, replies, first, read, appended, order (.inl le_rfl)⟩

-- The second worker overtakes the first between its test of disconnect_ and its push.
theorem replies_overtaken :
    ∃ s, run (step (twoClients 2)) accepted (pipelined ++
        [.take 0, .take 1, .send 0, .send 1, .queueinloop 1, .queueinloop 0, .handlewakeup 0,
          .sendinloop 0 fun _ => 0, .sendinloop 0 fun _ => 0]) = some s ∧
      s.delivered false = [[97], [98]] ∧
      s.appended false = stream Buffer.frame [workReply [98], workReply [97]] ∧
      ∀ requests, requests <+: s.delivered false →
        s.appended false ≠ stream Buffer.frame (requests.map workReply) := by
  refine ⟨_, run_final (by decide +kernel), by decide +kernel, by decide +kernel, fun requests front => ?_⟩
  rw [← List.mem_inits] at front
  revert requests
  decide

end Reactor.Pipeline
