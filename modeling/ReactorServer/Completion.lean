import ReactorServer.Exchange
import ReactorServer.OutputRun

set_option autoImplicit false

namespace Reactor.ClientServer

open ByteString Framing Transition
open OutputRun (watched)
open Pipeline (setconn setpc)

variable {ι : Type} [DecidableEq ι] {cfg : Pipeline.Config ι} {script : ι → List Bytes}

-- Besides that, the kernel takes at least one byte when it is asked for a socket that it has reported
-- as writable.
def Effective (s : State ι) (a : Act ι) : Prop :=
  Whole s a ∧
    match a with
    | .serve (.writable _ accepted) => 0 < accepted
    | _ => True

-- `routed` and `known`: a loop only ever deals with a connection or a wakeup of its own.
-- `settled`: what is left in an input buffer waits for bytes that are still to be read.
-- `notified`: nothing is in a task queue unless its loop will be woken up.
structure Ready (cfg : Pipeline.Config ι) (s : State ι) : Prop where
  watched : ∀ c, (s.server.conn c).channel.events = watched (s.server.conn c).outputbuffer.buf
  routed : ∀ i c, s.server.pc i = .reading c ∨ (∃ message, s.server.pc i = .picking c message) →
    cfg.loop c = i
  known : ∀ i, s.server.pc i ≠ .polling ∨ 0 < s.wakeupfd i ∨ i ∈ s.waking.map Prod.snd →
    ∃ c, cfg.loop c = i
  settled : ∀ c, s.server.pc (cfg.loop c) ≠ .reading c →
    (∀ message, s.server.pc (cfg.loop c) ≠ .picking c message) → s.upstream c = [] →
    (s.server.conn c).inputbuffer.buf = []
  notified : ∀ i, s.server.pc i ≠ .draining → s.server.taskqueue i ≠ [] →
    0 < s.wakeupfd i ∨ i ∈ s.waking.map Prod.snd

variable {s t : State ι} {a : Act ι}

theorem writecallback_watched {conn conn' : Connection} {ep ep' : Interest} {accepted : Int}
    {complete : Bool} (events : conn.channel.events = watched conn.outputbuffer.buf)
    (done : conn.writecallback accepted ep = .ok (ep', conn', complete)) :
    conn'.channel.events = watched conn'.outputbuffer.buf := by
  simp only [Connection.writecallback, Connection.erasesent_eq, ok_bind] at done
  split at done
  · rename_i empty
    obtain ⟨⟨ep₁, channel⟩, disabled, done⟩ := bind_ok done
    obtain ⟨-, rfl⟩ := Channel.setevents_ok disabled
    cases done
    have none := List.eq_nil_of_length_eq_zero empty
    dsimp only at none ⊢
    rw [events, OutputRun.watched_disable, none]
    rfl
  · rename_i some
    cases done
    have left : conn.outputbuffer.buf.drop (toSigned 32 accepted).toNat ≠ [] := by
      intro none
      simp [none] at some
    have offered : conn.outputbuffer.buf ≠ [] := by
      intro none
      simp [none] at left
    simp [events, OutputRun.watched, left, offered]

theorem watched_step (inv : Inv cfg script s) (ready : Ready cfg s) (step : Step cfg s a t) (c : ι) :
    (t.server.conn c).channel.events = watched (t.server.conn c).outputbuffer.buf := by
  have before := ready.watched c
  cases step with
  | @read i d data rest reading some there =>
    by_cases own : c = d
    · subst own
      simpa [setconn] using before
    · simpa [setconn, own] using before
  | @unpicked i now stale d message last left picking found =>
    by_cases own : c = d
    · subst own
      simpa [setconn, setpc] using before
    · simpa [setconn, setpc, own] using before
  | @picked i now stale d message ss left picking found =>
    by_cases own : c = d
    · subst own
      simpa [setconn, setpc] using before
    · simpa [setconn, setpc, own] using before
  | @wrote d accepted ep conn complete polling reported least most done =>
    by_cases own : c = d
    · subst own
      simpa using writecallback_watched before done
    · simpa [own] using before
  | @appended i beyond task rest ep conn draining queue done =>
    by_cases own : c = task.conn
    · subst own
      obtain rfl := inv.server.sendinloop_conn queue done
      have grown (buf data : Bytes) : watched (buf ++ Buffer.frame data) = EPOLLIN ||| EPOLLOUT := by
        simp [OutputRun.watched, OutputRun.frame_ne_nil]
      simp [before, OutputRun.watched_enable, grown]
    · simpa [own] using before
  | _ => exact before

theorem routed_step (ready : Ready cfg s) (step : Step cfg s a t) (i : Nat) (c : ι)
    (at_work : t.server.pc i = .reading c ∨ ∃ message, t.server.pc i = .picking c message) :
    cfg.loop c = i := by
  have before := ready.routed i c
  cases step with
  | @readable d polling some =>
    by_cases here : i = cfg.loop d
    · subst here
      have same : d = c := by simpa [setpc] using at_work
      rw [same]
    · exact before (by simpa [setpc, here] using at_work)
  | @again j d reading none =>
    by_cases here : i = j
    · subst here
      have same : d = c := by simpa [setpc] using at_work
      exact ready.routed i c (.inl (same ▸ reading))
    · exact before (by simpa [setpc, here] using at_work)
  | @picked j now stale d message ss left picking found =>
    by_cases here : i = j
    · subst here
      have same : d = c := by simpa [setpc] using at_work
      exact ready.routed i c (.inr ⟨message, same ▸ picking⟩)
    · exact before (by simpa [setpc, setconn, here] using at_work)
  | @unpicked j now stale d message last left picking found =>
    by_cases here : i = j
    · subst here
      simp [setpc] at at_work
    · exact before (by simpa [setpc, setconn, here] using at_work)
  | @handlewakeup j polling counted =>
    by_cases here : i = j
    · subst here
      simp [setpc] at at_work
    · exact before (by simpa [setpc, here] using at_work)
  | @drained j draining queue =>
    by_cases here : i = j
    · subst here
      simp [setpc] at at_work
    · exact before (by simpa [setpc, here] using at_work)
  | _ => exact before at_work

theorem known_step (ready : Ready cfg s) (step : Step cfg s a t) (i : Nat)
    (busy : t.server.pc i ≠ .polling ∨ 0 < t.wakeupfd i ∨ i ∈ t.waking.map Prod.snd) :
    ∃ c, cfg.loop c = i := by
  have before := ready.known i
  cases step with
  | @woken w j front back waking =>
    by_cases here : i = j
    · subst here
      exact before (.inr (.inr (by simp [waking])))
    · refine before (busy.imp_right fun later => ?_)
      simp only [Function.update_of_ne here, waking, List.map_append, List.map_cons, List.mem_append,
        List.mem_cons] at later ⊢
      tauto
  | @readable d polling some =>
    by_cases here : i = cfg.loop d
    · exact ⟨d, here.symm⟩
    · exact before (by simpa [setpc, here] using busy)
  | @again j d reading none =>
    by_cases here : i = j
    · exact ⟨d, here ▸ ready.routed j d (.inl reading)⟩
    · exact before (by simpa [setpc, here] using busy)
  | @picked j now stale d message ss left picking found =>
    by_cases here : i = j
    · exact ⟨d, here ▸ ready.routed j d (.inr ⟨message, picking⟩)⟩
    · exact before (by simpa [setpc, setconn, here] using busy)
  | @unpicked j now stale d message last left picking found =>
    by_cases here : i = j
    · exact ⟨d, here ▸ ready.routed j d (.inr ⟨message, picking⟩)⟩
    · exact before (by simpa [setpc, setconn, here] using busy)
  | @handlewakeup j polling counted =>
    by_cases here : i = j
    · subst here
      exact before (.inr (.inl counted))
    · exact before (by simpa [setpc, here] using busy)
  | @drained j draining queue =>
    by_cases here : i = j
    · subst here
      exact before (.inl (by simp [draining]))
    · exact before (by simpa [setpc, here] using busy)
  | @pushed w d dataCopy size front back held unlocked =>
    by_cases here : i = cfg.loop d
    · exact ⟨d, here.symm⟩
    · exact before (by simpa [here] using busy)
  | _ => exact before busy

theorem notified_step (ready : Ready cfg s) (step : Step cfg s a t) (i : Nat)
    (unlocked : t.server.pc i ≠ .draining) (some : t.server.taskqueue i ≠ []) :
    0 < t.wakeupfd i ∨ i ∈ t.waking.map Prod.snd := by
  have before := ready.notified i
  cases step with
  | @woken w j front back waking =>
    by_cases here : i = j
    · subst here
      exact .inl (by simp)
    · have notified := before unlocked some
      simp only [Function.update_of_ne here, waking, List.map_append, List.map_cons, List.mem_append,
        List.mem_cons] at notified ⊢
      tauto
  | @readable d polling none =>
    by_cases here : i = cfg.loop d
    · subst here
      exact before (by simp [polling]) some
    · exact before (by simpa [setpc, here] using unlocked) some
  | @again j d reading none =>
    by_cases here : i = j
    · subst here
      exact before (by simp [reading]) some
    · exact before (by simpa [setpc, here] using unlocked) some
  | @picked j now stale d message ss left picking found =>
    by_cases here : i = j
    · subst here
      exact before (by simp [picking]) some
    · exact before (by simpa [setpc, setconn, here] using unlocked) some
  | @unpicked j now stale d message last left picking found =>
    by_cases here : i = j
    · subst here
      exact before (by simp [picking]) some
    · exact before (by simpa [setpc, setconn, here] using unlocked) some
  | @handlewakeup j polling counted =>
    by_cases here : i = j
    · subst here
      simp [setpc] at unlocked
    · simpa [here] using before (by simpa [setpc, here] using unlocked) some
  | @drained j draining queue =>
    by_cases here : i = j
    · subst here
      exact absurd queue some
    · exact before (by simpa [setpc, here] using unlocked) some
  | @appended j beyond task rest ep conn draining queue done =>
    by_cases here : i = j
    · subst here
      exact absurd draining unlocked
    · exact before unlocked (by simpa [here] using some)
  | @pushed w d dataCopy size front back held free =>
    by_cases here : i = cfg.loop d
    · exact .inr (by simp [here])
    · simpa [here] using before unlocked (by simpa [here] using some)
  | _ => exact before unlocked some

omit [DecidableEq ι] in
-- A loop that turns to something else was not dealing with c, or is another one than that of c.
theorem Ready.settled_turned (ready : Ready cfg s) {i : Nat} {pc : Pipeline.LoopPc ι} {c : ι}
    (elsewhere : cfg.loop c = i →
      s.server.pc i ≠ .reading c ∧ ∀ message, s.server.pc i ≠ .picking c message)
    (unread : Function.update s.server.pc i pc (cfg.loop c) ≠ .reading c)
    (unpicked : ∀ message, Function.update s.server.pc i pc (cfg.loop c) ≠ .picking c message)
    (none : s.upstream c = []) : (s.server.conn c).inputbuffer.buf = [] := by
  by_cases here : cfg.loop c = i
  · subst here
    exact ready.settled c (elsewhere rfl).1 (elsewhere rfl).2 none
  · rw [Function.update_of_ne here] at unread
    exact ready.settled c unread (fun message => by simpa [here] using unpicked message) none

-- With nothing more to come, what pickmessage leaves is nothing.
theorem unpicked_settled (suitable : Suitable script) (inv : Inv cfg script s) {c : ι}
    {stale : Nat → UInt8} {message last : Bytes} {left : Buffer}
    (found : (s.server.conn c).inputbuffer.pickmessage stale message = .ok (false, left, last))
    (none : s.upstream c = []) : left.buf = [] := by
  obtain ⟨coming, requests⟩ := (inv.exchange c).requests
  rcases picks_next suitable (inv.exchange c) requests stale message with
    ⟨m, later, rest, -, -, picked⟩ | ⟨unpicked, waits⟩
  · simp [picked] at found
  · simp only [unpicked, Except.ok.injEq, Prod.mk.injEq] at found
    have all : coming = [] := waits.resolve_right (not_not_intro none)
    have bytes := requests.bytes
    rw [all, stream_nil] at bytes
    rw [← found.2.1]
    exact (List.append_eq_nil_iff.mp bytes).1

theorem settled_step (suitable : Suitable script) (inv : Inv cfg script s) (ready : Ready cfg s)
    (step : Step cfg s a t) (c : ι) (unread : t.server.pc (cfg.loop c) ≠ .reading c)
    (unpicked : ∀ message, t.server.pc (cfg.loop c) ≠ .picking c message) (none : t.upstream c = []) :
    (t.server.conn c).inputbuffer.buf = [] := by
  have before := ready.settled c
  cases step with
  | @send d buf later pc texts =>
    by_cases own : c = d
    · subst own
      simp [OutputRun.frame_ne_nil] at none
    · exact before unread unpicked (by simpa [own] using none)
  | @readable d polling some =>
    exact ready.settled_turned (fun _ => by simp [polling]) unread unpicked none
  | @read i d data rest reading some there =>
    by_cases own : c = d
    · subst own
      have loop := ready.routed i c (.inl reading)
      subst loop
      exact absurd reading unread
    · simpa [setconn, own] using before unread unpicked (by simpa [own] using none)
  | @again i d reading empty =>
    by_cases own : c = d
    · subst own
      have loop := ready.routed i c (.inl reading)
      simp [setpc, loop] at unpicked
    · have other : d ≠ c := Ne.symm own
      exact ready.settled_turned (fun _ => by simp [reading, other]) unread unpicked none
  | @unpicked i now stale d message last left picking found =>
    by_cases own : c = d
    · subst own
      simpa [setconn, setpc] using unpicked_settled suitable inv found none
    · have other : d ≠ c := Ne.symm own
      have empty := ready.settled_turned (fun _ => by simp [picking, other]) unread unpicked none
      simpa [setconn, setpc, own] using empty
  | @picked i now stale d message ss left picking found =>
    by_cases own : c = d
    · subst own
      have loop := ready.routed i c (.inr ⟨message, picking⟩)
      simp [setpc, loop] at unpicked
    · have other : d ≠ c := Ne.symm own
      have empty := ready.settled_turned (fun _ => by simp [picking, other]) unread unpicked none
      simpa [setconn, setpc, own] using empty
  | @wrote d accepted ep conn complete polling reported least most done =>
    by_cases own : c = d
    · subst own
      simpa [(Connection.writecallback_buffers done).1] using before unread unpicked none
    · simpa [own] using before unread unpicked none
  | @handlewakeup i polling counted =>
    exact ready.settled_turned (fun _ => by simp [polling]) unread unpicked none
  | @drained i draining queue =>
    exact ready.settled_turned (fun _ => by simp [draining]) unread unpicked none
  | @appended i beyond task rest ep conn draining queue done =>
    have empty := before unread unpicked none
    by_cases own : c = task.conn
    · subst own
      obtain rfl := inv.server.sendinloop_conn queue done
      simpa using empty
    · simpa [own] using empty
  | _ => exact before unread unpicked none

theorem ready_step (suitable : Suitable script) (inv : Inv cfg script s) (ready : Ready cfg s)
    (taken : step cfg s a = some t) : Ready cfg t := by
  have step := step_cases inv.server taken
  exact ⟨watched_step inv ready step, routed_step ready step, known_step ready step,
    settled_step suitable inv ready step, notified_step ready step⟩

omit [DecidableEq ι] in
theorem initial_ready {s₀ : State ι} (initial : Initial cfg s₀ script) : Ready cfg s₀ := by
  refine ⟨fun c => ?_, fun i c at_work => ?_, fun i busy => ?_, fun c _ _ _ => ?_, fun i _ some => ?_⟩
  · obtain ⟨fd, now, made⟩ := initial.server.established c
    rw [made]
    rfl
  · simp [initial.server.polling] at at_work
  · simp [initial.server.polling, initial.wakeupfd, initial.waking] at busy
  · obtain ⟨fd, now, made⟩ := initial.server.established c
    rw [made]
    rfl
  · simp [initial.server.taskqueue] at some

section Stuck

variable (stuck : Stuck (step cfg) Effective s)
include stuck

theorem stuck_serve {a : Pipeline.Act ι} (allowed : Effective s (.serve a)) : serve cfg s a = none :=
  stuck (.serve a) allowed

theorem stuck_waking : s.waking = [] := by
  cases waking : s.waking with
  | nil => rfl
  | cons e later =>
    obtain ⟨w, i⟩ := e
    have disabled := stuck (.wakeup w) ⟨trivial, trivial⟩
    simp [step, wakeup, waking] at disabled

theorem stuck_draining (inv : Inv cfg script s) (i : Nat) : s.server.pc i ≠ .draining := by
  intro draining
  cases queue : s.server.taskqueue i with
  | nil =>
    have disabled := stuck_serve stuck (a := .drained i) ⟨trivial, trivial⟩
    simp [serve, Pipeline.step, Pipeline.drained, draining, queue] at disabled
  | cons task rest =>
    obtain ⟨ep, conn, kept, done⟩ := Pipeline.sendinloop_eq inv.server (fun _ => 0) draining queue
    have disabled := stuck_serve stuck (a := .sendinloop i fun _ => 0) ⟨trivial, trivial⟩
    simp [serve, Pipeline.step, done] at disabled

theorem stuck_polling (threads : 0 < cfg.workthreadnum) (suitable : Suitable script)
    (inv : Inv cfg script s) (i : Nat) : s.server.pc i = .polling := by
  cases pc : s.server.pc i with
  | polling => rfl
  | draining => exact absurd pc (stuck_draining stuck inv i)
  | reading c =>
    by_cases none : s.upstream c = []
    · have disabled := stuck_serve stuck (a := .again i) ⟨trivial, trivial⟩
      simp [serve, Pipeline.step, Pipeline.again, pc, none] at disabled
    · have disabled := stuck_serve stuck (a := .read i ((s.upstream c).take 1024)) ⟨trivial, trivial⟩
      have front := List.take_prefix 1024 (s.upstream c)
      simp [serve, Pipeline.step, Pipeline.read, pc, none, front] at disabled
  | picking c message =>
    obtain ⟨coming, requests⟩ := (inv.exchange c).requests
    have disabled := stuck_serve stuck (a := .pickmessage i 0 fun _ => 0) ⟨trivial, trivial⟩
    rcases picks_next suitable (inv.exchange c) requests (fun _ => 0) message with
      ⟨m, later, rest, -, -, picked⟩ | ⟨unpicked, -⟩
    · have pool : cfg.workthreadnum ≠ 0 := by omega
      simp [serve, Pipeline.step, Pipeline.pickmessage, pc, picked, handleMessage, pool] at disabled
    · simp [serve, Pipeline.step, Pipeline.pickmessage, pc, unpicked] at disabled

theorem stuck_held (inv : Inv cfg script s) : s.server.held = [] := by
  cases held : s.server.held with
  | nil => rfl
  | cons e later =>
    obtain ⟨w, c, job⟩ := e
    have mine : Pipeline.jobOf s.server w = some (c, job) := by simp [Pipeline.jobOf, held]
    cases job with
    | running message =>
      have disabled := stuck_serve stuck (a := .send w) ⟨trivial, trivial⟩
      have opened := inv.server.opened.disconnect c
      simp [serve, Pipeline.step, Pipeline.send, mine, Connection.send, opened] at disabled
    | sending dataCopy size =>
      have disabled := stuck_serve stuck (a := .queueinloop w) ⟨trivial, trivial⟩
      have unlocked := stuck_draining stuck inv (cfg.loop c)
      simp [serve, Pipeline.step, Pipeline.queueinloop, mine, unlocked] at disabled

theorem stuck_works (threads : 0 < cfg.workthreadnum) (inv : Inv cfg script s) : s.server.works = [] := by
  cases works : s.server.works with
  | nil => rfl
  | cons e later =>
    have disabled := stuck_serve stuck (a := .take 0) ⟨trivial, trivial⟩
    have waking := stuck_waking stuck
    have held := stuck_held stuck inv
    simp [serve, Pipeline.step, Pipeline.take, works, threads, waking, held] at disabled

theorem stuck_taskqueue (threads : 0 < cfg.workthreadnum) (suitable : Suitable script)
    (inv : Inv cfg script s) (ready : Ready cfg s) (i : Nat) : s.server.taskqueue i = [] := by
  by_contra some
  have polling := stuck_polling stuck threads suitable inv i
  have notified := ready.notified i (by simp [polling]) some
  have counted : 0 < s.wakeupfd i := by simpa [stuck_waking stuck] using notified
  have disabled := stuck_serve stuck (a := .handlewakeup i) ⟨trivial, trivial⟩
  simp [serve, Pipeline.step, Pipeline.handlewakeup, polling, counted] at disabled

theorem stuck_streams (threads : 0 < cfg.workthreadnum) (suitable : Suitable script)
    (inv : Inv cfg script s) (ready : Ready cfg s) (c : ι) :
    s.upstream c = [] ∧ (s.server.conn c).outputbuffer.buf = [] := by
  have polling := stuck_polling stuck threads suitable inv (cfg.loop c)
  have listed := (inv.server.opened.registered c).2
  rw [ready.watched c] at listed
  constructor
  · by_contra some
    have readable : reports cfg s c EPOLLIN = true := by
      simp only [reports, Connection.fd, listed, OutputRun.watched]
      split <;> decide
    have disabled := stuck_serve stuck (a := .readable c) ⟨trivial, trivial⟩
    simp [serve, Pipeline.step, Pipeline.readable, polling, readable, some] at disabled
  · by_contra some
    have writable : reports cfg s c EPOLLOUT = true := by
      simp only [reports, Connection.fd, listed]
      simpa using (OutputRun.watched_writable _).mpr some
    have positive : (0 : Int) < (s.server.conn c).outputbuffer.buf.length := by
      exact_mod_cast List.length_pos_iff.mpr some
    have disabled := stuck_serve stuck
      (a := .writable c (s.server.conn c).outputbuffer.buf.length) ⟨trivial, positive⟩
    obtain ⟨ep, conn, complete, done, -⟩ := Connection.writecallback_kept
      (inv.server.opened.registered c) (s.server.conn c).outputbuffer.buf.length
    simp [serve, Pipeline.step, Pipeline.writable, polling, writable, done] at disabled

theorem stuck_under_way (threads : 0 < cfg.workthreadnum) (suitable : Suitable script)
    (inv : Inv cfg script s) (ready : Ready cfg s) (c : ι) :
    ∃ stages passing, Outstanding cfg script c s stages [] passing ∧ stages.waiting = [] ∧
      stages.held = [] ∧ stages.queued = [] := by
  obtain ⟨stages, coming, passing, under_way⟩ := outstanding suitable (inv.exchange c)
  obtain ⟨replies, shows⟩ := under_way.shows
  have polling := stuck_polling stuck threads suitable inv (cfg.loop c)
  have upstream := (stuck_streams stuck threads suitable inv ready c).1
  have input := ready.settled c (by simp [polling]) (by simp [polling]) upstream
  have all : coming = [] := by
    have bytes := under_way.requests.bytes
    rw [input, upstream] at bytes
    cases coming with
    | nil => rfl
    | cons m later => simp [OutputRun.frame_ne_nil] at bytes
  subst all
  refine ⟨stages, passing, under_way, ?_, ?_, ?_⟩
  · have waiting := shows.waiting
    rw [Pipeline.worksOf, stuck_works stuck threads inv] at waiting
    simpa using waiting.symm
  · have held := shows.held
    rw [Pipeline.heldOf, stuck_held stuck inv] at held
    simpa using held
  · have queued := shows.queued
    rw [Pipeline.queueOf, stuck_taskqueue stuck threads suitable inv ready] at queued
    simpa using queued.symm

theorem stuck_sending (threads : 0 < cfg.workthreadnum) (suitable : Suitable script)
    (inv : Inv cfg script s) (ready : Ready cfg s) (c : ι) : (s.client c).pc = .sending := by
  have exchange := inv.exchange c
  obtain ⟨stages, passing, under_way, waiting, held, queued⟩ :=
    stuck_under_way stuck threads suitable inv ready c
  have output := (stuck_streams stuck threads suitable inv ready c).2
  have count := under_way.count
  have turn := exchange.turn
  simp only [waiting, held, queued, List.length_nil, Nat.add_zero] at count
  cases pc : (s.client c).pc with
  | sending => rfl
  | overrun => simp [Turn, pc] at turn
  | header len =>
    simp only [Turn, pc] at turn
    have some : passing ≠ [] := List.length_pos_iff.mp (by omega)
    obtain ⟨m, member, only, short, free, bytes⟩ := reply_next suitable exchange under_way some
    simp only [pc, ClientPc.got, output, List.append_nil, List.nil_append] at bytes
    have disabled := stuck (.recvheader c 4) ⟨rfl, trivial⟩
    simp [step, recvheader, pc, bytes] at disabled
  | body len =>
    simp only [Turn, pc] at turn
    have some : passing ≠ [] := List.length_pos_iff.mp (by omega)
    obtain ⟨m, member, only, short, free, bytes⟩ := reply_next suitable exchange under_way some
    simp only [pc, ClientPc.got, output, List.append_nil] at bytes
    obtain ⟨n, rfl⟩ := Int.eq_ofNat_of_zero_le turn.2.1
    obtain ⟨header, body⟩ := List.append_inj bytes (by simp)
    have size : n = (workReply m).length := by
      have value := congrArg (fun bytes => toSigned 32 (ofLittleEndian bytes)) header
      simp only [Int.toNat_natCast, header_value short, header_value (show n < 1024 by omega)] at value
      omega
    have positive : 0 < n := by
      rw [size, workReply, List.length_append]
      have text : (ascii "reply:WORK thread ").length = 18 := by decide
      omega
    have want : toUnsigned 64 n = n := toUnsigned_eq_self (by omega)
    have disabled := stuck (.recvbody c n) ⟨by simp [Whole, pc], trivial⟩
    subst size
    simp [step, recvbody, pc, want, body, Nat.ne_of_gt positive] at disabled

theorem stuck_answered (threads : 0 < cfg.workthreadnum) (suitable : Suitable script)
    (inv : Inv cfg script s) (ready : Ready cfg s) (c : ι) :
    (s.client c).printed = (script c).map workReply := by
  have exchange := inv.exchange c
  obtain ⟨stages, passing, under_way, waiting, held, queued⟩ :=
    stuck_under_way stuck threads suitable inv ready c
  have pc := stuck_sending stuck threads suitable inv ready c
  have count := under_way.count
  have turn := exchange.turn
  simp only [Turn, pc] at turn
  have done : passing = [] := List.eq_nil_of_length_eq_zero (by omega)
  have all : (s.client c).texts = [] := by
    cases texts : (s.client c).texts with
    | nil => rfl
    | cons buf later =>
      have disabled := stuck (.send c) ⟨trivial, trivial⟩
      simp [step, send, pc, texts] at disabled
  have answered : stages.left = script c := by
    obtain ⟨replies, shows⟩ := under_way.shows
    have ordered := under_way.ordered
    rw [Stages.Ordered, waiting, held, queued] at ordered
    rw [← exchange.script, all, under_way.requests.sent, shows.entered, ordered]
    simp
  rw [← answered, under_way.answered, done, List.append_nil]

end Stuck

end Reactor.ClientServer
