import ReactorServer.TcpServer

set_option autoImplicit false

namespace Reactor.TcpServer

open ByteString

variable {cfg : Config} {s t : TcpServer} {a : Act}

-- The handleevent of c is running on loop i or is what the batch has next.
def Attended (s : TcpServer) (i : Nat) (c : Nat) : Prop :=
  (s.pc i).handled = some c ∨ s.pc i = .polling ∧ ∃ revents rest, s.batch i = (.client c, revents) :: rest

-- Steps that change nothing but the batch and the place of one loop.
inductive Moves (cfg : Config) (s : TcpServer) (i : Nat) :
    Act → List (Source × UInt32) → LoopPc → Prop where
  | waited {batch : List (Source × UInt32)} (polling : s.pc i = .polling)
      (distinct : (batch.map Prod.fst).Nodup) (reports : ∀ event ∈ batch, reported cfg s i event) :
      Moves cfg s i (.wait i batch) batch .polling
  | timer {revents : UInt32} {rest : List (Source × UInt32)} (polling : s.pc i = .polling)
      (batch : s.batch i = (.timer, revents) :: rest) :
      Moves cfg s i (.dispatch i) rest (.scanning s.now (s.subconns i).first)
  | wakeup {revents : UInt32} {rest : List (Source × UInt32)} (polling : s.pc i = .polling)
      (batch : s.batch i = (.wakeup, revents) :: rest) : Moves cfg s i (.dispatch i) rest .draining
  | emptied {beyond : Nat → UInt8} (pc : s.pc i = .draining) (empty : s.taskqueue i = []) :
      Moves cfg s i (.sendinloop i beyond) (s.batch i) .polling
  | readable {c : Nat} {revents : UInt32} {rest : List (Source × UInt32)} (polling : s.pc i = .polling)
      (batch : s.batch i = (.client c, revents) :: rest) (event : handleevent revents = .read)
      (alive : Alive cfg s c) : Moves cfg s i (.dispatch i) rest (.reading c)
  | writable {c : Nat} {revents : UInt32} {rest : List (Source × UInt32)} (polling : s.pc i = .polling)
      (batch : s.batch i = (.client c, revents) :: rest) (event : handleevent revents = .write)
      (alive : Alive cfg s c) : Moves cfg s i (.dispatch i) rest (.writing c)
  | drained {c : Nat} (pc : s.pc i = .reading c) (alive : Alive cfg s c) :
      Moves cfg s i (.drained i) (s.batch i) (.returning c)
  | dropped {c : Nat} (pc : s.pc i = .erased c) : Moves cfg s i (.leave i) (s.batch i) (.returning c)
  | returned {c : Nat} (pc : s.pc i = .returning c) : Moves cfg s i (.leave i) (s.batch i) .polling
  | scanned {now past : Int} (pc : s.pc i = .scanning now none) :
      Moves cfg s i (.handletimer i past) (s.batch i) .polling
  | kept {now k past : Int} {c : Nat} (pc : s.pc i = .scanning now (some k)) (entry : (k, c) ∈ s.subconns i)
      (recent : (s.conn c).timeout now cfg.timeout = false) :
      Moves cfg s i (.handletimer i past) (s.batch i) (.scanning now ((s.subconns i).next k))
  | advanced {now k past : Int} (pc : s.pc i = .advancing now k) :
      Moves cfg s i (.handletimer i past) (s.batch i) (.scanning now ((s.subconns i).next k))

inductive Closes (cfg : Config) (s : TcpServer) (i : Nat) : Act → List (Source × UInt32) → Nat → Prop where
  | dispatched {c : Nat} {revents : UInt32} {rest : List (Source × UInt32)} (polling : s.pc i = .polling)
      (batch : s.batch i = (.client c, revents) :: rest)
      (hangup : handleevent revents = .close ∨ handleevent revents = .error) :
      Closes cfg s i (.dispatch i) rest c
  | ended {c : Nat} (pc : s.pc i = .reading c) : Closes cfg s i (.eof i) (s.batch i) c

inductive Step (cfg : Config) (s : TcpServer) : Act → TcpServer → Prop where
  | stopped {a : Act} {fault : Fault}
      (dangling : fault = .danglingChannel → ∃ i c, Attended s i c ∧ ¬ Alive cfg s c)
      (stale : fault = .danglingConnection → ∃ i beyond fn rest, a = .sendinloop i beyond ∧
        s.pc i = .draining ∧ s.taskqueue i = fn :: rest ∧ ¬ Alive cfg s fn.conn)
      (terminated : fault = .terminated → ∃ i c, Attended s i c ∧ s.main.callbacks c < 4)
      (iterator : fault = .endIterator → ∃ i now k, s.pc i = .scanning now (some k) ∧
        ∀ c, (k, c) ∉ s.subconns i) :
      Step cfg s a { s with fault := some fault }
  | accepted {fd : Int} (main : s.main = .accepting) (range : 0 ≤ fd)
      (fresh : ∀ c < s.next, Alive cfg s c → s.fd c ≠ fd) :
      Step cfg s (.accept fd)
        { s.setconn (fd % cfg.threadnum).toNat s.next
            (Function.update (s.ep (fd % cfg.threadnum).toNat) fd (some EPOLLIN))
            (.established fd s.now) with
          next := s.next + 1, main := .constructed s.next }
  | wired {c : Nat} {n : Nat}
      (main : s.main = .constructed c ∧ n = 0 ∨ ∃ m < 4, s.main = .wiring c m ∧ n = m + 1) :
      Step cfg s .newconnection { s with main := .wiring c n }
  | inserted {c : Nat} {n : Nat} (main : s.main = .wiring c n) (set : 4 ≤ n) :
      Step cfg s .newconnection { s with conns := s.conns.insert (s.fd c) c, main := .inserted c }
  | listed {c : Nat} (main : s.main = .inserted c) :
      Step cfg s .newconnection
        { s.setsubconns (home cfg s c) ((s.subconns (home cfg s c)).insert (s.fd c) c) with
          main := .listed c }
  | completed {c : Nat} (main : s.main = .listed c) :
      Step cfg s .newconnection { s with main := .accepting }
  | ticked {seconds : Nat} : Step cfg s (.tick seconds) { s with now := s.now + seconds }
  | moved {i : Nat} {a : Act} {batch : List (Source × UInt32)} {pc : LoopPc}
      (moves : Moves cfg s i a batch pc) : Step cfg s a ((s.setbatch i batch).setpc i pc)
  | closed {i : Nat} {a : Act} {batch : List (Source × UInt32)} {c : Nat} {conn : Connection}
      (closes : Closes cfg s i a batch c) (alive : Alive cfg s c) (fd : conn.fd = s.fd c)
      (disconnect : conn.disconnect = true) (inepoll : conn.channel.inepoll = true) :
      Step cfg s a
        (((s.setbatch i batch).setconn i c (Function.update (s.ep i) (s.fd c) none) conn).setpc i
          (.closing c))
  | wrote {i : Nat} {accepted : Int} {c : Nat} {ep : Interest} {conn : Connection}
      (pc : s.pc i = .writing c) (alive : Alive cfg s c)
      (keeps : Connection.Keeps (s.ep i) (s.conn c) ep conn) :
      Step cfg s (.written i accepted) ((s.setconn i c ep conn).setpc i (.returning c))
  | delivered {i c : Nat} {ss : Bytes} {ep : Interest} {conn : Connection} {works : List (Nat × WorkPc)}
      (pc : s.pc i = .reading c) (alive : Alive cfg s c)
      (keeps : Connection.Keeps (s.ep i) (s.conn c) ep conn)
      (tasks : works = s.works ∨ ∃ message, works = s.works ++ [(c, .waiting message)]) :
      Step cfg s (.message i ss) { s.setconn i c ep conn with works := works }
  | called {i : Nat} {beyond : Nat → UInt8} {fn : Closure} {rest : List Closure} {ep : Interest}
      {conn : Connection} (pc : s.pc i = .draining) (queue : s.taskqueue i = fn :: rest)
      (alive : Alive cfg s fn.conn) (keeps : Connection.Keeps (s.ep i) (s.conn fn.conn) ep conn) :
      Step cfg s (.sendinloop i beyond)
        { s.setconn i fn.conn ep conn with taskqueue := Function.update s.taskqueue i rest }
  | sent {c : Nat} {message : Bytes} {pc : WorkPc} (task : (c, .waiting message) ∈ s.works) :
      Step cfg s (.send c message) { s with works := s.works.erase (c, .waiting message) ++ [(c, pc)] }
  | pushed {c : Nat} {dataCopy : Bytes} {size : Nat} (task : (c, .sending dataCopy size) ∈ s.works)
      (unlocked : s.pc (home cfg s c) ≠ .draining) :
      Step cfg s (.queueinloop c dataCopy size)
        { s with
          works := s.works.erase (c, .sending dataCopy size) ++ [(c, .returning)]
          taskqueue := Function.update s.taskqueue (home cfg s c)
            (s.taskqueue (home cfg s c) ++ [⟨c, dataCopy, size⟩]) }
  | erased {i : Nat} {c : Nat} (pc : s.pc i = .closing c) :
      Step cfg s (.closeconnection i)
        { s.setpc i (.erased c) with conns := s.conns.erase (s.fd c) }
  | timedout {i : Nat} {c : Nat} {now k past : Int} (pc : s.pc i = .scanning now (some k))
      (entry : (k, c) ∈ s.subconns i) (late : (s.conn c).timeout now cfg.timeout = true) :
      Step cfg s (.handletimer i past)
        ((s.setsubconns i ((s.subconns i).erase k)).setpc i
          (.notifying c now ((s.subconns i).next k)))
  | removed {i : Nat} {c : Nat} {now k past : Int} (pc : s.pc i = .notifying c now (some k)) :
      Step cfg s (.handletimer i past)
        { s.setpc i (.advancing now k) with conns := s.conns.erase k }
  | overran {i : Nat} {c : Nat} {now past : Int} (pc : s.pc i = .notifying c now none) :
      Step cfg s (.handletimer i past)
        { s with conns := s.conns.erase past, fault := some .endIterator }
  | finished {c : Nat} (task : (c, .returning) ∈ s.works) :
      Step cfg s (.finish c) { s with works := s.works.erase (c, .returning) }

-- What a step does to loop i: the batch and the place it leaves there.
inductive Turns (cfg : Config) (s : TcpServer) (i : Nat) :
    Act → List (Source × UInt32) → LoopPc → Prop where
  | moved {a : Act} {batch : List (Source × UInt32)} {pc : LoopPc} (moves : Moves cfg s i a batch pc) :
      Turns cfg s i a batch pc
  | closed {a : Act} {batch : List (Source × UInt32)} {c : Nat} (closes : Closes cfg s i a batch c)
      (alive : Alive cfg s c) : Turns cfg s i a batch (.closing c)
  | wrote {accepted : Int} {c : Nat} (pc : s.pc i = .writing c) :
      Turns cfg s i (.written i accepted) (s.batch i) (.returning c)
  | erased {c : Nat} (pc : s.pc i = .closing c) :
      Turns cfg s i (.closeconnection i) (s.batch i) (.erased c)
  | timedout {c : Nat} {now k past : Int} (pc : s.pc i = .scanning now (some k))
      (entry : (k, c) ∈ s.subconns i) (late : (s.conn c).timeout now cfg.timeout = true) :
      Turns cfg s i (.handletimer i past) (s.batch i) (.notifying c now ((s.subconns i).next k))
  | removed {c : Nat} {now k past : Int} (pc : s.pc i = .notifying c now (some k)) :
      Turns cfg s i (.handletimer i past) (s.batch i) (.advancing now k)

theorem loop_step (step : Step cfg s a t) (i : Nat) :
    t.pc i = s.pc i ∧ t.batch i = s.batch i ∨ Turns cfg s i a (t.batch i) (t.pc i) := by
  cases step with
  | @moved j a batch pc moves =>
    by_cases here : i = j
    · subst here
      exact .inr (by simpa using Turns.moved moves)
    · exact .inl (by simp [here])
  | @closed j a batch c conn closes alive fd disconnect inepoll =>
    by_cases here : i = j
    · subst here
      exact .inr (by simpa using Turns.closed closes alive)
    · exact .inl (by simp [here])
  | @wrote j accepted c ep conn pc alive keeps =>
    by_cases here : i = j
    · subst here
      exact .inr (by simpa using Turns.wrote pc)
    · exact .inl (by simp [here])
  | @erased j c pc =>
    by_cases here : i = j
    · subst here
      exact .inr (by simpa using Turns.erased pc)
    · exact .inl (by simp [here])
  | @timedout j c now k past pc entry late =>
    by_cases here : i = j
    · subst here
      exact .inr (by simpa using Turns.timedout pc entry late)
    · exact .inl (by simp [here])
  | @removed j c now k past pc =>
    by_cases here : i = j
    · subst here
      exact .inr (by simpa using Turns.removed pc)
    · exact .inl (by simp [here])
  | _ => exact .inl ⟨rfl, rfl⟩

theorem setbatch_self (s : TcpServer) (i : Nat) : s.setbatch i (s.batch i) = s := by
  simp

theorem setpc_self {i : Nat} {pc : LoopPc} (same : s.pc i = pc) : s.setpc i pc = s := by
  subst same
  simp

theorem callbacks_lt_four {c : Nat} {n : Nat} (short : n ≤ 4)
    (unwired : s.main = .constructed c ∨ s.main.callbacks c < n) : s.main.callbacks c < 4 := by
  rcases unwired with main | few
  · simp [main, MainPc.callbacks]
  · omega

theorem accept_cases {fd : Int} {result : Except Fault TcpServer}
    (taken : accept cfg s fd = some result) : Step cfg s (.accept fd) (outcome s result) := by
  simp only [accept] at taken
  split at taken
  · rename_i enabled
    obtain ⟨main, -, range, fresh⟩ := enabled
    rw [Connection.make_fresh (by simp)] at taken
    simp only [Option.some.injEq] at taken
    subst taken
    simpa [outcome] using Step.accepted main range fresh
  · cases taken

theorem newconnection_cases {result : Except Fault TcpServer}
    (taken : newconnection cfg s = some result) : Step cfg s .newconnection (outcome s result) := by
  simp only [newconnection] at taken
  split at taken
  · cases taken
  · rename_i main
    cases taken
    exact .wired (.inl ⟨main, rfl⟩)
  · rename_i main
    split at taken
    · rename_i few
      cases taken
      exact .wired (.inr ⟨_, few, main, rfl⟩)
    · rename_i all
      cases taken
      exact .inserted main (by omega)
  · rename_i main
    cases taken
    exact .listed main
  · rename_i main
    cases taken
    exact .completed main

theorem wait_cases {i : Nat} {batch : List (Source × UInt32)} {result : Except Fault TcpServer}
    (taken : wait cfg s i batch = some result) : Step cfg s (.wait i batch) (outcome s result) := by
  simp only [wait] at taken
  split at taken
  · rename_i enabled
    obtain ⟨-, polling, -, -, distinct, reports⟩ := enabled
    cases taken
    have step := Step.moved (.waited polling distinct reports)
    rwa [setpc_self (s := s.setbatch i batch) polling] at step
  · cases taken

-- `s` here has the batch that is left once c was taken off it.
theorem closecallback_cases {i : Nat} {batch : List (Source × UInt32)} {c : Nat} {callback : Nat}
    (closes : Closes cfg s i a batch c) (attended : Attended s i c) (alive : Alive cfg s c)
    (short : callback ≤ 4) :
    Step cfg s a (outcome s ((s.setbatch i batch).closecallback i c callback)) := by
  cases done : (s.conn c).closecallback (s.ep i) with
  | error stop =>
    have exited : (s.setbatch i batch).closecallback i c callback = .error .exited := by
      simp [closecallback, done]
    rw [exited]
    exact .stopped nofun nofun nofun nofun
  | ok next =>
    obtain ⟨ep, conn⟩ := next
    obtain ⟨rfl, fd, disconnect, inepoll⟩ := Connection.closecallback_ok done
    by_cases unwired : s.main = .constructed c ∨ s.main.callbacks c < callback
    · have terminated : (s.setbatch i batch).closecallback i c callback = .error .terminated := by
        simp [closecallback, done, unwired]
      rw [terminated]
      exact .stopped nofun nofun (fun _ => ⟨i, c, attended, callbacks_lt_four short unwired⟩) nofun
    · have called : (s.setbatch i batch).closecallback i c callback =
          .ok (((s.setbatch i batch).setconn i c (Function.update (s.ep i) (s.fd c) none) conn).setpc i
            (.closing c)) := by
        simp [closecallback, done, unwired, TcpServer.fd]
      rw [called]
      exact .closed closes alive fd disconnect inepoll

theorem dispatch_cases {i : Nat} {result : Except Fault TcpServer}
    (taken : dispatch cfg s i = some result) : Step cfg s (.dispatch i) (outcome s result) := by
  simp only [dispatch] at taken
  split at taken
  · rename_i source revents rest polling batch
    split at taken
    · cases taken
      exact .moved (.timer polling batch)
    · cases taken
      exact .moved (.wakeup polling batch)
    · rename_i c
      have attended : Attended s i c := .inr ⟨polling, revents, rest, batch⟩
      split at taken
      · rename_i alive
        split at taken
        · rename_i hangup
          cases taken
          exact closecallback_cases (.dispatched polling batch (.inl hangup)) attended alive (by decide)
        · rename_i event
          cases taken
          exact .moved (.readable polling batch event alive)
        · rename_i event
          cases taken
          exact .moved (.writable polling batch event alive)
        · rename_i hangup
          cases taken
          exact closecallback_cases (.dispatched polling batch (.inr hangup)) attended alive (by decide)
      · rename_i dead
        cases taken
        exact .stopped (fun _ => ⟨i, c, attended, dead⟩) nofun nofun nofun
  · cases taken

theorem deliver_cases {i c : Nat} (pc : s.pc i = .reading c) (alive : Alive cfg s c) (ss : Bytes) :
    Step cfg s (.message i ss) (outcome s (deliver cfg s i c ss)) := by
  let conn := { s.conn c with lasttime := s.now }
  have touched : Connection.Keeps (s.ep i) (s.conn c) (s.ep i) conn := .of_channel rfl rfl
  simp only [deliver]
  split
  next message queued => exact .delivered pc alive touched (.inr ⟨message, rfl⟩)
  next message inline =>
    split
    next sending =>
      split
      next stop failed => exact .stopped nofun nofun nofun nofun
      next ep after done =>
        have keeps := (Connection.sendinloop_keeps done).after (c := s.conn c) (by rfl) (by rfl)
        exact .delivered pc alive keeps (.inl rfl)
    next => exact .delivered pc alive touched (.inl rfl)

theorem message_cases {i : Nat} {ss : Bytes} {result : Except Fault TcpServer}
    (taken : message cfg s i ss = some result) : Step cfg s (.message i ss) (outcome s result) := by
  simp only [message] at taken
  split at taken
  · rename_i c pc
    have attended : Attended s i c := .inl (by rw [pc]; rfl)
    split at taken
    · rename_i dead
      cases taken
      exact .stopped (fun _ => ⟨i, c, attended, dead⟩) nofun nofun nofun
    · rename_i alive
      split at taken
      · rename_i unwired
        cases taken
        exact .stopped nofun nofun (fun _ => ⟨i, c, attended, callbacks_lt_four (by decide) unwired⟩) nofun
      · cases taken
        exact deliver_cases pc (not_not.mp alive) ss
  · cases taken

theorem eof_cases {i : Nat} {result : Except Fault TcpServer}
    (taken : eof cfg s i = some result) : Step cfg s (.eof i) (outcome s result) := by
  simp only [eof] at taken
  split at taken
  · rename_i c pc
    have attended : Attended s i c := .inl (by rw [pc]; rfl)
    split at taken
    · rename_i alive
      cases taken
      have step := closecallback_cases (.ended pc) attended alive (show 1 ≤ 4 by decide)
      rwa [setbatch_self] at step
    · rename_i dead
      cases taken
      exact .stopped (fun _ => ⟨i, c, attended, dead⟩) nofun nofun nofun
  · cases taken

theorem drained_cases {i : Nat} {result : Except Fault TcpServer}
    (taken : drained cfg s i = some result) : Step cfg s (.drained i) (outcome s result) := by
  simp only [drained] at taken
  split at taken
  · rename_i c pc
    split at taken
    · rename_i alive
      cases taken
      have step := Step.moved (.drained pc alive)
      rwa [setbatch_self] at step
    · rename_i dead
      cases taken
      exact .stopped (fun _ => ⟨i, c, .inl (by rw [pc]; rfl), dead⟩) nofun nofun nofun
  · cases taken

theorem written_cases {i : Nat} {accepted : Int} {result : Except Fault TcpServer}
    (taken : written cfg s i accepted = some result) :
    Step cfg s (.written i accepted) (outcome s result) := by
  simp only [written] at taken
  split at taken
  · rename_i c pc
    have attended : Attended s i c := .inl (by rw [pc]; rfl)
    split at taken
    · rename_i alive
      split at taken
      · cases taken
        exact .stopped nofun nofun nofun nofun
      · rename_i ep conn complete done
        split at taken
        · rename_i unwired
          cases taken
          exact .stopped nofun nofun (fun _ => ⟨i, c, attended, callbacks_lt_four (by decide) unwired.2⟩) nofun
        · cases taken
          exact .wrote pc alive (Connection.writecallback_keeps done)
    · rename_i dead
      cases taken
      exact .stopped (fun _ => ⟨i, c, attended, dead⟩) nofun nofun nofun
  · cases taken

theorem leave_cases {i : Nat} {result : Except Fault TcpServer}
    (taken : leave s i = some result) : Step cfg s (.leave i) (outcome s result) := by
  simp only [leave] at taken
  split at taken
  · rename_i c pc
    cases taken
    have step : Step cfg s _ _ := .moved (.dropped pc)
    rwa [setbatch_self] at step
  · rename_i c pc
    cases taken
    have step : Step cfg s _ _ := .moved (.returned pc)
    rwa [setbatch_self] at step
  · cases taken

theorem sendinloop_cases {i : Nat} {beyond : Nat → UInt8} {result : Except Fault TcpServer}
    (taken : sendinloop cfg s i beyond = some result) :
    Step cfg s (.sendinloop i beyond) (outcome s result) := by
  simp only [sendinloop] at taken
  split at taken
  next pc empty =>
    cases taken
    have step : Step cfg s (.sendinloop i beyond) _ := .moved (.emptied pc empty)
    rwa [setbatch_self] at step
  next fn rest pc queue =>
    split at taken
    next alive =>
      split at taken
      next stop failed =>
        cases taken
        exact .stopped nofun nofun nofun nofun
      next ep conn done =>
        cases taken
        exact .called pc queue alive (Connection.sendinloop_keeps done)
    next dead =>
      cases taken
      exact .stopped nofun (fun _ => ⟨i, beyond, fn, rest, rfl, pc, queue, dead⟩) nofun nofun
  next => cases taken

theorem send_cases {c : Nat} {message : Bytes} {result : Except Fault TcpServer}
    (taken : send s c message = some result) : Step cfg s (.send c message) (outcome s result) := by
  simp only [send] at taken
  split at taken
  next task =>
    split at taken
    next refused =>
      cases taken
      exact .sent task
    next inline => cases taken
    next dataCopy size queued =>
      cases taken
      exact .sent task
  next => cases taken

theorem handletimer_cases {i : Nat} {past : Int} {result : Except Fault TcpServer}
    (taken : handletimer cfg s i past = some result) : Step cfg s (.handletimer i past) (outcome s result) := by
  simp only [handletimer] at taken
  split at taken
  · rename_i now pc
    cases taken
    have step : Step cfg s (.handletimer i past) _ := .moved (.scanned pc)
    rwa [setbatch_self] at step
  · rename_i now k pc
    split at taken
    · rename_i missing
      cases taken
      refine .stopped nofun nofun nofun fun _ => ⟨i, now, k, pc, fun c entry => ?_⟩
      cases missing.symm.trans (OrderedMap.find?_eq_some.mpr entry)
    · rename_i c found
      have entry := OrderedMap.find?_eq_some.mp found
      split at taken
      · rename_i late
        cases taken
        exact .timedout pc entry late
      · rename_i recent
        cases taken
        have step : Step cfg s (.handletimer i past) _ := .moved (.kept pc entry (by simpa using recent))
        rwa [setbatch_self] at step
  · rename_i c now pc
    cases taken
    exact .overran pc
  · rename_i c now k pc
    cases taken
    exact .removed pc
  · rename_i now k pc
    cases taken
    have step : Step cfg s (.handletimer i past) _ := .moved (.advanced pc)
    rwa [setbatch_self] at step
  · cases taken

theorem step_cases (taken : step cfg s a = some t) : s.fault = none ∧ Step cfg s a t := by
  simp only [step] at taken
  split at taken
  · cases taken
  · rename_i running
    obtain ⟨result, acted, rfl⟩ := Option.map_eq_some_iff.mp taken
    refine ⟨not_not.mp running, ?_⟩
    cases a with
    | accept fd => exact accept_cases acted
    | newconnection => exact newconnection_cases acted
    | tick seconds =>
      cases acted
      exact .ticked
    | wait i batch => exact wait_cases acted
    | dispatch i => exact dispatch_cases acted
    | message i ss => exact message_cases acted
    | eof i => exact eof_cases acted
    | drained i => exact drained_cases acted
    | written i accepted => exact written_cases acted
    | closeconnection i =>
      simp only [act, closeconnection] at acted
      split at acted
      · rename_i c pc
        cases acted
        exact .erased pc
      · cases acted
    | leave i => exact leave_cases acted
    | sendinloop i beyond => exact sendinloop_cases acted
    | handletimer i past => exact handletimer_cases acted
    | send c message => exact send_cases acted
    | queueinloop c dataCopy size =>
      simp only [act, queueinloop] at acted
      split at acted
      · rename_i enabled
        cases acted
        exact .pushed enabled.1 enabled.2
      · cases acted
    | finish c =>
      simp only [act, finish] at acted
      split at acted
      · rename_i task
        cases acted
        exact .finished task
      · cases acted

end Reactor.TcpServer
