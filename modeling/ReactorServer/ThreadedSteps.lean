import ReactorServer.PoolInvariants
import ReactorServer.Threaded

set_option autoImplicit false

namespace Reactor.Threaded

open ByteString

variable {ι : Type} [DecidableEq ι] {n m : Nat} {loop : ι → Fin m} {s t : Threaded ι n m}

inductive Step (loop : ι → Fin m) (s : Threaded ι n m) : Act ι n m → Threaded ι n m → Prop where
  | polled {i : Fin m} {channels : List Ready} {subloop : EventLoop (Pipeline.Closure ι)}
      (moved : (s.subloops i).step (.loop channels) = some subloop) :
      Step loop s (.loop i channels) { s with subloops := Function.update s.subloops i subloop }
  | ran {i : Fin m} {subloop : EventLoop (Pipeline.Closure ι)} (outside : s.pc i = .outside)
      (idle : (s.subloops i).pc.held = []) (moved : (s.subloops i).step .run = some subloop) :
      Step loop s (.run i) { s with subloops := Function.update s.subloops i subloop }
  | readable {c : ι} (outside : s.pc (loop c) = .outside) (event : atEvent (s.subloops (loop c)).pc = true) :
      Step loop s (.readable c) (s.setpc (loop c) (.reading c))
  | read {i : Fin m} {data : Bytes} {c : ι} (reading : s.pc i = .reading c)
      (short : data ≠ [] ∧ data.length ≤ 1024) :
      Step loop s (.read i data)
        (s.setconn c { s.conn c with inputbuffer := (s.conn c).inputbuffer.append data })
  | again {i : Fin m} {c : ι} (reading : s.pc i = .reading c) :
      Step loop s (.again i) (s.setpc i (.picking c []))
  | picked {i : Fin m} {now : Int} {stale : Nat → UInt8} {c : ι} {message ss task : Bytes}
      {inputbuffer : Buffer} {pool : ThreadPool (ι × Bytes) n} (picking : s.pc i = .picking c message)
      (found : (s.conn c).inputbuffer.pickmessage stale message = .ok (true, inputbuffer, ss))
      (handled : handleMessage n ss = .task task) (moved : s.threadpool.step (.push (c, task)) = some pool) :
      Step loop s (.pickmessage i now stale) { s with
        threadpool := pool
        conn := Function.update s.conn c { s.conn c with inputbuffer := inputbuffer, lasttime := now }
        pc := Function.update s.pc i (.notifying c task)
        delivered := Function.update s.delivered c (s.delivered c ++ [ss]) }
  | finished {i : Fin m} {now : Int} {stale : Nat → UInt8} {c : ι} {message ss : Bytes}
      {inputbuffer : Buffer} {subloop : EventLoop (Pipeline.Closure ι)}
      (picking : s.pc i = .picking c message)
      (found : (s.conn c).inputbuffer.pickmessage stale message = .ok (false, inputbuffer, ss))
      (moved : (s.subloops i).step .run = some subloop) :
      Step loop s (.pickmessage i now stale) { s with
        subloops := Function.update s.subloops i subloop
        conn := Function.update s.conn c { s.conn c with inputbuffer := inputbuffer }
        pc := Function.update s.pc i .outside }
  | notified {i : Fin m} {w : Option (Fin n)} {c : ι} {message : Bytes} {pool : ThreadPool (ι × Bytes) n}
      (notifying : s.pc i = .notifying c message) (moved : s.threadpool.step (.notifyone w) = some pool) :
      Step loop s (.notifyone i w) { s with
        threadpool := pool, pc := Function.update s.pc i (.picking c message) }
  | wrote {c : ι} {accepted : Int} {ep : Interest} {conn : Connection} {complete : Bool}
      {subloop : EventLoop (Pipeline.Closure ι)} (outside : s.pc (loop c) = .outside)
      (event : atEvent (s.subloops (loop c)).pc = true)
      (written : (s.conn c).writecallback accepted (s.ep (loop c)) = .ok (ep, conn, complete))
      (moved : (s.subloops (loop c)).step .run = some subloop) :
      Step loop s (.writable c accepted) { s with
        subloops := Function.update s.subloops (loop c) subloop
        ep := Function.update s.ep (loop c) ep
        conn := Function.update s.conn c conn }
  | appended {i : Fin m} {beyond : Nat → UInt8} {fn : Pipeline.Closure ι} {channels : List Ready}
      {ep : Interest} {conn : Connection} {subloop : EventLoop (Pipeline.Closure ι)}
      (running : (s.subloops i).pc = .running fn channels)
      (sent : (s.conn fn.conn).sendinloop beyond (s.ep i) fn.dataCopy fn.size = .ok (ep, conn))
      (moved : (s.subloops i).step .run = some subloop) :
      Step loop s (.sendinloop i beyond) { s with
        subloops := Function.update s.subloops i subloop
        ep := Function.update s.ep i ep
        conn := Function.update s.conn fn.conn conn
        appended := Function.update s.appended fn.conn (s.appended fn.conn ++
          conn.outputbuffer.buf.drop (s.conn fn.conn).outputbuffer.buf.length) }
  | worked {w : Fin n} {pool : ThreadPool (ι × Bytes) n} (free : (s.threadpool.threads w).held = [])
      (moved : s.threadpool.step (.work w) = some pool) : Step loop s (.work w) { s with threadpool := pool }
  | returned {w : Fin n} {task : ι × Bytes} {pool : ThreadPool (ι × Bytes) n}
      (running : s.threadpool.threads w = .running task) (returned : s.task w = .returned)
      (moved : s.threadpool.step (.work w) = some pool) :
      Step loop s (.work w) { s with threadpool := pool, task := Function.update s.task w .starting }
  | spurious {w : Fin n} {pool : ThreadPool (ι × Bytes) n}
      (moved : s.threadpool.step (.spurious w) = some pool) :
      Step loop s (.spurious w) { s with threadpool := pool }
  | refused {w : Fin n} {c : ι} {message : Bytes} (running : s.threadpool.threads w = .running (c, message))
      (starting : s.task w = .starting) (refused : (s.conn c).send false (onMessage message) = .refused) :
      Step loop s (.send w) (s.settask w .returned)
  | copied {w : Fin n} {c : ι} {message dataCopy : Bytes} {size : Nat}
      (running : s.threadpool.threads w = .running (c, message)) (starting : s.task w = .starting)
      (copied : (s.conn c).send false (onMessage message) = .queued dataCopy size) :
      Step loop s (.send w) (s.settask w (.sending dataCopy size))
  | pushed {w : Fin n} {c : ι} {message dataCopy : Bytes} {size : Nat}
      {subloop : EventLoop (Pipeline.Closure ι)} (running : s.threadpool.threads w = .running (c, message))
      (sending : s.task w = .sending dataCopy size)
      (moved : (s.subloops (loop c)).step (.queueinloop ⟨c, dataCopy, size⟩) = some subloop) :
      Step loop s (.queueinloop w) { s with
        subloops := Function.update s.subloops (loop c) subloop, task := Function.update s.task w .waking }
  | woken {w : Fin n} {c : ι} {message : Bytes} {subloop : EventLoop (Pipeline.Closure ι)}
      (running : s.threadpool.threads w = .running (c, message)) (waking : s.task w = .waking)
      (moved : (s.subloops (loop c)).step .queueinloopWakeup = some subloop) :
      Step loop s (.wakeup w) { s with
        subloops := Function.update s.subloops (loop c) subloop, task := Function.update s.task w .returned }
  | stopping {pool : ThreadPool (ι × Bytes) n} (stopper : s.stopper = .idle)
      (moved : s.threadpool.step .stop = some pool) :
      Step loop s .stop { s with threadpool := pool, stopper := .works }
  | joined {b : ThreadPool.Act (ι × Bytes) n} {pool : ThreadPool (ι × Bytes) n} (stopper : s.stopper = .works)
      (own : b = .notifyall ∨ b = .join) (moved : s.threadpool.step b = some pool) :
      Step loop s .stop { s with threadpool := pool }
  | joinedAll (stopper : s.stopper = .works) (returned : s.threadpool.stopper = .returned) :
      Step loop s .stop { s with stopper := .storing 0 }
  | stored {k : Nat} {subloop : EventLoop (Pipeline.Closure ι)} (stopper : s.stopper = .storing k) (h : k < m)
      (moved : (s.subloops ⟨k, h⟩).step .stop = some subloop) :
      Step loop s .stop { s with
        subloops := Function.update s.subloops ⟨k, h⟩ subloop, stopper := .waking k }
  | storedAll {k : Nat} (stopper : s.stopper = .storing k) (all : m ≤ k) :
      Step loop s .stop { s with stopper := .pool }
  | written {k : Nat} {subloop : EventLoop (Pipeline.Closure ι)} (stopper : s.stopper = .waking k) (h : k < m)
      (moved : (s.subloops ⟨k, h⟩).step .stopWakeup = some subloop) :
      Step loop s .stop { s with
        subloops := Function.update s.subloops ⟨k, h⟩ subloop, stopper := .storing (k + 1) }

omit [DecidableEq ι] in
theorem poolStep_some {a : ThreadPool.Act (ι × Bytes) n} (taken : s.poolStep a = some t) :
    ∃ pool, s.threadpool.step a = some pool ∧ { s with threadpool := pool } = t :=
  Option.map_eq_some_iff.mp taken

omit [DecidableEq ι] in
theorem loopStep_some {i : Fin m} {a : EventLoop.Act (Pipeline.Closure ι)} (taken : s.loopStep i a = some t) :
    ∃ subloop, (s.subloops i).step a = some subloop ∧
      { s with subloops := Function.update s.subloops i subloop } = t :=
  Option.map_eq_some_iff.mp taken

theorem run_cases {i : Fin m} (taken : s.run i = some t) : Step loop s (.run i) t := by
  unfold run at taken
  split at taken
  next => cases taken
  next outside called =>
    obtain ⟨subloop, moved, rfl⟩ := loopStep_some taken
    refine .ran outside ?_ moved
    cases pc : (s.subloops i).pc with
    | running fn channels => exact (called fn channels pc).elim
    | _ => rfl
  next => cases taken

theorem readable_cases {c : ι} (taken : s.readable loop c = some t) : Step loop s (.readable c) t := by
  unfold readable at taken
  split at taken
  next outside =>
    obtain ⟨event, next⟩ := Option.ite_none_right_eq_some.mp taken
    cases next
    exact .readable outside event
  next => cases taken

theorem read_cases {i : Fin m} {data : Bytes} (taken : s.read i data = some t) :
    Step loop s (.read i data) t := by
  unfold read at taken
  split at taken
  next c reading =>
    obtain ⟨short, next⟩ := Option.ite_none_right_eq_some.mp taken
    cases next
    exact .read reading short
  next => cases taken

theorem again_cases {i : Fin m} (taken : s.again i = some t) : Step loop s (.again i) t := by
  unfold again at taken
  split at taken
  next c reading =>
    cases taken
    exact .again reading
  next => cases taken

theorem pickmessage_cases {i : Fin m} {now : Int} {stale : Nat → UInt8}
    (taken : s.pickmessage i now stale = some t) : Step loop s (.pickmessage i now stale) t := by
  unfold pickmessage at taken
  split at taken
  next c message picking =>
    split at taken
    next => cases taken
    next inputbuffer ss found =>
      obtain ⟨subloop, moved, rfl⟩ := loopStep_some taken
      exact .finished picking found moved
    next inputbuffer ss found =>
      split at taken
      next => cases taken
      next task handled =>
        obtain ⟨pool, moved, rfl⟩ := poolStep_some taken
        exact .picked picking found handled moved
  next => cases taken

theorem notifyone_cases {i : Fin m} {w : Option (Fin n)} (taken : s.notifyone i w = some t) :
    Step loop s (.notifyone i w) t := by
  unfold notifyone at taken
  split at taken
  next c message notifying =>
    obtain ⟨pool, moved, rfl⟩ := poolStep_some taken
    exact .notified notifying moved
  next => cases taken

theorem writable_cases {c : ι} {accepted : Int} (taken : s.writable loop c accepted = some t) :
    Step loop s (.writable c accepted) t := by
  unfold writable at taken
  dsimp only at taken
  split at taken
  next ep conn complete outside written =>
    obtain ⟨event, next⟩ := Option.ite_none_right_eq_some.mp taken
    obtain ⟨subloop, moved, rfl⟩ := loopStep_some next
    exact .wrote outside event written moved
  next => cases taken

theorem sendinloop_cases {i : Fin m} {beyond : Nat → UInt8} (taken : s.sendinloop i beyond = some t) :
    Step loop s (.sendinloop i beyond) t := by
  unfold sendinloop at taken
  split at taken
  next fn channels running =>
    dsimp only at taken
    split at taken
    next => cases taken
    next ep conn sent =>
      obtain ⟨subloop, moved, rfl⟩ := loopStep_some taken
      exact .appended running sent moved
  next => cases taken

theorem work_cases {w : Fin n} (taken : s.work w = some t) : Step loop s (.work w) t := by
  unfold work at taken
  split at taken
  next task running returned =>
    obtain ⟨pool, moved, rfl⟩ := poolStep_some taken
    exact .returned running returned moved
  next => cases taken
  next free _ =>
    obtain ⟨pool, moved, rfl⟩ := poolStep_some taken
    refine .worked ?_ moved
    cases pc : s.threadpool.threads w with
    | running task => exact (free task pc).elim
    | _ => rfl

theorem send_cases {w : Fin n} (taken : s.send w = some t) : Step loop s (.send w) t := by
  unfold send at taken
  split at taken
  next c message running starting =>
    split at taken
    next refused =>
      cases taken
      exact .refused running starting refused
    next => cases taken
    next dataCopy size copied =>
      cases taken
      exact .copied running starting copied
  next => cases taken

theorem queueinloop_cases {w : Fin n} (taken : s.queueinloop loop w = some t) :
    Step loop s (.queueinloop w) t := by
  unfold queueinloop at taken
  split at taken
  next c message dataCopy size running sending =>
    obtain ⟨subloop, moved, rfl⟩ := loopStep_some taken
    exact .pushed running sending moved
  next => cases taken

theorem wakeup_cases {w : Fin n} (taken : s.wakeup loop w = some t) : Step loop s (.wakeup w) t := by
  unfold wakeup at taken
  split at taken
  next c message running waking =>
    obtain ⟨subloop, moved, rfl⟩ := loopStep_some taken
    exact .woken running waking moved
  next => cases taken

theorem stop_cases (taken : s.stop = some t) : Step loop s .stop t := by
  unfold stop at taken
  split at taken
  next stopper =>
    obtain ⟨_, stepped, rfl⟩ := Option.map_eq_some_iff.mp taken
    obtain ⟨pool, moved, rfl⟩ := poolStep_some stepped
    exact .stopping stopper moved
  next stopper =>
    split at taken
    next => cases taken
    next =>
      obtain ⟨pool, moved, rfl⟩ := poolStep_some taken
      exact .joined stopper (.inl rfl) moved
    next =>
      obtain ⟨pool, moved, rfl⟩ := poolStep_some taken
      exact .joined stopper (.inr rfl) moved
    next returned =>
      cases taken
      exact .joinedAll stopper returned
  next k stopper =>
    split at taken
    next h =>
      obtain ⟨_, stepped, rfl⟩ := Option.map_eq_some_iff.mp taken
      obtain ⟨subloop, moved, rfl⟩ := loopStep_some stepped
      exact .stored stopper h moved
    next all =>
      cases taken
      exact .storedAll stopper (Nat.le_of_not_lt all)
  next k stopper =>
    split at taken
    next h =>
      obtain ⟨_, stepped, rfl⟩ := Option.map_eq_some_iff.mp taken
      obtain ⟨subloop, moved, rfl⟩ := loopStep_some stepped
      exact .written stopper h moved
    next => cases taken
  next => cases taken

theorem step_cases {a : Act ι n m} (taken : s.step loop a = some t) : Step loop s a t := by
  cases a with
  | loop i channels =>
    obtain ⟨subloop, moved, rfl⟩ := loopStep_some taken
    exact .polled moved
  | run i => exact run_cases taken
  | readable c => exact readable_cases taken
  | read i data => exact read_cases taken
  | again i => exact again_cases taken
  | pickmessage i now stale => exact pickmessage_cases taken
  | notifyone i w => exact notifyone_cases taken
  | writable c accepted => exact writable_cases taken
  | sendinloop i beyond => exact sendinloop_cases taken
  | work w => exact work_cases taken
  | spurious w =>
    obtain ⟨pool, moved, rfl⟩ := poolStep_some taken
    exact .spurious moved
  | send w => exact send_cases taken
  | queueinloop w => exact queueinloop_cases taken
  | wakeup w => exact wakeup_cases taken
  | stop => exact stop_cases taken

end Reactor.Threaded
