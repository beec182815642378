import ReactorServer.ClientServer

set_option autoImplicit false

namespace Reactor.ClientServer

open ByteString Framing Transition
open Pipeline (setpc setconn LoopPc Job Closure)

variable {ι : Type} [DecidableEq ι] {cfg : Pipeline.Config ι}

inductive Step (cfg : Pipeline.Config ι) (s : State ι) : Act ι → State ι → Prop where
  | send {c : ι} {buf : Bytes} {later : List Bytes} (pc : (s.client c).pc = .sending)
      (texts : (s.client c).texts = buf :: later) :
      Step cfg s (.send c) { s with
        client := Function.update s.client c
          ⟨.header buf.length, later, (s.client c).sent ++ [buf], (s.client c).printed⟩
        upstream := Function.update s.upstream c (s.upstream c ++ Buffer.frame buf) }
  | header {c : ι} {len : Nat} {got rest : Bytes} (pc : (s.client c).pc = .header len)
      (some : got ≠ []) (most : got.length ≤ 4) (there : s.downstream c = got ++ rest) :
      Step cfg s (.recvheader c got.length) { s with
        client := Function.update s.client c { s.client c with
          pc := .body (toSigned 32 (ofLittleEndian (got ++ (littleEndian 4 len).drop got.length))) }
        downstream := Function.update s.downstream c rest }
  | body {c : ι} {len : Int} {got rest : Bytes} (pc : (s.client c).pc = .body len)
      (there : s.downstream c = got ++ rest) :
      Step cfg s (.recvbody c got.length) { s with
        client := Function.update s.client c
          (if got.length < 1024 then { s.client c with
            pc := .sending, printed := (s.client c).printed ++ [got.takeWhile (· != 0)] }
          else { s.client c with pc := .overrun })
        downstream := Function.update s.downstream c rest }
  | woken {w i : Nat} {before after : List (Nat × Nat)} (waking : s.waking = before ++ (w, i) :: after) :
      Step cfg s (.wakeup w) { s with
        waking := before ++ after
        wakeupfd := Function.update s.wakeupfd i (s.wakeupfd i + 1) }
  | readable {c : ι} (polling : s.server.pc (cfg.loop c) = .polling) (some : s.upstream c ≠ []) :
      Step cfg s (.serve (.readable c)) { s with
        server := setpc s.server (cfg.loop c) (.reading c) }
  | read {i : Nat} {c : ι} {data rest : Bytes} (reading : s.server.pc i = .reading c) (some : data ≠ [])
      (there : s.upstream c = data ++ rest) :
      Step cfg s (.serve (.read i data)) { s with
        server := setconn s.server c { s.server.conn c with
          inputbuffer := (s.server.conn c).inputbuffer.append data }
        upstream := Function.update s.upstream c rest }
  | again {i : Nat} {c : ι} (reading : s.server.pc i = .reading c) (none : s.upstream c = []) :
      Step cfg s (.serve (.again i)) { s with server := setpc s.server i (.picking c []) }
  | unpicked {i : Nat} {now : Int} {stale : Nat → UInt8} {c : ι} {message last : Bytes} {left : Buffer}
      (picking : s.server.pc i = .picking c message)
      (found : (s.server.conn c).inputbuffer.pickmessage stale message = .ok (false, left, last)) :
      Step cfg s (.serve (.pickmessage i now stale)) { s with
        server := setpc (setconn s.server c { s.server.conn c with inputbuffer := left }) i .polling }
  | picked {i : Nat} {now : Int} {stale : Nat → UInt8} {c : ι} {message ss : Bytes} {left : Buffer}
      (picking : s.server.pc i = .picking c message)
      (found : (s.server.conn c).inputbuffer.pickmessage stale message = .ok (true, left, ss)) :
      Step cfg s (.serve (.pickmessage i now stale)) { s with
        server := { setpc (setconn s.server c { s.server.conn c with inputbuffer := left, lasttime := now })
            i (.picking c (ascii "WORK thread " ++ ss)) with
          works := s.server.works ++ [(c, ascii "WORK thread " ++ ss)]
          delivered := Function.update s.server.delivered c (s.server.delivered c ++ [ss]) } }
  | wrote {c : ι} {accepted : Int} {ep : Interest} {conn : Connection} {complete : Bool}
      (polling : s.server.pc (cfg.loop c) = .polling) (reported : reports cfg s c EPOLLOUT = true)
      (least : -1 ≤ accepted) (most : accepted ≤ (s.server.conn c).outputbuffer.buf.length)
      (done : (s.server.conn c).writecallback accepted (s.server.ep (cfg.loop c)) =
        .ok (ep, conn, complete)) :
      Step cfg s (.serve (.writable c accepted)) { s with
        server := { s.server with
          ep := Function.update s.server.ep (cfg.loop c) ep
          conn := Function.update s.server.conn c conn }
        downstream := Function.update s.downstream c
          (s.downstream c ++ (s.server.conn c).outputbuffer.buf.take accepted.toNat) }
  | handlewakeup {i : Nat} (polling : s.server.pc i = .polling) (counted : 0 < s.wakeupfd i) :
      Step cfg s (.serve (.handlewakeup i)) { s with
        server := setpc s.server i .draining
        wakeupfd := Function.update s.wakeupfd i 0 }
  | appended {i : Nat} {beyond : Nat → UInt8} {task : Closure ι} {rest : List (Closure ι)}
      {ep : Interest} {conn : Connection} (draining : s.server.pc i = .draining)
      (queue : s.server.taskqueue i = task :: rest)
      (done : (s.server.conn task.conn).sendinloop beyond (s.server.ep i) task.dataCopy task.size =
        .ok (ep, conn)) :
      Step cfg s (.serve (.sendinloop i beyond)) { s with
        server := { s.server with
          ep := Function.update s.server.ep i ep
          conn := Function.update s.server.conn task.conn conn
          taskqueue := Function.update s.server.taskqueue i rest
          appended := Function.update s.server.appended task.conn (s.server.appended task.conn ++
            conn.outputbuffer.buf.drop (s.server.conn task.conn).outputbuffer.buf.length) } }
  | drained {i : Nat} (draining : s.server.pc i = .draining) (queue : s.server.taskqueue i = []) :
      Step cfg s (.serve (.drained i)) { s with server := setpc s.server i .polling }
  | taken {w : Nat} {c : ι} {message : Bytes} {rest : List (ι × Bytes)}
      (works : s.server.works = (c, message) :: rest) :
      Step cfg s (.serve (.take w)) { s with
        server := { s.server with
          works := rest, held := s.server.held ++ [(w, c, .running message)] } }
  | copied {w : Nat} {c : ι} {message : Bytes} {before after : List (Nat × ι × Job)}
      (held : s.server.held = before ++ (w, c, .running message) :: after) :
      Step cfg s (.serve (.send w)) { s with
        server := { s.server with
          held := before ++
            (w, c, .sending (strdup (onMessage message)) (onMessage message).length) :: after } }
  | pushed {w : Nat} {c : ι} {dataCopy : Bytes} {size : Nat} {before after : List (Nat × ι × Job)}
      (held : s.server.held = before ++ (w, c, .sending dataCopy size) :: after)
      (unlocked : s.server.pc (cfg.loop c) ≠ .draining) :
      Step cfg s (.serve (.queueinloop w)) { s with
        server := { s.server with
          taskqueue := Function.update s.server.taskqueue (cfg.loop c)
            (s.server.taskqueue (cfg.loop c) ++ [⟨c, dataCopy, size⟩])
          held := before ++ after
          queued := Function.update s.server.queued c (s.server.queued c ++ [(dataCopy, size)]) }
        waking := s.waking ++ [(w, cfg.loop c)] }

variable {s t : State ι}

omit [DecidableEq ι] in
theorem taken_drop {bytes : Bytes} {n : Nat} (there : n ≤ bytes.length) :
    ∃ got rest, bytes = got ++ rest ∧ got.length = n ∧ bytes.take n = got ∧ bytes.drop n = rest :=
  ⟨bytes.take n, bytes.drop n, (List.take_append_drop n bytes).symm, by simpa using there, rfl, rfl⟩

theorem recvheader_cases {c : ι} {n : Nat} (taken : recvheader s c n = some t) :
    Step cfg s (.recvheader c n) t := by
  simp only [recvheader] at taken
  split at taken
  · rename_i len pc
    obtain ⟨bounds, next⟩ := Option.ite_none_right_eq_some.mp taken
    obtain ⟨got, rest, there, rfl, front, back⟩ := taken_drop bounds.2.2
    cases next
    rw [front, back]
    exact .header pc (List.length_pos_iff.mp bounds.1) bounds.2.1 there
  · cases taken

theorem recvbody_cases {c : ι} {n : Nat} (taken : recvbody s c n = some t) :
    Step cfg s (.recvbody c n) t := by
  simp only [recvbody] at taken
  split at taken
  · rename_i len pc
    obtain ⟨bounds, next⟩ := Option.ite_none_right_eq_some.mp taken
    obtain ⟨got, rest, there, rfl, front, back⟩ := taken_drop bounds.2.1
    cases next
    rw [front, back]
    exact .body pc there
  · cases taken

theorem wakeup_cases {w : Nat} (taken : wakeup s w = some t) : Step cfg s (.wakeup w) t := by
  simp only [wakeup] at taken
  split at taken
  · rename_i v i found
    obtain ⟨key, before, after, split, earlier⟩ := List.find?_eq_some_iff_append.mp found
    obtain rfl : v = w := by simpa using key
    cases taken
    have erased : s.waking.eraseP (fun e => e.1 = v) = before ++ after := by
      rw [split, List.eraseP_append_right _ (by simpa using earlier), List.eraseP_cons_of_pos (by simp)]
    rw [erased]
    exact .woken split
  · cases taken

theorem send_cases {c : ι} (taken : send s c = some t) : Step cfg s (.send c) t := by
  simp only [send] at taken
  split at taken
  · rename_i buf later pc texts
    cases taken
    rw [← Buffer.sizeHeader_eq]
    exact .send pc texts
  · cases taken

theorem pickmessage_step {i : Nat} {now : Int} {stale : Nat → UInt8} {server : Pipeline.State ι}
    (taken : Pipeline.pickmessage cfg s.server i now stale = some server) :
    Step cfg s (.serve (.pickmessage i now stale)) { s with server := server } := by
  simp only [Pipeline.pickmessage] at taken
  split at taken
  · rename_i c message picking
    split at taken
    · cases taken
    · rename_i left last found
      cases taken
      exact .unpicked picking found
    · rename_i left ss found
      split at taken
      · cases taken
      · rename_i task handled
        have text : task = ascii "WORK thread " ++ ss := by
          simp only [handleMessage] at handled
          split at handled
          · cases handled
          · cases handled
            rfl
        subst text
        cases taken
        exact .picked picking found
  · cases taken

theorem sendinloop_step {i : Nat} {beyond : Nat → UInt8} {server : Pipeline.State ι}
    (taken : Pipeline.sendinloop s.server i beyond = some server) :
    Step cfg s (.serve (.sendinloop i beyond)) { s with server := server } := by
  simp only [Pipeline.sendinloop] at taken
  split at taken
  · rename_i task rest draining queue
    split at taken
    · cases taken
    · rename_i ep conn done
      cases taken
      exact .appended draining queue done
  · cases taken

theorem writable_step {c : ι} {accepted : Int} {server : Pipeline.State ι}
    (taken : Pipeline.writable cfg s.server c accepted = some server)
    (reported : reports cfg s c EPOLLOUT = true) (least : -1 ≤ accepted)
    (most : accepted ≤ (s.server.conn c).outputbuffer.buf.length) :
    Step cfg s (.serve (.writable c accepted)) { s with
      server := server
      downstream := Function.update s.downstream c
        (s.downstream c ++ (s.server.conn c).outputbuffer.buf.take accepted.toNat) } := by
  simp only [Pipeline.writable] at taken
  split at taken
  · rename_i ep conn complete polling done
    cases taken
    exact .wrote polling reported least most done
  · cases taken

theorem take_step {w : Nat} {server : Pipeline.State ι}
    (taken : Pipeline.take cfg s.server w = some server) :
    Step cfg s (.serve (.take w)) { s with server := server } := by
  simp only [Pipeline.take] at taken
  split at taken
  · cases taken
  · rename_i c message rest works
    obtain ⟨free, next⟩ := Option.ite_none_right_eq_some.mp taken
    cases next
    exact .taken works

theorem serve_cases (inv : Pipeline.Inv cfg s.server) {a : Pipeline.Act ι} (taken : serve cfg s a = some t) :
    Step cfg s (.serve a) t := by
  simp only [serve] at taken
  split at taken
  · cases taken
  · rename_i server served
    cases a with
    | readable c =>
      obtain ⟨there, next⟩ := Option.ite_none_right_eq_some.mp taken
      cases next
      simp only [Pipeline.step, Pipeline.readable] at served
      split at served
      · rename_i polling
        cases served
        exact .readable polling there.2
      · cases served
    | read i data =>
      simp only [Pipeline.step, Pipeline.read] at served
      split at served
      · rename_i c reading
        obtain ⟨size, now⟩ := Option.ite_none_right_eq_some.mp served
        cases now
        simp only [reading] at taken
        obtain ⟨⟨rest, there⟩, next⟩ := Option.ite_none_right_eq_some.mp taken
        cases next
        rw [← there, List.drop_left]
        exact .read reading size.1 there.symm
      · cases served
    | again i =>
      simp only [Pipeline.step, Pipeline.again] at served
      split at served
      · rename_i c reading
        cases served
        simp only [reading] at taken
        obtain ⟨none, next⟩ := Option.ite_none_right_eq_some.mp taken
        cases next
        exact .again reading none
      · cases served
    | pickmessage i now stale =>
      cases taken
      exact pickmessage_step served
    | writable c accepted =>
      obtain ⟨there, next⟩ := Option.ite_none_right_eq_some.mp taken
      cases next
      exact writable_step served there.1 there.2.1 there.2.2
    | handlewakeup i =>
      obtain ⟨counted, next⟩ := Option.ite_none_right_eq_some.mp taken
      cases next
      simp only [Pipeline.step, Pipeline.handlewakeup] at served
      split at served
      · rename_i polling
        cases served
        exact .handlewakeup polling counted
      · cases served
    | sendinloop i beyond =>
      cases taken
      exact sendinloop_step served
    | drained i =>
      cases taken
      simp only [Pipeline.step, Pipeline.drained] at served
      split at served
      · rename_i draining queue
        cases served
        exact .drained draining queue
      · cases served
    | take w =>
      obtain ⟨idle, next⟩ := Option.ite_none_right_eq_some.mp taken
      cases next
      exact take_step served
    | send w =>
      cases taken
      obtain ⟨c, message, before, after, held, rfl⟩ := Pipeline.send_split inv served
      exact .copied held
    | queueinloop w =>
      obtain ⟨c, dataCopy, size, before, after, found, held, unlocked, rfl⟩ :=
        Pipeline.queueinloop_split inv served
      simp only [found] at taken
      cases taken
      exact .pushed held unlocked

theorem step_cases (inv : Pipeline.Inv cfg s.server) {a : Act ι} (taken : step cfg s a = some t) :
    Step cfg s a t := by
  cases a with
  | send c => exact send_cases taken
  | recvheader c n => exact recvheader_cases taken
  | recvbody c n => exact recvbody_cases taken
  | wakeup w => exact wakeup_cases taken
  | serve a => exact serve_cases inv taken

theorem serve_server {a : Pipeline.Act ι} (taken : serve cfg s a = some t) :
    Pipeline.step cfg s.server a = some t.server := by
  simp only [serve] at taken
  split at taken
  · cases taken
  · rename_i server served
    suffices same : t.server = server by rw [served, same]
    cases a <;> grind

end Reactor.ClientServer
