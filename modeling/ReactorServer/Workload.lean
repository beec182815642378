import Mathlib.Algebra.BigOperators.Group.List.Basic
import ReactorServer.Completion

set_option autoImplicit false

namespace Reactor.ClientServer

open ByteString Framing Transition
open Pipeline (setconn setpc Job)

variable {ι : Type} [DecidableEq ι] {cfg : Pipeline.Config ι} {script : ι → List Bytes}

def ClientPc.rank : ClientPc → Nat
  | .header _ => 2
  | .body _ => 1
  | _ => 0

def textsWork (texts : List Bytes) : Nat := (texts.map fun m => 15 * m.length + 63).sum

def clientWork (s : State ι) (c : ι) : Nat :=
  textsWork (s.client c).texts + (s.client c).pc.rank + 15 * (s.upstream c).length +
    10 * (s.server.conn c).inputbuffer.buf.length + (s.server.conn c).outputbuffer.buf.length

-- A loop that has been told of bytes will read some of them: these pay for what it does after that.
def pcWork (upstream : ι → Bytes) : Pipeline.LoopPc ι → Nat
  | .polling => 1
  | .reading c => if upstream c = [] then 4 else 0
  | .picking _ _ => 3
  | .draining => 4

def queueWork (queue : List (Pipeline.Closure ι)) : Nat := (queue.map fun task => task.size + 5).sum

def loopWork (s : State ι) (i : Nat) : Nat :=
  pcWork s.upstream (s.server.pc i) + queueWork (s.server.taskqueue i) + 4 * s.wakeupfd i

def jobWork : Job → Nat
  | .running message => message.length + 18
  | .sending _ size => size + 11

def poolWork (s : State ι) : Nat :=
  (s.server.works.map fun e => e.2.length + 19).sum + (s.server.held.map fun e => jobWork e.2.2).sum +
    5 * s.waking.length

variable [Fintype ι]

def work (cfg : Pipeline.Config ι) (s : State ι) : Nat :=
  Finset.univ.sum (clientWork s) + (Finset.univ.image cfg.loop).sum (loopWork s) + poolWork s

def budget (cfg : Pipeline.Config ι) (script : ι → List Bytes) : Nat :=
  (Finset.univ.sum fun c => textsWork (script c)) + (Finset.univ.image cfg.loop).card

variable {s t : State ι} {a : Act ι}

theorem work_less (c : ι) (clients : ∀ d, d ≠ c → clientWork t d = clientWork s d)
    (loops : ∀ i, i ≠ cfg.loop c → loopWork t i = loopWork s i)
    (less : clientWork t c + loopWork t (cfg.loop c) + poolWork t <
      clientWork s c + loopWork s (cfg.loop c) + poolWork s) : work cfg t < work cfg s := by
  have member : cfg.loop c ∈ Finset.univ.image cfg.loop :=
    Finset.mem_image_of_mem cfg.loop (Finset.mem_univ c)
  have atClients := sum_changed (Finset.mem_univ c) fun d _ other => clients d other
  have atLoops := sum_changed member fun i _ other => loops i other
  unfold work
  omega

omit [DecidableEq ι] in
theorem initial_work {s₀ : State ι} (initial : Initial cfg s₀ script) : work cfg s₀ = budget cfg script := by
  have clients : clientWork s₀ = fun c => textsWork (script c) := by
    funext c
    obtain ⟨fd, now, made⟩ := initial.server.established c
    simp [clientWork, initial.client, ClientPc.rank, initial.upstream, made, Connection.established,
      Buffer.make]
  have loops : loopWork s₀ = fun _ => 1 := by
    funext i
    simp [loopWork, initial.server.polling, pcWork, queueWork, initial.server.taskqueue,
      initial.wakeupfd]
  simp [work, budget, clients, loops, poolWork, initial.server.works, initial.server.held,
    initial.waking]

omit [DecidableEq ι] [Fintype ι] in
-- Where nothing changed for a loop, its work is as before, unless it is reading what a client has sent.
theorem loopWork_congr {i : Nat} (pc : t.server.pc i = s.server.pc i)
    (queue : t.server.taskqueue i = s.server.taskqueue i) (counter : t.wakeupfd i = s.wakeupfd i)
    (upstream : ∀ c, s.server.pc i = .reading c → t.upstream c = s.upstream c) :
    loopWork t i = loopWork s i := by
  simp only [loopWork, pc, queue, counter]
  cases at_work : s.server.pc i with
  | reading c => simp [pcWork, upstream c at_work]
  | _ => rfl

theorem send_less (ready : Ready cfg s) {c : ι} {buf : Bytes} {later : List Bytes}
    (pc : (s.client c).pc = .sending) (texts : (s.client c).texts = buf :: later) :
    work cfg { s with
      client := Function.update s.client c
        ⟨.header buf.length, later, (s.client c).sent ++ [buf], (s.client c).printed⟩
      upstream := Function.update s.upstream c (s.upstream c ++ Buffer.frame buf) } < work cfg s := by
  apply work_less c
  · intro d other
    simp [clientWork, other]
  · intro i elsewhere
    refine loopWork_congr rfl rfl rfl fun d reading => ?_
    have other : d ≠ c := by
      rintro rfl
      exact elsewhere (ready.routed i d (.inl reading)).symm
    simp [other]
  · have discount : pcWork (Function.update s.upstream c (s.upstream c ++ Buffer.frame buf))
        (s.server.pc (cfg.loop c)) ≤ pcWork s.upstream (s.server.pc (cfg.loop c)) := by
      cases s.server.pc (cfg.loop c) with
      | reading d =>
        by_cases own : d = c
        · subst own
          simp [pcWork, OutputRun.frame_ne_nil]
        · simp [pcWork, own]
      | _ => exact le_rfl
    simp only [clientWork, loopWork, poolWork, texts, textsWork, pc, ClientPc.rank, Function.update_self,
      List.map_cons, List.sum_cons, List.length_append, Buffer.frame_length]
    omega

theorem recv_less {c : ι} {client : Client} {rest : Bytes} (texts : client.texts = (s.client c).texts)
    (rank : client.pc.rank < (s.client c).pc.rank) :
    work cfg { s with
      client := Function.update s.client c client
      downstream := Function.update s.downstream c rest } < work cfg s := by
  apply work_less c
  · intro d other
    simp [clientWork, other]
  · intro i _
    exact loopWork_congr rfl rfl rfl fun _ _ => rfl
  · simp only [clientWork, loopWork, poolWork, Function.update_self, texts]
    omega

theorem woken_less (ready : Ready cfg s) {w i : Nat} {before after : List (Nat × Nat)}
    (waking : s.waking = before ++ (w, i) :: after) :
    work cfg { s with
      waking := before ++ after
      wakeupfd := Function.update s.wakeupfd i (s.wakeupfd i + 1) } < work cfg s := by
  obtain ⟨c, rfl⟩ := ready.known i (.inr (.inr (by simp [waking])))
  apply work_less c
  · exact fun _ _ => rfl
  · intro i elsewhere
    exact loopWork_congr rfl rfl (by simp [elsewhere]) fun _ _ => rfl
  · simp only [clientWork, loopWork, poolWork, waking, Function.update_self, List.length_append,
      List.length_cons]
    omega

-- The loop goes on to what is cheaper, and may have read its eventfd.
theorem turn_less {i : Nat} {pc : Pipeline.LoopPc ι} {wakeupfd : Nat → Nat} (known : ∃ c, cfg.loop c = i)
    (others : ∀ j, j ≠ i → wakeupfd j = s.wakeupfd j)
    (less : pcWork s.upstream pc + 4 * wakeupfd i < pcWork s.upstream (s.server.pc i) + 4 * s.wakeupfd i) :
    work cfg { s with server := setpc s.server i pc, wakeupfd := wakeupfd } < work cfg s := by
  obtain ⟨c, rfl⟩ := known
  apply work_less c
  · exact fun _ _ => rfl
  · intro j elsewhere
    exact loopWork_congr (by simp [setpc, elsewhere]) rfl (others j elsewhere) fun _ _ => rfl
  · simp only [clientWork, loopWork, poolWork, setpc, Function.update_self]
    omega

theorem read_less (ready : Ready cfg s) {i : Nat} {c : ι} {data rest : Bytes}
    (reading : s.server.pc i = .reading c) (some : data ≠ []) (there : s.upstream c = data ++ rest) :
    work cfg { s with
      server := setconn s.server c { s.server.conn c with
        inputbuffer := (s.server.conn c).inputbuffer.append data }
      upstream := Function.update s.upstream c rest } < work cfg s := by
  obtain rfl := ready.routed i c (.inl reading)
  have positive : 0 < data.length := List.length_pos_iff.mpr some
  apply work_less c
  · intro d other
    simp [clientWork, setconn, other]
  · intro j elsewhere
    refine loopWork_congr rfl rfl rfl fun d at_work => ?_
    have other : d ≠ c := by
      rintro rfl
      exact elsewhere (ready.routed j d (.inl at_work)).symm
    simp [other]
  · have discount : pcWork (Function.update s.upstream c rest) (s.server.pc (cfg.loop c)) ≤ 4 := by
      simp only [reading, pcWork]
      split <;> omega
    simp only [clientWork, loopWork, poolWork, setconn, Function.update_self, there, Buffer.append_buf,
      List.length_append]
    omega

theorem unpicked_less (suitable : Suitable script) (inv : Inv cfg script s) (ready : Ready cfg s) {i : Nat}
    {stale : Nat → UInt8} {c : ι} {message last : Bytes} {left : Buffer}
    (picking : s.server.pc i = .picking c message)
    (found : (s.server.conn c).inputbuffer.pickmessage stale message = .ok (false, left, last)) :
    work cfg { s with
      server := setpc (setconn s.server c { s.server.conn c with inputbuffer := left }) i .polling } <
        work cfg s := by
  obtain rfl := ready.routed i c (.inr ⟨message, picking⟩)
  obtain ⟨coming, requests⟩ := (inv.exchange c).requests
  obtain rfl := unpicked_left suitable (inv.exchange c) requests found
  apply work_less c
  · intro d _
    simp [clientWork, setconn, setpc]
  · intro j elsewhere
    exact loopWork_congr (by simp [setpc, setconn, elsewhere]) rfl rfl fun _ _ => rfl
  · simp only [clientWork, loopWork, poolWork, setconn, setpc, Function.update_self, picking, pcWork]
    omega

-- The request pays for its task with the bytes that it had in the input buffer.
theorem picked_less (suitable : Suitable script) (inv : Inv cfg script s) (ready : Ready cfg s) {i : Nat}
    {now : Int} {stale : Nat → UInt8} {c : ι} {message ss : Bytes} {left : Buffer}
    (picking : s.server.pc i = .picking c message)
    (found : (s.server.conn c).inputbuffer.pickmessage stale message = .ok (true, left, ss)) :
    work cfg { s with
      server := { setpc (setconn s.server c { s.server.conn c with inputbuffer := left, lasttime := now })
          i (.picking c (ascii "WORK thread " ++ ss)) with
        works := s.server.works ++ [(c, ascii "WORK thread " ++ ss)]
        delivered := Function.update s.server.delivered c (s.server.delivered c ++ [ss]) } } <
      work cfg s := by
  obtain rfl := ready.routed i c (.inr ⟨message, picking⟩)
  obtain ⟨coming, requests⟩ := (inv.exchange c).requests
  obtain ⟨later, -, input, -⟩ := picked_first suitable (inv.exchange c) requests found
  have size : (s.server.conn c).inputbuffer.buf.length = ss.length + 4 + left.buf.length := by
    simp [input]
  have text : (ascii "WORK thread ").length = 12 := by decide
  apply work_less c
  · intro d other
    simp [clientWork, setconn, setpc, other]
  · intro j elsewhere
    exact loopWork_congr (by simp [setpc, setconn, elsewhere]) rfl rfl fun _ _ => rfl
  · simp only [clientWork, loopWork, poolWork, setconn, setpc, Function.update_self, picking, pcWork, size,
      List.map_append, List.map_cons, List.map_nil, List.sum_append, List.sum_cons, List.sum_nil,
      List.length_append, text]
    omega

theorem wrote_less (suitable : Suitable script) (inv : Inv cfg script s) {c : ι} {accepted : Int}
    {ep : Interest} {conn : Connection} {complete : Bool} (positive : 0 < accepted)
    (most : accepted ≤ (s.server.conn c).outputbuffer.buf.length)
    (done : (s.server.conn c).writecallback accepted (s.server.ep (cfg.loop c)) =
      .ok (ep, conn, complete)) :
    work cfg { s with
      server := { s.server with
        ep := Function.update s.server.ep (cfg.loop c) ep
        conn := Function.update s.server.conn c conn }
      downstream := Function.update s.downstream c
        (s.downstream c ++ (s.server.conn c).outputbuffer.buf.take accepted.toNat) } < work cfg s := by
  obtain ⟨input, output⟩ := exchange_wrote suitable (inv.exchange c) (by omega) most done
  have sizes := congrArg List.length output
  rw [List.length_append, List.length_take] at sizes
  apply work_less c
  · intro d other
    simp [clientWork, other]
  · intro j elsewhere
    exact loopWork_congr rfl rfl rfl fun _ _ => rfl
  · simp only [clientWork, loopWork, poolWork, Function.update_self, input]
    omega

theorem appended_less (inv : Inv cfg script s) {i : Nat} {beyond : Nat → UInt8}
    {task : Pipeline.Closure ι} {rest : List (Pipeline.Closure ι)} {ep : Interest} {conn : Connection}
    (queue : s.server.taskqueue i = task :: rest)
    (done : (s.server.conn task.conn).sendinloop beyond (s.server.ep i) task.dataCopy task.size =
      .ok (ep, conn)) :
    work cfg { s with
      server := { s.server with
        ep := Function.update s.server.ep i ep
        conn := Function.update s.server.conn task.conn conn
        taskqueue := Function.update s.server.taskqueue i rest
        appended := Function.update s.server.appended task.conn (s.server.appended task.conn ++
          conn.outputbuffer.buf.drop (s.server.conn task.conn).outputbuffer.buf.length) } } <
      work cfg s := by
  obtain rfl := inv.server.sendinloop_conn queue done
  obtain rfl := inv.server.routed i task (by simp [queue])
  apply work_less task.conn
  · intro d other
    simp [clientWork, other]
  · intro j elsewhere
    exact loopWork_congr rfl (by simp [elsewhere]) rfl fun _ _ => rfl
  · simp only [clientWork, loopWork, poolWork, Function.update_self, queue, queueWork, List.map_cons,
      List.sum_cons, List.length_append, Buffer.frame_length, load_length]
    omega

theorem taken_less (w : Nat) {c : ι} {message : Bytes} {rest : List (ι × Bytes)}
    (works : s.server.works = (c, message) :: rest) :
    work cfg { s with
      server := { s.server with
        works := rest, held := s.server.held ++ [(w, c, .running message)] } } < work cfg s := by
  apply work_less c
  · exact fun _ _ => rfl
  · exact fun _ _ => loopWork_congr rfl rfl rfl fun _ _ => rfl
  · simp only [clientWork, loopWork, poolWork, works, List.map_append, List.map_cons, List.map_nil,
      List.sum_append, List.sum_cons, List.sum_nil, jobWork]
    omega

theorem copied_less {w : Nat} {c : ι} {message : Bytes} {before after : List (Nat × ι × Job)}
    (held : s.server.held = before ++ (w, c, .running message) :: after) :
    work cfg { s with
      server := { s.server with
        held := before ++
          (w, c, .sending (strdup (onMessage message)) (onMessage message).length) :: after } } <
      work cfg s := by
  apply work_less c
  · exact fun _ _ => rfl
  · exact fun _ _ => loopWork_congr rfl rfl rfl fun _ _ => rfl
  · have text : (ascii "reply:").length = 6 := by decide
    simp only [clientWork, loopWork, poolWork, held, List.map_append, List.map_cons, List.sum_append,
      List.sum_cons, jobWork, onMessage, List.length_append, text]
    omega

theorem pushed_less {w : Nat} {c : ι} {dataCopy : Bytes} {size : Nat} {before after : List (Nat × ι × Job)}
    (held : s.server.held = before ++ (w, c, .sending dataCopy size) :: after) :
    work cfg { s with
      server := { s.server with
        taskqueue := Function.update s.server.taskqueue (cfg.loop c)
          (s.server.taskqueue (cfg.loop c) ++ [⟨c, dataCopy, size⟩])
        held := before ++ after
        queued := Function.update s.server.queued c (s.server.queued c ++ [(dataCopy, size)]) }
      waking := s.waking ++ [(w, cfg.loop c)] } < work cfg s := by
  apply work_less c
  · exact fun _ _ => rfl
  · intro j elsewhere
    exact loopWork_congr rfl (by simp [elsewhere]) rfl fun _ _ => rfl
  · simp only [clientWork, loopWork, poolWork, held, Function.update_self, queueWork, List.map_append,
      List.map_cons, List.map_nil, List.sum_append, List.sum_cons, List.sum_nil, jobWork,
      List.length_append, List.length_cons, List.length_nil]
    omega

theorem work_step (suitable : Suitable script) (inv : Inv cfg script s) (ready : Ready cfg s)
    (effective : Effective s a) (taken : step cfg s a = some t) : work cfg t < work cfg s := by
  cases step_cases inv.server taken with
  | send pc texts => exact send_less ready pc texts
  | header pc some most there => exact recv_less rfl (by simp [pc, ClientPc.rank])
  | body pc there => refine recv_less ?_ ?_ <;> split <;> simp [pc, ClientPc.rank]
  | woken waking => exact woken_less ready waking
  | readable polling some => exact turn_less ⟨_, rfl⟩ (fun _ _ => rfl) (by simp [polling, pcWork, some])
  | again reading none =>
    refine turn_less ⟨_, ready.routed _ _ (.inl reading)⟩ (fun _ _ => rfl) ?_
    simp [reading, pcWork, none]
  | read reading some there => exact read_less ready reading some there
  | unpicked picking found => exact unpicked_less suitable inv ready picking found
  | picked picking found => exact picked_less suitable inv ready picking found
  | wrote polling reported least most done => exact wrote_less suitable inv effective.2 most done
  | handlewakeup polling counted =>
    refine turn_less (ready.known _ (.inr (.inl counted))) (fun j other => by simp [other]) ?_
    simp only [polling, pcWork, Function.update_self]
    omega
  | drained draining queue =>
    refine turn_less (ready.known _ (.inl (by simp [draining]))) (fun _ _ => rfl) ?_
    simp [draining, pcWork]
  | appended draining queue done => exact appended_less inv queue done
  | taken works => exact taken_less _ works
  | copied held => exact copied_less held
  | pushed held unlocked => exact pushed_less held

theorem clients_answered (threads : 0 < cfg.workthreadnum) (suitable : Suitable script) {s₀ : State ι}
    (initial : Initial cfg s₀ script) :
    Inevitable (step cfg) Effective s₀ (fun s => ∀ c, (s.client c).printed = (script c).map workReply)
      (budget cfg script) := by
  rw [← initial_work initial]
  apply inevitable (work cfg)
  · intro s a t (held : Inv cfg script s ∧ Ready cfg s) effective taken
    exact ⟨inv_step suitable held.1 effective.1 taken, ready_step suitable held.1 held.2 taken⟩
  · intro s a t held effective taken
    exact work_step suitable held.1 held.2 effective taken
  · intro s held stuck c
    exact stuck_answered stuck threads suitable held.1 held.2 c
  · exact ⟨initial_inv initial, initial_ready initial⟩

theorem clients_answered_two :
    budget (Pipeline.twoClients 2) (fun _ => texts) = 1933 ∧
      Inevitable (step (Pipeline.twoClients 2)) Effective connected
        (fun s => ∀ c, (s.client c).printed = texts.map workReply)
        (budget (Pipeline.twoClients 2) fun _ => texts) :=
  ⟨by decide, clients_answered (by decide) texts_suitable (connected_initial 2)⟩

end Reactor.ClientServer
