import ReactorServer.Pipeline
import ReactorServer.ThreadPool
import ReactorServer.Wakeup

set_option autoImplicit false

namespace Reactor

open ByteString Transition

-- Where an IO thread is in the handleevent of a client channel. `notifying` is between the push of
-- addtask and its notify_one.
inductive ChannelPc (ι : Type) where
  | outside
  | reading (c : ι)
  | picking (c : ι) (message : Bytes)
  | notifying (c : ι) (message : Bytes)

def ChannelPc.conn {ι : Type} : ChannelPc ι → Option ι
  | .outside => none
  | .reading c => some c
  | .picking c _ => some c
  | .notifying c _ => some c

-- Where a work thread is in OnMessage. `waking` is between the push of queueinloop and its wakeup.
inductive TaskPc where
  | starting
  | sending (dataCopy : Bytes) (size : Nat)
  | waking
  | returned

-- How far EchoServer::Stop is: in Stop of the pool, or in TcpServer::stop with sub loop k next, or with
-- its stop_ stored and its eventfd to be written. `pool` is the Stop of the IO threads.
inductive EchoStop where
  | idle
  | works
  | storing (k : Nat)
  | waking (k : Nat)
  | pool
  deriving DecidableEq

def EchoStop.stored (m : Nat) : EchoStop → Nat
  | .idle => 0
  | .works => 0
  | .storing k => k
  | .waking k => k + 1
  | .pool => m

-- n work threads, m sub loops. `delivered` and `appended` are as in Pipeline.
structure Threaded (ι : Type) (n m : Nat) where
  threadpool : ThreadPool (ι × Bytes) n
  subloops : Fin m → EventLoop (Pipeline.Closure ι)
  ep : Fin m → Interest
  conn : ι → Connection
  pc : Fin m → ChannelPc ι
  task : Fin n → TaskPc
  delivered : ι → List Bytes
  appended : ι → Bytes
  stopper : EchoStop

namespace Threaded

inductive Act (ι : Type) (n m : Nat) where
  | loop (i : Fin m) (channels : List Ready)
  | run (i : Fin m)
  | readable (c : ι)
  | read (i : Fin m) (data : Bytes)
  | again (i : Fin m)
  | pickmessage (i : Fin m) (now : Int) (stale : Nat → UInt8)
  | notifyone (i : Fin m) (w : Option (Fin n))
  | writable (c : ι) (accepted : Int)
  | sendinloop (i : Fin m) (beyond : Nat → UInt8)
  | work (w : Fin n)
  | spurious (w : Fin n)
  | send (w : Fin n)
  | queueinloop (w : Fin n)
  | wakeup (w : Fin n)
  | stop

def atEvent {α : Type} : RunPc α → Bool
  | .dispatching (.other :: _) => true
  | _ => false

variable {ι : Type} [DecidableEq ι] {n m : Nat} (loop : ι → Fin m) (s : Threaded ι n m)

def setpc (i : Fin m) (pc : ChannelPc ι) : Threaded ι n m := { s with pc := Function.update s.pc i pc }

def setconn (c : ι) (conn : Connection) : Threaded ι n m :=
  { s with conn := Function.update s.conn c conn }

def settask (w : Fin n) (task : TaskPc) : Threaded ι n m := { s with task := Function.update s.task w task }

def poolStep (a : ThreadPool.Act (ι × Bytes) n) : Option (Threaded ι n m) :=
  (s.threadpool.step a).map fun pool => { s with threadpool := pool }

def loopStep (i : Fin m) (a : EventLoop.Act (Pipeline.Closure ι)) : Option (Threaded ι n m) :=
  ((s.subloops i).step a).map fun subloop =>
    { s with subloops := Function.update s.subloops i subloop }

-- Every step of `run` but the call of a closure. Other events, such as the timerfd's, are passed by.
def run (i : Fin m) : Option (Threaded ι n m) :=
  match s.pc i, (s.subloops i).pc with
  | .outside, .running _ _ => none
  | .outside, _ => s.loopStep i .run
  | _, _ => none

def readable (c : ι) : Option (Threaded ι n m) :=
  match s.pc (loop c) with
  | .outside => if atEvent (s.subloops (loop c)).pc then some (s.setpc (loop c) (.reading c)) else none
  | _ => none

def read (i : Fin m) (data : Bytes) : Option (Threaded ι n m) :=
  match s.pc i with
  | .reading c =>
    if data ≠ [] ∧ data.length ≤ 1024 then
      some (s.setconn c { s.conn c with inputbuffer := (s.conn c).inputbuffer.append data })
    else none
  | _ => none

def again (i : Fin m) : Option (Threaded ι n m) :=
  match s.pc i with
  | .reading c => some (s.setpc i (.picking c []))
  | _ => none

-- One round of the pick loop of onmessage, in which HandleMessage pushes a task. After the last round
-- the loop goes on to its next channel.
def pickmessage (i : Fin m) (now : Int) (stale : Nat → UInt8) : Option (Threaded ι n m) :=
  match s.pc i with
  | .picking c message =>
    match (s.conn c).inputbuffer.pickmessage stale message with
    | .error _ => none
    | .ok (false, inputbuffer, _) =>
      ((s.setconn c { s.conn c with inputbuffer := inputbuffer }).setpc i .outside).loopStep i .run
    | .ok (true, inputbuffer, ss) =>
      match handleMessage n ss with
      | .inloop _ => none
      | .task task =>
        let conn := { s.conn c with inputbuffer := inputbuffer, lasttime := now }
        poolStep { (s.setconn c conn).setpc i (.notifying c task) with
          delivered := Function.update s.delivered c (s.delivered c ++ [ss]) } (.push (c, task))
  | _ => none

def notifyone (i : Fin m) (w : Option (Fin n)) : Option (Threaded ι n m) :=
  match s.pc i with
  | .notifying c message => (s.setpc i (.picking c message)).poolStep (.notifyone w)
  | _ => none

def writable (c : ι) (accepted : Int) : Option (Threaded ι n m) :=
  let i := loop c
  match s.pc i, (s.conn c).writecallback accepted (s.ep i) with
  | .outside, .ok (ep, conn, _) =>
    if atEvent (s.subloops i).pc then
      loopStep { s.setconn c conn with ep := Function.update s.ep i ep } i .run
    else none
  | _, _ => none

def sendinloop (i : Fin m) (beyond : Nat → UInt8) : Option (Threaded ι n m) :=
  match (s.subloops i).pc with
  | .running fn _ =>
    let c := fn.conn
    match (s.conn c).sendinloop beyond (s.ep i) fn.dataCopy fn.size with
    | .error _ => none
    | .ok (ep, conn) =>
      let added := conn.outputbuffer.buf.drop (s.conn c).outputbuffer.buf.length
      loopStep { s.setconn c conn with
        ep := Function.update s.ep i ep
        appended := Function.update s.appended c (s.appended c ++ added) } i .run
  | _ => none

def work (w : Fin n) : Option (Threaded ι n m) :=
  match s.threadpool.threads w, s.task w with
  | .running _, .returned => (s.settask w .starting).poolStep (.work w)
  | .running _, _ => none
  | _, _ => s.poolStep (.work w)

def send (w : Fin n) : Option (Threaded ι n m) :=
  match s.threadpool.threads w, s.task w with
  | .running (c, message), .starting =>
    match (s.conn c).send false (onMessage message) with
    | .refused => some (s.settask w .returned)
    | .inloop => none
    | .queued dataCopy size => some (s.settask w (.sending dataCopy size))
  | _, _ => none

def queueinloop (w : Fin n) : Option (Threaded ι n m) :=
  match s.threadpool.threads w, s.task w with
  | .running (c, _), .sending dataCopy size =>
    (s.settask w .waking).loopStep (loop c) (.queueinloop ⟨c, dataCopy, size⟩)
  | _, _ => none

def wakeup (w : Fin n) : Option (Threaded ι n m) :=
  match s.threadpool.threads w, s.task w with
  | .running (c, _), .waking => (s.settask w .returned).loopStep (loop c) .queueinloopWakeup
  | _, _ => none

def stop : Option (Threaded ι n m) :=
  match s.stopper with
  | .idle => (s.poolStep .stop).map fun s => { s with stopper := .works }
  | .works =>
    match s.threadpool.stopper with
    | .idle => none
    | .stored => s.poolStep .notifyall
    | .joining _ => s.poolStep .join
    | .returned => some { s with stopper := .storing 0 }
  | .storing k =>
    if h : k < m then (s.loopStep ⟨k, h⟩ .stop).map fun s => { s with stopper := .waking k }
    else some { s with stopper := .pool }
  | .waking k =>
    if h : k < m then (s.loopStep ⟨k, h⟩ .stopWakeup).map fun s => { s with stopper := .storing (k + 1) }
    else none
  | .pool => none

def step : Act ι n m → Option (Threaded ι n m)
  | .loop i channels => s.loopStep i (.loop channels)
  | .run i => s.run i
  | .readable c => s.readable loop c
  | .read i data => s.read i data
  | .again i => s.again i
  | .pickmessage i now stale => s.pickmessage i now stale
  | .notifyone i w => s.notifyone i w
  | .writable c accepted => s.writable loop c accepted
  | .sendinloop i beyond => s.sendinloop i beyond
  | .work w => s.work w
  | .spurious w => s.poolStep (.spurious w)
  | .send w => s.send w
  | .queueinloop w => s.queueinloop loop w
  | .wakeup w => s.wakeup loop w
  | .stop => s.stop

structure Initial : Prop where
  threadpool : s.threadpool = .initial
  subloops : ∀ i, s.subloops i = .initial
  established : ∀ c, ∃ fd now, s.conn c = .established fd now
  listed : ∀ c, s.ep (loop c) (s.conn c).fd = some EPOLLIN
  distinct : ∀ c d, loop c = loop d → (s.conn c).fd = (s.conn d).fd → c = d
  pc : ∀ i, s.pc i = .outside
  task : ∀ w, s.task w = .starting
  delivered : ∀ c, s.delivered c = []
  appended : ∀ c, s.appended c = []
  stopper : s.stopper = .idle

end Threaded

end Reactor
