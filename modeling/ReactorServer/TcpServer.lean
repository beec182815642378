import ReactorServer.EchoServer
import ReactorServer.Shared.OrderedMap
import ReactorServer.Shared.Transition

set_option autoImplicit false

namespace Reactor

open ByteString

structure Config where
  threadnum : Nat
  timeout : Int
  workthreadnum : Nat

inductive Source where
  | timer
  | wakeup
  | client (c : Nat)
  deriving DecidableEq

-- std::bind(&Connection::sendinloop, this, dataCopy, size), where `this` is a raw pointer.
structure Closure where
  conn : Nat
  dataCopy : Bytes
  size : Nat

-- How far the task of a request is: before its send, past the test of disconnect_, past the push.
inductive WorkPc where
  | waiting (message : Bytes)
  | sending (dataCopy : Bytes) (size : Nat)
  | returning
  deriving DecidableEq

-- `closing` is inside closecallback_ before its erase, `erased` after it; both hold the shared_ptr
-- argument. `returning` is what is left of handleevent once that argument is gone. `draining` is in
-- handlewakeup, with mutex_ locked.
inductive LoopPc where
  | polling
  | draining
  | reading (c : Nat)
  | writing (c : Nat)
  | closing (c : Nat)
  | erased (c : Nat)
  | returning (c : Nat)
  | scanning (now : Int) (aa : Option Int)
  | notifying (c : Nat) (now : Int) (aa : Option Int)
  | advancing (now : Int) (aa : Int)
  deriving DecidableEq

-- Where newconnection is: `wiring c n` has set n of the four callbacks, `inserted c` has put c into
-- TcpServer::conns_ and `listed c` into both maps.
inductive MainPc where
  | accepting
  | constructed (c : Nat)
  | wiring (c : Nat) (n : Nat)
  | inserted (c : Nat)
  | listed (c : Nat)
  deriving DecidableEq

inductive Fault where
  | danglingChannel
  | danglingConnection
  | terminated
  | endIterator
  | exited
  deriving DecidableEq

-- The main thread in newconnection, every sub loop and the work threads. A connection is named by its
-- place in the order of construction. The batch of a loop carries the revents_ of each channel.
structure TcpServer where
  now : Int
  next : Nat
  conn : Nat → Connection
  conns : OrderedMap Int Nat
  ep : Nat → Interest
  subconns : Nat → OrderedMap Int Nat
  batch : Nat → List (Source × UInt32)
  pc : Nat → LoopPc
  taskqueue : Nat → List Closure
  works : List (Nat × WorkPc)
  main : MainPc
  fault : Option Fault

inductive Act where
  | accept (fd : Int)
  | newconnection
  | tick (seconds : Nat)
  | wait (i : Nat) (batch : List (Source × UInt32))
  | dispatch (i : Nat)
  | message (i : Nat) (ss : Bytes)
  | eof (i : Nat)
  | drained (i : Nat)
  | written (i : Nat) (accepted : Int)
  | closeconnection (i : Nat)
  | leave (i : Nat)
  | sendinloop (i : Nat) (beyond : Nat → UInt8)
  | handletimer (i : Nat) (past : Int)
  | send (c : Nat) (message : Bytes)
  | queueinloop (c : Nat) (dataCopy : Bytes) (size : Nat)
  | finish (c : Nat)

def LoopPc.handled : LoopPc → Option Nat
  | .reading c => some c
  | .writing c => some c
  | .closing c => some c
  | .erased c => some c
  | .returning c => some c
  | _ => none

def LoopPc.argument : LoopPc → Option Nat
  | .closing c => some c
  | .erased c => some c
  | _ => none

def LoopPc.iterator : LoopPc → Option Int
  | .scanning _ aa => aa
  | .notifying _ _ aa => aa
  | .advancing _ aa => some aa
  | _ => none

def MainPc.conn : MainPc → Option Nat
  | .accepting => none
  | .constructed c => some c
  | .wiring c _ => some c
  | .inserted c => some c
  | .listed c => some c

def MainPc.pending : MainPc → Option Nat
  | .constructed c => some c
  | .wiring c _ => some c
  | .inserted c => some c
  | _ => none

def MainPc.callbacks (pc : MainPc) (c : Nat) : Nat :=
  match pc with
  | .constructed d => if d = c then 0 else 4
  | .wiring d n => if d = c then n else 4
  | _ => 4

def reportable (mask revents : UInt32) : Prop :=
  revents ≠ 0 ∧ revents &&& ~~~(mask ||| EPOLLERR ||| EPOLLHUP) = 0

instance (mask revents : UInt32) : Decidable (reportable mask revents) :=
  inferInstanceAs (Decidable (_ ∧ _))

namespace TcpServer

variable (cfg : Config) (s : TcpServer)

def fd (c : Nat) : Int := (s.conn c).fd

def home (c : Nat) : Nat := (s.fd c % cfg.threadnum).toNat

def Held (c : Nat) : Prop :=
  (s.fd c, c) ∈ s.conns ∨ (s.fd c, c) ∈ s.subconns (home cfg s c) ∨ c ∈ s.works.map Prod.fst

-- The others that can hold it are local variables: `conn` of newconnection, the argument of closecallback_.
def Alive (c : Nat) : Prop :=
  Held cfg s c ∨ s.main.conn = some c ∨ (s.pc (home cfg s c)).argument = some c

instance (c : Nat) : Decidable (Held cfg s c) := inferInstanceAs (Decidable (_ ∨ _ ∨ _))

instance (c : Nat) : Decidable (Alive cfg s c) := inferInstanceAs (Decidable (_ ∨ _ ∨ _))

@[simp] def setpc (i : Nat) (pc : LoopPc) : TcpServer := { s with pc := Function.update s.pc i pc }

@[simp] def setbatch (i : Nat) (batch : List (Source × UInt32)) : TcpServer :=
  { s with batch := Function.update s.batch i batch }

@[simp] def setsubconns (i : Nat) (conns : OrderedMap Int Nat) : TcpServer :=
  { s with subconns := Function.update s.subconns i conns }

@[simp] def setconn (i : Nat) (c : Nat) (ep : Interest) (conn : Connection) : TcpServer :=
  { s with ep := Function.update s.ep i ep, conn := Function.update s.conn c conn }

-- accept4 returns a number that no open socket has; the close of the socket that had it before took
-- it off the interest list. The constructor of the Connection follows, with its loop chosen before
-- the Socket moves into it.
def accept (fd : Int) : Option (Except Fault TcpServer) :=
  if s.main = .accepting ∧ 0 < cfg.threadnum ∧ 0 ≤ fd ∧ ∀ c < s.next, Alive cfg s c → s.fd c ≠ fd then
    let i := (fd % cfg.threadnum).toNat
    match Connection.make (Function.update (s.ep i) fd none) fd s.now with
    | .error _ => some (.error .exited)
    | .ok (ep, conn) =>
      some (.ok { s.setconn i s.next ep conn with next := s.next + 1, main := .constructed s.next })
  else none

def newconnection : Option (Except Fault TcpServer) :=
  match s.main with
  | .accepting => none
  | .constructed c => some (.ok { s with main := .wiring c 0 })
  | .wiring c n =>
    if n < 4 then some (.ok { s with main := .wiring c (n + 1) })
    else some (.ok { s with conns := s.conns.insert (s.fd c) c, main := .inserted c })
  | .inserted c =>
    let i := home cfg s c
    some (.ok { s.setsubconns i ((s.subconns i).insert (s.fd c) c) with main := .listed c })
  | .listed _ => some (.ok { s with main := .accepting })

def reported (i : Nat) (event : Source × UInt32) : Prop :=
  match event with
  | (.client c, revents) =>
    c < s.next ∧ Alive cfg s c ∧ home cfg s c = i ∧ ∃ mask ∈ s.ep i (s.fd c), reportable mask revents
  | _ => True

instance (i : Nat) (event : Source × UInt32) : Decidable (reported cfg s i event) := by
  unfold reported
  split <;> infer_instance

def wait (i : Nat) (batch : List (Source × UInt32)) : Option (Except Fault TcpServer) :=
  if i < cfg.threadnum ∧ s.pc i = .polling ∧ s.batch i = [] ∧ batch.length ≤ 100 ∧
      (batch.map Prod.fst).Nodup ∧ ∀ event ∈ batch, reported cfg s i event then
    some (.ok (s.setbatch i batch))
  else none

-- closecallback, errorcallback: `shared_from_this` needs an owner, the call a callback that is set.
def closecallback (i : Nat) (c : Nat) (callback : Nat) : Except Fault TcpServer :=
  match (s.conn c).closecallback (s.ep i) with
  | .error _ => .error .exited
  | .ok (ep, conn) =>
    if s.main = .constructed c ∨ s.main.callbacks c < callback then .error .terminated
    else .ok ((s.setconn i c ep conn).setpc i (.closing c))

def dispatch (i : Nat) : Option (Except Fault TcpServer) :=
  match s.pc i, s.batch i with
  | .polling, (source, revents) :: rest =>
    let s := s.setbatch i rest
    match source with
    | .timer => some (.ok (s.setpc i (.scanning s.now (s.subconns i).first)))
    | .wakeup => some (.ok (s.setpc i .draining))
    | .client c =>
      if Alive cfg s c then
        match handleevent revents with
        | .close => some (s.closecallback i c 1)
        | .read => some (.ok (s.setpc i (.reading c)))
        | .write => some (.ok (s.setpc i (.writing c)))
        | .error => some (s.closecallback i c 2)
      else some (.error .danglingChannel)
  | _, _ => none

-- onmessagecallback_ is EchoServer::HandleMessage, which binds the shared_ptr into a task, or replies at once
-- where there are no work threads.
def deliver (i : Nat) (c : Nat) (ss : Bytes) : Except Fault TcpServer :=
  let conn := { s.conn c with lasttime := s.now }
  match handleMessage cfg.workthreadnum ss with
  | .task message => .ok { s.setconn i c (s.ep i) conn with works := s.works ++ [(c, .waiting message)] }
  | .inloop message =>
    let reply := onMessage message
    match conn.send true reply with
    | .inloop =>
      match conn.sendinloop (fun _ => 0) (s.ep i) reply reply.length with
      | .error _ => .error .exited
      | .ok (ep, conn) => .ok (s.setconn i c ep conn)
    | _ => .ok (s.setconn i c (s.ep i) conn)

def message (i : Nat) (ss : Bytes) : Option (Except Fault TcpServer) :=
  match s.pc i with
  | .reading c =>
    if ¬ Alive cfg s c then some (.error .danglingChannel)
    else if s.main = .constructed c ∨ s.main.callbacks c < 3 then some (.error .terminated)
    else some (deliver cfg s i c ss)
  | _ => none

def eof (i : Nat) : Option (Except Fault TcpServer) :=
  match s.pc i with
  | .reading c =>
    if Alive cfg s c then some (s.closecallback i c 1) else some (.error .danglingChannel)
  | _ => none

def drained (i : Nat) : Option (Except Fault TcpServer) :=
  match s.pc i with
  | .reading c =>
    if Alive cfg s c then some (.ok (s.setpc i (.returning c))) else some (.error .danglingChannel)
  | _ => none

def written (i : Nat) (accepted : Int) : Option (Except Fault TcpServer) :=
  match s.pc i with
  | .writing c =>
    if Alive cfg s c then
      match (s.conn c).writecallback accepted (s.ep i) with
      | .error _ => some (.error .exited)
      | .ok (ep, conn, complete) =>
        if complete ∧ (s.main = .constructed c ∨ s.main.callbacks c < 4) then
          some (.error .terminated)
        else some (.ok ((s.setconn i c ep conn).setpc i (.returning c)))
    else some (.error .danglingChannel)
  | _ => none

def closeconnection (i : Nat) : Option (Except Fault TcpServer) :=
  match s.pc i with
  | .closing c => some (.ok { s.setpc i (.erased c) with conns := s.conns.erase (s.fd c) })
  | _ => none

def leave (i : Nat) : Option (Except Fault TcpServer) :=
  match s.pc i with
  | .erased c => some (.ok (s.setpc i (.returning c)))
  | .returning _ => some (.ok (s.setpc i .polling))
  | _ => none

def sendinloop (i : Nat) (beyond : Nat → UInt8) : Option (Except Fault TcpServer) :=
  match s.pc i, s.taskqueue i with
  | .draining, [] => some (.ok (s.setpc i .polling))
  | .draining, fn :: rest =>
    if Alive cfg s fn.conn then
      match (s.conn fn.conn).sendinloop beyond (s.ep i) fn.dataCopy fn.size with
      | .error _ => some (.error .exited)
      | .ok (ep, conn) =>
        some (.ok { s.setconn i fn.conn ep conn with taskqueue := Function.update s.taskqueue i rest })
    else some (.error .danglingConnection)
  | _, _ => none

-- The iterator is the key it stands at, none for end(). `aa` has moved on when timercallback_ is
-- called with aa->first, and the loop header moves it once more. At the end `past` is what stands in
-- for the key, and the next move is off the map.
def handletimer (i : Nat) (past : Int) : Option (Except Fault TcpServer) :=
  match s.pc i with
  | .scanning _ none => some (.ok (s.setpc i .polling))
  | .scanning now (some k) =>
    match (s.subconns i).find? k with
    | none => some (.error .endIterator)
    | some c =>
      let aa := (s.subconns i).next k
      if (s.conn c).timeout now cfg.timeout then
        some (.ok ((s.setsubconns i ((s.subconns i).erase k)).setpc i (.notifying c now aa)))
      else some (.ok (s.setpc i (.scanning now aa)))
  | .notifying _ _ none =>
    some (.ok { s with conns := s.conns.erase past, fault := some .endIterator })
  | .notifying _ now (some k) =>
    some (.ok { s.setpc i (.advancing now k) with conns := s.conns.erase k })
  | .advancing now k => some (.ok (s.setpc i (.scanning now ((s.subconns i).next k))))
  | _ => none

def send (c : Nat) (message : Bytes) : Option (Except Fault TcpServer) :=
  if (c, .waiting message) ∈ s.works then
    let others := s.works.erase (c, .waiting message)
    match (s.conn c).send false (onMessage message) with
    | .refused => some (.ok { s with works := others ++ [(c, .returning)] })
    | .inloop => none
    | .queued dataCopy size => some (.ok { s with works := others ++ [(c, .sending dataCopy size)] })
  else none

-- Not while handlewakeup of that loop has mutex_ locked.
def queueinloop (c : Nat) (dataCopy : Bytes) (size : Nat) : Option (Except Fault TcpServer) :=
  let i := home cfg s c
  if (c, .sending dataCopy size) ∈ s.works ∧ s.pc i ≠ .draining then
    some (.ok { s with
      works := s.works.erase (c, .sending dataCopy size) ++ [(c, .returning)]
      taskqueue := Function.update s.taskqueue i (s.taskqueue i ++ [⟨c, dataCopy, size⟩]) })
  else none

def finish (c : Nat) : Option (Except Fault TcpServer) :=
  if (c, .returning) ∈ s.works then some (.ok { s with works := s.works.erase (c, .returning) }) else none

def act : Act → Option (Except Fault TcpServer)
  | .accept fd => accept cfg s fd
  | .newconnection => newconnection cfg s
  | .tick seconds => some (.ok { s with now := s.now + seconds })
  | .wait i batch => wait cfg s i batch
  | .dispatch i => dispatch cfg s i
  | .message i ss => message cfg s i ss
  | .eof i => eof cfg s i
  | .drained i => drained cfg s i
  | .written i accepted => written cfg s i accepted
  | .closeconnection i => closeconnection s i
  | .leave i => leave s i
  | .sendinloop i beyond => sendinloop cfg s i beyond
  | .handletimer i past => handletimer cfg s i past
  | .send c message => send s c message
  | .queueinloop c dataCopy size => queueinloop cfg s c dataCopy size
  | .finish c => finish s c

-- A fault ends the run; what the step had done by then is not kept.
def outcome : Except Fault TcpServer → TcpServer
  | .ok t => t
  | .error fault => { s with fault := some fault }

def step (a : Act) : Option TcpServer :=
  if s.fault ≠ none then none else (act cfg s a).map (outcome s)

def initial (others : Nat → Interest) : TcpServer where
  now := 0
  next := 0
  conn _ := .established (-1) 0
  conns := .empty
  ep := others
  subconns _ := .empty
  batch _ := []
  pc _ := .polling
  taskqueue _ := []
  works := []
  main := .accepting
  fault := none

def connect (fd : Int) : List Act := .accept fd :: List.replicate 8 .newconnection

end TcpServer

end Reactor
