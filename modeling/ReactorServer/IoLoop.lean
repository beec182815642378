import ReactorServer.TcpServer

set_option autoImplicit false

namespace Reactor

open ByteString

-- What Connection calls: closecallback_, errorcallback_, onmessagecallback_, sendcompletecallback_.
inductive Notice where
  | closed
  | errored
  | message (m : Bytes)
  | complete
  deriving DecidableEq

inductive IoPc where
  | polling
  | reading (c : Nat)
  | picking (c : Nat) (message : Bytes)
  | writing (c : Nat)
  | draining
  deriving DecidableEq

inductive Ending where
  | exited
  | dangling
  deriving DecidableEq

structure IoLoop where
  ep : Interest
  next : Nat
  conn : Nat → Connection
  alive : Nat → Bool
  batch : List (Source × UInt32)
  pc : IoPc
  taskqueue : List Closure
  log : Nat → List Notice
  ended : Option Ending

namespace IoLoop

inductive Act where
  | construct (fd now : Int)
  | drop (c : Nat)
  | queueinloop (closure : Closure)
  | wait (batch : List (Source × UInt32))
  | dispatch
  | read (data : Bytes)
  | again
  | eof
  | pick (stale : Nat → UInt8) (now : Int) (beyond : Nat → UInt8)
  | written (accepted : Int)
  | task (beyond : Nat → UInt8)

variable (threadnum : Nat) (s : IoLoop)

def finish : Except Stop IoLoop → IoLoop
  | .ok t => t
  | .error _ => { s with ended := some .exited }

-- What goes through the raw pointer of the epoll event or of the closure.
def through (c : Nat) (result : Except Stop IoLoop) : IoLoop :=
  if s.alive c then s.finish result else { s with ended := some .dangling }

def store (c : Nat) (ep : Interest) (conn : Connection) (notices : List Notice) : IoLoop :=
  { s with
    ep := ep
    conn := Function.update s.conn c conn
    log := Function.update s.log c (s.log c ++ notices) }

-- The number is one that no open socket has; the close of the one before took it off the list.
def construct (fd now : Int) : Option IoLoop :=
  if ∀ c < s.next, s.alive c → (s.conn c).fd ≠ fd then
    some <| s.finish do
      let (ep, conn) ← Connection.make (Function.update s.ep fd none) fd now
      return { s with
        ep := ep
        next := s.next + 1
        conn := Function.update s.conn s.next conn
        alive := Function.update s.alive s.next true }
  else none

def reports (event : Source × UInt32) : Prop :=
  match event with
  | (.client c, revents) =>
    s.alive c ∧ ∃ mask ∈ s.ep (s.conn c).fd, reportable mask revents
  | _ => True

instance (event : Source × UInt32) : Decidable (s.reports event) :=
  match event with
  | (.client _, _) => inferInstanceAs (Decidable (_ ∧ _))
  | (.timer, _) => inferInstanceAs (Decidable True)
  | (.wakeup, _) => inferInstanceAs (Decidable True)

def wait (batch : List (Source × UInt32)) : Option IoLoop :=
  if s.pc = .polling ∧ s.batch = [] ∧ (batch.map Prod.fst).Nodup ∧ ∀ event ∈ batch, s.reports event then
    some { s with batch := batch }
  else none

def closecallback (c : Nat) : Except Stop IoLoop := do
  let (ep, conn) ← (s.conn c).closecallback s.ep
  return s.store c ep conn [.closed]

def errorcallback (c : Nat) : Except Stop IoLoop := do
  let (ep, conn) ← (s.conn c).errorcallback s.ep
  return s.store c ep conn [.errored]

def handle (c : Nat) (revents : UInt32) : Except Stop IoLoop :=
  match handleevent revents with
  | .close => s.closecallback c
  | .read => .ok { s with pc := .reading c }
  | .write => .ok { s with pc := .writing c }
  | .error => s.errorcallback c

-- handletimer only erases: its drops are steps of their own.
def dispatch : Option IoLoop :=
  match s.pc, s.batch with
  | .polling, (source, revents) :: rest =>
    let s := { s with batch := rest }
    match source with
    | .timer => some s
    | .wakeup => some { s with pc := .draining }
    | .client c => some (s.through c (s.handle c revents))
  | _, _ => none

def read (data : Bytes) : Option IoLoop :=
  match s.pc with
  | .reading c =>
    if 0 < data.length ∧ data.length ≤ 1024 then
      let conn := s.conn c
      some <| s.through c <|
        .ok (s.store c s.ep { conn with inputbuffer := conn.inputbuffer.append data } [])
    else none
  | _ => none

def again : Option IoLoop :=
  match s.pc with
  | .reading c => some { s with pc := .picking c [] }
  | _ => none

def eof : Option IoLoop :=
  match s.pc with
  | .reading c => some (s.through c ({ s with pc := .polling }.closecallback c))
  | _ => none

-- onmessagecallback_ is EchoServer::HandleMessage. In the IO thread it sends the reply at once and
-- leaves it in the variable; what free does to the string's own buffer is not modelled.
def deliver (beyond : Nat → UInt8) (c : Nat) (conn : Connection) (message : Bytes) :
    Except Stop IoLoop :=
  match handleMessage threadnum message with
  | .task left => return { s.store c s.ep conn [.message message] with pc := .picking c left }
  | .inloop left => do
    let reply := onMessage left
    match conn.send true reply with
    | .inloop =>
      let (ep, conn) ← conn.sendinloop beyond s.ep reply reply.length
      return { s.store c ep conn [.message message] with pc := .picking c reply }
    | _ => return { s.store c s.ep conn [.message message] with pc := .picking c reply }

def pick (stale : Nat → UInt8) (now : Int) (beyond : Nat → UInt8) : Option IoLoop :=
  match s.pc with
  | .picking c message =>
    let conn := s.conn c
    some <| s.through c do
      let (found, inputbuffer, message) ← conn.inputbuffer.pickmessage stale message
      let conn := { conn with inputbuffer := inputbuffer }
      if found then deliver threadnum s beyond c { conn with lasttime := now } message
      else return { s.store c s.ep conn [] with pc := .polling }
  | _ => none

def written (accepted : Int) : Option IoLoop :=
  match s.pc with
  | .writing c =>
    some <| s.through c do
      let (ep, conn, complete) ← (s.conn c).writecallback accepted s.ep
      return { s.store c ep conn (if complete then [.complete] else []) with pc := .polling }
  | _ => none

def task (beyond : Nat → UInt8) : Option IoLoop :=
  match s.pc, s.taskqueue with
  | .draining, [] => some { s with pc := .polling }
  | .draining, closure :: rest =>
    let s := { s with taskqueue := rest }
    some <| s.through closure.conn do
      let (ep, conn) ← (s.conn closure.conn).sendinloop beyond s.ep closure.dataCopy closure.size
      return s.store closure.conn ep conn []
  | _, _ => none

-- A thread in Connection::send may have tested disconnect_ long before it queues the closure.
def act : Act → Option IoLoop
  | .construct fd now => s.construct fd now
  | .drop c => some { s with alive := Function.update s.alive c false }
  | .queueinloop closure => some { s with taskqueue := s.taskqueue ++ [closure] }
  | .wait batch => s.wait batch
  | .dispatch => s.dispatch
  | .read data => s.read data
  | .again => s.again
  | .eof => s.eof
  | .pick stale now beyond => pick threadnum s stale now beyond
  | .written accepted => s.written accepted
  | .task beyond => s.task beyond

def step (a : Act) : Option IoLoop := if s.ended = none then act threadnum s a else none

def initial (others : Interest) : IoLoop where
  ep := others
  next := 0
  conn _ := .established (-1) 0
  alive _ := false
  batch := []
  pc := .polling
  taskqueue := []
  log _ := []
  ended := none

end IoLoop

end Reactor
