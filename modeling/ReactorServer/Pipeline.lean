import ReactorServer.EchoServer
import ReactorServer.Shared.Stages
import ReactorServer.Shared.Transition

set_option autoImplicit false

namespace Reactor.Pipeline

open ByteString Transition

variable {ι : Type} [DecidableEq ι]

structure Config (ι : Type) where
  workthreadnum : Nat
  loop : ι → Nat

-- What a worker has in hand: a task before the test of disconnect_, or a closure before its push.
inductive Job where
  | running (message : Bytes)
  | sending (dataCopy : Bytes) (size : Nat)
  deriving DecidableEq

inductive LoopPc (ι : Type) where
  | polling
  | reading (c : ι)
  | picking (c : ι) (message : Bytes)
  | draining
  deriving DecidableEq

structure Closure (ι : Type) where
  conn : ι
  dataCopy : Bytes
  size : Nat

-- `held` lists what the workers hold in the order they dequeued it; a worker not in it is idle.
-- `delivered`, `queued` and `appended` record, for each connection, what went to onmessagecallback_,
-- to queueinloop and to outputbuffer_.
structure State (ι : Type) where
  ep : Nat → Interest
  conn : ι → Connection
  pc : Nat → LoopPc ι
  taskqueue : Nat → List (Closure ι)
  works : List (ι × Bytes)
  held : List (Nat × ι × Job)
  delivered : ι → List Bytes
  queued : ι → List (Bytes × Nat)
  appended : ι → Bytes

inductive Act (ι : Type) where
  | readable (c : ι)
  | read (i : Nat) (data : Bytes)
  | again (i : Nat)
  | pickmessage (i : Nat) (now : Int) (stale : Nat → UInt8)
  | writable (c : ι) (accepted : Int)
  | handlewakeup (i : Nat)
  | sendinloop (i : Nat) (beyond : Nat → UInt8)
  | drained (i : Nat)
  | take (w : Nat)
  | send (w : Nat)
  | queueinloop (w : Nat)

variable (cfg : Config ι) (s : State ι)

def setpc (i : Nat) (pc : LoopPc ι) : State ι := { s with pc := Function.update s.pc i pc }

def setconn (c : ι) (conn : Connection) : State ι := { s with conn := Function.update s.conn c conn }

def readable (c : ι) : Option (State ι) :=
  match s.pc (cfg.loop c) with
  | .polling => some (setpc s (cfg.loop c) (.reading c))
  | _ => none

def read (i : Nat) (data : Bytes) : Option (State ι) :=
  match s.pc i with
  | .reading c =>
    if data ≠ [] ∧ data.length ≤ 1024 then
      some (setconn s c { s.conn c with inputbuffer := (s.conn c).inputbuffer.append data })
    else none
  | _ => none

def again (i : Nat) : Option (State ι) :=
  match s.pc i with
  | .reading c => some (setpc s i (.picking c []))
  | _ => none

-- HandleMessage changes the variable `message` that the next call of pickmessage is given. With no
-- work thread it replies at once, and there is no pool to follow.
def pickmessage (i : Nat) (now : Int) (stale : Nat → UInt8) : Option (State ι) :=
  match s.pc i with
  | .picking c message =>
    match (s.conn c).inputbuffer.pickmessage stale message with
    | .error _ => none
    | .ok (false, inputbuffer, _) =>
      some (setpc (setconn s c { s.conn c with inputbuffer := inputbuffer }) i .polling)
    | .ok (true, inputbuffer, ss) =>
      match handleMessage cfg.workthreadnum ss with
      | .inloop _ => none
      | .task task =>
        let conn := { s.conn c with inputbuffer := inputbuffer, lasttime := now }
        some { setpc (setconn s c conn) i (.picking c task) with
          works := s.works ++ [(c, task)]
          delivered := Function.update s.delivered c (s.delivered c ++ [ss]) }
  | _ => none

def writable (c : ι) (accepted : Int) : Option (State ι) :=
  let i := cfg.loop c
  match s.pc i, (s.conn c).writecallback accepted (s.ep i) with
  | .polling, .ok (ep, conn, _) => some { setconn s c conn with ep := Function.update s.ep i ep }
  | _, _ => none

def handlewakeup (i : Nat) : Option (State ι) :=
  match s.pc i with
  | .polling => some (setpc s i .draining)
  | _ => none

def sendinloop (i : Nat) (beyond : Nat → UInt8) : Option (State ι) :=
  match s.pc i, s.taskqueue i with
  | .draining, task :: rest =>
    let c := task.conn
    match (s.conn c).sendinloop beyond (s.ep i) task.dataCopy task.size with
    | .error _ => none
    | .ok (ep, conn) =>
      let added := conn.outputbuffer.buf.drop (s.conn c).outputbuffer.buf.length
      some { setconn s c conn with
        ep := Function.update s.ep i ep
        taskqueue := Function.update s.taskqueue i rest
        appended := Function.update s.appended c (s.appended c ++ added) }
  | _, _ => none

def drained (i : Nat) : Option (State ι) :=
  match s.pc i, s.taskqueue i with
  | .draining, [] => some (setpc s i .polling)
  | _, _ => none

def jobOf (w : Nat) : Option (ι × Job) := (s.held.find? fun e => e.1 = w).map Prod.snd

def take (w : Nat) : Option (State ι) :=
  match s.works with
  | [] => none
  | (c, message) :: rest =>
    if w < cfg.workthreadnum ∧ w ∉ s.held.map Prod.fst then
      some { s with works := rest, held := s.held ++ [(w, c, .running message)] }
    else none

def send (w : Nat) : Option (State ι) :=
  match jobOf s w with
  | some (c, .running message) =>
    match (s.conn c).send false (onMessage message) with
    | .refused => some { s with held := s.held.filter fun e => e.1 ≠ w }
    | .inloop => none
    | .queued dataCopy size =>
      some { s with
        held := s.held.map fun e => if e.1 = w then (w, c, .sending dataCopy size) else e }
  | _ => none

-- Not while handlewakeup of that loop holds mutex_. The task is over with it.
def queueinloop (w : Nat) : Option (State ι) :=
  match jobOf s w with
  | some (c, .sending dataCopy size) =>
    let i := cfg.loop c
    if s.pc i = .draining then none
    else some { s with
      taskqueue := Function.update s.taskqueue i (s.taskqueue i ++ [⟨c, dataCopy, size⟩])
      held := s.held.filter fun e => e.1 ≠ w
      queued := Function.update s.queued c (s.queued c ++ [(dataCopy, size)]) }
  | _ => none

def step : Act ι → Option (State ι)
  | .readable c => readable cfg s c
  | .read i data => read s i data
  | .again i => again s i
  | .pickmessage i now stale => pickmessage cfg s i now stale
  | .writable c accepted => writable cfg s c accepted
  | .handlewakeup i => handlewakeup s i
  | .sendinloop i beyond => sendinloop s i beyond
  | .drained i => drained s i
  | .take w => take cfg s w
  | .send w => send s w
  | .queueinloop w => queueinloop cfg s w

structure Initial : Prop where
  established : ∀ c, ∃ fd now, s.conn c = .established fd now
  listed : ∀ c, s.ep (cfg.loop c) (s.conn c).fd = some EPOLLIN
  distinct : ∀ c d, cfg.loop c = cfg.loop d → (s.conn c).fd = (s.conn d).fd → c = d
  polling : ∀ i, s.pc i = .polling
  taskqueue : ∀ i, s.taskqueue i = []
  works : s.works = []
  held : s.held = []
  delivered : ∀ c, s.delivered c = []
  queued : ∀ c, s.queued c = []
  appended : ∀ c, s.appended c = []

def worksOf (c : ι) : List Bytes := s.works.filterMap fun e => if e.1 = c then some e.2 else none

def heldOf (c : ι) : List Job := s.held.filterMap fun e => if e.2.1 = c then some e.2.2 else none

def queueOf (c : ι) : List (Bytes × Nat) :=
  (s.taskqueue (cfg.loop c)).filterMap fun task =>
    if task.conn = c then some (task.dataCopy, task.size) else none

-- A worker queues a reply of c only if no other holds a request of c that was dequeued earlier.
def InTurn (c : ι) (s : State ι) : Act ι → Prop
  | .queueinloop w => ∀ job, jobOf s w = some (c, job) →
      (s.held.find? fun e => e.2.1 = c).map Prod.fst = some w
  | _ => True

end Reactor.Pipeline
