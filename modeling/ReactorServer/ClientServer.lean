import ReactorServer.PipelineSteps
import ReactorServer.Shared.Progress

set_option autoImplicit false

namespace Reactor.ClientServer

open ByteString Framing Transition

variable {ι : Type} [DecidableEq ι]

def utf8 (s : String) : Bytes := s.toList.flatMap String.utf8EncodeChar

def text (ii : Nat) : Bytes := utf8 ("这是第" ++ toString ii ++ "个超级女生。")

def texts : List Bytes := (List.range 2).map text

-- Where the client is: before `send`, before the recv of the header, or before the recv of the body.
-- `overrun`: recv went past the terminator of `buf`.
inductive ClientPc where
  | sending
  | header (len : Nat)
  | body (len : Int)
  | overrun
  deriving DecidableEq

-- `texts` are those of this and the later iterations; `sent` and `printed` record the earlier ones.
structure Client where
  pc : ClientPc
  texts : List Bytes
  sent : List Bytes
  printed : List Bytes
  deriving DecidableEq

-- A worker in `waking` has pushed a closure to the queue of a loop and not yet called wakeup.
structure State (ι : Type) where
  server : Pipeline.State ι
  client : ι → Client
  upstream : ι → Bytes
  downstream : ι → Bytes
  waking : List (Nat × Nat)
  wakeupfd : Nat → Nat

inductive Act (ι : Type) where
  | send (c : ι)
  | recvheader (c : ι) (n : Nat)
  | recvbody (c : ι) (n : Nat)
  | wakeup (w : Nat)
  | serve (a : Pipeline.Act ι)

variable (cfg : Pipeline.Config ι) (s : State ι)

def setclient (c : ι) (client : Client) : State ι :=
  { s with client := Function.update s.client c client }

def send (c : ι) : Option (State ι) :=
  let client := s.client c
  match client.pc, client.texts with
  | .sending, buf :: later =>
    let tmpbuf := littleEndian 4 buf.length ++ buf
    some { setclient s c { client with
        pc := .header buf.length
        texts := later
        sent := client.sent ++ [buf] } with
      upstream := Function.update s.upstream c (s.upstream c ++ tmpbuf) }
  | _, _ => none

-- recv returns `n`, and what it does not overwrite of `len` stays. It is not looked at how many it were.
def recvheader (c : ι) (n : Nat) : Option (State ι) :=
  let client := s.client c
  match client.pc with
  | .header len =>
    if 0 < n ∧ n ≤ 4 ∧ n ≤ (s.downstream c).length then
      let bytes := (s.downstream c).take n ++ (littleEndian 4 len).drop n
      some { setclient s c { client with pc := .body (toSigned 32 (ofLittleEndian bytes)) } with
        downstream := Function.update s.downstream c ((s.downstream c).drop n) }
    else none
  | _ => none

-- `buf` was cleared, so that printf stops behind what recv wrote to it.
def recvbody (c : ι) (n : Nat) : Option (State ι) :=
  let client := s.client c
  match client.pc with
  | .body len =>
    let want := toUnsigned 64 len
    if n ≤ want ∧ n ≤ (s.downstream c).length ∧ (0 < n ∨ want = 0) then
      let printed := ((s.downstream c).take n).takeWhile (· != 0)
      let client :=
        if n < 1024 then { client with pc := .sending, printed := client.printed ++ [printed] }
        else { client with pc := .overrun }
      some { setclient s c client with
        downstream := Function.update s.downstream c ((s.downstream c).drop n) }
    else none
  | _ => none

def wakeup (w : Nat) : Option (State ι) :=
  match s.waking.find? fun e => e.1 = w with
  | some (_, i) => some { s with
      waking := s.waking.eraseP fun e => e.1 = w
      wakeupfd := Function.update s.wakeupfd i (s.wakeupfd i + 1) }
  | none => none

def reports (c : ι) (event : UInt32) : Bool :=
  match s.server.ep (cfg.loop c) (s.server.conn c).fd with
  | some mask => mask &&& event ≠ 0
  | none => false

def serve (a : Pipeline.Act ι) : Option (State ι) :=
  match Pipeline.step cfg s.server a with
  | none => none
  | some server =>
    let s' := { s with server := server }
    match a with
    | .readable c => if reports cfg s c EPOLLIN ∧ s.upstream c ≠ [] then some s' else none
    | .read i data =>
      match s.server.pc i with
      | .reading c =>
        if data <+: s.upstream c then
          some { s' with upstream := Function.update s.upstream c ((s.upstream c).drop data.length) }
        else none
      | _ => none
    | .again i =>
      match s.server.pc i with
      | .reading c => if s.upstream c = [] then some s' else none
      | _ => none
    | .writable c accepted =>
      let buf := (s.server.conn c).outputbuffer.buf
      if reports cfg s c EPOLLOUT ∧ -1 ≤ accepted ∧ accepted ≤ buf.length then
        some { s' with
          downstream := Function.update s.downstream c (s.downstream c ++ buf.take accepted.toNat) }
      else none
    | .handlewakeup i =>
      if 0 < s.wakeupfd i then some { s' with wakeupfd := Function.update s.wakeupfd i 0 } else none
    | .take w => if w ∉ s.waking.map Prod.fst then some s' else none
    | .queueinloop w =>
      match Pipeline.jobOf s.server w with
      | some (c, _) => some { s' with waking := s.waking ++ [(w, cfg.loop c)] }
      | none => none
    | _ => some s'

def step : Act ι → Option (State ι)
  | .send c => send s c
  | .recvheader c n => recvheader s c n
  | .recvbody c n => recvbody s c n
  | .wakeup w => wakeup s w
  | .serve a => serve cfg s a

structure Initial (script : ι → List Bytes) : Prop where
  server : Pipeline.Initial cfg s.server
  client : ∀ c, s.client c = ⟨.sending, script c, [], []⟩
  upstream : ∀ c, s.upstream c = []
  downstream : ∀ c, s.downstream c = []
  waking : s.waking = []
  wakeupfd : ∀ i, s.wakeupfd i = 0

-- A recv comes back with all it was asked for.
def Whole (s : State ι) : Act ι → Prop
  | .recvheader _ n => n = 4
  | .recvbody c n =>
    match (s.client c).pc with
    | .body len => (n : Int) = len
    | _ => True
  | _ => True

instance (s : State ι) : (a : Act ι) → Decidable (Whole s a)
  | .recvheader _ n => inferInstanceAs (Decidable (n = 4))
  | .recvbody c n =>
    match h : (s.client c).pc with
    | .body len => decidable_of_iff ((n : Int) = len) (by simp [Whole, h])
    | .sending => .isTrue (by simp [Whole, h])
    | .header _ => .isTrue (by simp [Whole, h])
    | .overrun => .isTrue (by simp [Whole, h])
  | .send _ => .isTrue trivial
  | .wakeup _ => .isTrue trivial
  | .serve _ => .isTrue trivial

-- The texts are C strings that come back in less than the 1024 bytes of `buf`.
def Suitable (script : ι → List Bytes) : Prop :=
  ∀ c, ∀ m ∈ script c, 0 ∉ m ∧ (workReply m).length < 1024

end Reactor.ClientServer
