import ReactorServer.Epoll

set_option autoImplicit false

namespace Reactor

open ByteString

structure Connection where
  channel : Channel
  inputbuffer : Buffer
  outputbuffer : Buffer
  disconnect : Bool
  lasttime : Int
  deriving DecidableEq, Repr

-- What `Connection::send` does with a reply; a queued closure owns the copy made by strdup.
inductive Sent where
  | refused
  | inloop
  | queued (dataCopy : Bytes) (size : Nat)
  deriving DecidableEq, Repr

namespace Connection

-- The constructor reads the clock for `lasttime_` and ends by registering the channel.
def make (ep : Interest) (fd now : Int) : Except Stop (Interest × Connection) := do
  let (ep, channel) ← Channel.enablereading ep (.make fd)
  return (ep, ⟨channel, .make 1, .make 1, false, now⟩)

def fd (c : Connection) : Int := c.channel.fd

def send (isinloopthread : Bool) (c : Connection) (message : Bytes) : Sent :=
  if c.disconnect then .refused
  else if isinloopthread then .inloop
  else .queued (strdup message) message.length

def sendinloop (beyond : Nat → UInt8) (ep : Interest) (c : Connection) (data : Bytes) (size : Nat) :
    Except Stop (Interest × Connection) := do
  let outputbuffer := c.outputbuffer.appendwithsep (load beyond data size)
  let (ep, channel) ← c.channel.enablewriting ep
  return (ep, { c with outputbuffer := outputbuffer, channel := channel })

def erasesent (b : Buffer) (writen : Int) : Except Stop Buffer :=
  if writen > 0 then b.erase 0 writen.toNat else .ok b

-- `accepted` is what ::send returns; `writen` is an int. The Bool: sendcompletecallback_ was called.
def writecallback (accepted : Int) (ep : Interest) (c : Connection) :
    Except Stop (Interest × Connection × Bool) := do
  let writen := toSigned 32 accepted
  let outputbuffer ← erasesent c.outputbuffer writen
  let c := { c with outputbuffer := outputbuffer }
  if c.outputbuffer.buf.length = 0 then
    let (ep, channel) ← c.channel.disablewriting ep
    return (ep, { c with channel := channel }, true)
  else return (ep, c, false)

def disconnectchannel (ep : Interest) (c : Connection) : Except Stop (Interest × Connection) := do
  let (ep, channel) ← c.channel.remove ep
  return (ep, { c with disconnect := true, channel := channel })

-- Up to the call of `closecallback_`, and of `errorcallback_`.
def closecallback (ep : Interest) (c : Connection) : Except Stop (Interest × Connection) :=
  disconnectchannel ep c

def errorcallback (ep : Interest) (c : Connection) : Except Stop (Interest × Connection) :=
  disconnectchannel ep c

def timeout (c : Connection) (now val : Int) : Bool := decide (now - c.lasttime > val)

-- The inner loop of onmessage. `onmessagecallback` is what HandleMessage leaves in the variable
-- `message`, which the next call of pickmessage is given.
def drain (onmessagecallback : Bytes → Bytes) (stale : Nat → Nat → UInt8) :
    Nat → Buffer → Bytes → Except Stop (List Bytes × Buffer × Bytes)
  | 0, _, _ => .error .outOfFuel
  | fuel + 1, inputbuffer, message => do
    let (found, inputbuffer, message) ← inputbuffer.pickmessage (stale fuel) message
    if found then
      let (later, inputbuffer, last) ←
        drain onmessagecallback stale fuel inputbuffer (onmessagecallback message)
      return (message :: later, inputbuffer, last)
    else return ([], inputbuffer, message)

variable {ep : Interest} {c : Connection}

theorem sendinloop_registered (registered : c.channel.Registered ep) (sep : c.outputbuffer.sep = 1)
    (beyond : Nat → UInt8) (data : Bytes) (size : Nat) :
    sendinloop beyond ep c data size =
      .ok (Function.update ep c.fd (some (c.channel.events ||| EPOLLOUT)),
        { c with
          outputbuffer := { c.outputbuffer with
            buf := c.outputbuffer.buf ++ Buffer.frame (load beyond data size) }
          channel := { c.channel with events := c.channel.events ||| EPOLLOUT } }) := by
  simp [sendinloop, Channel.enablewriting, Channel.setevents_registered registered,
    Buffer.appendwithsep_one sep, fd]

theorem sendinloop_removed (removed : c.channel.Removed ep) (beyond : Nat → UInt8) (data : Bytes)
    (size : Nat) : sendinloop beyond ep c data size = .error .exited := by
  simp [sendinloop, Channel.enablewriting, Channel.setevents_removed removed]

theorem erasesent_eq (b : Buffer) (writen : Int) :
    erasesent b writen = .ok { b with buf := b.buf.drop writen.toNat } := by
  by_cases positive : writen > 0
  · simp [erasesent, positive, Buffer.erase_front]
  · have none : writen.toNat = 0 := by omega
    simp [erasesent, positive, none]

theorem writecallback_registered (registered : c.channel.Registered ep) (accepted : Int) :
    ∃ ep' c' complete, writecallback accepted ep c = .ok (ep', c', complete) ∧
      c'.channel.Registered ep' ∧ c'.disconnect = c.disconnect ∧
      c'.outputbuffer.sep = c.outputbuffer.sep := by
  simp only [writecallback, erasesent_eq, ok_bind]
  split
  · rw [Channel.disablewriting, Channel.setevents_registered registered]
    exact ⟨_, _, _, rfl, Channel.registered_update registered.1 _, rfl, rfl⟩
  · exact ⟨_, _, _, rfl, registered, rfl, rfl⟩

theorem disconnectchannel_registered (registered : c.channel.Registered ep) :
    disconnectchannel ep c =
      .ok (Function.update ep c.fd none,
        { c with disconnect := true, channel := { c.channel with events := 0 } }) := by
  simp [disconnectchannel, Channel.remove_registered registered, fd]

theorem closecallback_ok {ep' : Interest} {c' : Connection} (done : closecallback ep c = .ok (ep', c')) :
    ep' = Function.update ep c.fd none ∧ c'.fd = c.fd ∧ c'.disconnect = true ∧
      c'.channel.inepoll = true := by
  obtain ⟨⟨ep₁, channel⟩, removed, done⟩ := bind_ok done
  obtain ⟨rfl, rfl⟩ := Channel.remove_ok removed
  cases done
  exact ⟨rfl, rfl, rfl, rfl⟩

theorem writecallback_ok {accepted : Int} {ep' : Interest} {c' : Connection} {complete : Bool}
    (done : writecallback accepted ep c = .ok (ep', c', complete)) :
    c'.fd = c.fd ∧ c'.disconnect = c.disconnect ∧
      (ep' = ep ∨ ∃ mask, ep' = Function.update ep c.fd (some mask)) := by
  obtain ⟨outputbuffer, -, done⟩ := bind_ok done
  dsimp only at done
  split at done
  · obtain ⟨⟨ep₁, channel⟩, disabled, done⟩ := bind_ok done
    obtain ⟨rfl, rfl⟩ := Channel.setevents_ok disabled
    cases done
    exact ⟨rfl, rfl, .inr ⟨_, rfl⟩⟩
  · cases done
    exact ⟨rfl, rfl, .inl rfl⟩

structure Keeps (ep : Interest) (c : Connection) (ep' : Interest) (c' : Connection) : Prop where
  fd : c'.fd = c.fd
  disconnect : c'.disconnect = c.disconnect
  inepoll : c.channel.inepoll = true → c'.channel.inepoll = true
  elsewhere : ∀ k, k ≠ c.fd → ep' k = ep k
  present : c.channel.inepoll = true → (ep' c.fd).isSome = (ep c.fd).isSome
  registered : c.channel.Registered ep → c'.channel.Registered ep'

variable {ep' : Interest} {c' : Connection}

theorem Keeps.of_channel (channel : c'.channel = c.channel) (disconnect : c'.disconnect = c.disconnect) :
    Keeps ep c ep c' where
  fd := by simp only [Connection.fd, channel]
  disconnect := disconnect
  inepoll := by simp [channel]
  elsewhere _ _ := rfl
  present _ := rfl
  registered := by simp [channel]

theorem Keeps.after {c₁ : Connection} (channel : c₁.channel = c.channel)
    (disconnect : c₁.disconnect = c.disconnect) (keeps : Keeps ep c₁ ep' c') : Keeps ep c ep' c' where
  fd := keeps.fd.trans (by simp only [Connection.fd, channel])
  disconnect := keeps.disconnect.trans disconnect
  inepoll before := keeps.inepoll (by rw [channel]; exact before)
  elsewhere k other := keeps.elsewhere k (by simpa only [Connection.fd, channel] using other)
  present before := by simpa only [Connection.fd, channel] using keeps.present (by rw [channel]; exact before)
  registered before := keeps.registered (by rw [channel]; exact before)

theorem setevents_keeps {events : UInt32} {channel : Channel} {outputbuffer : Buffer}
    (done : c.channel.setevents ep events = .ok (ep', channel)) :
    Keeps ep c ep' { c with outputbuffer := outputbuffer, channel := channel } := by
  have there (inepoll : c.channel.inepoll = true) := Channel.setevents_present inepoll done
  obtain ⟨rfl, rfl⟩ := Channel.setevents_ok done
  constructor
  case fd => rfl
  case disconnect => rfl
  case inepoll => exact fun _ => rfl
  case elsewhere => exact fun k other => Function.update_of_ne other _ _
  case present =>
    intro inepoll
    simpa [Connection.fd] using (there inepoll).symm
  case registered => exact fun _ => ⟨rfl, by simp⟩

theorem sendinloop_keeps {beyond : Nat → UInt8} {data : Bytes} {size : Nat}
    (done : sendinloop beyond ep c data size = .ok (ep', c')) : Keeps ep c ep' c' := by
  obtain ⟨⟨ep₁, channel⟩, enabled, rest⟩ := bind_ok done
  cases rest
  exact setevents_keeps enabled

theorem writecallback_keeps {accepted : Int} {complete : Bool}
    (done : writecallback accepted ep c = .ok (ep', c', complete)) : Keeps ep c ep' c' := by
  obtain ⟨outputbuffer, -, done⟩ := bind_ok done
  dsimp only at done
  split at done
  · obtain ⟨⟨ep₁, channel⟩, disabled, done⟩ := bind_ok done
    cases done
    exact setevents_keeps disabled
  · cases done
    exact .of_channel rfl rfl

end Connection

end Reactor
