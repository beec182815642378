import Mathlib.Logic.Function.Basic
import ReactorServer.Buffer

set_option autoImplicit false

namespace Reactor

def EPOLLIN : UInt32 := 0x1
def EPOLLPRI : UInt32 := 0x2
def EPOLLOUT : UInt32 := 0x4
def EPOLLERR : UInt32 := 0x8
def EPOLLHUP : UInt32 := 0x10
def EPOLLRDHUP : UInt32 := 0x2000

structure Channel where
  fd : Int
  inepoll : Bool
  events : UInt32
  revents : UInt32
  deriving DecidableEq, Repr

-- The interest list of one epoll instance: the registered mask of every fd on it.
abbrev Interest := Int → Option UInt32

inductive CtlOp where
  | add
  | mod
  | del

-- `none` is the return value -1.
def epollCtl (ep : Interest) (op : CtlOp) (fd : Int) (mask : UInt32) : Option Interest :=
  match op with
  | .add => if (ep fd).isSome then none else some (Function.update ep fd (some mask))
  | .mod => if (ep fd).isSome then some (Function.update ep fd (some mask)) else none
  | .del => if (ep fd).isSome then some (Function.update ep fd none) else none

def updatechannel (ep : Interest) (ch : Channel) : Except Stop (Interest × Channel) :=
  if ch.inepoll then
    match epollCtl ep .mod ch.fd ch.events with
    | none => .error .exited
    | some ep => .ok (ep, ch)
  else
    match epollCtl ep .add ch.fd ch.events with
    | none => .error .exited
    | some ep => .ok (ep, { ch with inepoll := true })

-- The flag inepoll_ stays as it is.
def removechannel (ep : Interest) (ch : Channel) : Except Stop (Interest × Channel) :=
  if ch.inepoll then
    match epollCtl ep .del ch.fd 0 with
    | none => .error .exited
    | some ep => .ok (ep, ch)
  else .ok (ep, ch)

namespace Channel

def make (fd : Int) : Channel := ⟨fd, false, 0, 0⟩

def setevents (ep : Interest) (ch : Channel) (events : UInt32) : Except Stop (Interest × Channel) :=
  updatechannel ep { ch with events := events }

def enablereading (ep : Interest) (ch : Channel) : Except Stop (Interest × Channel) :=
  setevents ep ch (ch.events ||| EPOLLIN)

def disablereading (ep : Interest) (ch : Channel) : Except Stop (Interest × Channel) :=
  setevents ep ch (ch.events &&& ~~~EPOLLIN)

def enablewriting (ep : Interest) (ch : Channel) : Except Stop (Interest × Channel) :=
  setevents ep ch (ch.events ||| EPOLLOUT)

def disablewriting (ep : Interest) (ch : Channel) : Except Stop (Interest × Channel) :=
  setevents ep ch (ch.events &&& ~~~EPOLLOUT)

def disableall (ep : Interest) (ch : Channel) : Except Stop (Interest × Channel) :=
  setevents ep ch 0

def remove (ep : Interest) (ch : Channel) : Except Stop (Interest × Channel) := do
  let (ep, ch) ← disableall ep ch
  removechannel ep ch

end Channel

inductive Callback where
  | close
  | read
  | write
  | error
  deriving DecidableEq, Repr

def handleevent (revents : UInt32) : Callback :=
  if revents &&& EPOLLRDHUP ≠ 0 then .close
  else if revents &&& (EPOLLIN ||| EPOLLPRI) ≠ 0 then .read
  else if revents &&& EPOLLOUT ≠ 0 then .write
  else .error

def Channel.Registered (ep : Interest) (ch : Channel) : Prop :=
  ch.inepoll = true ∧ ep ch.fd = some ch.events

def Channel.Removed (ep : Interest) (ch : Channel) : Prop :=
  ch.inepoll = true ∧ ep ch.fd = none

namespace Channel

variable {ep : Interest} {ch : Channel}

theorem registered_congr {ep' : Interest} (same : ep' ch.fd = ep ch.fd) :
    ch.Registered ep' ↔ ch.Registered ep := by
  simp only [Channel.Registered, same]

theorem removed_congr {ep' : Interest} (same : ep' ch.fd = ep ch.fd) :
    ch.Removed ep' ↔ ch.Removed ep := by
  simp only [Channel.Removed, same]

theorem setevents_registered (registered : ch.Registered ep) (events : UInt32) :
    setevents ep ch events =
      .ok (Function.update ep ch.fd (some events), { ch with events := events }) := by
  obtain ⟨inepoll, stored⟩ := registered
  simp [setevents, updatechannel, epollCtl, inepoll, stored]

theorem setevents_removed (removed : ch.Removed ep) (events : UInt32) :
    setevents ep ch events = .error .exited := by
  obtain ⟨inepoll, stored⟩ := removed
  simp [setevents, updatechannel, epollCtl, inepoll, stored]

theorem setevents_ok {ep' : Interest} {ch' : Channel} {events : UInt32}
    (done : setevents ep ch events = .ok (ep', ch')) :
    ep' = Function.update ep ch.fd (some events) ∧ ch' = { ch with events := events, inepoll := true } := by
  obtain ⟨fd, inepoll, before, revents⟩ := ch
  simp only [setevents, updatechannel, epollCtl] at done
  cases inepoll <;> cases stored : ep fd <;> simp [stored] at done <;> simp [done]

theorem setevents_present {ep' : Interest} {ch' : Channel} {events : UInt32} (inepoll : ch.inepoll = true)
    (done : setevents ep ch events = .ok (ep', ch')) : (ep ch.fd).isSome = true := by
  obtain ⟨fd, flag, before, revents⟩ := ch
  simp only [setevents, updatechannel, epollCtl] at done inepoll
  cases stored : ep fd <;> simp [stored, inepoll] at done ⊢

theorem remove_ok {ep' : Interest} {ch' : Channel} (done : remove ep ch = .ok (ep', ch')) :
    ep' = Function.update ep ch.fd none ∧ ch' = { ch with events := 0, inepoll := true } := by
  obtain ⟨⟨ep₁, ch₁⟩, disabled, done⟩ := bind_ok done
  obtain ⟨rfl, rfl⟩ := setevents_ok disabled
  simp [removechannel, epollCtl] at done
  exact ⟨done.1.symm, done.2.symm⟩

theorem registered_update (inepoll : ch.inepoll = true) (events : UInt32) :
    Channel.Registered (Function.update ep ch.fd (some events)) { ch with events := events } :=
  ⟨inepoll, by simp⟩

theorem remove_registered (registered : ch.Registered ep) :
    remove ep ch = .ok (Function.update ep ch.fd none, { ch with events := 0 }) := by
  have inepoll := registered.1
  simp [remove, disableall, setevents_registered registered, removechannel, epollCtl, inepoll]

theorem removed_update (inepoll : ch.inepoll = true) :
    Channel.Removed (Function.update ep ch.fd none) { ch with events := 0 } :=
  ⟨inepoll, by simp⟩

end Channel

end Reactor
