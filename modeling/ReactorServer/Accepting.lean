import ReactorServer.ServerInvariants

set_option autoImplicit false

namespace Reactor

inductive Accept4 where
  | socket (fd : Nat)
  | failed (errno : Nat)
  deriving DecidableEq, Repr

def Accept4.clientfd : Accept4 → Int
  | .socket fd => fd
  | .failed _ => -1

-- `new Connection(subloops_[clientsock->fd() % threadnum_].get(), std::move(clientsock))`: C++ does not say
-- which of the two arguments is evaluated first.
inductive ArgumentOrder where
  | loopFirst
  | socketFirst
  deriving DecidableEq, Repr

inductive AcceptFault where
  | outside (index : Int)
  | nullSocket
  | exited
  deriving DecidableEq, Repr

namespace Acceptor

variable (cfg : Config) (s : TcpServer)

def subloop (index : Int) : Except AcceptFault Nat :=
  if 0 ≤ index ∧ index < cfg.threadnum then .ok index.toNat else .error (.outside index)

-- epoll_ctl fails with EBADF for what is no descriptor, and updatechannel exits.
def construct (ep : Interest) (fd now : Int) : Except AcceptFault (Interest × Connection) :=
  if fd < 0 then .error .exited
  else
    match Connection.make ep fd now with
    | .error _ => .error .exited
    | .ok made => .ok made

-- The pointer is null once the parameter of the constructor has been initialised from it.
def clientsockFd (order : ArgumentOrder) (clientsock : Int) : Except AcceptFault Int :=
  match order with
  | .loopFirst => .ok clientsock
  | .socketFirst => .error .nullSocket

-- `%` on int: the remainder has the sign of the fd.
def serve (order : ArgumentOrder) (clientsock : Int) : Except AcceptFault TcpServer := do
  let fd ← clientsockFd order clientsock
  let i ← subloop cfg (fd.tmod cfg.threadnum)
  let (ep, conn) ← construct (s.ep i) clientsock s.now
  let c := s.next
  let s := { s.setconn i c ep conn with next := c + 1 }
  let s := { s with conns := s.conns.insert (s.fd c) c }
  let j ← subloop cfg ((s.fd c).tmod cfg.threadnum)
  return s.setsubconns j ((s.subconns j).insert (s.fd c) c)

def newconnection (order : ArgumentOrder) (accepted : Accept4) : Except AcceptFault TcpServer :=
  serve cfg s order accepted.clientfd

structure Fresh (fd : Int) : Prop where
  conns : ∀ c, (fd, c) ∉ s.conns
  subconns : ∀ i c, (fd, c) ∉ s.subconns i
  ep : ∀ i, s.ep i fd = none

structure Added (fd : Int) (i : Nat) (t : TcpServer) : Prop where
  inside : i < cfg.threadnum
  next : t.next = s.next + 1
  number : t.fd s.next = fd
  conns : ∀ e, e ∈ t.conns ↔ e = (fd, s.next) ∨ e ∈ s.conns
  subconns : ∀ j e, e ∈ t.subconns j ↔ j = i ∧ e = (fd, s.next) ∨ e ∈ s.subconns j
  registered : t.ep i fd = some EPOLLIN
  others : ∀ j k, j ≠ i ∨ k ≠ fd → t.ep j k = s.ep j k
  kept : ∀ c, c ≠ s.next → t.conn c = s.conn c

def Handles (order : ArgumentOrder) (accepted : Accept4) : Prop :=
  ∃ t, newconnection cfg s order accepted = .ok t ∧
    match accepted with
    | .socket fd => ∃ i, Added cfg s fd i t
    | .failed _ => t = s

variable {cfg s}

theorem subloop_inside (threads : 0 < cfg.threadnum) (fd : Nat) :
    subloop cfg ((fd : Int).tmod cfg.threadnum) = .ok (fd % cfg.threadnum) := by
  have same : (fd : Int).tmod cfg.threadnum = ((fd % cfg.threadnum : Nat) : Int) := rfl
  have inside : fd % cfg.threadnum < cfg.threadnum := Nat.mod_lt _ threads
  rw [same, subloop, if_pos (by omega)]
  rfl

theorem insert_fresh {m : OrderedMap Int Nat} {fd : Int} (absent : ∀ c, (fd, c) ∉ m) (c : Nat)
    (e : Int × Nat) : e ∈ m.insert fd c ↔ e = (fd, c) ∨ e ∈ m := by
  obtain ⟨k, d⟩ := e
  have other (stored : (k, d) ∈ m) : k ≠ fd := fun same => absent d (same ▸ stored)
  rw [OrderedMap.mem_insert]
  exact or_congr_right ⟨fun both => both.1, fun stored => ⟨stored, other stored⟩⟩

def served (s : TcpServer) (fd : Int) (i : Nat) : TcpServer :=
  { s with
    next := s.next + 1
    conn := Function.update s.conn s.next (.established fd s.now)
    conns := s.conns.insert fd s.next
    ep := Function.update s.ep i (Function.update (s.ep i) fd (some EPOLLIN))
    subconns := Function.update s.subconns i ((s.subconns i).insert fd s.next) }

theorem serve_fresh (threads : 0 < cfg.threadnum) {fd : Nat} (fresh : Fresh s fd) :
    serve cfg s .loopFirst fd = .ok (served s fd (fd % cfg.threadnum)) := by
  have built : construct (s.ep (fd % cfg.threadnum)) fd s.now =
      .ok (Function.update (s.ep (fd % cfg.threadnum)) fd (some EPOLLIN), .established fd s.now) := by
    have natural : ¬ (fd : Int) < 0 := by omega
    rw [construct, if_neg natural, Connection.make_fresh (fresh.ep _)]
  have number : (Connection.established fd s.now).fd = fd := rfl
  have index := subloop_inside threads fd
  simp only [serve, clientsockFd, index, built, bind, Except.bind, TcpServer.setconn, TcpServer.fd,
    Function.update_self, number]
  rfl

theorem served_added (threads : 0 < cfg.threadnum) {fd : Nat} (fresh : Fresh s fd) :
    Added cfg s fd (fd % cfg.threadnum) (served s fd (fd % cfg.threadnum)) := by
  constructor
  case inside => exact Nat.mod_lt _ threads
  case next => rfl
  case number => simp [TcpServer.fd, served, Connection.fd, Connection.established]
  case conns => exact insert_fresh fresh.conns s.next
  case subconns =>
    intro j e
    by_cases same : j = fd % cfg.threadnum
    · subst same
      simpa [served] using insert_fresh (fresh.subconns _) s.next e
    · simp [served, same]
  case registered => simp [served]
  case others =>
    intro j k apart
    by_cases same : j = fd % cfg.threadnum
    · subst same
      have other : k ≠ fd := by simpa using apart
      simp [served, other]
    · simp [served, same]
  case kept =>
    intro c other
    simp [served, other]

theorem unused_fresh (inv : TcpServer.Inv cfg s) {fd : Int}
    (unused : ∀ c < s.next, TcpServer.Alive cfg s c → s.fd c ≠ fd) (ep : ∀ i, s.ep i fd = none) :
    Fresh s fd where
  conns c entry := by
    have alive := inv.conns_alive entry
    exact unused c (inv.known c alive) alive (inv.keyed fd c entry)
  subconns i c entry := by
    have alive := inv.subconns_alive entry
    exact unused c (inv.known c alive) alive (inv.subkeyed i fd c entry).1
  ep := ep

theorem served_connects (threads : 0 < cfg.threadnum) (inv : TcpServer.Inv cfg s) {fd : Nat}
    (unused : ∀ c < s.next, TcpServer.Alive cfg s c → s.fd c ≠ fd) (ep : ∀ i, s.ep i fd = none)
    (accepting : s.main = .accepting) (running : s.fault = none) :
    Transition.run (TcpServer.step cfg) s (TcpServer.connect fd) = (serve cfg s .loopFirst fd).toOption := by
  have fresh := unused_fresh inv unused ep
  have index : ((fd : Int) % cfg.threadnum).toNat = fd % cfg.threadnum := by
    rw [← Int.natCast_mod, Int.toNat_natCast]
  have absent : Function.update (s.ep (fd % cfg.threadnum)) (fd : Int) none = s.ep (fd % cfg.threadnum) :=
    Function.update_eq_self_iff.mpr (ep _).symm
  have made := Connection.make_fresh (ep (fd % cfg.threadnum)) s.now
  have accepted : TcpServer.step cfg s (.accept fd) = some
      { served s fd (fd % cfg.threadnum) with
        conns := s.conns, subconns := s.subconns, main := .constructed s.next } := by
    simp [TcpServer.step, TcpServer.act, TcpServer.accept, running, accepting, threads, index, absent, made,
      TcpServer.outcome, served]
    exact unused
  rw [serve_fresh threads fresh]
  refine Transition.run_cons_some.mpr ⟨_, accepted, ?_⟩
  have number : (Connection.established fd s.now).channel.fd = fd := rfl
  simp [Transition.run, List.replicate, TcpServer.step, TcpServer.act, TcpServer.newconnection,
    TcpServer.outcome, TcpServer.home, TcpServer.fd, Connection.fd, served, running, accepting, number, index]

theorem serve_failed : ∃ fault, serve cfg s .loopFirst (-1) = .error fault := by
  by_cases inside : 0 ≤ (-1 : Int).tmod cfg.threadnum ∧ (-1 : Int).tmod cfg.threadnum < cfg.threadnum
  · refine ⟨.exited, ?_⟩
    simp only [serve, clientsockFd, subloop, bind, Except.bind, if_pos inside, construct]
    rfl
  · refine ⟨.outside ((-1 : Int).tmod cfg.threadnum), ?_⟩
    simp only [serve, clientsockFd, subloop, bind, Except.bind, if_neg inside]

theorem handles_iff (threads : 0 < cfg.threadnum) {order : ArgumentOrder} {accepted : Accept4}
    (fresh : ∀ fd, accepted = .socket fd → Fresh s fd) :
    Handles cfg s order accepted ↔ order = .loopFirst ∧ ∃ fd, accepted = .socket fd := by
  cases order with
  | socketFirst =>
    refine iff_of_false (fun handles => ?_) (fun both => ?_)
    · obtain ⟨t, served, -⟩ := handles
      cases served
    · cases both.1
  | loopFirst =>
    cases accepted with
    | socket fd =>
      have fresh := fresh fd rfl
      exact iff_of_true ⟨_, serve_fresh threads fresh, _, served_added threads fresh⟩ ⟨rfl, fd, rfl⟩
    | failed errno =>
      obtain ⟨fault, failed⟩ : ∃ fault, serve cfg s .loopFirst (-1) = .error fault := serve_failed
      constructor
      · intro handles
        obtain ⟨t, served, -⟩ := handles
        cases failed.symm.trans served
      · intro socket
        obtain ⟨-, fd, same⟩ := socket
        cases same

theorem handles_first_client :
    Handles ⟨3, 10, 1⟩ (TcpServer.initial fun _ _ => none) .loopFirst (.socket 5) := by
  refine (handles_iff (by decide) fun fd _ => ?_).mpr ⟨rfl, 5, rfl⟩
  exact ⟨fun c => OrderedMap.not_mem_empty _, fun i c => OrderedMap.not_mem_empty _, fun i => rfl⟩

-- EMFILE: with three loops subloops_[-1], with one the constructor registers the fd -1. And an accepted fd
-- with the arguments evaluated from right to left.
theorem failed_accept_faults :
    newconnection ⟨3, 10, 1⟩ (TcpServer.initial fun _ _ => none) .loopFirst (.failed 24) =
        .error (.outside (-1)) ∧
      newconnection ⟨1, 10, 1⟩ (TcpServer.initial fun _ _ => none) .loopFirst (.failed 24) = .error .exited ∧
      newconnection ⟨3, 10, 1⟩ (TcpServer.initial fun _ _ => none) .socketFirst (.socket 5) =
        .error .nullSocket :=
  ⟨rfl, rfl, rfl⟩

end Acceptor

end Reactor
