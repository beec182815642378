import ReactorServer.Registries

set_option autoImplicit false

namespace Reactor

open OrderedMap

namespace TcpServer

def Referenced (cfg : Config) (s : TcpServer) (c : Nat) : Prop :=
  (∃ e ∈ s.conns.entries, e.2 = c) ∨
    (∃ i < cfg.threadnum, ∃ e ∈ (s.subconns i).entries, e.2 = c) ∨
    c ∈ s.works.map Prod.fst ∨ s.main.conn = some c ∨ ∃ i < cfg.threadnum, (s.pc i).argument = some c

instance (cfg : Config) (s : TcpServer) (c : Nat) : Decidable (Referenced cfg s c) :=
  inferInstanceAs (Decidable (_ ∨ _ ∨ _ ∨ _ ∨ _))

end TcpServer

structure Descriptors where
  server : TcpServer
  -- The connection whose Socket holds an open fd.
  socket : Int → Option Nat
  -- The place in subloops_ of the loop that the constructor of a connection was given.
  loop : Nat → Nat

namespace Descriptors

open TcpServer

variable (cfg : Config)

def initial (others : Nat → Interest) : Descriptors where
  server := TcpServer.initial others
  socket _ := none
  loop _ := 0

-- ~Socket of every connection that nothing points to any more.
def release (server : TcpServer) (socket : Int → Option Nat) (fd : Int) : Option Nat :=
  (socket fd).filter fun c => Referenced cfg server c

def step (s : Descriptors) (a : Act) : Option Descriptors :=
  match a with
  | .accept fd =>
    if s.socket fd = none then
      (TcpServer.step cfg s.server a).map fun server =>
        { server := server
          socket := release cfg server (Function.update s.socket fd (some s.server.next))
          loop := Function.update s.loop s.server.next (fd % cfg.threadnum).toNat }
    else none
  | _ =>
    (TcpServer.step cfg s.server a).map fun server =>
      { s with server := server, socket := release cfg server s.socket }

structure Sound (s : Descriptors) : Prop where
  server : TcpServer.Inv cfg s.server
  threads : 0 < s.server.next → 0 < cfg.threadnum
  owned : ∀ fd c, s.socket fd = some c → s.server.fd c = fd ∧ Alive cfg s.server c
  opened : ∀ c, Alive cfg s.server c → s.socket (s.server.fd c) = some c
  looped : ∀ c < s.server.next, s.loop c = home cfg s.server c

variable {cfg} {s t : Descriptors} {a : Act}

theorem home_lt {s : TcpServer} (threads : 0 < cfg.threadnum) (c : Nat) : home cfg s c < cfg.threadnum := by
  have positive : (0 : Int) < cfg.threadnum := by exact_mod_cast threads
  have low := Int.emod_nonneg (s.fd c) positive.ne'
  have high := Int.emod_lt_of_pos (s.fd c) positive
  simp only [home]
  omega

theorem referenced_iff {s : TcpServer} (inv : Inv cfg s) (threads : 0 < s.next → 0 < cfg.threadnum)
    (c : Nat) : Referenced cfg s c ↔ Alive cfg s c := by
  constructor
  · intro referenced
    rcases referenced with ⟨e, stored, rfl⟩ | ⟨i, -, e, stored, rfl⟩ | task | main | ⟨i, -, argument⟩
    · exact inv.conns_alive (k := e.1) stored
    · exact inv.subconns_alive (k := e.1) stored
    · exact .inl (.inr (.inr task))
    · exact .inr (.inl main)
    · have handled : (s.pc i).handled = some c := by
        cases pc : s.pc i <;> simp_all [LoopPc.argument, LoopPc.handled]
      obtain ⟨-, rfl⟩ := inv.handled i c handled
      exact .inr (.inr argument)
  · intro alive
    have place : home cfg s c < cfg.threadnum :=
      home_lt (threads ((Nat.zero_le c).trans_lt (inv.known c alive))) c
    rcases alive with (stored | stored | task) | main | argument
    · exact .inl ⟨_, stored, rfl⟩
    · exact .inr (.inl ⟨_, place, _, stored, rfl⟩)
    · exact .inr (.inr (.inl task))
    · exact .inr (.inr (.inr (.inl main)))
    · exact .inr (.inr (.inr (.inr ⟨_, place, argument⟩)))

theorem initial_sound (others : Nat → Interest) : Sound cfg (initial others) where
  server := TcpServer.initial_inv cfg others
  threads := by simp [initial, TcpServer.initial]
  owned := by simp [initial]
  opened c alive := absurd ((TcpServer.initial_inv cfg others).known c alive) (Nat.not_lt_zero c)
  looped := by simp [initial, TcpServer.initial]

theorem release_some {server : TcpServer} {socket : Int → Option Nat} {fd : Int} {c : Nat} :
    release cfg server socket fd = some c ↔ socket fd = some c ∧ Referenced cfg server c := by
  simp [release, Option.filter_eq_some_iff]

theorem next_kept {s t : TcpServer} (step : TcpServer.Step cfg s a t) (other : ∀ fd, a ≠ .accept fd) :
    t.next = s.next := by
  cases step with
  | accepted main range fresh => exact absurd rfl (other _)
  | _ => rfl

theorem accept_next {s t : TcpServer} {fd : Int} (taken : TcpServer.step cfg s (.accept fd) = some t) :
    t.next = s.next ∨ t.next = s.next + 1 ∧ t.fd s.next = fd ∧ 0 < cfg.threadnum := by
  have threads : 0 < cfg.threadnum := by
    simp only [TcpServer.step, act, accept] at taken
    by_contra none
    simp [none] at taken
  cases (TcpServer.step_cases taken).2 with
  | stopped dangling terminated => exact .inl rfl
  | moved moves => cases moves
  | closed closes => cases closes
  | accepted main range fresh =>
    right
    simp [TcpServer.fd, Connection.established, Connection.fd, threads]

theorem Sound.server_step (sound : Sound cfg s) {server : TcpServer}
    (taken : TcpServer.step cfg s.server a = some server) (kept : server.next = s.server.next) :
    Sound cfg { s with server := server, socket := release cfg server s.socket } := by
  have step := (TcpServer.step_cases taken).2
  have inv := TcpServer.inv_step _ _ _ sound.server taken
  have threads : 0 < server.next → 0 < cfg.threadnum := kept ▸ sound.threads
  have fd (c : Nat) : server.fd c = s.server.fd c := fd_step step fun _ => kept
  refine ⟨inv, threads, fun k c open' => ?_, fun c alive => ?_, fun c known => ?_⟩
  · obtain ⟨before, referenced⟩ := release_some.mp open'
    exact ⟨(fd c).trans (sound.owned k c before).1, (referenced_iff inv threads c).mp referenced⟩
  · have before := sound.opened c (alive_step step (fun _ => kept) alive)
    rw [← fd c] at before
    exact release_some.mpr ⟨before, (referenced_iff inv threads c).mpr alive⟩
  · rw [home_step step fun _ => kept]
    exact sound.looped c (kept ▸ known)

theorem Sound.accept_step (sound : Sound cfg s) {server : TcpServer} {fd : Int}
    (free : s.socket fd = none) (taken : TcpServer.step cfg s.server (.accept fd) = some server) :
    Sound cfg
      { server := server
        socket := release cfg server (Function.update s.socket fd (some s.server.next))
        loop := Function.update s.loop s.server.next (fd % cfg.threadnum).toNat } := by
  have step := (TcpServer.step_cases taken).2
  have inv := TcpServer.inv_step _ _ _ sound.server taken
  have grown := accept_next taken
  have threads : 0 < server.next → 0 < cfg.threadnum := by
    intro some
    rcases grown with kept | ⟨-, -, threads⟩
    · exact sound.threads (kept ▸ some)
    · exact threads
  have new (known : s.server.next < server.next) : server.fd s.server.next = fd := by
    rcases grown with kept | ⟨-, same, -⟩
    · omega
    · exact same
  have fd_kept {c : Nat} (old : c ≠ s.server.next) : server.fd c = s.server.fd c :=
    fd_step step fun same => absurd same old
  refine ⟨inv, threads, fun k c open' => ?_, fun c alive => ?_, fun c known => ?_⟩
  · obtain ⟨entry, referenced⟩ := release_some.mp open'
    have alive := (referenced_iff inv threads c).mp referenced
    refine ⟨?_, alive⟩
    by_cases own : k = fd
    · subst own
      obtain rfl : s.server.next = c := by simpa using entry
      exact new (inv.known _ alive)
    · obtain ⟨same, before⟩ := sound.owned k c (by simpa [own] using entry)
      rw [fd_kept (sound.server.known c before).ne, same]
  · refine release_some.mpr ⟨?_, (referenced_iff inv threads c).mpr alive⟩
    by_cases old : c = s.server.next
    · subst old
      rw [new (inv.known _ alive)]
      exact Function.update_self _ _ _
    · have before := sound.opened c (alive_step step (fun same => absurd same old) alive)
      rw [fd_kept old]
      have apart : s.server.fd c ≠ fd := by
        intro same
        rw [same, free] at before
        cases before
      rw [Function.update_of_ne apart]
      exact before
  · by_cases old : c = s.server.next
    · subst old
      simp only [Function.update_self, home, new known]
    · have known : c < server.next := known
      have before : c < s.server.next := by omega
      have place : home cfg server c = home cfg s.server c := home_step step fun same => absurd same old
      simp only [Function.update_of_ne old, place]
      exact sound.looped c before

theorem step_sound (s : Descriptors) (a : Act) (t : Descriptors) (sound : Sound cfg s)
    (taken : step cfg s a = some t) : Sound cfg t := by
  cases a with
  | accept fd =>
    simp only [step] at taken
    split at taken
    next free =>
      obtain ⟨server, served, rfl⟩ := Option.map_eq_some_iff.mp taken
      exact sound.accept_step free served
    next => cases taken
  | _ =>
    obtain ⟨server, served, rfl⟩ := Option.map_eq_some_iff.mp taken
    exact sound.server_step served (next_kept (TcpServer.step_cases served).2 (by simp))

theorem newconnection_keeps {s t : TcpServer} (inv : Inv cfg s) (step : TcpServer.Step cfg s .newconnection t) :
    (∀ e ∈ s.conns, e ∈ t.conns) ∧ ∀ i, ∀ e ∈ s.subconns i, e ∈ t.subconns i := by
  cases step with
  | stopped dangling terminated => exact ⟨fun e stored => stored, fun i e stored => stored⟩
  | moved moves => cases moves
  | closed closes => cases closes
  | wired main => exact ⟨fun e stored => stored, fun i e stored => stored⟩
  | completed main => exact ⟨fun e stored => stored, fun i e stored => stored⟩
  | @inserted c n main set =>
    refine ⟨fun e stored => mem_insert.mpr ?_, fun i e stored => stored⟩
    obtain ⟨k, d⟩ := e
    by_cases own : k = s.fd c
    · subst own
      rw [inv.inserted_own main stored]
      exact .inl rfl
    · exact .inr ⟨stored, own⟩
  | @listed c main =>
    refine ⟨fun e stored => stored, fun i e stored => ?_⟩
    by_cases place : i = home cfg s c
    · subst place
      simp only [setsubconns, Function.update_self]
      obtain ⟨k, d⟩ := e
      apply mem_insert.mpr
      by_cases own : k = s.fd c
      · subst own
        rw [inv.listed_own main stored]
        exact .inl rfl
      · exact .inr ⟨stored, own⟩
    · simpa [place] using stored

theorem registries_follow_descriptors {others : Nat → Interest} {acts : List Act} {s : Descriptors}
    (taken : Transition.run (step cfg) (initial others) acts = some s) :
    (∀ k c, (k, c) ∈ s.server.conns → s.server.fd c = k ∧ s.socket k = some c) ∧
    (∀ i k c, (k, c) ∈ s.server.subconns i →
      s.server.fd c = k ∧ s.socket k = some c ∧ (i : Int) = k % cfg.threadnum ∧ s.loop c = i) ∧
    (∀ c d, Referenced cfg s.server c → Referenced cfg s.server d →
      s.server.fd c = s.server.fd d → c = d) ∧
    (∀ t, step cfg s .newconnection = some t →
      (∀ e ∈ s.server.conns, e ∈ t.server.conns) ∧
        ∀ i, ∀ e ∈ s.server.subconns i, e ∈ t.server.subconns i) ∧
    ∀ fd, s.socket fd = none → ∀ c, Alive cfg s.server c → s.server.fd c ≠ fd := by
  have sound : Sound cfg s := Transition.run_invariant step_sound (initial_sound others) taken
  have inv := sound.server
  have open' {c : Nat} {k : Int} (alive : Alive cfg s.server c) (key : s.server.fd c = k) :
      s.socket k = some c := key ▸ sound.opened c alive
  refine ⟨fun k c stored => ?_, fun i k c stored => ?_, fun c d left right same => ?_,
    fun t next => ?_, fun fd free c alive same => ?_⟩
  · have key := inv.keyed k c stored
    exact ⟨key, open' (inv.conns_alive stored) key⟩
  · obtain ⟨key, place⟩ := inv.subkeyed i k c stored
    have alive := inv.subconns_alive stored
    have known := inv.known c alive
    have positive : (0 : Int) < cfg.threadnum := by exact_mod_cast sound.threads (by omega)
    refine ⟨key, open' alive key, ?_, (sound.looped c known).trans place⟩
    have low := Int.emod_nonneg k positive.ne'
    simp only [home, key] at place
    omega
  · have threads := sound.threads
    exact inv.distinct c d ((referenced_iff inv threads c).mp left)
      ((referenced_iff inv threads d).mp right) same
  · obtain ⟨server, served, rfl⟩ := Option.map_eq_some_iff.mp next
    exact newconnection_keeps inv (TcpServer.step_cases served).2
  · have taken := open' alive same
    rw [free] at taken
    cases taken

-- The closed connection that handletimer drops gives its number back, and the next one gets it.
def reusedFd : List Act :=
  connect 5 ++ [.wait 0 [(.client 0, EPOLLIN)], .dispatch 0, .eof 0, .closeconnection 0, .leave 0, .leave 0,
    .tick 11, .wait 0 [(.timer, EPOLLIN)], .dispatch 0, .handletimer 0 0] ++ connect 5

theorem reused_fd_sound :
    (Transition.final (step ⟨1, 10, 0⟩) (initial fun _ _ => none) reusedFd).server.fd 1 = 5 ∧
      (Transition.final (step ⟨1, 10, 0⟩) (initial fun _ _ => none) reusedFd).socket 5 = some 1 :=
  (registries_follow_descriptors (Transition.run_final (by decide +kernel))).1 5 1 (by decide +kernel)

end Descriptors

end Reactor
