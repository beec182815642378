import ReactorServer.ServerInvariants

set_option autoImplicit false

namespace Reactor.TcpServer

open OrderedMap Transition

variable {cfg : Config} {s t : TcpServer} {a : Act} {acts : List Act} {others : Nat → Interest}

def ActsOn (s : TcpServer) (a : Act) (c : Nat) : Prop :=
  (∃ i, a = .closeconnection i ∧ s.pc i = .closing c) ∨
    ∃ i past now aa, a = .handletimer i past ∧ s.pc i = .notifying c now aa

-- A key that removeconn was given through the end iterator may be anybody's.
structure OwnRemoval (s : TcpServer) (a : Act) (t : TcpServer) : Prop where
  own : ∀ k c, (k, c) ∈ s.conns → (k, c) ∉ t.conns → ActsOn s a c
  defined : t.fault ≠ some .endIterator

def Departed (s : TcpServer) (c : Nat) : Prop := (s.conn c).disconnect = true ∧ ¬ InServer s c

instance (s : TcpServer) (c : Nat) : Decidable (Departed s c) :=
  inferInstanceAs (Decidable (_ ∧ ¬ (_ ∈ s.conns)))

-- What follows the connection that handletimer has dropped is one that has departed.
def FollowedByDeparted (s : TcpServer) (a : Act) : Prop :=
  match a with
  | .handletimer i _ =>
    match s.pc i with
    | .notifying _ _ aa => ∃ k ∈ aa, ∃ d ∈ (s.subconns i).find? k, Departed s d
    | _ => True
  | _ => True

instance (s : TcpServer) (a : Act) : Decidable (FollowedByDeparted s a) := by
  unfold FollowedByDeparted
  split
  · split <;> infer_instance
  · infer_instance

theorem FollowedByDeparted.follows {i c : Nat} {now past : Int} {aa : Option Int}
    (followed : FollowedByDeparted s (.handletimer i past)) (pc : s.pc i = .notifying c now aa) :
    ∃ k d, aa = some k ∧ (k, d) ∈ s.subconns i ∧ Departed s d := by
  simp only [FollowedByDeparted, pc] at followed
  obtain ⟨k, stands, d, found, departed⟩ := followed
  exact ⟨k, d, stands, find?_eq_some.mp found, departed⟩

theorem inv_step (s : TcpServer) (a : Act) (t : TcpServer) (inv : Inv cfg s)
    (taken : step cfg s a = some t) : Inv cfg t :=
  inv.step (step_cases taken).2

theorem Inv.inserted_own (inv : Inv cfg s) {c d : Nat} {n : Nat} (main : s.main = .wiring c n)
    (entry : (s.fd c, d) ∈ s.conns) : d = c :=
  inv.distinct d c (inv.conns_alive entry) (.inr (.inl (by rw [main]; rfl))) (inv.keyed _ d entry)

theorem Inv.listed_own (inv : Inv cfg s) {i c d : Nat} (main : s.main = .inserted c)
    (entry : (s.fd c, d) ∈ s.subconns i) : d = c :=
  inv.distinct d c (inv.subconns_alive entry) (.inr (.inl (by rw [main]; rfl)))
    (inv.subkeyed i _ d entry).1

theorem Inv.closing_own (inv : Inv cfg s) {i c d : Nat} (pc : s.pc i = .closing c)
    (entry : (s.fd c, d) ∈ s.conns) : d = c := by
  obtain ⟨-, rfl⟩ := inv.handled i c (by rw [pc]; rfl)
  exact inv.distinct d c (inv.conns_alive entry) (.inr (.inr (by rw [pc]; rfl))) (inv.keyed _ d entry)

theorem taken_out (inv : Inv cfg s) (step : Step cfg s a t) (followed : FollowedByDeparted s a) {k : Int}
    {c : Nat} (entry : (k, c) ∈ s.conns) (gone : (k, c) ∉ t.conns) :
    ∃ i, a = .closeconnection i ∧ s.pc i = .closing c := by
  cases step with
  | @inserted d n main set =>
    refine absurd ?_ gone
    by_cases same : k = s.fd d
    · subst same
      simp [inv.inserted_own main entry]
    · simp [entry, same]
  | @erased i d pc =>
    refine ⟨i, rfl, ?_⟩
    by_cases same : k = s.fd d
    · subst same
      rw [inv.closing_own pc entry]
      exact pc
    · exact absurd (by simp [entry, same]) gone
  | @removed i d now key past pc =>
    by_cases same : k = key
    · obtain ⟨k', e, stands, stored, departed⟩ := followed.follows pc
      cases stands
      have number := (inv.subkeyed i _ e stored).1
      have own : c = e := inv.distinct c e (inv.conns_alive entry) (inv.subconns_alive stored)
        ((inv.keyed k c entry).trans (same.trans number.symm))
      refine absurd ?_ departed.2
      rw [InServer, number, ← same, ← own]
      exact entry
    · exact absurd (by simp [entry, same]) gone
  | @overran i d now past pc =>
    obtain ⟨k', e, stands, -⟩ := followed.follows pc
    cases stands
  | _ => exact absurd entry gone

theorem own_removal (inv : Inv cfg s) (taken : step cfg s a = some t) (followed : FollowedByDeparted s a) :
    OwnRemoval s a t := by
  obtain ⟨running, step⟩ := step_cases taken
  constructor
  case own => exact fun k c entry gone => .inl (taken_out inv step followed entry gone)
  case defined =>
    cases step with
    | @stopped a fault dangling stale terminated iterator =>
      intro fault
      obtain ⟨i, now, k, pc, absent⟩ := iterator (Option.some.inj fault)
      obtain ⟨c, entry⟩ := inv.iterator i k (by rw [pc]; rfl)
      exact absent c entry
    | overran pc =>
      obtain ⟨k, e, stands, -⟩ := followed.follows pc
      cases stands
    | _ => simp [running]

theorem removeconn_taken {i c : Nat} {now k past : Int} (pc : s.pc i = .notifying c now (some k))
    (taken : step cfg s (.handletimer i past) = some t) : t.conns = s.conns.erase k := by
  simp only [step, act, handletimer, pc] at taken
  split at taken
  · cases taken
  · cases taken
    rfl

theorem end_taken {i c : Nat} {now past : Int} (pc : s.pc i = .notifying c now none)
    (taken : step cfg s (.handletimer i past) = some t) : t.fault = some .endIterator := by
  simp only [step, act, handletimer, pc] at taken
  split at taken
  · cases taken
  · cases taken
    rfl

structure Enrolled (cfg : Config) (s : TcpServer) : Prop where
  opened : ∀ c, InLoop cfg s c ∨ s.main = .inserted c → (s.conn c).disconnect = false → InServer s c
  closing : ∀ i c, s.pc i = .closing c → (s.conn c).disconnect = true

theorem Enrolled.opened_step (inv : Inv cfg s) (enrolled : Enrolled cfg s) (step : Step cfg s a t)
    (followed : FollowedByDeparted s a) {c : Nat} (placed : InLoop cfg t c ∨ t.main = .inserted c)
    (connected : (t.conn c).disconnect = false) : InServer t c := by
  by_cases old : c = s.next → t.next = s.next
  · have known : c < s.next := by
      rcases placed with stored | main
      · exact inv.known c (alive_step step old (.inl (.inr (.inl stored))))
      · exact inv.known c (alive_step step old (.inr (.inl (by rw [main]; rfl))))
    have before : (s.conn c).disconnect = false := by
      by_contra closed
      simp [disconnect_step step known (by simpa using closed)] at connected
    have kept (stored : InServer s c) : InServer t c := by
      rw [InServer, fd_step step old]
      by_contra gone
      obtain ⟨i, -, pc⟩ := taken_out inv step followed stored gone
      simp [enrolled.closing i c pc] at before
    rcases placed with stored | main
    · rw [InLoop, fd_step step old, home_step step old] at stored
      rcases subconns_origin step stored with there | ⟨-, -, main, -⟩
      · exact kept (enrolled.opened c (.inl there) before)
      · exact kept (enrolled.opened c (.inr main) before)
    · rcases inserted_origin step main with main | stored
      · exact kept (enrolled.opened c (.inr main) before)
      · exact stored
  · obtain ⟨rfl, grown⟩ := Classical.not_imp.mp old
    cases step with
    | accepted main range fresh =>
      rcases placed with stored | main
      · exact absurd (inv.known _ (inv.subconns_alive stored)) (lt_irrefl _)
      · cases main
    | _ => exact absurd rfl grown

theorem enrolled_step (inv : Inv cfg s) (enrolled : Enrolled cfg s) (step : Step cfg s a t)
    (followed : FollowedByDeparted s a) : Enrolled cfg t where
  opened _ := enrolled.opened_step inv step followed
  closing i c pc := by
    rcases closing_step step pc with before | closed
    · have known := (inv.handled i c (by rw [before]; rfl)).1
      exact disconnect_step step known (enrolled.closing i c before)
    · exact closed

theorem initial_enrolled (cfg : Config) (others : Nat → Interest) : Enrolled cfg (initial others) where
  opened c placed := by
    rcases placed with stored | main
    · exact absurd stored (not_mem_empty _)
    · cases main
  closing i c pc := by cases pc

-- The key is past the fd of the connection that was dropped, so an entry under it is another's.
theorem followed_by_departed (inv : Inv cfg s) (enrolled : Enrolled cfg s) (taken : step cfg s a = some t)
    (own : OwnRemoval s a t) : FollowedByDeparted s a := by
  unfold FollowedByDeparted
  split
  next i past =>
    split
    next c now aa pc =>
      cases aa with
      | none => exact absurd (end_taken pc taken) own.defined
      | some k =>
        obtain ⟨d, entry⟩ := inv.iterator i k (by rw [pc]; rfl)
        have absent : ¬ InServer s d := by
          intro stored
          rw [InServer, (inv.subkeyed i k d entry).1] at stored
          have gone : (k, d) ∉ t.conns := by simp [removeconn_taken pc taken]
          rcases own.own k d stored gone with ⟨j, same, -⟩ | ⟨j, past', now', aa', same, place⟩
          · cases same
          · cases same
            cases pc.symm.trans place
            have key := inv.keyed k c stored
            have later := (inv.timedout i c now k pc).2
            omega
        refine ⟨k, rfl, d, find?_eq_some.mpr entry, ?_, absent⟩
        by_contra opened
        exact absent (enrolled.opened d (.inl (inv.inLoop entry)) (by simpa using opened))
    next => trivial
  next => trivial

theorem own_removal_iff (taken : run (step cfg) (initial others) acts = some s) :
    Each (step cfg) OwnRemoval (initial others) acts ↔
      Guarded (step cfg) FollowedByDeparted (initial others) acts := by
  constructor
  · refine each_guarded (fun s a t (h : Inv cfg s ∧ Enrolled cfg s) followed next => ?_)
      (fun s a t h next own => ?_) ⟨initial_inv cfg others, initial_enrolled cfg others⟩ taken
    · exact ⟨inv_step s a t h.1 next, enrolled_step h.1 h.2 (step_cases next).2 followed⟩
    · exact followed_by_departed h.1 h.2 next own
  · refine guarded_each (fun s a t inv _ next => inv_step s a t inv next)
      (fun s a t inv followed next => ?_) (initial_inv cfg others)
    exact own_removal inv next followed

-- The peer of fd 7 has closed by the time fd 4, which comes before it on loop 1, is late.
def departedNeighbour : List Act :=
  connect 4 ++ connect 7 ++
    [.wait 1 [(.client 1, EPOLLIN)], .dispatch 1, .eof 1, .closeconnection 1, .leave 1, .leave 1, .tick 11,
      .wait 1 [(.timer, EPOLLIN)], .dispatch 1, .handletimer 1 0, .handletimer 1 0]

theorem own_removal_departed :
    (4, 0) ∉ (final (step ⟨3, 10, 1⟩) (initial fun _ _ => none) departedNeighbour).subconns 1 ∧
      (4, 0) ∈ (final (step ⟨3, 10, 1⟩) (initial fun _ _ => none) departedNeighbour).conns ∧
      Each (step ⟨3, 10, 1⟩) OwnRemoval (initial fun _ _ => none) departedNeighbour := by
  refine ⟨by decide +kernel, by decide +kernel, ?_⟩
  exact (own_removal_iff (run_final (by decide +kernel))).mpr (by decide +kernel)

-- Both connections are on loop 1; when the scan finds fd 4 late, fd 7 has just come.
def neighbours : List Act :=
  connect 4 ++ .tick 11 :: connect 7 ++
    [.wait 1 [(.timer, EPOLLIN)], .dispatch 1, .handletimer 1 0, .handletimer 1 0]

-- Fd 4 is the last one on its loop, and what is read through end() is 5.
def lastOfLoop : List Act :=
  connect 4 ++ .tick 11 :: connect 5 ++
    [.wait 1 [(.timer, EPOLLIN)], .dispatch 1, .handletimer 1 0, .handletimer 1 5]

theorem neighbour_removed :
    ¬ Each (step ⟨3, 10, 1⟩) OwnRemoval (initial fun _ _ => none) neighbours ∧
      ¬ Each (step ⟨3, 10, 1⟩) OwnRemoval (initial fun _ _ => none) lastOfLoop := by
  constructor
  · intro each
    have removeconn := each_final neighbours.dropLast (.handletimer 1 0) each (by decide +kernel)
    have pc : (final (step ⟨3, 10, 1⟩) (initial fun _ _ => none) neighbours.dropLast).pc 1 =
        .notifying 0 11 (some 7) := by decide +kernel
    rcases removeconn.own 7 1 (by decide +kernel) (by decide +kernel) with
      ⟨i, same, -⟩ | ⟨i, past, now, aa, same, place⟩
    · cases same
    · cases same
      cases pc.symm.trans place
  · intro each
    have removeconn := each_final lastOfLoop.dropLast (.handletimer 1 5) each (by decide +kernel)
    have pc : (final (step ⟨3, 10, 1⟩) (initial fun _ _ => none) lastOfLoop.dropLast).pc 1 =
        .notifying 0 11 none := by decide +kernel
    rcases removeconn.own 5 1 (by decide +kernel) (by decide +kernel) with
      ⟨i, same, -⟩ | ⟨i, past, now, aa, same, place⟩
    · cases same
    · cases same
      cases pc.symm.trans place

end Reactor.TcpServer
