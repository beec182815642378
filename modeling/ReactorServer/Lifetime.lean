import ReactorServer.Handover

set_option autoImplicit false

namespace Reactor.TcpServer

open ByteString OrderedMap Transition

variable {cfg : Config} {s t : TcpServer} {a : Act} {acts : List Act} {others : Nat → Interest}

-- What handletimer drops was off the interest list already, or this is its last holder and the batch has
-- nothing more of it.
def DropsLast (s : TcpServer) (i : Nat) (k : Int) (c : Nat) : Prop :=
  s.ep i (s.fd c) = none ∨
    (∀ revents, (.client c, revents) ∉ s.batch i) ∧ (k, c) ∉ s.conns ∧ c ∉ s.works.map Prod.fst ∧
      s.main.conn ≠ some c

def HeldFirst (cfg : Config) (s : TcpServer) (a : Act) : Prop :=
  match a with
  | .wait _ batch => ∀ c revents, (.client c, revents) ∈ batch →
      (s.main.pending = some c → s.main = .inserted c) ∧
      (handleevent revents = .close ∨ handleevent revents = .error → s.main.pending ≠ some c)
  | .eof i => ∀ c, s.pc i = .reading c → s.main.pending ≠ some c
  | .handletimer i _ => ∀ now k c, s.pc i = .scanning now (some k) → (k, c) ∈ s.subconns i →
      (s.conn c).timeout now cfg.timeout = true → DropsLast s i k c ∧ (s.subconns i).next k ≠ none
  | .sendinloop i _ => ∀ fn rest, s.pc i = .draining → s.taskqueue i = fn :: rest → Alive cfg s fn.conn
  | _ => True

-- Held by a registry that no step of another connection takes it out of.
def Secure (cfg : Config) (s : TcpServer) (c : Nat) : Prop :=
  InLoop cfg s c ∨ s.main = .inserted c ∧ InServer s c

structure Tied (cfg : Config) (s : TcpServer) : Prop where
  registered : ∀ c, Alive cfg s c → (s.ep (home cfg s c) (s.fd c)).isSome = true →
    (s.main.pending = some c → s.main = .inserted c) → Secure cfg s c
  handled : ∀ i c, (s.pc i).handled = some c → Secure cfg s c
  batched : ∀ i c revents, (.client c, revents) ∈ s.batch i →
    Secure cfg s c ∧ (s.ep i (s.fd c)).isSome = true
  hangup : ∀ i c revents, (.client c, revents) ∈ s.batch i →
    handleevent revents = .close ∨ handleevent revents = .error → s.main.pending ≠ some c
  closing : ∀ i c, s.pc i = .closing c → s.main.pending ≠ some c
  distinct : ∀ i, ((s.batch i).map Prod.fst).Nodup
  apart : ∀ i c revents, (s.pc i).handled = some c → (.client c, revents) ∉ s.batch i
  inside : ∀ i c now, s.pc i ≠ .notifying c now none

theorem Secure.held {c : Nat} (secure : Secure cfg s c) : Held cfg s c := by
  rcases secure with stored | ⟨-, stored⟩
  · exact .inr (.inl stored)
  · exact .inl stored

theorem Tied.attended (tied : Tied cfg s) {i c : Nat} (attended : Attended s i c) : Secure cfg s c := by
  rcases attended with handled | ⟨-, revents, rest, head⟩
  · exact tied.handled i c handled
  · exact (tied.batched i c revents (by simp [head])).1

theorem secure_step (inv : Inv cfg s) (tied : Tied cfg s) (step : Step cfg s a t) {c : Nat}
    (secure : Secure cfg s c) :
    Secure cfg t c ∨ Drops cfg s c a t := by
  rcases secure with stored | ⟨main, stored⟩
  · rcases inLoop_step inv step stored with kept | drops
    · exact .inl (.inl kept)
    · exact .inr drops
  · refine .inl ?_
    have pending : s.main.pending = some c := by rw [main]; rfl
    have known := inv.inServer_known stored
    have fd := fd_step step (c := c) (by omega)
    have frame (same : t.main = s.main) (kept : (s.fd c, c) ∈ t.conns) : Secure cfg t c :=
      .inr ⟨same.trans main, by rw [InServer, fd]; exact kept⟩
    cases step with
    | accepted idle range fresh => cases idle.symm.trans main
    | wired before => rcases before with ⟨before, -⟩ | ⟨m, -, before, -⟩ <;> cases before.symm.trans main
    | inserted before set => cases before.symm.trans main
    | listed before =>
      cases before.symm.trans main
      exact .inl (by simp [InLoop, home, TcpServer.fd])
    | completed before => cases before.symm.trans main
    | @erased i d pc =>
      refine frame rfl (mem_erase.mpr ⟨stored, fun same => ?_⟩)
      have entry : (s.fd d, c) ∈ s.conns := (show s.fd c = s.fd d from same) ▸ (id stored)
      have own := inv.closing_own pc entry
      exact tied.closing i d pc (own ▸ pending)
    | @removed i d now k past pc =>
      refine frame rfl (mem_erase.mpr ⟨stored, fun same => ?_⟩)
      obtain ⟨e, entry⟩ := inv.iterator i k (by rw [pc]; rfl)
      have own := inv.distinct e c (inv.subconns_alive entry) (inv.conns_alive stored)
        ((inv.subkeyed i k e entry).1.trans same.symm)
      exact inv.pending i k c pending (own ▸ entry)
    | overran pc => exact absurd pc (tied.inside _ _ _)
    | _ => exact frame rfl stored

theorem Tied.batched_step (inv : Inv cfg s) (tied : Tied cfg s) (held : HeldFirst cfg s a)
    (step : Step cfg s a t) {i c : Nat} {revents : UInt32} (queued : (.client c, revents) ∈ s.batch i) :
    Secure cfg t c := by
  obtain ⟨secure, stored⟩ := tied.batched i c revents queued
  rcases secure_step inv tied step secure with kept | ⟨pc, entry, late⟩
  · exact kept
  · exfalso
    obtain rfl := (inv.batched i c revents queued).2.symm.trans (inv.subkeyed _ _ c entry).2
    rcases (held _ _ c pc entry late).1 with none | ⟨absent, -⟩
    · simp [none] at stored
    · exact absent revents queued

theorem Turns.distinct {i : Nat} {batch : List (Source × UInt32)} {pc : LoopPc}
    (turns : Turns cfg s i a batch pc) (before : ((s.batch i).map Prod.fst).Nodup) :
    (batch.map Prod.fst).Nodup := by
  have shorter {event : Source × UInt32} {rest : List (Source × UInt32)}
      (head : s.batch i = event :: rest) : (rest.map Prod.fst).Nodup := by
    rw [head] at before
    exact before.of_cons
  cases turns with
  | moved moves =>
    cases moves with
    | waited polling distinct reports => exact distinct
    | timer polling head => exact shorter head
    | wakeup polling head => exact shorter head
    | readable polling head event alive => exact shorter head
    | writable polling head event alive => exact shorter head
    | _ => exact before
  | closed closes alive =>
    cases closes with
    | dispatched polling head hangup => exact shorter head
    | ended place => exact before
  | _ => exact before

theorem Tied.head_apart (tied : Tied cfg s) {i c : Nat} {revents : UInt32}
    {rest : List (Source × UInt32)} (head : s.batch i = (.client c, revents) :: rest)
    (revents' : UInt32) : (.client c, revents') ∉ rest := by
  have distinct := tied.distinct i
  rw [head, List.map_cons, List.nodup_cons] at distinct
  exact fun queued => distinct.1 (List.mem_map.mpr ⟨_, queued, rfl⟩)

theorem Turns.apart (tied : Tied cfg s) {i c : Nat} {batch : List (Source × UInt32)} {pc : LoopPc}
    (turns : Turns cfg s i a batch pc) (handled : pc.handled = some c) (revents : UInt32) :
    (.client c, revents) ∉ batch := by
  have before {place : LoopPc} (pc : s.pc i = place) (same : place.handled = some c) :
      (.client c, revents) ∉ s.batch i := tied.apart i c revents (by rw [pc, same])
  cases turns with
  | moved moves =>
    cases moves with
    | readable polling head event alive =>
      cases handled
      exact tied.head_apart head revents
    | writable polling head event alive =>
      cases handled
      exact tied.head_apart head revents
    | drained place alive => exact before place handled
    | dropped place => exact before place handled
    | _ => cases handled
  | closed closes alive =>
    cases handled
    cases closes with
    | dispatched polling head hangup => exact tied.head_apart head revents
    | ended place => exact before place rfl
  | wrote place => exact before place handled
  | erased place => exact before place handled
  | timedout place entry late => cases handled
  | removed place => cases handled

theorem Closes.unqueued (tied : Tied cfg s) (inv : Inv cfg s) {i j c : Nat} {revents : UInt32}
    {batch : List (Source × UInt32)} (closes : Closes cfg s i a batch c) (left : t.batch i = batch)
    (place : home cfg s c = j) : (.client c, revents) ∉ t.batch j := by
  cases closes with
  | @dispatched c first rest polling head hangup =>
    obtain rfl := place.symm.trans (inv.batched i c first (by simp [head])).2
    rw [left]
    exact tied.head_apart head revents
  | ended pc =>
    have handled : (s.pc i).handled = some c := by rw [pc]; rfl
    obtain rfl := place.symm.trans (inv.handled i c handled).2
    rw [left]
    exact tied.apart j c revents handled

theorem Turns.closes {i c : Nat} {batch : List (Source × UInt32)} {pc : LoopPc}
    (turns : Turns cfg s i a batch pc) (place : pc = .closing c) : Closes cfg s i a batch c := by
  cases turns with
  | moved moves => cases moves <;> cases place
  | closed closes alive =>
    cases place
    exact closes
  | _ => cases place

theorem Turns.inside (held : HeldFirst cfg s a) {i c : Nat} {batch : List (Source × UInt32)} {pc : LoopPc}
    {now : Int} (turns : Turns cfg s i a batch pc) (place : pc = .notifying c now none) : False := by
  cases turns with
  | moved moves => cases moves <;> cases place
  | timedout before entry late =>
    have follows := (held _ _ _ before entry late).2
    simp only [LoopPc.notifying.injEq] at place
    exact follows place.2.2
  | _ => cases place

end Reactor.TcpServer
