import ReactorServer.Registries

set_option autoImplicit false

namespace Reactor.TcpServer

open OrderedMap Transition

variable {cfg : Config} {s t : TcpServer} {a : Act} {acts : List Act} {others : Nat → Interest}

structure Agreed (cfg : Config) (s : TcpServer) : Prop where
  same : ∀ c, InServer s c ↔ InLoop cfg s c
  closed : ∀ c, (s.conn c).disconnect = true → ¬ InServer s c ∧ ¬ InLoop cfg s c

structure Quiescent (s : TcpServer) : Prop where
  main : s.main = .accepting
  pc : ∀ i, s.pc i = .polling
  fault : s.fault = none

-- No close, no error, no end of file, and handletimer finds nothing to remove.
def Undisturbed (cfg : Config) (s : TcpServer) (a : Act) : Prop :=
  match a with
  | .dispatch i => ∀ c revents rest, s.batch i = (.client c, revents) :: rest →
      handleevent revents = .read ∨ handleevent revents = .write
  | .eof _ => False
  | .handletimer i _ => ∀ now k c, s.pc i = .scanning now (some k) → (k, c) ∈ s.subconns i →
      (s.conn c).timeout now cfg.timeout = false
  | _ => True

structure Settled (cfg : Config) (s : TcpServer) : Prop where
  opened : ∀ c, (s.conn c).disconnect = false
  calm : ∀ i, (s.pc i).argument = none ∧ ∀ c now aa, s.pc i ≠ .notifying c now aa
  same : ∀ c, InServer s c ↔ InLoop cfg s c ∨ s.main = .inserted c
  owned : ∀ c, Alive cfg s c → InLoop cfg s c ∨ s.main.pending = some c

-- In the registry of its loop, or about to be, though closed or no longer in the server's.
def Stale (cfg : Config) (s : TcpServer) (c : Nat) : Prop :=
  InLoop cfg s c ∧ ((s.conn c).disconnect = true ∨ ¬ InServer s c ∧ s.main.pending ≠ some c) ∨
    s.main.pending = some c ∧ (s.conn c).disconnect = true

def Unsettled (cfg : Config) (s : TcpServer) : Prop :=
  s.fault ≠ none ∨ (∃ i c now aa, s.pc i = .notifying c now aa) ∨ ∃ c, Stale cfg s c

theorem inServer_step (inv : Inv cfg s) (step : Step cfg s a t) {c : Nat} (stored : InServer t c) :
    InServer s c ∨ t.main = .inserted c := by
  rcases conns_origin step stored with before | ⟨-, -, main⟩
  · exact .inl (by rw [InServer, inv.keyed _ c before]; exact before)
  · exact .inr main

theorem Drops.unsettled {c : Nat} (drops : Drops cfg s c a t) : Unsettled cfg t := by
  cases drops with
  | @timedout i now k past pc entry late =>
    exact .inr (.inl ⟨i, c, now, (s.subconns i).next k, by simp⟩)

theorem Drops.disturbs {c : Nat} (drops : Drops cfg s c a t) : ¬ Undisturbed cfg s a := by
  intro undisturbed
  cases drops with
  | @timedout i now k past pc entry late => simp [undisturbed now k c pc entry] at late

theorem Turns.notified {i c : Nat} {batch : List (Source × UInt32)} {pc : LoopPc} {now : Int}
    {aa : Option Int} (turns : Turns cfg s i a batch pc) (place : s.pc i = .notifying c now aa) :
    (∃ past, a = .handletimer i past) ∧ ∃ k, aa = some k := by
  cases turns with
  | moved moves =>
    cases moves with
    | waited before => cases place.symm.trans before
    | timer before => cases place.symm.trans before
    | wakeup before => cases place.symm.trans before
    | emptied before => cases place.symm.trans before
    | readable before => cases place.symm.trans before
    | writable before => cases place.symm.trans before
    | drained before => cases place.symm.trans before
    | dropped before => cases place.symm.trans before
    | returned before => cases place.symm.trans before
    | scanned before => cases place.symm.trans before
    | kept before => cases place.symm.trans before
    | advanced before => cases place.symm.trans before
  | closed closes alive =>
    cases closes with
    | dispatched before => cases place.symm.trans before
    | ended before => cases place.symm.trans before
  | wrote before => cases place.symm.trans before
  | erased before => cases place.symm.trans before
  | timedout before => cases place.symm.trans before
  | removed before =>
    cases place.symm.trans before
    exact ⟨⟨_, rfl⟩, _, rfl⟩

theorem notifying_step (inv : Inv cfg s) (taken : step cfg s a = some t) {i c : Nat} {now : Int}
    {aa : Option Int} (pc : s.pc i = .notifying c now aa) : Unsettled cfg t := by
  have step := (step_cases taken).2
  rcases loop_step step i with ⟨same, -⟩ | turns
  · exact .inr (.inl ⟨i, c, now, aa, same.trans pc⟩)
  · obtain ⟨⟨past, rfl⟩, k, rfl⟩ := turns.notified pc
    obtain ⟨d, entry⟩ := inv.iterator i k (by rw [pc]; rfl)
    have known := inv.known d (inv.subconns_alive entry)
    rcases inLoop_step inv step (inv.inLoop entry) with kept | drops
    · refine .inr (.inr ⟨d, .inl ⟨kept, .inr ⟨?_, ?_⟩⟩⟩)
      · rw [InServer, fd_step step (by omega), (inv.subkeyed i k d entry).1, removeconn_taken pc taken]
        exact fun stored => (mem_erase.mp stored).2 rfl
      · intro pending
        rcases pending_origin step pending with before | ⟨new, -⟩
        · exact inv.pending i k d before entry
        · omega
    · exact drops.unsettled

theorem stale_step (inv : Inv cfg s) (step : Step cfg s a t) {c : Nat} (stale : Stale cfg s c) :
    Unsettled cfg t := by
  rcases stale with ⟨stored, lost⟩ | ⟨pending, closed⟩
  · have known := inv.inLoop_known stored
    rcases inLoop_step inv step stored with kept | drops
    · refine .inr (.inr ⟨c, .inl ⟨kept, ?_⟩⟩)
      rcases lost with closed | ⟨absent, placed⟩
      · exact .inl (disconnect_step step known closed)
      · have unplaced : t.main.pending ≠ some c := fun pending => by
          rcases pending_origin step pending with before | ⟨new, -⟩
          · exact placed before
          · omega
        refine .inr ⟨fun found => ?_, unplaced⟩
        rcases inServer_step inv step found with before | main
        · exact absent before
        · exact unplaced (by rw [main]; rfl)
    · exact drops.unsettled
  · have closed' := disconnect_step step (inv.pending_known pending) closed
    rcases pending_kept step pending with still | stored
    · exact .inr (.inr ⟨c, .inr ⟨still, closed'⟩⟩)
    · exact .inr (.inr ⟨c, .inl ⟨stored, .inl closed'⟩⟩)

theorem unsettled_step (inv : Inv cfg s) (taken : step cfg s a = some t) (unsettled : Unsettled cfg s) :
    Unsettled cfg t := by
  obtain ⟨running, step⟩ := step_cases taken
  rcases unsettled with fault | ⟨i, c, now, aa, pc⟩ | ⟨c, stale⟩
  · exact absurd running fault
  · exact notifying_step inv taken pc
  · exact stale_step inv step stale

theorem unsettled_quiescent (quiet : Quiescent s) (unsettled : Unsettled cfg s) : ¬ Agreed cfg s := by
  intro agreed
  rcases unsettled with fault | ⟨i, c, now, aa, pc⟩ | ⟨c, ⟨stored, closed | ⟨absent, -⟩⟩ | ⟨pending, -⟩⟩
  · exact fault quiet.fault
  · exact absurd (pc.symm.trans (quiet.pc i)) (by simp)
  · exact (agreed.closed c closed).2 stored
  · exact absent ((agreed.same c).mpr stored)
  · simp [quiet.main, MainPc.pending] at pending

theorem Moves.undisturbed {i : Nat} {batch : List (Source × UInt32)} {pc : LoopPc}
    (moves : Moves cfg s i a batch pc) : Undisturbed cfg s a := by
  cases moves with
  | timer polling head =>
    intro c revents rest other
    cases head.symm.trans other
  | wakeup polling head =>
    intro c revents rest other
    cases head.symm.trans other
  | readable polling head event alive =>
    intro c revents rest other
    cases head.symm.trans other
    exact .inl event
  | writable polling head event alive =>
    intro c revents rest other
    cases head.symm.trans other
    exact .inr event
  | scanned place =>
    intro now k c other
    cases place.symm.trans other
  | kept place entry recent =>
    intro now k c other stored
    cases place.symm.trans other
    rw [mem_unique stored entry]
    exact recent
  | advanced place =>
    intro now k c other
    cases place.symm.trans other
  | _ => trivial

theorem Closes.disturbs {i c : Nat} {batch : List (Source × UInt32)} (closes : Closes cfg s i a batch c) :
    ¬ Undisturbed cfg s a := by
  intro undisturbed
  cases closes with
  | dispatched polling head hangup => 
    have kind := undisturbed c _ _ head
    rcases hangup with hangup | hangup <;> simp [hangup] at kind
  | ended place => exact undisturbed

theorem disturbed_step (inv : Inv cfg s) (settled : Settled cfg s) (step : Step cfg s a t)
    (disturbed : ¬ Undisturbed cfg s a) : Unsettled cfg t := by
  have whole := step
  cases step with
  | stopped => exact .inl (by simp)
  | overran pc => exact .inl (by simp)
  | moved moves => exact absurd moves.undisturbed disturbed
  | @closed i a batch c conn closes alive fd disconnect inepoll =>
    rcases settled.owned c alive with stored | pending
    · rcases inLoop_step inv whole stored with kept | drops
      · exact .inr (.inr ⟨c, .inl ⟨kept, .inl (by simpa using disconnect)⟩⟩)
      · exact drops.unsettled
    · exact .inr (.inr ⟨c, .inr ⟨pending, by simpa using disconnect⟩⟩)
  | @timedout i c now k past pc entry late =>
    have drops : Drops cfg s c (.handletimer i past) _ := .timedout pc entry late
    exact drops.unsettled
  | removed pc => 
    refine absurd (fun now k c other => ?_) disturbed
    cases pc.symm.trans other
  | _ => exact absurd trivial disturbed

theorem Settled.opened_step (settled : Settled cfg s) (step : Step cfg s a t)
    (undisturbed : Undisturbed cfg s a) (c : Nat) : (t.conn c).disconnect = false := by
  cases closed : (t.conn c).disconnect with
  | false => rfl
  | true =>
    rcases disconnect_origin step closed with ⟨before, -⟩ | ⟨i, batch, closes⟩
    · simp [settled.opened c] at before
    · exact absurd undisturbed closes.disturbs

theorem Turns.calm (settled : Settled cfg s) {i : Nat} {batch : List (Source × UInt32)} {pc : LoopPc}
    (turns : Turns cfg s i a batch pc) (undisturbed : Undisturbed cfg s a) :
    pc.argument = none ∧ ∀ c now aa, pc ≠ .notifying c now aa := by
  have before := settled.calm i
  cases turns with
  | moved moves =>
    refine ⟨moves.argument, ?_⟩
    cases moves <;> nofun
  | closed closes alive => exact absurd undisturbed closes.disturbs
  | wrote place => exact ⟨rfl, nofun⟩
  | erased place => simp [place, LoopPc.argument] at before
  | timedout place entry late =>
    exact absurd undisturbed (Drops.timedout place entry late).disturbs
  | removed place => exact absurd place (before.2 _ _ _)

theorem Settled.calm_step (settled : Settled cfg s) (step : Step cfg s a t)
    (undisturbed : Undisturbed cfg s a) (i : Nat) :
    (t.pc i).argument = none ∧ ∀ c now aa, t.pc i ≠ .notifying c now aa := by
  rcases loop_step step i with ⟨same, -⟩ | turns
  · rw [same]
    exact settled.calm i
  · exact turns.calm settled undisturbed

theorem Settled.same_step (inv : Inv cfg s) (settled : Settled cfg s) (step : Step cfg s a t)
    (undisturbed : Undisturbed cfg s a) (c : Nat) :
    InServer t c ↔ InLoop cfg t c ∨ t.main = .inserted c := by
  have before := settled.same c
  by_cases old : c = s.next → t.next = s.next
  · have fd := fd_step step old
    have place := home_step step old
    simp only [InServer, InLoop, fd, place] at before ⊢
    cases step with
    | accepted main range fresh => simpa [main] using before
    | wired main => rcases main with ⟨main, -⟩ | ⟨m, -, main, -⟩ <;> simpa [main] using before
    | @inserted d n main set =>
      by_cases same : c = d
      · simp [same]
      · have other : (s.fd c, c) ∈ s.conns → s.fd c ≠ s.fd d := fun stored key =>
          same (inv.inserted_own main (key ▸ stored))
        rw [mem_insert_other same other, before]
        simp [main, Ne.symm same]
    | @listed d main =>
      by_cases same : c = d
      · simpa [same, main] using before
      · have other (i : Nat) : (s.fd c, c) ∈ s.subconns i → s.fd c ≠ s.fd d := fun stored key =>
          same (inv.listed_own main (key ▸ stored))
        have stays (i : Nat) : (s.fd c, c) ∈ Function.update s.subconns (home cfg s d)
            ((s.subconns (home cfg s d)).insert (s.fd d) d) i ↔ (s.fd c, c) ∈ s.subconns i := by
          by_cases here : i = home cfg s d
          · subst here
            rw [Function.update_self]
            exact mem_insert_other same (other _)
          · rw [Function.update_of_ne here]
        have unlisted : s.main = .inserted c ↔ MainPc.listed d = .inserted c := by
          simp [main, Ne.symm same]
        exact before.trans (or_congr (stays (home cfg s c)).symm unlisted)
    | completed main => simpa [main] using before
    | closed closes alive fd disconnect inepoll => exact absurd undisturbed closes.disturbs
    | @erased i c pc =>
      have clear := (settled.calm i).1
      simp [pc, LoopPc.argument] at clear
    | timedout pc entry late =>
      exact absurd undisturbed (Drops.timedout pc entry late).disturbs
    | @removed i c now k past pc => exact absurd pc ((settled.calm i).2 c now (some k))
    | @overran i c now past pc => exact absurd pc ((settled.calm i).2 c now none)
    | _ => exact before
  · obtain ⟨rfl, grown⟩ := Classical.not_imp.mp old
    cases step with
    | accepted main range fresh =>
      refine iff_of_false (fun stored => ?_) ?_
      · exact absurd (inv.known _ (inv.conns_alive stored)) (lt_irrefl _)
      · rintro (stored | main)
        · exact absurd (inv.known _ (inv.subconns_alive stored)) (lt_irrefl _)
        · cases main
    | _ => exact absurd rfl grown

theorem settled_step (inv : Inv cfg s) (settled : Settled cfg s) (step : Step cfg s a t)
    (undisturbed : Undisturbed cfg s a) : Settled cfg t where
  opened := settled.opened_step step undisturbed
  calm := settled.calm_step step undisturbed
  same := settled.same_step inv step undisturbed
  owned := by
    intro c alive
    by_cases old : c = s.next → t.next = s.next
    · rcases settled.owned c (alive_step step old alive) with stored | pending
      · rcases inLoop_step inv step stored with kept | drops
        · exact .inl kept
        · exact absurd undisturbed drops.disturbs
      · exact (pending_kept step pending).symm
    · obtain ⟨rfl, grown⟩ := Classical.not_imp.mp old
      cases step with
      | accepted main range fresh => exact .inr rfl
      | _ => exact absurd rfl grown

theorem initial_settled (cfg : Config) (others : Nat → Interest) : Settled cfg (initial others) where
  opened c := rfl
  calm i := ⟨rfl, fun c now aa pc => by cases pc⟩
  same c := by simp [InServer, InLoop, initial]
  owned c alive := by simp [initial, Alive, Held, MainPc.conn, LoopPc.argument] at alive

theorem agreed_of_settled (quiet : Quiescent s) (settled : Settled cfg s) : Agreed cfg s where
  same c := by simpa [quiet.main] using settled.same c
  closed c closed := by simp [settled.opened c] at closed

theorem registries_agree_iff (taken : run (step cfg) (initial others) acts = some s)
    (quiet : Quiescent s) :
    Agreed cfg s ↔ Guarded (step cfg) (Undisturbed cfg) (initial others) acts := by
  have outcome := run_dichotomy
    (fun s a t (h : Inv cfg s ∧ Settled cfg s) undisturbed next =>
      ⟨inv_step s a t h.1 next, settled_step h.1 h.2 (step_cases next).2 undisturbed⟩)
    (fun s a t h disturbed next =>
      ⟨inv_step s a t h.1 next, disturbed_step h.1 h.2 (step_cases next).2 disturbed⟩)
    (fun s a t (h : Inv cfg s ∧ Unsettled cfg s) next =>
      ⟨inv_step s a t h.1 next, unsettled_step h.1 next h.2⟩)
    ⟨initial_inv cfg others, initial_settled cfg others⟩ taken
  rcases outcome with ⟨guarded, -, settled⟩ | ⟨unguarded, -, unsettled⟩
  · exact iff_of_true (agreed_of_settled quiet settled) guarded
  · exact iff_of_false (unsettled_quiescent quiet unsettled) unguarded

-- A pass over two connections of loop 1, of which neither is late.
def calmPass : List Act :=
  connect 4 ++ connect 7 ++ .wait 1 [(.timer, EPOLLIN)] :: .dispatch 1 :: List.replicate 3 (.handletimer 1 0)

theorem calm_pass_undisturbed :
    Guarded (step ⟨3, 10, 1⟩) (Undisturbed ⟨3, 10, 1⟩) (initial fun _ _ => none) calmPass := by
  have front : Guarded (step ⟨3, 10, 1⟩) (Undisturbed ⟨3, 10, 1⟩) (initial fun _ _ => none)
      (connect 4 ++ connect 7) := by
    refine guarded_always (fun a member s => ?_) _
    simp [connect] at member
    rcases member with rfl | rfl | rfl | rfl <;> trivial
  have scans {s : TcpServer} {k : Int} {c : Nat} (pc : s.pc 1 = .scanning 0 (some k))
      (entry : (k, c) ∈ s.subconns 1) (recent : (s.conn c).timeout 0 10 = false) :
      Undisturbed ⟨3, 10, 1⟩ s (.handletimer 1 0) := by
    intro now k' c' other stored
    cases pc.symm.trans other
    rw [mem_unique stored entry]
    exact recent
  have timed : Guarded (step ⟨3, 10, 1⟩) (Undisturbed ⟨3, 10, 1⟩)
      (final (step ⟨3, 10, 1⟩) (initial fun _ _ => none) (connect 4 ++ connect 7))
      (.wait 1 [(.timer, EPOLLIN)] :: .dispatch 1 :: List.replicate 3 (.handletimer 1 0)) := by
    refine guarded_next trivial (guarded_next ?_ (guarded_next ?_ (guarded_next ?_ (guarded_next ?_ trivial))))
    · intro c revents rest other
      cases other
    · exact scans (k := 4) (c := 0) (by decide +kernel) (by decide +kernel) (by decide +kernel)
    · exact scans (k := 7) (c := 1) (by decide +kernel) (by decide +kernel) (by decide +kernel)
    · intro now k c other
      cases other
  exact guarded_append front (run_final (by decide +kernel)) timed

theorem registries_agree_connected :
    Agreed ⟨3, 10, 1⟩ (final (step ⟨3, 10, 1⟩) (initial fun _ _ => none) calmPass) := by
  have pc : ∀ i, (final (step ⟨3, 10, 1⟩) (initial fun _ _ => none) calmPass).pc i = .polling := by
    intro i
    rcases i with _ | _ | i <;> rfl
  exact (registries_agree_iff (run_final (by decide +kernel)) ⟨by decide +kernel, pc, by decide +kernel⟩).mpr calm_pass_undisturbed

-- The peer of fd 4 closes; the connection leaves the server's registry and stays in its loop's.
def hangup : List Act :=
  connect 4 ++ [.wait 1 [(.client 0, EPOLLIN)], .dispatch 1, .eof 1, .closeconnection 1, .leave 1,
    .leave 1]

theorem registries_disagree :
    ∃ s, run (step ⟨3, 10, 1⟩) (initial fun _ _ => none) hangup = some s ∧ Quiescent s ∧
      (s.conn 0).disconnect = true ∧ ¬ InServer s 0 ∧ InLoop ⟨3, 10, 1⟩ s 0 ∧ ¬ Agreed ⟨3, 10, 1⟩ s := by
  let s := final (step ⟨3, 10, 1⟩) (initial fun _ _ => none) hangup
  have closed : (s.conn 0).disconnect = true := by decide +kernel
  have gone : ¬ InServer s 0 := by
    change (4, 0) ∉ s.conns
    decide
  have kept : InLoop ⟨3, 10, 1⟩ s 0 := by
    change (4, 0) ∈ s.subconns 1
    decide
  have pc : ∀ i, s.pc i = .polling := by
    intro i
    rcases i with _ | _ | i <;> rfl
  exact ⟨s, run_final (by decide +kernel), ⟨by decide +kernel, pc, by decide +kernel⟩, closed, gone, kept,
    fun agreed => (agreed.closed 0 closed).2 kept⟩

end Reactor.TcpServer
