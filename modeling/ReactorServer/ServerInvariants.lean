import ReactorServer.ServerSteps

set_option autoImplicit false

namespace Reactor.TcpServer

open OrderedMap

variable {cfg : Config} {s t : TcpServer} {a : Act}

theorem fd_update {c : Nat} {conn : Connection} (same : conn.fd = s.fd c) (d : Nat) :
    (Function.update s.conn c conn d).fd = s.fd d := by
  by_cases h : d = c
  · rw [h, Function.update_self, same]
  · rw [Function.update_of_ne h]
    rfl

theorem fd_step (step : Step cfg s a t) {c : Nat} (old : c = s.next → t.next = s.next) : t.fd c = s.fd c := by
  cases step with
  | accepted main range fresh =>
    have known : c ≠ s.next := fun new => absurd (old new) (Nat.succ_ne_self _)
    simp [TcpServer.fd, known]
  | closed closes alive fd disconnect inepoll => exact fd_update fd c
  | wrote pc alive keeps => exact fd_update keeps.fd c
  | delivered pc alive keeps tasks => exact fd_update keeps.fd c
  | called pc queue alive keeps => exact fd_update keeps.fd c
  | _ => rfl

theorem Turns.attended {i c : Nat} {batch : List (Source × UInt32)} {pc : LoopPc}
    (turns : Turns cfg s i a batch pc) (handled : pc.handled = some c) : Attended s i c := by
  cases turns with
  | moved moves =>
    cases moves with
    | readable polling head event alive =>
      cases handled
      exact .inr ⟨polling, _, _, head⟩
    | writable polling head event alive =>
      cases handled
      exact .inr ⟨polling, _, _, head⟩
    | drained place alive =>
      cases handled
      exact .inl (by rw [place]; rfl)
    | dropped place =>
      cases handled
      exact .inl (by rw [place]; rfl)
    | _ => cases handled
  | closed closes alive =>
    cases handled
    cases closes with
    | dispatched polling head hangup => exact .inr ⟨polling, _, _, head⟩
    | ended place => exact .inl (by rw [place]; rfl)
  | wrote place =>
    cases handled
    exact .inl (by rw [place]; rfl)
  | erased place =>
    cases handled
    exact .inl (by rw [place]; rfl)
  | timedout place entry late => cases handled
  | removed place => cases handled

theorem handled_origin (step : Step cfg s a t) {i c : Nat} (handled : (t.pc i).handled = some c) :
    Attended s i c := by
  rcases loop_step step i with ⟨pc, -⟩ | turns
  · exact .inl (pc ▸ handled)
  · exact turns.attended handled

theorem Moves.argument {i : Nat} {batch : List (Source × UInt32)} {pc : LoopPc}
    (moves : Moves cfg s i a batch pc) : pc.argument = none := by
  cases moves <;> rfl

theorem Turns.argument {i c : Nat} {batch : List (Source × UInt32)} {pc : LoopPc}
    (turns : Turns cfg s i a batch pc) (argument : pc.argument = some c) :
    (s.pc i).argument = some c ∨ Alive cfg s c := by
  cases turns with
  | moved moves => cases moves.argument.symm.trans argument
  | closed closes alive =>
    cases argument
    exact .inr alive
  | wrote place => cases argument
  | erased place =>
    cases argument
    exact .inl (by rw [place]; rfl)
  | timedout place entry late => cases argument
  | removed place => cases argument

theorem Turns.queued {i : Nat} {batch : List (Source × UInt32)} {pc : LoopPc}
    (turns : Turns cfg s i a batch pc) {event : Source × UInt32} (queued : event ∈ batch) :
    event ∈ s.batch i ∨ a = .wait i batch ∧ reported cfg s i event := by
  cases turns with
  | moved moves =>
    cases moves with
    | waited polling distinct reports => exact .inr ⟨rfl, reports event queued⟩
    | timer polling head => exact .inl (by simp [head, queued])
    | wakeup polling head => exact .inl (by simp [head, queued])
    | readable polling head kind alive => exact .inl (by simp [head, queued])
    | writable polling head kind alive => exact .inl (by simp [head, queued])
    | _ => exact .inl queued
  | closed closes alive =>
    cases closes with
    | dispatched polling head hangup => exact .inl (by simp [head, queued])
    | ended place => exact .inl queued
  | _ => exact .inl queued

theorem batch_step (step : Step cfg s a t) {i : Nat} {event : Source × UInt32}
    (queued : event ∈ t.batch i) :
    event ∈ s.batch i ∨ ∃ batch, a = .wait i batch ∧ event ∈ batch ∧ reported cfg s i event := by
  rcases loop_step step i with ⟨-, same⟩ | turns
  · exact .inl (same ▸ queued)
  · rcases turns.queued queued with before | ⟨waited, reports⟩
    · exact .inl before
    · exact .inr ⟨t.batch i, waited, queued, reports⟩

theorem conns_origin (step : Step cfg s a t) {k : Int} {c : Nat} (entry : (k, c) ∈ t.conns) :
    (k, c) ∈ s.conns ∨ k = s.fd c ∧ s.main.pending = some c ∧ t.main = .inserted c := by
  cases step with
  | inserted main set =>
    rcases mem_insert.mp entry with own | ⟨before, -⟩
    · cases own
      exact .inr ⟨rfl, by rw [main]; rfl, rfl⟩
    · exact .inl before
  | erased pc => exact .inl (mem_erase.mp entry).1
  | removed pc => exact .inl (mem_erase.mp entry).1
  | overran pc => exact .inl (mem_erase.mp entry).1
  | _ => exact .inl entry

theorem subconns_origin (step : Step cfg s a t) {i : Nat} {k : Int} {c : Nat}
    (entry : (k, c) ∈ t.subconns i) :
    (k, c) ∈ s.subconns i ∨
      k = s.fd c ∧ i = home cfg s c ∧ s.main = .inserted c ∧ t.main = .listed c := by
  cases step with
  | @listed d main =>
    by_cases here : i = home cfg s d
    · subst here
      have found : (k, c) = (s.fd d, d) ∨ (k, c) ∈ s.subconns (home cfg s d) ∧ k ≠ s.fd d :=
        mem_insert.mp (by simpa using entry)
      rcases found with own | ⟨before, -⟩
      · cases own
        exact .inr ⟨rfl, rfl, main, rfl⟩
      · exact .inl before
    · exact .inl (by simpa [here] using entry)
  | @timedout j d now k' past pc stored late =>
    by_cases here : i = j
    · subst here
      have found : (k, c) ∈ s.subconns i ∧ ¬ k = k' := by simpa using entry
      exact .inl found.1
    · exact .inl (by simpa [here] using entry)
  | _ => exact .inl entry

theorem task_held {c : Nat} {pc : WorkPc} (task : (c, pc) ∈ s.works) : Alive cfg s c :=
  .inl (.inr (.inr (List.mem_map_of_mem task)))

theorem retask_origin {c d : Nat} {before after : WorkPc} (task : (d, before) ∈ s.works)
    (now : c ∈ (s.works.erase (d, before) ++ [(d, after)]).map Prod.fst) : Alive cfg s c := by
  obtain ⟨⟨e, pc⟩, member, rfl⟩ := List.mem_map.mp now
  rcases List.mem_append.mp member with kept | own
  · exact task_held (List.mem_of_mem_erase kept)
  · cases List.mem_singleton.mp own
    exact task_held task

theorem works_origin (step : Step cfg s a t) {c : Nat} (task : c ∈ t.works.map Prod.fst) : Alive cfg s c := by
  cases step with
  | delivered pc alive keeps tasks =>
    rcases tasks with rfl | ⟨message, rfl⟩
    · exact .inl (.inr (.inr task))
    · rw [List.map_append] at task
      rcases List.mem_append.mp task with before | new
      · exact .inl (.inr (.inr before))
      · rw [List.mem_singleton.mp new]
        exact alive
  | sent entry => exact retask_origin entry task
  | pushed entry unlocked => exact retask_origin entry task
  | finished done =>
    obtain ⟨e, member, rfl⟩ := List.mem_map.mp task
    exact task_held (List.mem_of_mem_erase member)
  | _ => exact .inl (.inr (.inr task))

theorem MainPc.conn_of_pending {pc : MainPc} {c : Nat} (pending : pc.pending = some c) :
    pc.conn = some c := by
  cases pc with
  | accepting => cases pending
  | listed d => cases pending
  | _ => exact pending

theorem main_origin (step : Step cfg s a t) {c : Nat} (main : t.main.conn = some c) :
    s.main.conn = some c ∨ c = s.next ∧ t.next ≠ s.next := by
  cases step with
  | accepted idle range fresh =>
    cases main
    exact .inr ⟨rfl, Nat.succ_ne_self _⟩
  | wired before =>
    rcases before with ⟨before, -⟩ | ⟨m, -, before, -⟩ <;> exact .inl (by rw [before]; exact main)
  | inserted before set => exact .inl (by rw [before]; exact main)
  | listed before => exact .inl (by rw [before]; exact main)
  | completed before => cases main
  | _ => exact .inl main

theorem alive_step (step : Step cfg s a t) {c : Nat} (old : c = s.next → t.next = s.next)
    (alive : Alive cfg t c) : Alive cfg s c := by
  have fd := fd_step step old
  have sameHome : home cfg t c = home cfg s c := by simp only [home, fd]
  rcases alive with (stored | stored | task) | main | argument
  · rcases conns_origin step stored with before | ⟨-, pending, -⟩
    · exact .inl (.inl (fd ▸ before))
    · exact .inr (.inl (MainPc.conn_of_pending pending))
  · rw [fd, sameHome] at stored
    rcases subconns_origin step stored with before | ⟨-, -, main, -⟩
    · exact .inl (.inr (.inl before))
    · exact .inr (.inl (by rw [main]; rfl))
  · exact works_origin step task
  · rcases main_origin step main with before | ⟨new, grown⟩
    · exact .inr (.inl before)
    · exact absurd (old new) grown
  · rw [sameHome] at argument
    rcases loop_step step (home cfg s c) with ⟨pc, -⟩ | turns
    · exact .inr (.inr (pc ▸ argument))
    · rcases turns.argument argument with before | alive
      · exact .inr (.inr before)
      · exact alive

theorem home_step (step : Step cfg s a t) {c : Nat} (old : c = s.next → t.next = s.next) :
    home cfg t c = home cfg s c := by
  simp only [home, fd_step step old]

structure Inv (cfg : Config) (s : TcpServer) : Prop where
  known : ∀ c, Alive cfg s c → c < s.next
  handled : ∀ i c, (s.pc i).handled = some c → c < s.next ∧ home cfg s c = i
  batched : ∀ i c revents, (.client c, revents) ∈ s.batch i → c < s.next ∧ home cfg s c = i
  distinct : ∀ c d, Alive cfg s c → Alive cfg s d → s.fd c = s.fd d → c = d
  keyed : ∀ k c, (k, c) ∈ s.conns → s.fd c = k
  subkeyed : ∀ i k c, (k, c) ∈ s.subconns i → s.fd c = k ∧ home cfg s c = i
  iterator : ∀ i k, (s.pc i).iterator = some k → ∃ c, (k, c) ∈ s.subconns i
  timedout : ∀ i c now k, s.pc i = .notifying c now (some k) → c < s.next ∧ s.fd c < k
  pending : ∀ i k c, s.main.pending = some c → (k, c) ∉ s.subconns i
  inepoll : ∀ c, (s.conn c).channel.inepoll = true

theorem Inv.conns_alive (inv : Inv cfg s) {k : Int} {c : Nat} (entry : (k, c) ∈ s.conns) :
    Alive cfg s c := by
  have key := inv.keyed k c entry
  exact .inl (.inl (key ▸ entry))

theorem Inv.subconns_alive (inv : Inv cfg s) {i : Nat} {k : Int} {c : Nat}
    (entry : (k, c) ∈ s.subconns i) : Alive cfg s c := by
  obtain ⟨key, home⟩ := inv.subkeyed i k c entry
  exact .inl (.inr (.inl (by rw [key, home]; exact entry)))

theorem next_step (step : Step cfg s a t) : s.next ≤ t.next := by
  cases step with
  | accepted main range fresh => exact Nat.le_succ _
  | _ => exact le_rfl

theorem Inv.known_step (inv : Inv cfg s) (step : Step cfg s a t) {c : Nat} (alive : Alive cfg t c) :
    c < t.next := by
  have grown := next_step step
  by_cases new : c = s.next ∧ t.next ≠ s.next
  · omega
  · exact (inv.known c (alive_step step (by tauto) alive)).trans_le grown

theorem Inv.attended_known (inv : Inv cfg s) {i c : Nat} (attended : Attended s i c) :
    c < s.next ∧ home cfg s c = i := by
  rcases attended with handled | ⟨-, revents, rest, head⟩
  · exact inv.handled i c handled
  · exact inv.batched i c revents (by simp [head])

theorem Inv.handled_step (inv : Inv cfg s) (step : Step cfg s a t) {i : Nat} {c : Nat}
    (handled : (t.pc i).handled = some c) : c < t.next ∧ home cfg t c = i := by
  have grown := next_step step
  obtain ⟨known, place⟩ := inv.attended_known (handled_origin step handled)
  exact ⟨by omega, (home_step step (by omega)).trans place⟩

theorem Inv.batched_step (inv : Inv cfg s) (step : Step cfg s a t) {i : Nat} {c : Nat} {revents : UInt32}
    (batched : (.client c, revents) ∈ t.batch i) : c < t.next ∧ home cfg t c = i := by
  have grown := next_step step
  have was : c < s.next ∧ home cfg s c = i := by
    rcases batch_step step batched with before | ⟨batch, -, -, known, -, place, -⟩
    · exact inv.batched i c revents before
    · exact ⟨known, place⟩
  exact ⟨by omega, (home_step step (by omega)).trans was.2⟩

theorem Inv.fresh_step (inv : Inv cfg s) (step : Step cfg s a t) (new : t.next ≠ s.next) {c : Nat}
    (alive : Alive cfg t c) (other : c ≠ s.next) : t.fd c ≠ t.fd s.next := by
  have was := alive_step step (absurd · other) alive
  have same := fd_step step (absurd · other)
  cases step with
  | @accepted fd main range fresh =>
    rw [same]
    simpa [TcpServer.fd, Connection.fd, Connection.established] using
      fresh c (inv.known c was) was
  | _ => exact absurd rfl new

theorem Inv.distinct_step (inv : Inv cfg s) (step : Step cfg s a t) {c d : Nat}
    (left : Alive cfg t c) (right : Alive cfg t d) (same : t.fd c = t.fd d) : c = d := by
  by_cases c_old : c = s.next → t.next = s.next
  · by_cases d_old : d = s.next → t.next = s.next
    · refine inv.distinct c d (alive_step step c_old left) (alive_step step d_old right) ?_
      rw [← fd_step step c_old, ← fd_step step d_old, same]
    · obtain ⟨rfl, grown⟩ := Classical.not_imp.mp d_old
      by_contra other
      exact inv.fresh_step step grown left other same
  · obtain ⟨rfl, grown⟩ := Classical.not_imp.mp c_old
    by_contra other
    exact inv.fresh_step step grown right (Ne.symm other) same.symm

theorem Inv.main_known (inv : Inv cfg s) {c : Nat} (main : s.main.conn = some c) : c < s.next :=
  inv.known c (.inr (.inl main))

theorem Inv.pending_known (inv : Inv cfg s) {c : Nat} (pending : s.main.pending = some c) :
    c < s.next :=
  inv.main_known (MainPc.conn_of_pending pending)

theorem Inv.keyed_step (inv : Inv cfg s) (step : Step cfg s a t) {k : Int} {c : Nat}
    (entry : (k, c) ∈ t.conns) : t.fd c = k := by
  have was : c < s.next ∧ s.fd c = k := by
    rcases conns_origin step entry with before | ⟨key, pending, -⟩
    · exact ⟨inv.known c (inv.conns_alive before), inv.keyed k c before⟩
    · exact ⟨inv.pending_known pending, key.symm⟩
  rw [fd_step step (by omega), was.2]

theorem Inv.subkeyed_step (inv : Inv cfg s) (step : Step cfg s a t) {i : Nat} {k : Int} {c : Nat}
    (entry : (k, c) ∈ t.subconns i) : t.fd c = k ∧ home cfg t c = i := by
  have was : c < s.next ∧ s.fd c = k ∧ home cfg s c = i := by
    rcases subconns_origin step entry with before | ⟨key, place, main, -⟩
    · exact ⟨inv.known c (inv.subconns_alive before), inv.subkeyed i k c before⟩
    · exact ⟨inv.main_known (by rw [main]; rfl), key.symm, place.symm⟩
  rw [fd_step step (by omega), home_step step (by omega)]
  exact was.2

theorem Turns.iterator (inv : Inv cfg s) {i : Nat} {batch : List (Source × UInt32)} {pc : LoopPc} {k : Int}
    (turns : Turns cfg s i a batch pc) (stands : pc.iterator = some k) :
    ∃ c, (k, c) ∈ s.subconns i := by
  cases turns with
  | moved moves =>
    cases moves with
    | timer polling batch => exact first_mem stands
    | kept place entry recent => exact (next_mem stands).2
    | advanced place => exact (next_mem stands).2
    | _ => cases stands
  | timedout place entry late => exact (next_mem stands).2
  | removed place =>
    cases stands
    exact inv.iterator i k (by rw [place]; rfl)
  | _ => cases stands

inductive Drops (cfg : Config) (s : TcpServer) (c : Nat) : Act → TcpServer → Prop where
  | timedout {i : Nat} {now k past : Int} (pc : s.pc i = .scanning now (some k))
      (entry : (k, c) ∈ s.subconns i) (late : (s.conn c).timeout now cfg.timeout = true) :
      Drops cfg s c (.handletimer i past)
        ((s.setsubconns i ((s.subconns i).erase k)).setpc i
          (.notifying c now ((s.subconns i).next k)))

theorem subconns_step (step : Step cfg s a t) {i : Nat} {k : Int} {c : Nat}
    (entry : (k, c) ∈ s.subconns i) :
    (k, c) ∈ t.subconns i ∨ (∃ d, s.main = .inserted d ∧ s.fd d = k ∧ (k, d) ∈ t.subconns i) ∨
      (t.pc i).iterator = (s.subconns i).next k ∧ Drops cfg s c a t := by
  cases step with
  | @listed d main =>
    by_cases place : i = home cfg s d
    · subst place
      by_cases own : k = s.fd d
      · exact .inr (.inl ⟨d, main, own.symm, by simp [own]⟩)
      · exact .inl (by simp [entry, own])
    · exact .inl (by simpa [place] using entry)
  | @timedout j d now k' past pc stored late =>
    by_cases place : i = j
    · subst place
      by_cases own : k = k'
      · subst own
        obtain rfl := mem_unique entry stored
        exact .inr (.inr ⟨by simp [LoopPc.iterator], .timedout pc stored late⟩)
      · exact .inl (by simp [entry, own])
    · exact .inl (by simpa [place] using entry)
  | _ => exact .inl entry

theorem Inv.iterator_step (inv : Inv cfg s) (step : Step cfg s a t) {i : Nat} {k : Int}
    (stands : (t.pc i).iterator = some k) : ∃ c, (k, c) ∈ t.subconns i := by
  have was : ∃ c, (k, c) ∈ s.subconns i := by
    rcases loop_step step i with ⟨pc, -⟩ | turns
    · exact inv.iterator i k (pc ▸ stands)
    · exact turns.iterator inv stands
  obtain ⟨c, entry⟩ := was
  rcases subconns_step step entry with kept | ⟨d, -, -, kept⟩ | ⟨past, -⟩
  · exact ⟨c, kept⟩
  · exact ⟨d, kept⟩
  · exact absurd (next_mem (past.symm.trans stands)).1 (lt_irrefl k)

theorem Turns.notifying {i c : Nat} {batch : List (Source × UInt32)} {pc : LoopPc} {now : Int}
    {aa : Option Int} (turns : Turns cfg s i a batch pc) (place : pc = .notifying c now aa) :
    ∃ k, (k, c) ∈ s.subconns i ∧ (s.subconns i).next k = aa := by
  cases turns with
  | moved moves => cases moves <;> cases place
  | timedout before entry late =>
    cases place
    exact ⟨_, entry, rfl⟩
  | _ => cases place

theorem Inv.timedout_step (inv : Inv cfg s) (step : Step cfg s a t) {i c : Nat} {now k : Int}
    (pc : t.pc i = .notifying c now (some k)) : c < t.next ∧ t.fd c < k := by
  have grown := next_step step
  have was : c < s.next ∧ s.fd c < k := by
    rcases loop_step step i with ⟨same, -⟩ | turns
    · exact inv.timedout i c now k (same.symm.trans pc)
    · obtain ⟨key, entry, after⟩ := turns.notifying pc
      have later := (next_mem after).1
      exact ⟨inv.known c (inv.subconns_alive entry), (inv.subkeyed i key c entry).1 ▸ later⟩
  exact ⟨by omega, by rw [fd_step step (by omega)]; exact was.2⟩

theorem pending_origin (step : Step cfg s a t) {c : Nat} (pending : t.main.pending = some c) :
    s.main.pending = some c ∨ c = s.next ∧ t.next ≠ s.next := by
  cases step with
  | accepted main range fresh =>
    cases pending
    exact .inr ⟨rfl, Nat.succ_ne_self _⟩
  | wired main =>
    rcases main with ⟨main, -⟩ | ⟨m, -, main, -⟩ <;> exact .inl (by rw [main]; exact pending)
  | inserted main set => exact .inl (by rw [main]; exact pending)
  | listed main => cases pending
  | completed main => cases pending
  | _ => exact .inl pending

theorem Inv.pending_step (inv : Inv cfg s) (step : Step cfg s a t) {i : Nat} {k : Int} {c : Nat}
    (pending : t.main.pending = some c) : (k, c) ∉ t.subconns i := by
  intro entry
  rcases subconns_origin step entry with stored | ⟨-, -, -, main⟩
  · rcases pending_origin step pending with before | ⟨rfl, -⟩
    · exact inv.pending i k c before stored
    · exact absurd (inv.known _ (inv.subconns_alive stored)) (lt_irrefl _)
  · rw [main] at pending
    cases pending

theorem disconnect_origin (step : Step cfg s a t) {c : Nat} (closed : (t.conn c).disconnect = true) :
    (s.conn c).disconnect = true ∧ (c = s.next → t.next = s.next) ∨
      ∃ i batch, Closes cfg s i a batch c := by
  cases step with
  | accepted main range fresh =>
    by_cases new : c = s.next
    · simp [new, Connection.established] at closed
    · exact .inl ⟨by simpa [new] using closed, fun same => absurd same new⟩
  | @closed i a batch d conn closes alive fd disconnect inepoll =>
    by_cases same : c = d
    · exact .inr ⟨i, batch, same ▸ closes⟩
    · exact .inl ⟨by simpa [same] using closed, fun _ => rfl⟩
  | @wrote i accepted d ep conn pc alive keeps =>
    by_cases same : c = d
    · exact .inl ⟨by simpa [same, keeps.disconnect] using closed, fun _ => rfl⟩
    · exact .inl ⟨by simpa [same] using closed, fun _ => rfl⟩
  | @delivered i d ss ep conn works pc alive keeps tasks =>
    by_cases same : c = d
    · exact .inl ⟨by simpa [same, keeps.disconnect] using closed, fun _ => rfl⟩
    · exact .inl ⟨by simpa [same] using closed, fun _ => rfl⟩
  | @called i beyond fn rest ep conn pc queue alive keeps =>
    by_cases same : c = fn.conn
    · exact .inl ⟨by simpa [same, keeps.disconnect] using closed, fun _ => rfl⟩
    · exact .inl ⟨by simpa [same] using closed, fun _ => rfl⟩
  | _ => exact .inl ⟨closed, fun _ => rfl⟩

theorem Inv.inepoll_step (inv : Inv cfg s) (step : Step cfg s a t) (c : Nat) :
    (t.conn c).channel.inepoll = true := by
  have set {d : Nat} {conn : Connection} (now : conn.channel.inepoll = true) :
      (Function.update s.conn d conn c).channel.inepoll = true := by
    by_cases same : c = d
    · simpa [same] using now
    · simpa [same] using inv.inepoll c
  cases step with
  | accepted main range fresh => exact set rfl
  | closed closes alive fd disconnect inepoll => exact set inepoll
  | wrote pc alive keeps => exact set (keeps.inepoll (inv.inepoll _))
  | delivered pc alive keeps tasks => exact set (keeps.inepoll (inv.inepoll _))
  | called pc queue alive keeps => exact set (keeps.inepoll (inv.inepoll _))
  | _ => exact inv.inepoll c

theorem Inv.step (inv : Inv cfg s) (step : Step cfg s a t) : Inv cfg t where
  known _ := inv.known_step step
  handled _ _ := inv.handled_step step
  batched _ _ _ := inv.batched_step step
  distinct _ _ := inv.distinct_step step
  keyed _ _ := inv.keyed_step step
  subkeyed _ _ _ := inv.subkeyed_step step
  iterator _ _ := inv.iterator_step step
  timedout _ _ _ _ := inv.timedout_step step
  pending _ _ _ := inv.pending_step step
  inepoll := inv.inepoll_step step

def InServer (s : TcpServer) (c : Nat) : Prop := (s.fd c, c) ∈ s.conns

def InLoop (cfg : Config) (s : TcpServer) (c : Nat) : Prop :=
  (s.fd c, c) ∈ s.subconns (home cfg s c)

theorem Inv.inLoop (inv : Inv cfg s) {i : Nat} {k : Int} {c : Nat} (entry : (k, c) ∈ s.subconns i) :
    InLoop cfg s c := by
  obtain ⟨key, home⟩ := inv.subkeyed i k c entry
  rw [InLoop, key, home]
  exact entry

theorem Inv.inLoop_known (inv : Inv cfg s) {c : Nat} (stored : InLoop cfg s c) : c < s.next :=
  inv.known c (inv.subconns_alive stored)

theorem Inv.inServer_known (inv : Inv cfg s) {c : Nat} (stored : InServer s c) : c < s.next :=
  inv.known c (inv.conns_alive stored)

theorem inLoop_step (inv : Inv cfg s) (step : Step cfg s a t) {c : Nat} (stored : InLoop cfg s c) :
    InLoop cfg t c ∨ Drops cfg s c a t := by
  have known := inv.inLoop_known stored
  have fd := fd_step step (c := c) (by omega)
  have place := home_step step (c := c) (by omega)
  simp only [InLoop, fd, place]
  rcases subconns_step step stored with kept | ⟨d, main, key, kept⟩ | ⟨-, drops⟩
  · exact .inl kept
  · have own : c = d :=
      inv.distinct c d (inv.subconns_alive stored) (.inr (.inl (by rw [main]; rfl))) key.symm
    exact .inl (own ▸ kept)
  · exact .inr drops

theorem pending_kept (step : Step cfg s a t) {c : Nat} (pending : s.main.pending = some c) :
    t.main.pending = some c ∨ InLoop cfg t c := by
  cases step with
  | accepted main range fresh => simp [main, MainPc.pending] at pending
  | wired main =>
    rcases main with ⟨main, -⟩ | ⟨m, -, main, -⟩ <;> exact .inl (by rw [main] at pending; exact pending)
  | inserted main set =>
    rw [main] at pending
    exact .inl pending
  | listed main =>
    rw [main] at pending
    cases pending
    exact .inr (by simp [InLoop, home, TcpServer.fd])
  | completed main => simp [main, MainPc.pending] at pending
  | _ => exact .inl pending

theorem Closes.known (inv : Inv cfg s) {i c : Nat} {batch : List (Source × UInt32)}
    (closes : Closes cfg s i a batch c) : c < s.next := by
  cases closes with
  | @dispatched c revents rest polling head hangup =>
    exact (inv.batched i c revents (by simp [head])).1
  | ended pc => exact (inv.handled i c (by rw [pc]; rfl)).1

theorem disconnect_step (step : Step cfg s a t) {c : Nat} (known : c < s.next)
    (closed : (s.conn c).disconnect = true) : (t.conn c).disconnect = true := by
  cases step with
  | accepted main range fresh => simpa [known.ne] using closed
  | @closed i a batch d conn closes alive fd disconnect inepoll =>
    by_cases same : c = d
    · simpa [same] using disconnect
    · simpa [same] using closed
  | @wrote i accepted d ep conn pc alive keeps =>
    by_cases same : c = d
    · simpa [same, keeps.disconnect] using same ▸ closed
    · simpa [same] using closed
  | @delivered i d ss ep conn works pc alive keeps tasks =>
    by_cases same : c = d
    · simpa [same, keeps.disconnect] using same ▸ closed
    · simpa [same] using closed
  | @called i beyond fn rest ep conn pc queue alive keeps =>
    by_cases same : c = fn.conn
    · simpa [same, keeps.disconnect] using same ▸ closed
    · simpa [same] using closed
  | _ => exact closed

theorem inserted_origin (step : Step cfg s a t) {c : Nat} (main : t.main = .inserted c) :
    s.main = .inserted c ∨ InServer t c := by
  cases step with
  | inserted before set =>
    cases main
    exact .inr (by simp [InServer, TcpServer.fd])
  | accepted before range fresh => cases main
  | wired before => cases main
  | listed before => cases main
  | completed before => cases main
  | _ => exact .inl main

theorem closing_step (step : Step cfg s a t) {i c : Nat} (pc : t.pc i = .closing c) :
    s.pc i = .closing c ∨ (t.conn c).disconnect = true := by
  rcases loop_step step i with ⟨same, -⟩ | turns
  · exact .inl (same.symm.trans pc)
  · cases step with
    | @closed j a batch d conn closes alive fd disconnect inepoll =>
      by_cases here : i = j
      · have own : d = c := by simpa [here] using pc
        exact .inr (by simpa [own] using disconnect)
      · exact .inl (by simpa [here] using pc)
    | @moved j a batch place moves =>
      by_cases here : i = j
      · have same : place = .closing c := by simpa [here] using pc
        cases moves <;> cases same
      · exact .inl (by simpa [here] using pc)
    | @wrote j accepted d ep conn place alive keeps =>
      by_cases here : i = j
      · simp [here] at pc
      · exact .inl (by simpa [here] using pc)
    | @erased j d place =>
      by_cases here : i = j
      · simp [here] at pc
      · exact .inl (by simpa [here] using pc)
    | @timedout j d now k past place entry late =>
      by_cases here : i = j
      · simp [here] at pc
      · exact .inl (by simpa [here] using pc)
    | @removed j d now k past place =>
      by_cases here : i = j
      · simp [here] at pc
      · exact .inl (by simpa [here] using pc)
    | _ => exact .inl pc

theorem initial_inv (cfg : Config) (others : Nat → Interest) : Inv cfg (initial others) where
  known c alive := by simp [initial, Alive, Held, MainPc.conn, LoopPc.argument] at alive
  handled i c handled := by cases handled
  batched i c revents batched := by cases batched
  distinct c d alive := by simp [initial, Alive, Held, MainPc.conn, LoopPc.argument] at alive
  keyed k c entry := absurd entry (not_mem_empty _)
  subkeyed i k c entry := absurd entry (not_mem_empty _)
  iterator i k stands := by cases stands
  timedout i c now k pc := by cases pc
  pending i k c pending := by cases pending
  inepoll c := rfl

end Reactor.TcpServer
