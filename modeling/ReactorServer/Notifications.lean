import ReactorServer.IoLoop

set_option autoImplicit false

namespace Reactor

namespace Connection

variable {ep ep' : Interest} {c c' : Connection}

structure Listed (ep : Interest) (c : Connection) : Prop where
  opened : c.disconnect = false → c.channel.Registered ep
  closed : c.disconnect = true → c.channel.Removed ep

theorem Listed.congr (listed : Listed ep c) (same : ep' c.fd = ep c.fd) : Listed ep' c where
  opened connected := (Channel.registered_congr same).mpr (listed.opened connected)
  closed disconnected := (Channel.removed_congr same).mpr (listed.closed disconnected)

theorem established_listed (ep : Interest) (fd now : Int) :
    Listed (Function.update ep fd (some EPOLLIN)) (.established fd now) where
  opened _ := ⟨rfl, by simp [established]⟩
  closed disconnected := by cases disconnected

theorem Keeps.listed (keeps : Keeps ep c ep' c') (listed : Listed ep c) (connected : c.disconnect = false) :
    Listed ep' c' where
  opened _ := keeps.registered (listed.opened connected)
  closed disconnected := by simp [keeps.disconnect, connected] at disconnected

end Connection

def Notice.final : Notice → Bool
  | .closed => true
  | .errored => true
  | _ => false

def Source.conn : Source → Option Nat
  | .client c => some c
  | _ => none

theorem Source.conn_eq {source : Source} {c : Nat} : source.conn = some c ↔ source = .client c := by
  cases source <;> simp [Source.conn]

def IoPc.conn : IoPc → Option Nat
  | .reading c => some c
  | .picking c _ => some c
  | .writing c => some c
  | _ => none

-- What a connection has been told: nothing after a close or an error, and neither while it is open.
structure Told (disconnect : Bool) (log : List Notice) : Prop where
  unfinished : disconnect = false → ∀ n ∈ log, n.final = false
  final : ∀ n ∈ log.dropLast, n.final = false

namespace Told

variable {disconnect : Bool} {log notices : List Notice}

theorem nil : Told disconnect [] where
  unfinished _ _ heard := by cases heard
  final _ heard := by cases heard

theorem append (told : Told false log) (notfinal : ∀ n ∈ notices, n.final = false) :
    Told disconnect (log ++ notices) := by
  have all (n : Notice) (heard : n ∈ log ++ notices) : n.final = false := by
    rcases List.mem_append.mp heard with earlier | now
    · exact told.unfinished rfl n earlier
    · exact notfinal n now
  constructor
  · exact fun _ => all
  · exact fun n heard => all n (List.dropLast_subset _ heard)

theorem close (told : Told false log) (n : Notice) : Told true (log ++ [n]) where
  unfinished connected := by cases connected
  final m heard := told.unfinished rfl m (by simpa using heard)

theorem last (told : Told disconnect log) {before after : List Notice} {n : Notice}
    (heard : log = before ++ n :: after) (ends : n.final = true) : after = [] := by
  by_contra more
  have early : n ∈ log.dropLast := by
    rw [heard, List.dropLast_append_of_ne_nil (List.cons_ne_nil n after),
      List.dropLast_cons_of_ne_nil more]
    simp
  rw [told.final n early] at ends
  cases ends

theorem once (told : Told disconnect log) : log.countP Notice.final ≤ 1 := by
  rcases List.eq_nil_or_concat log with none | ⟨front, last, heard⟩
  · simp [none]
  · have early : front.countP Notice.final = 0 := by
      rw [List.countP_eq_zero]
      intro n member
      simp [told.final n (by simpa [heard] using member)]
    have one : [last].countP Notice.final ≤ 1 := List.countP_le_length
    rw [heard, List.concat_eq_append, List.countP_append]
    omega

end Told

namespace IoLoop

open Connection

variable {threadnum : Nat} {s t : IoLoop} {a : Act}

-- The connections whose events are being handled or come later in the batch.
def agenda (pc : IoPc) (batch : List (Source × UInt32)) : List Nat :=
  pc.conn.toList ++ (batch.map Prod.fst).filterMap Source.conn

inductive Step (s : IoLoop) : IoLoop → Prop where
  | moved {batch : List (Source × UInt32)} {pc : IoPc} {taskqueue : List Closure} {ended : Option Ending}
      (rest : agenda pc batch <:+ agenda s.pc s.batch) :
      Step s { s with batch := batch, pc := pc, taskqueue := taskqueue, ended := ended }
  | constructed {fd now : Int} (fresh : ∀ c < s.next, s.alive c = true → (s.conn c).fd ≠ fd) :
      Step s
        { s with
          ep := Function.update s.ep fd (some EPOLLIN)
          next := s.next + 1
          conn := Function.update s.conn s.next (.established fd now)
          alive := Function.update s.alive s.next true }
  | dropped (c : Nat) : Step s { s with alive := Function.update s.alive c false }
  | waited {batch : List (Source × UInt32)} (polling : s.pc = .polling)
      (distinct : (batch.map Prod.fst).Nodup) (reports : ∀ event ∈ batch, s.reports event) :
      Step s { s with batch := batch }
  | kept {c : Nat} {ep : Interest} {conn : Connection} {notices : List Notice} {pc : IoPc}
      {taskqueue : List Closure} (alive : s.alive c = true) (keeps : Keeps s.ep (s.conn c) ep conn)
      (able : c ∈ agenda s.pc s.batch ∨ ¬ (s.conn c).channel.Removed s.ep)
      (notfinal : ∀ n ∈ notices, n.final = false)
      (rest : agenda pc s.batch <:+ agenda s.pc s.batch) :
      Step s { s.store c ep conn notices with pc := pc, taskqueue := taskqueue }
  | closed {c : Nat} {ep : Interest} {conn : Connection} {n : Notice} {batch : List (Source × UInt32)}
      {pc : IoPc} (alive : s.alive c = true)
      (head : agenda s.pc s.batch = c :: agenda pc batch)
      (done : (s.conn c).disconnectchannel s.ep = .ok (ep, conn)) :
      Step s { s.store c ep conn [n] with batch := batch, pc := pc }

theorem Step.through {c : Nat} {batch : List (Source × UInt32)} {taskqueue : List Closure}
    {result : Except Stop IoLoop} (rest : agenda s.pc batch <:+ agenda s.pc s.batch)
    (done : ∀ t, s.alive c = true → result = .ok t → Step s t) :
    Step s ({ s with batch := batch, taskqueue := taskqueue }.through c result) := by
  by_cases alive : s.alive c = true
  · cases result with
    | error stop =>
      simp only [IoLoop.through, finish, alive, if_true]
      exact .moved rest
    | ok t =>
      simp only [IoLoop.through, finish, alive, if_true]
      exact done t alive rfl
  · simp only [IoLoop.through, alive]
    exact .moved rest

theorem construct_step {fd now : Int} (taken : s.construct fd now = some t) : Step s t := by
  by_cases fresh : ∀ c < s.next, s.alive c = true → (s.conn c).fd ≠ fd
  · have made : make (Function.update s.ep fd none) fd now =
        .ok (Function.update s.ep fd (some EPOLLIN), .established fd now) := by
      rw [make_fresh (by simp) now, Function.update_idem]
    simp only [construct, if_pos fresh, made, ok_bind, pure_eq_ok, finish, Option.some.injEq] at taken
    cases taken
    exact .constructed fresh
  · rw [construct, if_neg fresh] at taken
    cases taken

theorem wait_step {batch : List (Source × UInt32)} (taken : s.wait batch = some t) : Step s t := by
  by_cases ready : s.pc = .polling ∧ s.batch = [] ∧ (batch.map Prod.fst).Nodup ∧
      ∀ event ∈ batch, s.reports event
  · rw [wait, if_pos ready] at taken
    cases taken
    exact .waited ready.1 ready.2.2.1 ready.2.2.2
  · rw [wait, if_neg ready] at taken
    cases taken

theorem handle_step {c : Nat} {revents : UInt32} {rest : List (Source × UInt32)}
    (polling : s.pc = .polling) (batch : s.batch = (.client c, revents) :: rest)
    (alive : s.alive c = true) (done : { s with batch := rest }.handle c revents = .ok t) :
    Step s t := by
  have head : agenda s.pc s.batch = c :: agenda s.pc rest := by
    rw [polling, batch]
    rfl
  have handled : agenda (.reading c) rest <:+ agenda s.pc s.batch := by
    rw [head, polling]
    exact List.suffix_rfl
  simp only [handle] at done
  cases chosen : handleevent revents with
  | close =>
    rw [chosen] at done
    obtain ⟨⟨ep, conn⟩, removed, stored⟩ := bind_ok done
    cases stored
    exact .closed alive head removed
  | read =>
    rw [chosen] at done
    cases done
    exact .moved handled
  | write =>
    rw [chosen] at done
    cases done
    exact .moved handled
  | error =>
    rw [chosen] at done
    obtain ⟨⟨ep, conn⟩, removed, stored⟩ := bind_ok done
    cases stored
    exact .closed alive head removed

theorem dispatch_step (taken : s.dispatch = some t) : Step s t := by
  rcases s with ⟨ep, next, conn, alive, batch, pc, taskqueue, log, ended⟩
  cases pc with
  | polling =>
    cases batch with
    | nil => cases taken
    | cons event rest =>
      obtain ⟨source, revents⟩ := event
      cases source with
      | timer =>
        cases taken
        exact .moved List.suffix_rfl
      | wakeup =>
        cases taken
        exact .moved List.suffix_rfl
      | client c =>
        cases taken
        refine .through (List.suffix_cons c _) fun t living done => ?_
        exact handle_step rfl rfl living done
  | _ => cases taken

theorem read_step {data : ByteString.Bytes} (taken : s.read data = some t) : Step s t := by
  cases pc : s.pc with
  | reading c =>
    simp only [IoLoop.read, pc] at taken
    by_cases fits : 0 < data.length ∧ data.length ≤ 1024
    · rw [if_pos fits] at taken
      cases taken
      refine .through List.suffix_rfl fun t alive done => ?_
      cases done
      exact .kept alive (.of_channel rfl rfl) (.inl (by simp [pc, agenda, IoPc.conn])) (by simp)
        List.suffix_rfl
    · rw [if_neg fits] at taken
      cases taken
  | _ => simp [IoLoop.read, pc] at taken

theorem again_step (taken : s.again = some t) : Step s t := by
  cases pc : s.pc with
  | reading c =>
    simp only [again, pc] at taken
    cases taken
    have same : agenda (.picking c []) s.batch = agenda s.pc s.batch := by
      rw [pc]
      rfl
    exact .moved (same ▸ List.suffix_rfl)
  | _ => simp [again, pc] at taken

theorem eof_step (taken : s.eof = some t) : Step s t := by
  cases pc : s.pc with
  | reading c =>
    simp only [eof, pc] at taken
    cases taken
    refine .through List.suffix_rfl fun t alive done => ?_
    obtain ⟨⟨ep, conn⟩, removed, stored⟩ := bind_ok done
    cases stored
    have head : agenda s.pc s.batch = c :: agenda .polling s.batch := by
      rw [pc]
      rfl
    exact .closed alive head removed
  | _ => simp [eof, pc] at taken

theorem deliver_step {beyond : Nat → UInt8} {c : Nat} {conn : Connection} {left message : ByteString.Bytes}
    (pc : s.pc = .picking c left) (alive : s.alive c = true)
    (channel : conn.channel = (s.conn c).channel) (disconnect : conn.disconnect = (s.conn c).disconnect)
    (done : deliver threadnum s beyond c conn message = .ok t) : Step s t := by
  have attended : c ∈ agenda s.pc s.batch := by simp [pc, agenda, IoPc.conn]
  have same (later : ByteString.Bytes) : agenda (.picking c later) s.batch <:+ agenda s.pc s.batch := by
    rw [pc]
    exact List.suffix_rfl
  simp only [deliver] at done
  cases handled : handleMessage threadnum message with
  | task later =>
    rw [handled] at done
    cases done
    exact .kept alive (.of_channel channel disconnect) (.inl attended) (by simp [Notice.final]) (same _)
  | inloop later =>
    simp only [handled] at done
    cases sent : conn.send true (onMessage later) with
    | inloop =>
      simp only [sent] at done
      obtain ⟨⟨ep, conn₁⟩, appended, stored⟩ := bind_ok done
      cases stored
      exact .kept alive (.after channel disconnect (sendinloop_keeps appended)) (.inl attended)
        (by simp [Notice.final]) (same _)
    | _ =>
      simp only [sent] at done
      cases done
      exact .kept alive (.of_channel channel disconnect) (.inl attended) (by simp [Notice.final]) (same _)

theorem pick_step {stale : Nat → UInt8} {now : Int} {beyond : Nat → UInt8}
    (taken : pick threadnum s stale now beyond = some t) : Step s t := by
  cases pc : s.pc with
  | picking c left =>
    simp only [pick, pc] at taken
    cases taken
    refine .through List.suffix_rfl fun t alive done => ?_
    obtain ⟨⟨found, inputbuffer, message⟩, picked, done⟩ := bind_ok done
    cases found with
    | true =>
      simp only [if_true] at done
      exact deliver_step pc alive (by rfl) (by rfl) done
    | false =>
      cases done
      have rest : agenda .polling s.batch <:+ agenda s.pc s.batch := by
        rw [pc]
        exact List.suffix_cons c _
      exact .kept alive (.of_channel rfl rfl) (.inl (by simp [pc, agenda, IoPc.conn])) (by simp) rest
  | _ => simp [pick, pc] at taken

theorem written_step {accepted : Int} (taken : s.written accepted = some t) : Step s t := by
  cases pc : s.pc with
  | writing c =>
    simp only [written, pc] at taken
    cases taken
    refine .through List.suffix_rfl fun t alive done => ?_
    obtain ⟨⟨ep, conn, complete⟩, wrote, stored⟩ := bind_ok done
    cases stored
    have rest : agenda .polling s.batch <:+ agenda s.pc s.batch := by
      rw [pc]
      exact List.suffix_cons c _
    exact .kept alive (writecallback_keeps wrote) (.inl (by simp [pc, agenda, IoPc.conn]))
      (by cases complete <;> simp [Notice.final]) rest
  | _ => simp [written, pc] at taken

theorem task_step {beyond : Nat → UInt8} (taken : s.task beyond = some t) : Step s t := by
  rcases s with ⟨ep, next, conn, alive, batch, pc, taskqueue, log, ended⟩
  cases pc with
  | draining =>
    cases taskqueue with
    | nil =>
      cases taken
      exact .moved List.suffix_rfl
    | cons closure rest =>
      cases taken
      refine .through List.suffix_rfl fun t living done => ?_
      obtain ⟨⟨ep₁, conn₁⟩, appended, stored⟩ := bind_ok done
      cases stored
      have able : ¬ (conn closure.conn).channel.Removed ep := fun removed => by
        rw [sendinloop_removed removed] at appended
        cases appended
      exact .kept living (sendinloop_keeps appended) (.inr able) (by simp) List.suffix_rfl
  | _ => cases taken

theorem step_cases (taken : step threadnum s a = some t) : Step s t := by
  by_cases running : s.ended = none
  · simp only [step, if_pos running] at taken
    cases a with
    | construct fd now => exact construct_step taken
    | drop c =>
      cases taken
      exact .dropped c
    | queueinloop closure =>
      cases taken
      exact .moved List.suffix_rfl
    | wait batch => exact wait_step taken
    | dispatch => exact dispatch_step taken
    | read data => exact read_step taken
    | again => exact again_step taken
    | eof => exact eof_step taken
    | pick stale now beyond => exact pick_step taken
    | written accepted => exact written_step taken
    | task beyond => exact task_step taken
  · rw [step, if_neg running] at taken
    cases taken

structure Inv (s : IoLoop) : Prop where
  known : ∀ c, s.alive c = true → c < s.next
  distinct : ∀ c d, s.alive c = true → s.alive d = true → (s.conn c).fd = (s.conn d).fd → c = d
  listed : ∀ c, s.alive c = true → Listed s.ep (s.conn c)
  nodup : (agenda s.pc s.batch).Nodup
  attended : ∀ c ∈ agenda s.pc s.batch, c < s.next ∧ (s.conn c).disconnect = false
  unborn : ∀ c, s.next ≤ c → s.log c = []
  told : ∀ c, Told (s.conn c).disconnect (s.log c)

theorem initial_inv (others : Interest) : Inv (initial others) where
  known _ alive := by cases alive
  distinct _ _ alive := by cases alive
  listed _ alive := by cases alive
  nodup := List.nodup_nil
  attended _ member := by cases member
  unborn _ _ := rfl
  told _ := .nil

theorem Inv.open_of_able (inv : Inv s) {c : Nat} (alive : s.alive c = true)
    (able : c ∈ agenda s.pc s.batch ∨ ¬ (s.conn c).channel.Removed s.ep) :
    (s.conn c).disconnect = false := by
  rcases able with attended | able
  · exact (inv.attended c attended).2
  · exact Bool.eq_false_iff.mpr fun disconnect => able ((inv.listed c alive).closed disconnect)

theorem Inv.moved_step (inv : Inv s) {batch : List (Source × UInt32)} {pc : IoPc}
    {taskqueue : List Closure} {ended : Option Ending}
    (rest : agenda pc batch <:+ agenda s.pc s.batch) :
    Inv { s with batch := batch, pc := pc, taskqueue := taskqueue, ended := ended } :=
  { inv with
    nodup := inv.nodup.sublist rest.sublist
    attended := fun c member => inv.attended c (rest.subset member) }

theorem Inv.constructed_step (inv : Inv s) {fd now : Int}
    (fresh : ∀ c < s.next, s.alive c = true → (s.conn c).fd ≠ fd) :
    Inv
      { s with
        ep := Function.update s.ep fd (some EPOLLIN)
        next := s.next + 1
        conn := Function.update s.conn s.next (.established fd now)
        alive := Function.update s.alive s.next true } := by
  have living (d : Nat) (alive : Function.update s.alive s.next true d = true) (other : d ≠ s.next) :
      s.alive d = true := by
    simpa only [Function.update_of_ne other] using alive
  have older (d : Nat) (alive : s.alive d = true) : (s.conn d).fd ≠ fd :=
    fresh d (inv.known d alive) alive
  constructor
  case known =>
    intro d alive
    by_cases same : d = s.next
    · exact same ▸ Nat.lt_succ_self _
    · exact Nat.lt_succ_of_lt (inv.known d (living d alive same))
  case distinct =>
    intro d d' alive alive' equal
    by_cases same : d = s.next <;> by_cases same' : d' = s.next
    · exact same.trans same'.symm
    · simp only [same, Function.update_self, Function.update_of_ne same'] at equal
      exact absurd equal.symm (older d' (living d' alive' same'))
    · simp only [same', Function.update_self, Function.update_of_ne same] at equal
      exact absurd equal (older d (living d alive same))
    · simp only [Function.update_of_ne same, Function.update_of_ne same'] at equal
      exact inv.distinct d d' (living d alive same) (living d' alive' same') equal
  case listed =>
    intro d alive
    by_cases same : d = s.next
    · subst same
      simpa only [Function.update_self] using established_listed s.ep fd now
    · simp only [Function.update_of_ne same]
      have before := living d alive same
      exact (inv.listed d before).congr (Function.update_of_ne (older d before) _ _)
  case nodup => exact inv.nodup
  case attended =>
    intro d member
    obtain ⟨known, connected⟩ := inv.attended d member
    simp only [Function.update_of_ne (Nat.ne_of_lt known)]
    exact ⟨Nat.lt_succ_of_lt known, connected⟩
  case unborn => exact fun d later => inv.unborn d (Nat.le_of_succ_le later)
  case told =>
    intro d
    by_cases same : d = s.next
    · simp only [same, inv.unborn s.next (Nat.le_refl _)]
      exact .nil
    · simpa only [Function.update_of_ne same] using inv.told d

theorem Inv.dropped_step (inv : Inv s) (c : Nat) :
    Inv { s with alive := Function.update s.alive c false } := by
  have still (d : Nat) (alive : Function.update s.alive c false d = true) : s.alive d = true := by
    by_cases same : d = c
    · simp [same] at alive
    · simpa [same] using alive
  exact
    { inv with
      known := fun d alive => inv.known d (still d alive)
      distinct := fun d d' alive alive' => inv.distinct d d' (still d alive) (still d' alive')
      listed := fun d alive => inv.listed d (still d alive) }

theorem Inv.waited_step (inv : Inv s) {batch : List (Source × UInt32)} (polling : s.pc = .polling)
    (distinct : (batch.map Prod.fst).Nodup) (reports : ∀ event ∈ batch, s.reports event) :
    Inv { s with batch := batch } := by
  have waiting : agenda s.pc batch = (batch.map Prod.fst).filterMap Source.conn := by
    rw [polling]
    rfl
  refine { inv with nodup := ?_, attended := fun c member => ?_ }
  · rw [waiting]
    refine distinct.filterMap fun source source' c named named' => ?_
    rw [Source.conn_eq.mp named, Source.conn_eq.mp named']
  · rw [waiting] at member
    obtain ⟨source, listed, named⟩ := List.mem_filterMap.mp member
    obtain ⟨⟨source', revents⟩, event, rfl⟩ := List.mem_map.mp listed
    cases Source.conn_eq.mp named
    obtain ⟨alive, mask, stored, -⟩ := reports _ event
    refine ⟨inv.known c alive, Bool.eq_false_iff.mpr fun disconnect => ?_⟩
    have removed : s.ep (s.conn c).fd = none := ((inv.listed c alive).closed disconnect).2
    rw [removed] at stored
    cases stored

-- A live connection has an fd of its own, so the others do not notice what happens to this one.
theorem Inv.stored_step (inv : Inv s) {c : Nat} {ep : Interest} {conn : Connection}
    {notices : List Notice} {batch : List (Source × UInt32)} {pc : IoPc} {taskqueue : List Closure}
    (alive : s.alive c = true) (fd : conn.fd = (s.conn c).fd)
    (elsewhere : ∀ k, k ≠ (s.conn c).fd → ep k = s.ep k) (listed : Listed ep conn)
    (told : Told conn.disconnect (s.log c ++ notices)) (rest : agenda pc batch <:+ agenda s.pc s.batch)
    (left : conn.disconnect = true → c ∉ agenda pc batch) :
    Inv { s.store c ep conn notices with batch := batch, pc := pc, taskqueue := taskqueue } := by
  have fds (d : Nat) : (Function.update s.conn c conn d).fd = (s.conn d).fd := by
    by_cases same : d = c
    · simp [same, fd]
    · simp [same]
  constructor
  case known => exact inv.known
  case distinct =>
    intro d d' living living' equal
    rw [store, fds, fds] at equal
    exact inv.distinct d d' living living' equal
  case listed =>
    intro d living
    by_cases same : d = c
    · subst same
      simpa only [store, Function.update_self] using listed
    · simp only [store, Function.update_of_ne same]
      have other : (s.conn d).fd ≠ (s.conn c).fd := fun equal => same (inv.distinct d c living alive equal)
      exact (inv.listed d living).congr (elsewhere _ other)
  case nodup => exact inv.nodup.sublist rest.sublist
  case attended =>
    intro d member
    obtain ⟨known, connected⟩ := inv.attended d (rest.subset member)
    refine ⟨known, ?_⟩
    by_cases same : d = c
    · subst same
      simpa [store] using Bool.eq_false_iff.mpr fun disconnected => left disconnected member
    · simpa [store, same] using connected
  case unborn =>
    intro d later
    have other : d ≠ c := fun same => absurd (inv.known c alive) (Nat.not_lt.mpr (same ▸ later))
    simpa [store, other] using inv.unborn d later
  case told =>
    intro d
    by_cases same : d = c
    · subst same
      simpa only [store, Function.update_self] using told
    · simpa only [store, Function.update_of_ne same] using inv.told d

theorem Inv.kept_step (inv : Inv s) {c : Nat} {ep : Interest} {conn : Connection}
    {notices : List Notice} {pc : IoPc} {taskqueue : List Closure} (alive : s.alive c = true)
    (keeps : Keeps s.ep (s.conn c) ep conn)
    (able : c ∈ agenda s.pc s.batch ∨ ¬ (s.conn c).channel.Removed s.ep)
    (notfinal : ∀ n ∈ notices, n.final = false) (rest : agenda pc s.batch <:+ agenda s.pc s.batch) :
    Inv { s.store c ep conn notices with pc := pc, taskqueue := taskqueue } := by
  have connected := inv.open_of_able alive able
  have told : Told false (s.log c) := connected ▸ inv.told c
  apply inv.stored_step alive keeps.fd keeps.elsewhere _ (told.append notfinal) rest
  · intro disconnected
    simp [keeps.disconnect, connected] at disconnected
  · exact keeps.listed (inv.listed c alive) connected

theorem Inv.closed_step (inv : Inv s) {c : Nat} {ep : Interest} {conn : Connection} {n : Notice}
    {batch : List (Source × UInt32)} {pc : IoPc} (alive : s.alive c = true)
    (head : agenda s.pc s.batch = c :: agenda pc batch)
    (done : (s.conn c).disconnectchannel s.ep = .ok (ep, conn)) :
    Inv { s.store c ep conn [n] with batch := batch, pc := pc } := by
  have connected : (s.conn c).disconnect = false := (inv.attended c (by simp [head])).2
  have told : Told false (s.log c) := connected ▸ inv.told c
  have registered := (inv.listed c alive).opened connected
  rw [disconnectchannel_registered registered] at done
  cases done
  apply inv.stored_step alive _ _ _ (told.close n)
  · rw [head]
    exact List.suffix_cons c _
  · intro _ later
    have nodup := inv.nodup
    rw [head] at nodup
    exact (List.nodup_cons.mp nodup).1 later
  · rfl
  · exact fun k other => Function.update_of_ne other _ _
  · exact ⟨by simp, fun _ => Channel.removed_update registered.1⟩

theorem Inv.step (inv : Inv s) (step : Step s t) : Inv t := by
  cases step with
  | moved rest => exact inv.moved_step rest
  | constructed fresh => exact inv.constructed_step fresh
  | dropped c => exact inv.dropped_step c
  | waited polling distinct reports => exact inv.waited_step polling distinct reports
  | kept alive keeps able notfinal rest => exact inv.kept_step alive keeps able notfinal rest
  | closed alive head done => exact inv.closed_step alive head done

theorem run_inv {others : Interest} {acts : List Act}
    (taken : Transition.run (step threadnum) (initial others) acts = some s) : Inv s := by
  have preserved (s : IoLoop) (a : Act) (t : IoLoop) (inv : Inv s) (first : step threadnum s a = some t) :
      Inv t :=
    inv.step (step_cases first)
  exact Transition.run_invariant preserved (initial_inv others) taken

theorem final_notice_last {others : Interest} {acts : List Act}
    (taken : Transition.run (step threadnum) (initial others) acts = some s) (c : Nat) :
    (s.log c).countP Notice.final ≤ 1 ∧
      ∀ before n after, s.log c = before ++ n :: after → n.final = true → after = [] := by
  have told := (run_inv taken).told c
  constructor
  · exact told.once
  · intro before n after heard ends
    exact told.last heard ends

def conversation : List Act :=
  [.construct 5 0, .wait [(.client 0, EPOLLIN)], .dispatch, .read (Buffer.frame (ascii "hi")),
    .again, .pick (fun _ => 0) 1 fun _ => 0, .pick (fun _ => 0) 1 fun _ => 0,
    .queueinloop ⟨0, ascii "hi", 2⟩, .wait [(.wakeup, EPOLLIN)], .dispatch, .task fun _ => 0,
    .task fun _ => 0, .wait [(.client 0, EPOLLOUT)], .dispatch, .written 6,
    .wait [(.client 0, EPOLLIN ||| EPOLLHUP)], .dispatch, .eof]

theorem final_notice_last_conversation :
    ((Transition.final (step 2) (initial fun _ => none) conversation).log 0).countP Notice.final ≤ 1 ∧
      ∀ before n after,
        (Transition.final (step 2) (initial fun _ => none) conversation).log 0 = before ++ n :: after →
          n.final = true → after = [] :=
  final_notice_last (Transition.run_final (by decide)) 0

example : (Transition.final (step 2) (initial fun _ => none) conversation).log 0 =
    [.message (ascii "hi"), .complete, .closed] := by decide

end IoLoop

end Reactor
