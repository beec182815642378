import ReactorServer.Pipeline

set_option autoImplicit false

namespace Reactor

open ByteString Transition

structure Connection.Kept (ep : Interest) (c : Connection) (ep' : Interest) (c' : Connection) : Prop where
  fd : c'.fd = c.fd
  disconnect : c'.disconnect = c.disconnect
  sep : c'.outputbuffer.sep = c.outputbuffer.sep
  registered : c'.channel.Registered ep'
  others : ∀ fd, fd ≠ c.fd → ep' fd = ep fd

namespace Connection

variable {ep : Interest} {c : Connection}

theorem kept_input (registered : c.channel.Registered ep) (inputbuffer : Buffer) (lasttime : Int) :
    Kept ep c ep { c with inputbuffer := inputbuffer, lasttime := lasttime } :=
  ⟨rfl, rfl, rfl, registered, fun _ _ => rfl⟩

theorem sendinloop_kept (registered : c.channel.Registered ep) (sep : c.outputbuffer.sep = 1)
    (beyond : Nat → UInt8) (data : Bytes) (size : Nat) :
    ∃ ep' c', sendinloop beyond ep c data size = .ok (ep', c') ∧ Kept ep c ep' c' ∧
      c'.outputbuffer.buf = c.outputbuffer.buf ++ Buffer.frame (load beyond data size) :=
  ⟨_, _, sendinloop_registered registered sep beyond data size,
    ⟨rfl, rfl, rfl, Channel.registered_update registered.1 _,
      fun _ other => Function.update_of_ne other _ _⟩, rfl⟩

theorem writecallback_kept (registered : c.channel.Registered ep) (accepted : Int) :
    ∃ ep' c' complete, writecallback accepted ep c = .ok (ep', c', complete) ∧ Kept ep c ep' c' := by
  obtain ⟨ep', c', complete, done, still, disconnect, sep⟩ :=
    writecallback_registered registered accepted
  obtain ⟨fd, -, updated⟩ := writecallback_ok done
  refine ⟨ep', c', complete, done, fd, disconnect, sep, still, fun other distinct => ?_⟩
  cases updated with
  | inl same => rw [same]
  | inr changed =>
    obtain ⟨mask, rfl⟩ := changed
    exact Function.update_of_ne distinct _ _

theorem writecallback_buffers {c' : Connection} {ep' : Interest} {accepted : Int} {complete : Bool}
    (done : c.writecallback accepted ep = .ok (ep', c', complete)) :
    c'.inputbuffer = c.inputbuffer ∧
      c'.outputbuffer.buf = c.outputbuffer.buf.drop (toSigned 32 accepted).toNat := by
  simp only [writecallback, erasesent_eq, ok_bind] at done
  split at done
  · obtain ⟨⟨ep₁, channel⟩, disabled, done⟩ := bind_ok done
    cases done
    exact ⟨rfl, rfl⟩
  · cases done
    exact ⟨rfl, rfl⟩

theorem sendinloop_input {c' : Connection} {ep' : Interest} {beyond : Nat → UInt8} {data : Bytes} {size : Nat}
    (sent : c.sendinloop beyond ep data size = .ok (ep', c')) : c'.inputbuffer = c.inputbuffer := by
  unfold sendinloop at sent
  obtain ⟨⟨ep₁, channel⟩, enabled, sent⟩ := bind_ok sent
  cases sent
  rfl

end Connection

namespace Pipeline

variable {ι : Type} [DecidableEq ι] {cfg : Config ι}

structure Opened (cfg : Config ι) (ep : Nat → Interest) (conn : ι → Connection) : Prop where
  disconnect : ∀ c, (conn c).disconnect = false
  sep : ∀ c, (conn c).outputbuffer.sep = 1
  registered : ∀ c, (conn c).channel.Registered (ep (cfg.loop c))
  distinct : ∀ c d, cfg.loop c = cfg.loop d → (conn c).fd = (conn d).fd → c = d

structure Inv (cfg : Config ι) (s : State ι) : Prop where
  opened : Opened cfg s.ep s.conn
  workers : (s.held.map Prod.fst).Nodup
  started : ∀ w ∈ s.held.map Prod.fst, w < cfg.workthreadnum
  routed : ∀ i, ∀ task ∈ s.taskqueue i, cfg.loop task.conn = i

inductive Step (cfg : Config ι) (s : State ι) : Act ι → State ι → Prop where
  | moved {a : Act ι} {pc : Nat → LoopPc ι} : Step cfg s a { s with pc := pc }
  | received {a : Act ι} {c : ι} {inputbuffer : Buffer} {pc : Nat → LoopPc ι} :
      Step cfg s a { s with
        conn := Function.update s.conn c { s.conn c with inputbuffer := inputbuffer }
        pc := pc }
  | picked {a : Act ι} {c : ι} {inputbuffer : Buffer} {now : Int} {pc : Nat → LoopPc ι} (ss : Bytes) :
      Step cfg s a { s with
        conn := Function.update s.conn c { s.conn c with inputbuffer := inputbuffer, lasttime := now }
        pc := pc
        works := s.works ++ [(c, ascii "WORK thread " ++ ss)]
        delivered := Function.update s.delivered c (s.delivered c ++ [ss]) }
  | taken {w : Nat} {c : ι} {message : Bytes} {rest : List (ι × Bytes)}
      (works : s.works = (c, message) :: rest) (bound : w < cfg.workthreadnum)
      (idle : w ∉ s.held.map Prod.fst) :
      Step cfg s (.take w) { s with works := rest, held := s.held ++ [(w, c, .running message)] }
  | copied {w : Nat} {c : ι} {message : Bytes} {before after : List (Nat × ι × Job)}
      (held : s.held = before ++ (w, c, .running message) :: after) :
      Step cfg s (.send w) { s with
        held := before ++
          (w, c, .sending (strdup (onMessage message)) (onMessage message).length) :: after }
  | pushed {w : Nat} {c : ι} {dataCopy : Bytes} {size : Nat} {before after : List (Nat × ι × Job)}
      (held : s.held = before ++ (w, c, .sending dataCopy size) :: after)
      (unlocked : s.pc (cfg.loop c) ≠ .draining) :
      Step cfg s (.queueinloop w) { s with
        taskqueue := Function.update s.taskqueue (cfg.loop c)
          (s.taskqueue (cfg.loop c) ++ [⟨c, dataCopy, size⟩])
        held := before ++ after
        queued := Function.update s.queued c (s.queued c ++ [(dataCopy, size)]) }
  | appended {i : Nat} {task : Closure ι} {rest : List (Closure ι)} {ep : Interest} {conn : Connection}
      (beyond : Nat → UInt8) (queue : s.taskqueue i = task :: rest)
      (kept : Connection.Kept (s.ep i) (s.conn task.conn) ep conn) :
      Step cfg s (.sendinloop i beyond) { s with
        ep := Function.update s.ep i ep
        conn := Function.update s.conn task.conn conn
        taskqueue := Function.update s.taskqueue i rest
        appended := Function.update s.appended task.conn
          (s.appended task.conn ++ Buffer.frame (load beyond task.dataCopy task.size)) }
  | wrote {c : ι} {accepted : Int} {ep : Interest} {conn : Connection}
      (kept : Connection.Kept (s.ep (cfg.loop c)) (s.conn c) ep conn) :
      Step cfg s (.writable c accepted) { s with
        ep := Function.update s.ep (cfg.loop c) ep
        conn := Function.update s.conn c conn }

variable {s t : State ι} {a : Act ι}

-- A worker has one entry, so what is done to its entry is done in one place.
omit [DecidableEq ι] in
theorem held_split (workers : (s.held.map Prod.fst).Nodup) {w : Nat} {c : ι} {job : Job}
    (found : jobOf s w = some (c, job)) :
    ∃ before after, s.held = before ++ (w, c, job) :: after ∧
      (∀ e ∈ before, e.1 ≠ w) ∧ ∀ e ∈ after, e.1 ≠ w := by
  obtain ⟨⟨v, e⟩, at_w, same⟩ := Option.map_eq_some_iff.mp found
  obtain ⟨key, before, after, split, earlier⟩ := List.find?_eq_some_iff_append.mp at_w
  obtain rfl : v = w := by simpa using key
  obtain rfl : e = (c, job) := same
  refine ⟨before, after, split, fun e member => by simpa using earlier e member, ?_⟩
  rw [split, List.map_append, List.map_cons, List.nodup_append] at workers
  intro e member same
  have once := (List.nodup_cons.mp workers.2.1).1
  exact once (List.mem_map.mpr ⟨e, member, same⟩)

omit [DecidableEq ι] in
theorem send_split (inv : Inv cfg s) {w : Nat} (taken : send s w = some t) :
    ∃ c message before after, s.held = before ++ (w, c, .running message) :: after ∧
      t = { s with
        held := before ++
          (w, c, .sending (strdup (onMessage message)) (onMessage message).length) :: after } := by
  simp only [send] at taken
  split at taken
  · rename_i c message found
    obtain ⟨before, after, held, earlier, later⟩ := held_split inv.workers found
    simp only [Connection.send, inv.opened.disconnect, Bool.false_eq_true, if_false] at taken
    cases taken
    have unchanged (entries : List (Nat × ι × Job)) (others : ∀ e ∈ entries, e.1 ≠ w)
        (entry : Nat × ι × Job) :
        (entries.map fun e => if e.1 = w then entry else e) = entries := by
      have same : ∀ e ∈ entries, (if e.1 = w then entry else e) = id e := by
        intro e member
        simp [others e member]
      rw [List.map_congr_left same, List.map_id]
    refine ⟨c, message, before, after, held, ?_⟩
    rw [held, List.map_append, List.map_cons, unchanged before earlier, unchanged after later, if_pos rfl]
  · cases taken

theorem send_cases (inv : Inv cfg s) {w : Nat} (taken : send s w = some t) : Step cfg s (.send w) t := by
  obtain ⟨c, message, before, after, held, rfl⟩ := send_split inv taken
  exact .copied held

theorem queueinloop_split (inv : Inv cfg s) {w : Nat} (taken : queueinloop cfg s w = some t) :
    ∃ c dataCopy size before after, jobOf s w = some (c, .sending dataCopy size) ∧
      s.held = before ++ (w, c, .sending dataCopy size) :: after ∧ s.pc (cfg.loop c) ≠ .draining ∧
      t = { s with
        taskqueue := Function.update s.taskqueue (cfg.loop c)
          (s.taskqueue (cfg.loop c) ++ [⟨c, dataCopy, size⟩])
        held := before ++ after
        queued := Function.update s.queued c (s.queued c ++ [(dataCopy, size)]) } := by
  simp only [queueinloop] at taken
  split at taken
  · rename_i c dataCopy size found
    obtain ⟨before, after, held, earlier, later⟩ := held_split inv.workers found
    split at taken
    · cases taken
    · rename_i unlocked
      cases taken
      have all (entries : List (Nat × ι × Job)) (others : ∀ e ∈ entries, e.1 ≠ w) :
          (entries.filter fun e => e.1 ≠ w) = entries := by
        apply List.filter_eq_self.mpr
        simpa using others
      refine ⟨c, dataCopy, size, before, after, found, held, unlocked, ?_⟩
      rw [held, List.filter_append, List.filter_cons_of_neg (by simp), all before earlier,
        all after later]
  · cases taken

theorem queueinloop_cases (inv : Inv cfg s) {w : Nat} (taken : queueinloop cfg s w = some t) :
    Step cfg s (.queueinloop w) t := by
  obtain ⟨c, dataCopy, size, before, after, found, held, unlocked, rfl⟩ := queueinloop_split inv taken
  exact .pushed held unlocked

theorem pickmessage_cases {i : Nat} {now : Int} {stale : Nat → UInt8}
    (taken : pickmessage cfg s i now stale = some t) : Step cfg s (.pickmessage i now stale) t := by
  simp only [pickmessage] at taken
  split at taken
  · split at taken
    · cases taken
    · cases taken
      exact .received
    · rename_i c message inputbuffer ss picked
      split at taken
      · cases taken
      · rename_i task handled
        have text : task = ascii "WORK thread " ++ ss := by
          simp only [handleMessage] at handled
          split at handled
          · cases handled
          · cases handled
            rfl
        subst text
        cases taken
        exact .picked ss
  · cases taken

omit [DecidableEq ι] in
theorem Inv.sendinloop_conn (inv : Inv cfg s) {i : Nat} {beyond : Nat → UInt8} {task : Closure ι}
    {rest : List (Closure ι)} {ep : Interest} {conn : Connection} (queue : s.taskqueue i = task :: rest)
    (done : (s.conn task.conn).sendinloop beyond (s.ep i) task.dataCopy task.size = .ok (ep, conn)) :
    conn = { s.conn task.conn with
      outputbuffer := { (s.conn task.conn).outputbuffer with
        buf := (s.conn task.conn).outputbuffer.buf ++ Buffer.frame (load beyond task.dataCopy task.size) }
      channel := { (s.conn task.conn).channel with
        events := (s.conn task.conn).channel.events ||| EPOLLOUT } } := by
  have loop := inv.routed i task (by simp [queue])
  have registered := inv.opened.registered task.conn
  rw [loop] at registered
  rw [Connection.sendinloop_registered registered (inv.opened.sep task.conn)] at done
  cases done
  rfl

theorem sendinloop_eq (inv : Inv cfg s) {i : Nat} (beyond : Nat → UInt8) {task : Closure ι}
    {rest : List (Closure ι)} (draining : s.pc i = .draining) (queue : s.taskqueue i = task :: rest) :
    ∃ ep conn, Connection.Kept (s.ep i) (s.conn task.conn) ep conn ∧
      sendinloop s i beyond = some { s with
        ep := Function.update s.ep i ep
        conn := Function.update s.conn task.conn conn
        taskqueue := Function.update s.taskqueue i rest
        appended := Function.update s.appended task.conn
          (s.appended task.conn ++ Buffer.frame (load beyond task.dataCopy task.size)) } := by
  have loop := inv.routed i task (by simp [queue])
  have registered := inv.opened.registered task.conn
  rw [loop] at registered
  obtain ⟨ep, conn, done, kept, buf⟩ := Connection.sendinloop_kept registered
    (inv.opened.sep task.conn) beyond task.dataCopy task.size
  refine ⟨ep, conn, kept, ?_⟩
  simp only [sendinloop, draining, queue, done, buf, List.drop_left, setconn]

theorem sendinloop_cases (inv : Inv cfg s) {i : Nat} {beyond : Nat → UInt8}
    (taken : sendinloop s i beyond = some t) : Step cfg s (.sendinloop i beyond) t := by
  cases draining : s.pc i with
  | draining =>
    cases queue : s.taskqueue i with
    | nil => simp [sendinloop, draining, queue] at taken
    | cons task rest =>
      obtain ⟨ep, conn, kept, done⟩ := sendinloop_eq inv beyond draining queue
      cases done.symm.trans taken
      exact .appended beyond queue kept
  | _ => simp [sendinloop, draining] at taken

theorem writable_cases (inv : Inv cfg s) {c : ι} {accepted : Int}
    (taken : writable cfg s c accepted = some t) : Step cfg s (.writable c accepted) t := by
  obtain ⟨ep, conn, complete, done, kept⟩ :=
    Connection.writecallback_kept (inv.opened.registered c) accepted
  simp only [writable, done] at taken
  split at taken
  · rename_i called
    cases called
    cases taken
    exact .wrote kept
  · cases taken

theorem step_cases (inv : Inv cfg s) (taken : step cfg s a = some t) : Step cfg s a t := by
  cases a with
  | readable c =>
    simp only [step, readable] at taken
    split at taken
    · cases taken
      exact .moved
    · cases taken
  | read i data =>
    simp only [step, read] at taken
    split at taken
    · split at taken
      · cases taken
        exact .received
      · cases taken
    · cases taken
  | again i =>
    simp only [step, again] at taken
    split at taken
    · cases taken
      exact .moved
    · cases taken
  | pickmessage i now stale => exact pickmessage_cases taken
  | writable c accepted => exact writable_cases inv taken
  | handlewakeup i =>
    simp only [step, handlewakeup] at taken
    split at taken
    · cases taken
      exact .moved
    · cases taken
  | sendinloop i beyond => exact sendinloop_cases inv taken
  | drained i =>
    simp only [step, drained] at taken
    split at taken
    · cases taken
      exact .moved
    · cases taken
  | take w =>
    simp only [step, take] at taken
    split at taken
    · cases taken
    · rename_i c message rest works
      split at taken
      · rename_i free
        cases taken
        exact .taken works free.1 free.2
      · cases taken
  | send w => exact send_cases inv taken
  | queueinloop w => exact queueinloop_cases inv taken

theorem opened_kept {ep : Nat → Interest} {conn : ι → Connection} (opened : Opened cfg ep conn) {c : ι}
    {i : Nat} (loop : cfg.loop c = i) {ep' : Interest} {conn' : Connection}
    (kept : Connection.Kept (ep i) (conn c) ep' conn') :
    Opened cfg (Function.update ep i ep') (Function.update conn c conn') := by
  subst loop
  have fd (d : ι) : (Function.update conn c conn' d).fd = (conn d).fd := by
    by_cases same : d = c
    · subst same
      simpa using kept.fd
    · simp [same]
  constructor
  · intro d
    by_cases same : d = c
    · subst same
      simpa using kept.disconnect.trans (opened.disconnect d)
    · simpa [same] using opened.disconnect d
  · intro d
    by_cases same : d = c
    · subst same
      simpa using kept.sep.trans (opened.sep d)
    · simpa [same] using opened.sep d
  · intro d
    by_cases same : d = c
    · subst same
      simpa using kept.registered
    · have still := opened.registered d
      by_cases neighbour : cfg.loop d = cfg.loop c
      · have apart : (conn d).fd ≠ (conn c).fd := fun equal => same (opened.distinct d c neighbour equal)
        rw [neighbour] at still
        simp only [Function.update_of_ne same, neighbour, Function.update_self]
        exact ⟨still.1, (kept.others _ apart).trans still.2⟩
      · simpa [same, neighbour] using still
  · intro d e together equal
    rw [fd d, fd e] at equal
    exact opened.distinct d e together equal

theorem opened_input {ep : Nat → Interest} {conn : ι → Connection} (opened : Opened cfg ep conn) (c : ι)
    (inputbuffer : Buffer) (lasttime : Int) :
    Opened cfg ep (Function.update conn c
      { conn c with inputbuffer := inputbuffer, lasttime := lasttime }) := by
  have kept := opened_kept opened rfl
    (Connection.kept_input (opened.registered c) inputbuffer lasttime)
  simpa using kept

theorem inv_step (inv : Inv cfg s) (step : Step cfg s a t) : Inv cfg t := by
  cases step with
  | moved => exact ⟨inv.opened, inv.workers, inv.started, inv.routed⟩
  | received => exact ⟨opened_input inv.opened _ _ _, inv.workers, inv.started, inv.routed⟩
  | picked ss => exact ⟨opened_input inv.opened _ _ _, inv.workers, inv.started, inv.routed⟩
  | @taken w c message rest works bound idle =>
    refine ⟨inv.opened, ?_, fun v member => ?_, inv.routed⟩
    · rw [List.map_append, List.nodup_append]
      refine ⟨inv.workers, by simp, fun v member u last same => idle ?_⟩
      obtain rfl : u = w := by simpa using last
      exact same ▸ member
    · rw [List.map_append] at member
      cases List.mem_append.mp member with
      | inl earlier => exact inv.started v earlier
      | inr last =>
        rw [List.mem_singleton.mp last]
        exact bound
  | copied held =>
    have workers := inv.workers
    have started := inv.started
    simp only [held, List.map_append, List.map_cons] at workers started
    exact ⟨inv.opened, by simpa using workers, by simpa using started, inv.routed⟩
  | @pushed w c dataCopy size before after held unlocked =>
    have fewer : ((before ++ after).map Prod.fst).Sublist (s.held.map Prod.fst) := by
      rw [held]
      exact ((List.sublist_cons_self _ after).append_left before).map Prod.fst
    refine ⟨inv.opened, ?_, ?_, fun i task member => ?_⟩
    · exact inv.workers.sublist fewer
    · exact fun v member => inv.started v (fewer.subset member)
    · by_cases loop : i = cfg.loop c
      · subst loop
        simp only [Function.update_self, List.mem_append, List.mem_singleton] at member
        cases member with
        | inl queued => exact inv.routed _ task queued
        | inr new => rw [new]
      · exact inv.routed i task (by simpa [loop] using member)
  | @appended i task rest ep conn beyond queue kept =>
    have loop := inv.routed i task (by simp [queue])
    refine ⟨opened_kept inv.opened loop kept, inv.workers, inv.started, fun j other member => ?_⟩
    by_cases same : j = i
    · subst same
      have left : other ∈ rest := by simpa using member
      exact inv.routed j other (by simp [queue, left])
    · exact inv.routed j other (by simpa [same] using member)
  | wrote kept => exact ⟨opened_kept inv.opened rfl kept, inv.workers, inv.started, inv.routed⟩

omit [DecidableEq ι] in
theorem initial_inv (initial : Initial cfg s) : Inv cfg s := by
  refine ⟨⟨fun c => ?_, fun c => ?_, fun c => ?_, initial.distinct⟩, by simp [initial.held],
    by simp [initial.held], fun i task member => ?_⟩
  · obtain ⟨fd, now, made⟩ := initial.established c
    rw [made]
    rfl
  · obtain ⟨fd, now, made⟩ := initial.established c
    rw [made]
    rfl
  · obtain ⟨fd, now, made⟩ := initial.established c
    have listed := initial.listed c
    rw [made] at listed ⊢
    exact ⟨rfl, listed⟩
  · simp [initial.taskqueue] at member

end Pipeline

end Reactor
