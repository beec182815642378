import ReactorServer.EchoServer
import ReactorServer.Shared.Heap
import ReactorServer.Shared.Transition

set_option autoImplicit false

namespace Reactor.SendBuffers

open ByteString Transition

inductive Owner where
  | caller (send : Nat)
  | copy (send : Nat)
  deriving DecidableEq

structure Block where
  contents : Bytes
  owner : Owner
  deriving DecidableEq

structure Caller where
  send : Nat
  data : Nat
  message : Bytes
  deriving DecidableEq

structure Closure where
  send : Nat
  dataCopy : Nat
  size : Nat
  deriving DecidableEq

-- `copies` records what strdup returned, `freed` what sendinloop freed on behalf of which send.
structure State where
  ep : Interest
  conn : Connection
  heap : Heap Block
  works : List Bytes
  taskqueue : List Closure
  held : List Caller
  sends : Nat
  copies : List Nat
  freed : List (Nat × Option Block)

inductive Act where
  | handlemessage (request : Bytes) (beyond : Nat → UInt8)
  | onmessage (k : Nat) (beyond : Nat → UInt8)
  | send (isinloopthread : Bool) (message : Bytes) (beyond : Nat → UInt8)
  | returned (data : Nat)
  | task (beyond : Nat → UInt8)
  | writecallback (accepted : Int)

def initial (ep : Interest) (conn : Connection) : State :=
  ⟨ep, conn, .empty, [], [], [], 0, [], []⟩

-- A block that is no longer live reads as anything. The run ends where the program exits.
def sendinloop (s : State) (n data size : Nat) (beyond : Nat → UInt8) : Option State :=
  let contents := ((s.heap.live data).map Block.contents).getD []
  match s.conn.sendinloop beyond s.ep contents size with
  | .error _ => none
  | .ok (ep, conn) =>
    some { s with
      ep := ep, conn := conn, heap := s.heap.free data, freed := s.freed ++ [(n, s.heap.live data)] }

def call (s : State) (message : Bytes) : State :=
  { s with
    heap := s.heap.alloc ⟨message ++ [0], .caller s.sends⟩
    held := s.held ++ [⟨s.sends, s.heap.next, message⟩]
    sends := s.sends + 1 }

def queueinloop (s : State) (n : Nat) (dataCopy : Bytes) (size : Nat) : State :=
  { s with
    heap := s.heap.alloc ⟨dataCopy, .copy n⟩
    taskqueue := s.taskqueue ++ [⟨n, s.heap.next, size⟩]
    copies := s.copies ++ [s.heap.next] }

def send (s : State) (isinloopthread : Bool) (message : Bytes) (beyond : Nat → UInt8) : Option State :=
  match s.conn.send isinloopthread message with
  | .refused => some (call s message)
  | .inloop => sendinloop (call s message) s.sends s.heap.next message.length beyond
  | .queued dataCopy size => some (queueinloop (call s message) s.sends dataCopy size)

def step (threadnum : Nat) (s : State) : Act → Option State
  | .handlemessage request beyond =>
    match handleMessage threadnum request with
    | .inloop message => send s true (onMessage message) beyond
    | .task message => some { s with works := s.works ++ [message] }
  | .onmessage k beyond =>
    match s.works[k]? with
    | none => none
    | some message => send { s with works := s.works.eraseIdx k } false (onMessage message) beyond
  | .send isinloopthread message beyond => send s isinloopthread message beyond
  | .returned data =>
    if data ∈ s.held.map Caller.data then
      some { s with heap := s.heap.free data, held := s.held.filter fun c => c.data ≠ data }
    else none
  | .task beyond =>
    match s.taskqueue with
    | [] => none
    | c :: rest => sendinloop { s with taskqueue := rest } c.send c.dataCopy c.size beyond
  | .writecallback accepted =>
    match s.conn.writecallback accepted s.ep with
    | .error _ => none
    | .ok (ep, conn, _) => some { s with ep := ep, conn := conn }

-- The strings of the callers are as they were, sendinloop has freed nothing but the copy of the send it
-- was called for, and with nothing queued every copy is freed, once.
structure Owned (s : State) : Prop where
  callers : ∀ c ∈ s.held, s.heap.live c.data = some ⟨c.message ++ [0], .caller c.send⟩
  freed : ∀ e ∈ s.freed, ∃ contents, e.2 = some ⟨contents, .copy e.1⟩
  once : s.taskqueue = [] → ∀ a ∈ s.copies, s.heap.frees a = 1

def OffLoop (threadnum : Nat) : Act → Prop
  | .handlemessage _ _ => threadnum ≠ 0
  | .send isinloopthread _ _ => isinloopthread = false
  | _ => True

def Act.message (threadnum : Nat) : Act → Option Bytes
  | .handlemessage request _ =>
    match handleMessage threadnum request with
    | .inloop message => some (onMessage message)
    | .task message => some (onMessage message)
  | .send _ message _ => some message
  | _ => none

structure Opened (ep : Interest) (c : Connection) : Prop where
  connected : c.disconnect = false
  registered : c.channel.Registered ep
  sep : c.outputbuffer.sep = 1

def SameEffect (message : Bytes) : Prop :=
  ∀ ep c beyond, Opened ep c →
    c.sendinloop beyond ep (strdup message) message.length =
      c.sendinloop beyond ep (message ++ [0]) message.length

variable {threadnum : Nat} {s t : State} {a : Act}

theorem sameEffect_iff {message : Bytes} : SameEffect message ↔ 0 ∉ message.dropLast := by
  have direct (beyond : Nat → UInt8) : load beyond (message ++ [0]) message.length = message := by
    rw [load_inside beyond (by simp), List.take_left]
  rw [← load_strdup_exact_iff]
  constructor
  · intro same beyond
    have opened : Opened (Function.update (fun _ => none) 5 (some EPOLLIN)) (.established 5 0) :=
      ⟨rfl, ⟨rfl, rfl⟩, rfl⟩
    have both := same _ _ beyond opened
    rw [Connection.sendinloop_registered opened.registered opened.sep,
      Connection.sendinloop_registered opened.registered opened.sep, direct] at both
    have frames : Buffer.frame (load beyond (strdup message) message.length) = Buffer.frame message := by
      simpa using both
    exact (List.append_inj frames (by simp)).2
  · intro read ep c beyond opened
    rw [Connection.sendinloop_registered opened.registered opened.sep,
      Connection.sendinloop_registered opened.registered opened.sep, direct, read beyond]

theorem sendinloop_cases {n data size : Nat} {beyond : Nat → UInt8} (opened : Opened s.ep s.conn)
    (taken : sendinloop s n data size beyond = some t) :
    ∃ ep conn, Opened ep conn ∧
      t = { s with
        ep := ep, conn := conn, heap := s.heap.free data, freed := s.freed ++ [(n, s.heap.live data)] } := by
  rw [sendinloop, Connection.sendinloop_registered opened.registered opened.sep] at taken
  cases taken
  refine ⟨_, _, ?_, rfl⟩
  exact ⟨opened.connected, Channel.registered_update opened.registered.1 _, opened.sep⟩

inductive Step (threadnum : Nat) (s : State) : Act → State → Prop where
  | added {request message : Bytes} {beyond : Nat → UInt8} (threads : threadnum ≠ 0) :
      Step threadnum s (.handlemessage request beyond) { s with works := s.works ++ [message] }
  | queued {a : Act} {works : List Bytes} {message dataCopy : Bytes} {size : Nat}
      (off : OffLoop threadnum a) :
      Step threadnum s a
        (queueinloop (call { s with works := works } message) s.sends dataCopy size)
  | sentinloop {a : Act} {t : State} {contents : Bytes} (onloop : ¬ OffLoop threadnum a)
      (freed : (s.sends, some ⟨contents, .caller s.sends⟩) ∈ t.freed) : Step threadnum s a t
  | returned {data : Nat} {c : Caller} (listed : c ∈ s.held) (same : c.data = data) :
      Step threadnum s (.returned data)
        { s with heap := s.heap.free data, held := s.held.filter fun c => c.data ≠ data }
  | ran {beyond : Nat → UInt8} {c : Closure} {rest : List Closure} {ep : Interest} {conn : Connection}
      (queue : s.taskqueue = c :: rest) (opened : Opened ep conn) :
      Step threadnum s (.task beyond)
        { s with
          ep := ep, conn := conn, taskqueue := rest, heap := s.heap.free c.dataCopy
          freed := s.freed ++ [(c.send, s.heap.live c.dataCopy)] }
  | wrote {accepted : Int} {ep : Interest} {conn : Connection} (opened : Opened ep conn) :
      Step threadnum s (.writecallback accepted) { s with ep := ep, conn := conn }

theorem send_queued {message : Bytes} {beyond : Nat → UInt8} (opened : Opened s.ep s.conn)
    (taken : send s false message beyond = some t) :
    t = queueinloop (call s message) s.sends (strdup message) message.length := by
  simp [send, Connection.send, opened.connected] at taken
  exact taken.symm

theorem send_inloop {message : Bytes} {beyond : Nat → UInt8} (opened : Opened s.ep s.conn)
    (taken : send s true message beyond = some t) :
    (s.sends, some ⟨message ++ [0], .caller s.sends⟩) ∈ t.freed := by
  simp [send, Connection.send, opened.connected] at taken
  have same : Opened (call s message).ep (call s message).conn := opened
  obtain ⟨ep, conn, -, rfl⟩ := sendinloop_cases same taken
  simp [call]

theorem step_cases (opened : Opened s.ep s.conn) (taken : step threadnum s a = some t) :
    Step threadnum s a t := by
  cases a with
  | handlemessage request beyond =>
    simp only [step, handleMessage] at taken
    by_cases none : threadnum = 0
    · rw [if_pos none] at taken
      exact .sentinloop (not_not_intro none) (send_inloop opened taken)
    · rw [if_neg none] at taken
      cases taken
      exact .added none
  | onmessage k beyond =>
    simp only [step] at taken
    split at taken
    · cases taken
    · rw [send_queued (s := { s with works := s.works.eraseIdx k }) opened taken]
      exact .queued trivial
  | send isinloopthread message beyond =>
    simp only [step] at taken
    cases isinloopthread with
    | false =>
      rw [send_queued opened taken]
      exact .queued rfl
    | true => exact .sentinloop (by simp [OffLoop]) (send_inloop opened taken)
  | returned data =>
    obtain ⟨listed, next⟩ := Option.ite_none_right_eq_some.mp taken
    cases next
    obtain ⟨c, listed, same⟩ := List.mem_map.mp listed
    exact .returned listed same
  | task beyond =>
    simp only [step] at taken
    split at taken
    · cases taken
    · next c rest queue =>
      obtain ⟨ep, conn, opened, rfl⟩ :=
        sendinloop_cases (s := { s with taskqueue := rest }) opened taken
      exact .ran queue opened
  | writecallback accepted =>
    obtain ⟨ep, conn, complete, wrote, registered, connected, sep⟩ :=
      Connection.writecallback_registered opened.registered accepted
    simp only [step, wrote] at taken
    cases taken
    exact .wrote ⟨connected.trans opened.connected, registered, sep.trans opened.sep⟩

structure Inv (s : State) : Prop where
  opened : Opened s.ep s.conn
  sound : s.heap.Sound
  callers : ∀ c ∈ s.held, s.heap.live c.data = some ⟨c.message ++ [0], .caller c.send⟩
  closures : ∀ c ∈ s.taskqueue, ∃ contents, s.heap.live c.dataCopy = some ⟨contents, .copy c.send⟩
  distinct : (s.taskqueue.map Closure.dataCopy).Nodup
  copies : ∀ a ∈ s.copies, a ∈ s.taskqueue.map Closure.dataCopy ∨ s.heap.frees a = 1
  freed : ∀ e ∈ s.freed, ∃ contents, e.2 = some ⟨contents, .copy e.1⟩

def Misfreed (s : State) : Prop :=
  ∃ n contents, (n, some ⟨contents, .caller n⟩) ∈ s.freed

theorem Inv.owned (inv : Inv s) : Owned s where
  callers := inv.callers
  freed := inv.freed
  once empty a copied := by
    simpa [empty] using inv.copies a copied

theorem Misfreed.unowned (misfreed : Misfreed s) : ¬ Owned s := by
  obtain ⟨n, contents, freed⟩ := misfreed
  intro owned
  obtain ⟨copied, same⟩ := owned.freed _ freed
  cases same

theorem call_inv (inv : Inv s) (message : Bytes) : Inv (call s message) where
  opened := inv.opened
  sound := inv.sound.alloc _
  callers c listed := by
    rcases List.mem_append.mp listed with before | new
    · exact Heap.alloc_live inv.sound (inv.callers c before)
    · obtain rfl := List.mem_singleton.mp new
      exact Heap.alloc_self
  closures c queued := by
    obtain ⟨contents, live⟩ := inv.closures c queued
    exact ⟨contents, Heap.alloc_live inv.sound live⟩
  distinct := inv.distinct
  copies := inv.copies
  freed := inv.freed

theorem queueinloop_inv (inv : Inv s) (n : Nat) (dataCopy : Bytes) (size : Nat) :
    Inv (queueinloop s n dataCopy size) where
  opened := inv.opened
  sound := inv.sound.alloc _
  callers c listed := Heap.alloc_live inv.sound (inv.callers c listed)
  closures c queued := by
    rcases List.mem_append.mp queued with before | new
    · obtain ⟨contents, live⟩ := inv.closures c before
      exact ⟨contents, Heap.alloc_live inv.sound live⟩
    · obtain rfl := List.mem_singleton.mp new
      exact ⟨dataCopy, Heap.alloc_self⟩
  distinct := by
    have fresh : s.heap.next ∉ s.taskqueue.map Closure.dataCopy := by
      intro queued
      obtain ⟨c, queued, same⟩ := List.mem_map.mp queued
      obtain ⟨contents, live⟩ := inv.closures c queued
      exact absurd same (Nat.ne_of_lt (inv.sound.inside live))
    simpa [queueinloop, List.nodup_append] using ⟨inv.distinct, by simpa using fresh⟩
  copies a copied := by
    rcases List.mem_append.mp copied with before | new
    · rcases inv.copies a before with queued | freed
      · exact .inl (by simp [queueinloop, queued])
      · exact .inr freed
    · obtain rfl := List.mem_singleton.mp new
      exact .inl (by simp [queueinloop])
  freed := inv.freed

theorem returned_inv (inv : Inv s) {c : Caller} (listed : c ∈ s.held) :
    Inv { s with heap := s.heap.free c.data, held := s.held.filter fun d => d.data ≠ c.data } where
  opened := inv.opened
  sound := inv.sound.free (inv.callers c listed)
  callers d kept := by
    obtain ⟨before, other⟩ := List.mem_filter.mp kept
    have other : d.data ≠ c.data := by simpa using other
    exact (Heap.free_other other).trans (inv.callers d before)
  closures d queued := by
    obtain ⟨contents, live⟩ := inv.closures d queued
    exact ⟨contents, Heap.free_live live (inv.callers c listed) (by simp)⟩
  distinct := inv.distinct
  copies a copied := (inv.copies a copied).imp_right (Heap.free_frees_freed inv.sound (inv.callers c listed))
  freed := inv.freed

theorem ran_inv (inv : Inv s) {c : Closure} {rest : List Closure} {ep : Interest} {conn : Connection}
    (queue : s.taskqueue = c :: rest) (opened : Opened ep conn) :
    Inv { s with
      ep := ep, conn := conn, taskqueue := rest, heap := s.heap.free c.dataCopy
      freed := s.freed ++ [(c.send, s.heap.live c.dataCopy)] } := by
  obtain ⟨contents, live⟩ := inv.closures c (by simp [queue])
  have distinct := inv.distinct
  rw [queue, List.map_cons, List.nodup_cons] at distinct
  constructor
  case opened => exact opened
  case sound => exact inv.sound.free live
  case callers =>
    intro d listed
    exact Heap.free_live (inv.callers d listed) live (by simp)
  case closures =>
    intro d queued
    obtain ⟨contents, before⟩ := inv.closures d (by simp [queue, queued])
    have other : d.dataCopy ≠ c.dataCopy := fun same => distinct.1 (same ▸ List.mem_map_of_mem queued)
    exact ⟨contents, (Heap.free_other other).trans before⟩
  case distinct => exact distinct.2
  case copies =>
    intro a copied
    rcases inv.copies a copied with queued | freed
    · rw [queue, List.map_cons, List.mem_cons] at queued
      rcases queued with rfl | later
      · exact .inr (Heap.free_count inv.sound live)
      · exact .inl later
    · exact .inr (Heap.free_frees_freed inv.sound live freed)
  case freed =>
    intro e logged
    rcases List.mem_append.mp logged with before | new
    · exact inv.freed e before
    · obtain rfl := List.mem_singleton.mp new
      exact ⟨contents, live⟩

theorem step_inv (inv : Inv s) (off : OffLoop threadnum a) (step : Step threadnum s a t) : Inv t := by
  cases step with
  | added threads => exact { inv with }
  | @queued _ works message dataCopy size off =>
    have unqueued : Inv { s with works := works } := { inv with }
    exact queueinloop_inv (call_inv unqueued message) s.sends dataCopy size
  | sentinloop onloop freed => exact absurd off onloop
  | returned listed same =>
    subst same
    exact returned_inv inv listed
  | ran queue opened => exact ran_inv inv queue opened
  | wrote opened => exact { inv with opened := opened }

theorem sendinloop_freed {n data size : Nat} {beyond : Nat → UInt8}
    (taken : sendinloop s n data size beyond = some t) {e : Nat × Option Block} (logged : e ∈ s.freed) :
    e ∈ t.freed := by
  simp only [sendinloop] at taken
  split at taken
  · cases taken
  · cases taken
    exact List.mem_append_left _ logged

theorem send_freed {isinloopthread : Bool} {message : Bytes} {beyond : Nat → UInt8}
    (taken : send s isinloopthread message beyond = some t) {e : Nat × Option Block}
    (logged : e ∈ s.freed) : e ∈ t.freed := by
  simp only [send] at taken
  split at taken
  · cases taken
    exact logged
  · exact sendinloop_freed (s := call s message) taken logged
  · cases taken
    exact logged

theorem step_freed (taken : step threadnum s a = some t) {e : Nat × Option Block} (logged : e ∈ s.freed) :
    e ∈ t.freed := by
  cases a with
  | handlemessage request beyond =>
    simp only [step] at taken
    split at taken
    · exact send_freed taken logged
    · cases taken
      exact logged
  | onmessage k beyond =>
    simp only [step] at taken
    split at taken
    · cases taken
    · exact send_freed taken logged
  | send isinloopthread message beyond => exact send_freed taken logged
  | returned data =>
    obtain ⟨listed, next⟩ := Option.ite_none_right_eq_some.mp taken
    cases next
    exact logged
  | task beyond =>
    simp only [step] at taken
    split at taken
    · cases taken
    · exact sendinloop_freed taken logged
  | writecallback accepted =>
    simp only [step] at taken
    split at taken
    · cases taken
    · cases taken
      exact logged

theorem step_misfreed (onloop : ¬ OffLoop threadnum a) (step : Step threadnum s a t) :
    Misfreed t := by
  cases step with
  | added threads => exact absurd threads onloop
  | queued off => exact absurd off onloop
  | sentinloop onloop freed => exact ⟨_, _, freed⟩
  | returned listed same => exact absurd trivial onloop
  | ran queue opened => exact absurd trivial onloop
  | wrote opened => exact absurd trivial onloop

theorem initial_inv {ep : Interest} {conn : Connection} (opened : Opened ep conn) :
    Inv (initial ep conn) where
  opened := opened
  sound := Heap.empty_sound
  callers _ listed := nomatch listed
  closures _ queued := nomatch queued
  distinct := .nil
  copies _ copied := nomatch copied
  freed _ logged := nomatch logged

theorem buffers_owned_iff {ep : Interest} {conn : Connection} {acts : List Act} (opened : Opened ep conn)
    (taken : run (step threadnum) (initial ep conn) acts = some s) :
    (Owned s ∧ ∀ a ∈ acts, ∀ message ∈ a.message threadnum, SameEffect message) ↔
      (∀ a ∈ acts, OffLoop threadnum a) ∧
        ∀ a ∈ acts, ∀ message ∈ a.message threadnum, 0 ∉ message.dropLast := by
  have outcome := run_dichotomy
    (fun s a t (inv : Inv s) (off : OffLoop threadnum a) next =>
      step_inv inv off (step_cases inv.opened next))
    (fun s a t inv onloop next => step_misfreed onloop (step_cases inv.opened next))
    (fun s a t (bad : Misfreed s) next =>
      let ⟨n, contents, logged⟩ := bad
      ⟨n, contents, step_freed next logged⟩)
    (initial_inv opened) taken
  rw [guarded_iff_forall taken] at outcome
  have owned : Owned s ↔ ∀ a ∈ acts, OffLoop threadnum a := by
    rcases outcome with ⟨off, inv⟩ | ⟨onloop, misfreed⟩
    · exact iff_of_true inv.owned off
    · exact iff_of_false misfreed.unowned onloop
  simp only [owned, sameEffect_iff]

theorem buffers_owned_one_worker :
    let acts : List Act := [.handlemessage [104] fun _ => 0, .onmessage 0 fun _ => 0, .returned 0,
      .task fun _ => 0, .writecallback 20]
    let ep : Interest := Function.update (fun _ => none) 5 (some EPOLLIN)
    (Owned (final (step 1) (initial ep (.established 5 0)) acts) ∧
        ∀ a ∈ acts, ∀ message ∈ a.message 1, SameEffect message) ↔
      (∀ a ∈ acts, OffLoop 1 a) ∧ ∀ a ∈ acts, ∀ message ∈ a.message 1, 0 ∉ message.dropLast :=
  buffers_owned_iff ⟨rfl, ⟨rfl, rfl⟩, rfl⟩ (run_final (by decide))

-- With no work threads the first request frees the std::string that HandleMessage was given.
theorem no_work_threads_misfreed :
    ∃ s, run (step 0) (initial (Function.update (fun _ => none) 5 (some EPOLLIN)) (.established 5 0))
        [.handlemessage [104] fun _ => 0] = some s ∧
      s.heap.live 0 = none ∧
      s.freed = [(0, some ⟨ascii "reply:IO thread h" ++ [0], .caller 0⟩)] ∧ ¬ Owned s := by
  have freed : (final (step 0) (initial (Function.update (fun _ => none) 5 (some EPOLLIN))
      (.established 5 0)) [.handlemessage [104] fun _ => 0]).freed =
        [(0, some ⟨ascii "reply:IO thread h" ++ [0], .caller 0⟩)] := by decide
  refine ⟨_, run_final (by decide), rfl, freed, ?_⟩
  apply Misfreed.unowned
  exact ⟨0, _, freed ▸ List.mem_singleton_self _⟩

end Reactor.SendBuffers
