import ReactorServer.ClientSteps
import ReactorServer.Replies

set_option autoImplicit false

namespace Reactor.ClientServer

open ByteString Framing Transition
open Pipeline (setconn setpc)

variable {ι : Type} [DecidableEq ι] {cfg : Pipeline.Config ι} {script : ι → List Bytes}

def ClientPc.got : ClientPc → Bytes
  | .body len => Buffer.sizeHeader len.toNat
  | _ => []

def Turn (client : Client) : Prop :=
  match client.pc with
  | .sending => client.sent.length = client.printed.length
  | .header _ => client.sent.length = client.printed.length + 1
  | .body len => client.sent.length = client.printed.length + 1 ∧ 0 ≤ len ∧ len < 1024
  | .overrun => False

structure Requests (s : State ι) (c : ι) (coming : List Bytes) : Prop where
  sent : (s.client c).sent = s.server.delivered c ++ coming
  sep : (s.server.conn c).inputbuffer.sep = 1
  bytes : (s.server.conn c).inputbuffer.buf ++ s.upstream c = stream Buffer.frame coming

def Replies (s : State ι) (c : ι) : Prop :=
  stream Buffer.frame (s.client c).printed ++ (s.client c).pc.got ++ s.downstream c ++
    (s.server.conn c).outputbuffer.buf = s.server.appended c

structure Exchange (cfg : Pipeline.Config ι) (script : ι → List Bytes) (c : ι) (s : State ι) : Prop where
  shown : ∃ stages replies, Pipeline.Shows cfg s.server c stages replies ∧ stages.Ordered ∧
    (s.client c).printed <+: stages.left.map workReply
  requests : ∃ coming, Requests s c coming
  replies : Replies s c
  turn : Turn (s.client c)
  script : (s.client c).sent ++ (s.client c).texts = script c

variable {s t : State ι} {c : ι}

theorem turn_bounds {client : Client} (turn : Turn client) :
    client.printed.length ≤ client.sent.length ∧ client.sent.length ≤ client.printed.length + 1 := by
  cases pc : client.pc <;> simp only [Turn, pc] at turn <;> omega

theorem short_request {m : Bytes} (short : (workReply m).length < 1024) : m.length ≤ 2 ^ 31 - 5 := by
  rw [workReply, List.length_append] at short
  omega

-- Where the requests of c are, and the replies that have not been printed.
structure Outstanding (cfg : Pipeline.Config ι) (script : ι → List Bytes) (c : ι) (s : State ι)
    (stages : Stages Bytes) (coming passing : List Bytes) : Prop where
  shows : ∃ replies, Pipeline.Shows cfg s.server c stages replies
  ordered : stages.Ordered
  requests : Requests s c coming
  answered : stages.left.map workReply = (s.client c).printed ++ passing
  bytes : (s.client c).pc.got ++ s.downstream c ++ (s.server.conn c).outputbuffer.buf =
    stream Buffer.frame passing
  known : ∀ r ∈ passing, ∃ m ∈ script c, r = workReply m
  count : (s.client c).sent.length = (s.client c).printed.length + passing.length +
    stages.queued.length + stages.held.length + stages.waiting.length + coming.length

theorem outstanding (suitable : Suitable script) (exchange : Exchange cfg script c s) :
    ∃ stages coming passing, Outstanding cfg script c s stages coming passing := by
  obtain ⟨stages, replies, shows, ordered, passing, printed⟩ := exchange.shown
  obtain ⟨coming, requests⟩ := exchange.requests
  have known : ∀ m ∈ stages.left, m ∈ script c := by
    intro m member
    have delivered : m ∈ s.server.delivered c := by
      rw [shows.entered]
      exact (Stages.ordered_left ordered).subset member
    rw [← exchange.script, requests.sent]
    exact List.mem_append_left _ (List.mem_append_left _ delivered)
  have whole := Pipeline.answers_whole (fun m member => (suitable c m (known m member)).1) shows.left
  refine ⟨stages, coming, passing, ⟨replies, shows⟩, ordered, requests, printed.symm, ?_, ?_, ?_⟩
  · have bytes := exchange.replies
    rwa [Replies, shows.appended, whole, ← printed, stream_append, List.append_assoc, List.append_assoc,
      List.append_cancel_left_eq, ← List.append_assoc] at bytes
  · intro r member
    have among : r ∈ stages.left.map workReply := by
      rw [← printed]
      exact List.mem_append_right _ member
    obtain ⟨m, left, rfl⟩ := List.mem_map.mp among
    exact ⟨m, known m left, rfl⟩
  · have left : (s.client c).printed.length + passing.length = stages.left.length := by
      rw [← List.length_append, printed, List.length_map]
    rw [requests.sent, shows.entered, ordered, left]
    simp only [List.length_append]

-- A request under way is at one place: none can be overtaken, whichever worker has it.
theorem exchange_served (suitable : Suitable script) (inv : Pipeline.Inv cfg s.server)
    (exchange : Exchange cfg script c s) {a : Pipeline.Act ι}
    (served : Pipeline.step cfg s.server a = some t.server) (client : t.client c = s.client c)
    (requests : ∃ coming, Requests t c coming) (replies : Replies t c) : Exchange cfg script c t := by
  refine ⟨?_, requests, replies, ?_, ?_⟩
  · obtain ⟨stages, coming, passing, under_way⟩ := outstanding suitable exchange
    obtain ⟨replies, shows⟩ := under_way.shows
    have count := under_way.count
    have bounds := turn_bounds exchange.turn
    obtain ⟨next, replies', move, shows'⟩ :=
      Pipeline.step_simulated inv shows (Pipeline.step_cases inv served)
    have ordered := Stages.ordered_move_alone (by omega) under_way.ordered move
    have printed : (s.client c).printed <+: stages.left.map workReply := ⟨passing, under_way.answered.symm⟩
    refine ⟨next, replies', shows', ordered, ?_⟩
    rw [client]
    exact printed.trans ((Stages.left_grows move).map workReply)
  · rw [client]
    exact exchange.turn
  · rw [client]
    exact exchange.script

-- What the requests and the replies of c depend on in the server and in the streams.
structure Untouched (c : ι) (s t : State ι) : Prop where
  delivered : t.server.delivered c = s.server.delivered c
  appended : t.server.appended c = s.server.appended c
  inputbuffer : (t.server.conn c).inputbuffer = (s.server.conn c).inputbuffer
  outputbuffer : (t.server.conn c).outputbuffer = (s.server.conn c).outputbuffer
  upstream : t.upstream c = s.upstream c
  downstream : t.downstream c = s.downstream c

theorem exchange_untouched (suitable : Suitable script) (inv : Pipeline.Inv cfg s.server)
    (exchange : Exchange cfg script c s) {a : Pipeline.Act ι}
    (served : Pipeline.step cfg s.server a = some t.server) (client : t.client c = s.client c)
    (same : Untouched c s t) : Exchange cfg script c t := by
  obtain ⟨coming, sent, sep, bytes⟩ := exchange.requests
  obtain ⟨delivered, appended, inputbuffer, outputbuffer, upstream, downstream⟩ := same
  apply exchange_served suitable inv exchange served client
  · exact ⟨coming, by rw [client, delivered, sent], by rw [inputbuffer, sep],
      by rw [inputbuffer, upstream, bytes]⟩
  · rw [Replies, client, downstream, outputbuffer, appended]
    exact exchange.replies

theorem picks_next (suitable : Suitable script) (exchange : Exchange cfg script c s)
    {coming : List Bytes} (requests : Requests s c coming) (stale : Nat → UInt8) (message : Bytes) :
    (∃ m later rest, coming = m :: later ∧ (s.server.conn c).inputbuffer = ⟨Buffer.frame m ++ rest, 1⟩ ∧
      (s.server.conn c).inputbuffer.pickmessage stale message = .ok (true, ⟨rest, 1⟩, m)) ∨
    (s.server.conn c).inputbuffer.pickmessage stale message =
        .ok (false, (s.server.conn c).inputbuffer, message) ∧
      (coming = [] ∨ s.upstream c ≠ []) := by
  obtain ⟨sent, sep, bytes⟩ := requests
  have short : ∀ m ∈ coming, m.length ≤ 2 ^ 31 - 5 := by
    intro m member
    apply short_request (suitable c m _).2
    rw [← exchange.script, sent]
    exact List.mem_append_left _ (List.mem_append_right _ member)
  generalize (s.server.conn c).inputbuffer = input at sep bytes ⊢
  obtain ⟨buf, sep'⟩ := input
  dsimp only at sep bytes
  subst sep
  cases coming with
  | nil =>
    have empty : buf = [] := (List.append_eq_nil_iff.mp bytes).1
    exact .inr ⟨by simp [empty, Buffer.pickmessage], .inl rfl⟩
  | cons m later =>
    have ofFrame : Buffer.frame m <+: stream Buffer.frame (m :: later) := ⟨_, rfl⟩
    have ofBuf : buf <+: stream Buffer.frame (m :: later) := ⟨_, bytes⟩
    by_cases fits : (Buffer.frame m).length ≤ buf.length
    · obtain ⟨rest, rfl⟩ := List.prefix_of_prefix_length_le ofFrame ofBuf fits
      exact .inl ⟨m, later, rest, rfl, rfl,
        Buffer.pickmessage_frame stale message (short m List.mem_cons_self)⟩
    · obtain ⟨post, whole⟩ := List.prefix_of_prefix_length_le ofBuf ofFrame (by omega)
      have missing : post ≠ [] := by
        rintro rfl
        exact fits (by simp [← whole])
      refine .inr ⟨Buffer.pickmessage_partial stale message (short m List.mem_cons_self) whole.symm
        missing, .inr fun none => fits ?_⟩
      rw [none, List.append_nil] at bytes
      simp [bytes]

theorem unpicked_left (suitable : Suitable script) (exchange : Exchange cfg script c s)
    {coming : List Bytes} (requests : Requests s c coming) {stale : Nat → UInt8} {message last : Bytes}
    {left : Buffer}
    (found : (s.server.conn c).inputbuffer.pickmessage stale message = .ok (false, left, last)) :
    left = (s.server.conn c).inputbuffer := by
  rcases picks_next suitable exchange requests stale message with
    ⟨m, later, rest, -, -, picked⟩ | ⟨unpicked, -⟩
  · simp [picked] at found
  · simp only [unpicked, Except.ok.injEq, Prod.mk.injEq] at found
    exact found.2.1.symm

theorem picked_first (suitable : Suitable script) (exchange : Exchange cfg script c s)
    {coming : List Bytes} (requests : Requests s c coming) {stale : Nat → UInt8} {message ss : Bytes}
    {left : Buffer}
    (found : (s.server.conn c).inputbuffer.pickmessage stale message = .ok (true, left, ss)) :
    ∃ later, coming = ss :: later ∧
      (s.server.conn c).inputbuffer = ⟨Buffer.frame ss ++ left.buf, 1⟩ ∧ left.sep = 1 := by
  rcases picks_next suitable exchange requests stale message with
    ⟨m, later, rest, first, input, picked⟩ | ⟨unpicked, -⟩
  · simp only [picked, Except.ok.injEq, Prod.mk.injEq, true_and] at found
    obtain ⟨rfl, rfl⟩ := found
    exact ⟨later, first, input, rfl⟩
  · simp [unpicked] at found

theorem reply_next (suitable : Suitable script) (exchange : Exchange cfg script c s)
    {stages : Stages Bytes} {coming passing : List Bytes}
    (under_way : Outstanding cfg script c s stages coming passing) (some : passing ≠ []) :
    ∃ m ∈ script c, passing = [workReply m] ∧ (workReply m).length < 1024 ∧ 0 ∉ workReply m ∧
      (s.client c).pc.got ++ s.downstream c ++ (s.server.conn c).outputbuffer.buf =
        Buffer.sizeHeader (workReply m).length ++ workReply m := by
  have count := under_way.count
  have bounds := turn_bounds exchange.turn
  have bytes := under_way.bytes
  match passing, under_way with
  | [], under_way => exact absurd rfl some
  | r :: later, under_way =>
    obtain ⟨m, member, rfl⟩ := under_way.known r List.mem_cons_self
    obtain ⟨free, short⟩ := suitable c m member
    have only : later = [] := by
      apply List.eq_nil_of_length_eq_zero
      rw [List.length_cons] at count
      omega
    subst only
    refine ⟨m, member, rfl, short, ?_, by simpa [Buffer.frame] using bytes⟩
    rw [workReply, List.mem_append, not_or]
    exact ⟨text_zero_free, free⟩

theorem passing_some {stages : Stages Bytes} {coming passing : List Bytes}
    (under_way : Outstanding cfg script c s stages coming passing)
    (some : (s.client c).pc.got ++ s.downstream c ≠ []) : passing ≠ [] := by
  rintro rfl
  exact some (List.append_eq_nil_iff.mp under_way.bytes).1

theorem header_value {n : Nat} (short : n < 1024) :
    toSigned 32 (ofLittleEndian (Buffer.sizeHeader n)) = n := by
  rw [Buffer.sizeHeader_eq, ofLittleEndian_littleEndian, Nat.mod_eq_of_lt (by omega)]
  exact toSigned_eq_self (by omega) (by omega)

theorem exchange_header (suitable : Suitable script) (exchange : Exchange cfg script c s) {len : Nat}
    {got rest : Bytes} (pc : (s.client c).pc = .header len) (whole : got.length = 4)
    (there : s.downstream c = got ++ rest) :
    Exchange cfg script c { s with
      client := Function.update s.client c { s.client c with
        pc := .body (toSigned 32 (ofLittleEndian (got ++ (littleEndian 4 len).drop got.length))) }
      downstream := Function.update s.downstream c rest } := by
  obtain ⟨stages, coming, passing, under_way⟩ := outstanding suitable exchange
  have some : (s.client c).pc.got ++ s.downstream c ≠ [] := by
    rw [pc, there]
    intro none
    simp only [List.append_eq_nil_iff] at none
    simp [none.2.1] at whole
  obtain ⟨m, member, only, short, free, bytes⟩ :=
    reply_next suitable exchange under_way (passing_some under_way some)
  rw [pc, there] at bytes
  have header : got = Buffer.sizeHeader (workReply m).length := by
    have both : got ++ (rest ++ (s.server.conn c).outputbuffer.buf) =
        Buffer.sizeHeader (workReply m).length ++ workReply m := by
      simpa [ClientPc.got] using bytes
    exact (List.append_inj both (by simp [whole])).1
  have value : toSigned 32 (ofLittleEndian (got ++ (littleEndian 4 len).drop got.length)) =
      (workReply m).length := by
    rw [whole, List.drop_of_length_le (by simp), List.append_nil, header]
    exact header_value short
  have turn := exchange.turn
  have replies := exchange.replies
  simp only [Turn, pc] at turn
  simp only [Replies, pc, there, ClientPc.got] at replies
  refine ⟨?_, exchange.requests.imp fun coming requests => ?_, ?_, ?_, ?_⟩
  · simpa using exchange.shown
  · exact ⟨by simpa using requests.sent, requests.sep, requests.bytes⟩
  · simpa [Replies, ClientPc.got, value, ← header] using replies
  · simp only [Turn, Function.update_self, value]
    omega
  · simpa using exchange.script

theorem exchange_body (suitable : Suitable script) (exchange : Exchange cfg script c s) {len : Int}
    {got rest : Bytes} (pc : (s.client c).pc = .body len) (whole : (got.length : Int) = len)
    (there : s.downstream c = got ++ rest) :
    Exchange cfg script c { s with
      client := Function.update s.client c
        (if got.length < 1024 then { s.client c with
          pc := .sending, printed := (s.client c).printed ++ [got.takeWhile (· != 0)] }
        else { s.client c with pc := .overrun })
      downstream := Function.update s.downstream c rest } := by
  subst whole
  have turn := exchange.turn
  simp only [Turn, pc] at turn
  obtain ⟨stages, coming, passing, under_way⟩ := outstanding suitable exchange
  have some : (s.client c).pc.got ++ s.downstream c ≠ [] := by
    rw [pc, ClientPc.got]
    intro none
    have width := congrArg List.length (List.append_eq_nil_iff.mp none).1
    simp at width
  obtain ⟨m, member, only, short, free, bytes⟩ :=
    reply_next suitable exchange under_way (passing_some under_way some)
  rw [pc, there, ClientPc.got, Int.toNat_natCast, List.append_assoc, List.append_assoc] at bytes
  obtain ⟨header, body⟩ := List.append_inj bytes (by simp)
  have size : got.length = (workReply m).length := by
    have value := congrArg (fun bytes => toSigned 32 (ofLittleEndian bytes)) header
    simp only [header_value short, header_value (show got.length < 1024 by omega)] at value
    omega
  obtain ⟨rfl, nothing⟩ := List.append_inj (body.trans (List.append_nil _).symm) size
  have printed : (workReply m).takeWhile (· != 0) = workReply m := by
    apply List.takeWhile_eq_self_iff.mpr
    intro b member
    simpa using fun zero : b = 0 => free (zero ▸ member)
  obtain ⟨replies, shows⟩ := under_way.shows
  have sent := exchange.replies
  simp only [Replies, pc, there, ClientPc.got, Int.toNat_natCast] at sent
  rw [if_pos short, printed]
  refine ⟨⟨stages, replies, shows, under_way.ordered, ?_⟩, exchange.requests.imp fun coming requests => ?_,
    ?_, ?_, ?_⟩
  · rw [under_way.answered, only]
    simp
  · exact ⟨by simpa using requests.sent, requests.sep, requests.bytes⟩
  · simpa [Replies, ClientPc.got, Buffer.frame] using sent
  · simpa [Turn] using turn.1
  · simpa using exchange.script

theorem exchange_send (exchange : Exchange cfg script c s) {buf : Bytes} {later : List Bytes}
    (pc : (s.client c).pc = .sending) (texts : (s.client c).texts = buf :: later) :
    Exchange cfg script c { s with
      client := Function.update s.client c
        ⟨.header buf.length, later, (s.client c).sent ++ [buf], (s.client c).printed⟩
      upstream := Function.update s.upstream c (s.upstream c ++ Buffer.frame buf) } := by
  have turn := exchange.turn
  have replies := exchange.replies
  simp only [Turn, pc] at turn
  simp only [Replies, pc, ClientPc.got] at replies
  refine ⟨?_, ?_, ?_, ?_, ?_⟩
  · simpa using exchange.shown
  · obtain ⟨coming, sent, sep, bytes⟩ := exchange.requests
    refine ⟨coming ++ [buf], ?_, sep, ?_⟩
    · simp [sent]
    · simp [← bytes]
  · simpa [Replies, ClientPc.got] using replies
  · simpa [Turn] using turn
  · have all := exchange.script
    rw [texts] at all
    simpa using all

theorem exchange_aside (exchange : Exchange cfg script c s) {d : ι} (other : c ≠ d) (client : Client)
    (upstream downstream : Bytes) :
    Exchange cfg script c { s with
      client := Function.update s.client d client
      upstream := Function.update s.upstream d upstream
      downstream := Function.update s.downstream d downstream } := by
  obtain ⟨shown, ⟨coming, sent, sep, bytes⟩, replies, turn, all⟩ := exchange
  refine ⟨?_, ⟨coming, ?_, sep, ?_⟩, ?_, ?_, ?_⟩
  · simpa [other] using shown
  · simpa [other] using sent
  · simpa [other] using bytes
  · simpa [Replies, other] using replies
  · simpa [other] using turn
  · simpa [other] using all

-- There is less than 2 GiB to send, so that the conversion to int keeps what the kernel accepted.
theorem output_short (suitable : Suitable script) (exchange : Exchange cfg script c s) :
    (s.server.conn c).outputbuffer.buf.length < 2 ^ 31 := by
  obtain ⟨stages, coming, passing, under_way⟩ := outstanding suitable exchange
  by_cases none : passing = []
  · have bytes := under_way.bytes
    rw [none, stream_nil] at bytes
    simp [(List.append_eq_nil_iff.mp bytes).2]
  · obtain ⟨m, member, only, short, free, bytes⟩ := reply_next suitable exchange under_way none
    have sizes := congrArg List.length bytes
    simp only [List.length_append, Buffer.sizeHeader_length] at sizes
    omega

theorem exchange_wrote (suitable : Suitable script) (exchange : Exchange cfg script c s)
    {accepted : Int} {ep ep' : Interest} {conn : Connection} {complete : Bool} (least : -1 ≤ accepted)
    (most : accepted ≤ (s.server.conn c).outputbuffer.buf.length)
    (done : (s.server.conn c).writecallback accepted ep = .ok (ep', conn, complete)) :
    conn.inputbuffer = (s.server.conn c).inputbuffer ∧
      (s.server.conn c).outputbuffer.buf.take accepted.toNat ++ conn.outputbuffer.buf =
        (s.server.conn c).outputbuffer.buf := by
  obtain ⟨input, output⟩ := Connection.writecallback_buffers done
  have short := output_short suitable exchange
  have whole : toSigned 32 accepted = accepted := toSigned_eq_self (by omega) (by omega)
  rw [output, whole]
  exact ⟨input, List.take_append_drop _ _⟩

theorem exchange_serve (suitable : Suitable script) (inv : Pipeline.Inv cfg s.server)
    (exchange : Exchange cfg script c s) {a : Pipeline.Act ι} (taken : serve cfg s a = some t) :
    Exchange cfg script c t := by
  have served := serve_server taken
  have replies := exchange.replies
  obtain ⟨coming, requests⟩ := exchange.requests
  have ⟨sent, sep, bytes⟩ := requests
  cases serve_cases inv taken with
  | readable | again | handlewakeup | drained | taken | copied | pushed =>
    exact exchange_untouched suitable inv exchange served rfl ⟨rfl, rfl, rfl, rfl, rfl, rfl⟩
  | @read i d data rest reading some there =>
    by_cases own : c = d
    · subst own
      apply exchange_served suitable inv exchange served rfl
      · exact ⟨coming, sent, by simpa [setconn] using sep, by simpa [setconn, there] using bytes⟩
      · simpa [Replies, setconn] using replies
    · apply exchange_untouched suitable inv exchange served rfl
      constructor <;> simp [setconn, own]
  | @unpicked i now stale d message last left picking found =>
    apply exchange_untouched suitable inv exchange served rfl
    by_cases own : c = d
    · subst own
      obtain rfl := unpicked_left suitable exchange requests found
      constructor <;> simp [setconn, setpc]
    · constructor <;> simp [setconn, setpc, own]
  | @picked i now stale d message ss left picking found =>
    by_cases own : c = d
    · subst own
      obtain ⟨later, first, input, whole⟩ := picked_first suitable exchange requests found
      rw [input, first, stream_cons, List.append_assoc, List.append_cancel_left_eq] at bytes
      apply exchange_served suitable inv exchange served rfl
      · exact ⟨later, by simp [sent, first], by simpa [setconn, setpc] using whole,
          by simpa [setconn, setpc] using bytes⟩
      · simpa [Replies, setconn, setpc] using replies
    · apply exchange_untouched suitable inv exchange served rfl
      constructor <;> simp [setconn, setpc, own]
  | @wrote d accepted ep conn complete polling reported least most done =>
    by_cases own : c = d
    · subst own
      obtain ⟨input, output⟩ := exchange_wrote suitable exchange least most done
      apply exchange_served suitable inv exchange served rfl
      · exact ⟨coming, sent, by simpa [input] using sep, by simpa [input] using bytes⟩
      · rw [Replies, ← output] at replies
        simpa [Replies] using replies
    · apply exchange_untouched suitable inv exchange served rfl
      constructor <;> simp [own]
  | @appended i beyond task rest ep conn draining queue done =>
    by_cases own : c = task.conn
    · subst own
      obtain rfl := inv.sendinloop_conn queue done
      apply exchange_served suitable inv exchange served rfl
      · exact ⟨coming, sent, by simpa using sep, by simpa using bytes⟩
      · simpa [Replies, ← List.append_assoc] using replies
    · apply exchange_untouched suitable inv exchange served rfl
      constructor <;> simp [own]

theorem exchange_step (suitable : Suitable script) (inv : Pipeline.Inv cfg s.server)
    (exchange : Exchange cfg script c s) {a : Act ι} (whole : Whole s a) (taken : step cfg s a = some t) :
    Exchange cfg script c t := by
  cases step_cases inv taken with
  | @send d buf later pc texts =>
    by_cases own : c = d
    · subst own
      exact exchange_send exchange pc texts
    · simpa using exchange_aside exchange own _ _ (s.downstream d)
  | @header d len got rest pc some most there =>
    by_cases own : c = d
    · subst own
      exact exchange_header suitable exchange pc whole there
    · simpa using exchange_aside exchange own _ (s.upstream d) _
  | @body d len got rest pc there =>
    by_cases own : c = d
    · subst own
      exact exchange_body suitable exchange pc (by simpa [Whole, pc] using whole) there
    · simpa using exchange_aside exchange own _ (s.upstream d) _
  | woken waking =>
    exact ⟨exchange.shown, exchange.requests.imp fun _ requests => { requests with }, exchange.replies,
      exchange.turn, exchange.script⟩
  | _ => exact exchange_serve suitable inv exchange taken

theorem server_inv (inv : Pipeline.Inv cfg s.server) {a : Act ι} (taken : step cfg s a = some t) :
    Pipeline.Inv cfg t.server := by
  cases a with
  | serve a => exact Pipeline.inv_step inv (Pipeline.step_cases inv (serve_server taken))
  | _ =>
    cases step_cases inv taken
    exact inv

theorem initial_exchange {s₀ : State ι} (initial : Initial cfg s₀ script) (c : ι) :
    Exchange cfg script c s₀ := by
  have client := initial.client c
  obtain ⟨inv, stages, replies, shows, empty⟩ :=
    Pipeline.initial_accounted initial.server c
      (Eq.refl Stages.empty : (fun stages => stages = Stages.empty) Stages.empty)
  obtain ⟨fd, now, established⟩ := initial.server.established c
  subst empty
  refine ⟨⟨.empty, replies, shows, rfl, ?_⟩, ⟨[], ?_, ?_, ?_⟩, ?_, ?_, ?_⟩
  · simp [client]
  · simp [client, initial.server.delivered c]
  · simp [established, Connection.established, Buffer.make]
  · simp [established, Connection.established, Buffer.make, initial.upstream]
  · simp [Replies, client, ClientPc.got, initial.downstream, established, Connection.established,
      Buffer.make, initial.server.appended c]
  · simp [Turn, client]
  · simp [client]

structure Inv (cfg : Pipeline.Config ι) (script : ι → List Bytes) (s : State ι) : Prop where
  server : Pipeline.Inv cfg s.server
  exchange : ∀ c, Exchange cfg script c s

theorem initial_inv {s₀ : State ι} (initial : Initial cfg s₀ script) : Inv cfg script s₀ :=
  ⟨Pipeline.initial_inv initial.server, initial_exchange initial⟩

theorem inv_step (suitable : Suitable script) (inv : Inv cfg script s) {a : Act ι} (whole : Whole s a)
    (taken : step cfg s a = some t) : Inv cfg script t :=
  ⟨server_inv inv.server taken, fun c => exchange_step suitable inv.server (inv.exchange c) whole taken⟩

theorem printed_own_replies (suitable : Suitable script) {s₀ : State ι} (initial : Initial cfg s₀ script)
    {acts : List (Act ι)} (taken : run (step cfg) s₀ acts = some s)
    (whole : Guarded (step cfg) Whole s₀ acts) (c : ι) :
    (s.client c).pc ≠ .overrun ∧ (s.client c).sent <+: script c ∧
      (s.client c).printed <+: (script c).map workReply ∧
      (s.client c).sent.length ≤ (s.client c).printed.length + 1 := by
  have inv : Inv cfg script s :=
    guarded_invariant (fun _ _ _ inv whole taken => inv_step suitable inv whole taken)
      (initial_inv initial) whole taken
  have exchange := inv.exchange c
  obtain ⟨stages, coming, passing, under_way⟩ := outstanding suitable exchange
  have sent : (s.client c).sent <+: script c := ⟨_, exchange.script⟩
  refine ⟨?_, sent, ?_, (turn_bounds exchange.turn).2⟩
  · intro overrun
    have turn := exchange.turn
    simp [Turn, overrun] at turn
  · obtain ⟨replies, shows⟩ := under_way.shows
    have answered : stages.left <+: (s.client c).sent := by
      rw [under_way.requests.sent, shows.entered]
      exact (Stages.ordered_left under_way.ordered).trans (List.prefix_append _ _)
    have printed : (s.client c).printed <+: stages.left.map workReply := ⟨passing, under_way.answered.symm⟩
    exact printed.trans ((answered.trans sent).map workReply)

omit [DecidableEq ι] in
theorem texts_suitable : Suitable fun _ : ι => texts := by
  have all : ∀ m ∈ texts, 0 ∉ m ∧ (workReply m).length < 1024 := by decide
  exact fun _ => all

def connected : State Bool :=
  ⟨Pipeline.accepted, fun _ => ⟨.sending, texts, [], []⟩, fun _ => [], fun _ => [], [], fun _ => 0⟩

theorem connected_initial (workthreadnum : Nat) :
    Initial (Pipeline.twoClients workthreadnum) connected fun _ => texts :=
  ⟨Pipeline.accepted_initial workthreadnum, fun _ => rfl, fun _ => rfl, fun _ => rfl, rfl, fun _ => rfl⟩

def front (ii : Nat) : Bytes := (Buffer.frame (text ii)).take 5

def back (ii : Nat) : Bytes := (Buffer.frame (text ii)).drop 5

-- The request that came second is answered first, in two pieces.
def overtaking : List (Act Bool) :=
  [.send false, .serve (.readable false), .serve (.read 0 (front 0)), .serve (.read 0 (back 0)),
    .serve (.again 0), .serve (.pickmessage 0 1 fun _ => 0), .serve (.pickmessage 0 1 fun _ => 0),
    .send true, .serve (.readable true), .serve (.read 0 (front 0)), .serve (.read 0 (back 0)),
    .serve (.again 0), .serve (.pickmessage 0 1 fun _ => 0), .serve (.pickmessage 0 1 fun _ => 0),
    .serve (.take 0), .serve (.take 1), .serve (.send 0), .serve (.send 1), .serve (.queueinloop 1),
    .wakeup 1, .serve (.queueinloop 0), .serve (.handlewakeup 0), .serve (.sendinloop 0 fun _ => 0),
    .serve (.sendinloop 0 fun _ => 0), .serve (.drained 0), .wakeup 0, .serve (.writable true 10),
    .serve (.writable true 40), .recvheader true 4, .recvbody true 46]

theorem printed_own_replies_overtaking :
    ∃ s, run (step (Pipeline.twoClients 2)) connected overtaking = some s ∧
      (s.client true).pc ≠ .overrun ∧ (s.client true).sent <+: texts ∧
      (s.client true).printed <+: texts.map workReply ∧
      (s.client true).sent.length ≤ (s.client true).printed.length + 1 :=
  ⟨_, run_final (by decide +kernel),
    printed_own_replies texts_suitable (connected_initial 2) (run_final (by decide +kernel))
      (by decide +kernel) true⟩

end Reactor.ClientServer
