import ReactorServer.Registries

set_option autoImplicit false

namespace Reactor.TcpServer

open Transition

variable {cfg : Config} {s t : TcpServer} {a : Act} {acts : List Act} {others : Nat → Interest}

structure HandedOver (s : TcpServer) (a : Act) (t : TcpServer) : Prop where
  wired : ∀ i c revents rest, a = .dispatch i → s.pc i = .polling →
    s.batch i = (.client c, revents) :: rest → s.main ≠ .constructed c ∧ s.main.callbacks c = 4
  inserted : ∀ k c, (k, c) ∉ s.conns → (k, c) ∈ t.conns → (s.conn c).disconnect = false
  listed : ∀ i k c, (k, c) ∉ s.subconns i → (k, c) ∈ t.subconns i → (s.conn c).disconnect = false

def ReportedLate (s : TcpServer) (a : Act) : Prop :=
  match a with
  | .wait _ batch => ∀ c revents, (.client c, revents) ∈ batch → s.main.callbacks c = 4 ∧
      (handleevent revents = .close ∨ handleevent revents = .error → s.main.pending ≠ some c)
  | .eof i => ∀ c, s.pc i = .reading c → s.main.pending ≠ some c
  | _ => True

structure Awaited (s : TcpServer) : Prop where
  wired : ∀ i c revents, (.client c, revents) ∈ s.batch i → s.main.callbacks c = 4
  hangup : ∀ i c revents, (.client c, revents) ∈ s.batch i →
    handleevent revents = .close ∨ handleevent revents = .error → s.main.pending ≠ some c
  opened : ∀ c, s.main.pending = some c → (s.conn c).disconnect = false

theorem callbacks_step (step : Step cfg s a t) {c : Nat} (known : c < s.next)
    (all : s.main.callbacks c = 4) : t.main.callbacks c = 4 := by
  cases step with
  | accepted main range fresh => simp [MainPc.callbacks, known.ne']
  | @wired d n main =>
    by_cases own : d = c
    · rcases main with ⟨main, -⟩ | ⟨m, few, main, -⟩
      · simp [main, MainPc.callbacks, own] at all
      · simp [main, MainPc.callbacks, own] at all
        omega
    · simp [MainPc.callbacks, own]
  | inserted main set => rfl
  | listed main => rfl
  | completed main => rfl
  | _ => exact all

theorem Awaited.closes_settled (awaited : Awaited s) (late : ReportedLate s a) {i c : Nat}
    {batch : List (Source × UInt32)} (closes : Closes cfg s i a batch c) :
    s.main.pending ≠ some c := by
  cases closes with
  | dispatched polling head hangup => exact awaited.hangup i c _ (by simp [head]) hangup
  | ended pc => exact late c pc

theorem Awaited.opened_step (inv : Inv cfg s) (awaited : Awaited s) (late : ReportedLate s a)
    (step : Step cfg s a t) {c : Nat} (pending : t.main.pending = some c) :
    (t.conn c).disconnect = false := by
  cases closed : (t.conn c).disconnect with
  | false => rfl
  | true =>
    rcases pending_origin step pending with before | ⟨new, grown⟩
    · rcases disconnect_origin step closed with ⟨closed, -⟩ | ⟨i, batch, closes⟩
      · simp [awaited.opened c before] at closed
      · exact absurd before (awaited.closes_settled late closes)
    · rcases disconnect_origin step closed with ⟨-, old⟩ | ⟨i, batch, closes⟩
      · exact absurd (old new) grown
      · have known := closes.known inv
        omega

theorem awaited_step (inv : Inv cfg s) (awaited : Awaited s) (late : ReportedLate s a)
    (step : Step cfg s a t) : Awaited t where
  wired := by
    intro i c revents queued
    have before : s.main.callbacks c = 4 ∧ c < s.next := by
      rcases batch_step step queued with before | ⟨batch, rfl, now, reports⟩
      · exact ⟨awaited.wired i c revents before, (inv.batched i c revents before).1⟩
      · exact ⟨(late c revents now).1, reports.1⟩
    exact callbacks_step step before.2 before.1
  hangup := by
    intro i c revents queued closing pending
    have before : s.main.pending ≠ some c ∧ c < s.next := by
      rcases batch_step step queued with before | ⟨batch, rfl, now, reports⟩
      · exact ⟨awaited.hangup i c revents before closing, (inv.batched i c revents before).1⟩
      · exact ⟨(late c revents now).2 closing, reports.1⟩
    rcases pending_origin step pending with same | ⟨new, -⟩
    · exact before.1 same
    · omega
  opened c := awaited.opened_step inv late step

theorem handed_over_step (awaited : Awaited s) (step : Step cfg s a t) : HandedOver s a t where
  wired := by
    rintro i c revents rest rfl polling head
    have wired := awaited.wired i c revents (by simp [head])
    refine ⟨fun main => ?_, wired⟩
    simp [main, MainPc.callbacks] at wired
  inserted := by
    intro k c absent present
    rcases conns_origin step present with before | ⟨-, pending, -⟩
    · exact absurd before absent
    · exact awaited.opened c pending
  listed := by
    intro i k c absent present
    rcases subconns_origin step present with before | ⟨-, -, main, -⟩
    · exact absurd before absent
    · exact awaited.opened c (by rw [main]; rfl)

theorem initial_awaited (others : Nat → Interest) : Awaited (initial others) where
  wired i c revents queued := by cases queued
  hangup i c revents queued := by cases queued
  opened c pending := by cases pending

theorem handed_over (late : Guarded (step cfg) ReportedLate (initial others) acts) :
    Each (step cfg) HandedOver (initial others) acts := by
  refine guarded_each (fun s a t (h : Inv cfg s ∧ Awaited s) late next => ?_)
    (fun s a t h late next => ?_) ⟨initial_inv cfg others, initial_awaited others⟩ late
  · exact ⟨inv_step s a t h.1 next, awaited_step h.1 h.2 late (step_cases next).2⟩
  · exact handed_over_step h.2 (step_cases next).2

def servedAndClosed : List Act :=
  connect 4 ++ .wait 1 [(.client 0, EPOLLIN)] :: .dispatch 1 :: .message 1 [104] :: .drained 1 :: .leave 1 ::
    .wait 1 [(.client 0, EPOLLIN)] :: .dispatch 1 :: .eof 1 :: [.closeconnection 1]

theorem handed_over_connected :
    ((final (step ⟨3, 10, 1⟩) (initial fun _ _ => none) servedAndClosed).conn 0).disconnect = true ∧
      Each (step ⟨3, 10, 1⟩) HandedOver (initial fun _ _ => none) servedAndClosed := by
  have front : Guarded (step ⟨3, 10, 1⟩) ReportedLate (initial fun _ _ => none) (connect 4) := by
    refine guarded_always (fun a member s => ?_) _
    simp [connect] at member
    rcases member with rfl | rfl <;> trivial
  have reports {s : TcpServer} {revents : UInt32} (wired : s.main = .accepting) :
      ReportedLate s (.wait 1 [(.client 0, revents)]) := by
    intro c revents member
    simp [wired, MainPc.callbacks, MainPc.pending]
  have ended {s : TcpServer} (wired : s.main = .accepting) : ReportedLate s (.eof 1) := by
    intro c pc
    simp [wired, MainPc.pending]
  have back : Guarded (step ⟨3, 10, 1⟩) ReportedLate
      (final (step ⟨3, 10, 1⟩) (initial fun _ _ => none) (connect 4)) (servedAndClosed.drop 9) := by
    refine guarded_next (reports (by decide +kernel)) (guarded_next trivial (guarded_next trivial ?_))
    refine guarded_next trivial (guarded_next trivial (guarded_next (reports (by decide +kernel)) ?_))
    refine guarded_next trivial (guarded_next (ended ?_) (guarded_next trivial trivial))
    decide
  exact ⟨by decide +kernel, handed_over (guarded_append front (run_final (by decide +kernel)) back)⟩

-- Data of fd 4 is there as soon as its channel is registered.
def early : List Act := [.accept 4, .wait 1 [(.client 0, EPOLLIN)], .dispatch 1]

-- The callbacks are set, but the peer is gone before newconnection fills the maps.
def earlyEnd : List Act :=
  .accept 4 :: List.replicate 5 .newconnection ++
    [.wait 1 [(.client 0, EPOLLIN)], .dispatch 1, .eof 1, .newconnection]

theorem handed_over_early :
    ¬ Each (step ⟨3, 10, 1⟩) HandedOver (initial fun _ _ => none) early ∧
      ¬ Each (step ⟨3, 10, 1⟩) HandedOver (initial fun _ _ => none) earlyEnd := by
  constructor
  · intro each
    let s := final (step ⟨3, 10, 1⟩) (initial fun _ _ => none) early.dropLast
    have last : step ⟨3, 10, 1⟩ s (.dispatch 1) = some (s.setbatch 1 [] |>.setpc 1 (.reading 0)) := by rfl
    have handed := each_last each (run_final (by decide +kernel)) last
    exact (handed.wired 1 0 EPOLLIN [] rfl (by decide +kernel) (by decide +kernel)).1 (by decide +kernel)
  · intro each
    let s := final (step ⟨3, 10, 1⟩) (initial fun _ _ => none) earlyEnd.dropLast
    have last : step ⟨3, 10, 1⟩ s .newconnection =
        some (final (step ⟨3, 10, 1⟩) (initial fun _ _ => none) earlyEnd) := by rfl
    have handed := each_last each (run_final (by decide +kernel)) last
    have closed : (s.conn 0).disconnect = true := by decide +kernel
    have opened := handed.inserted 4 0 (by decide +kernel) (by decide +kernel)
    cases closed.symm.trans opened

end Reactor.TcpServer
