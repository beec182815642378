import ReactorServer.Epoll
import ReactorServer.Shared.Transition

set_option autoImplicit false

namespace Reactor.Channel

open Transition

inductive Operation where
  | enablereading
  | disablereading
  | enablewriting
  | disablewriting
  | disableall
  | remove
  deriving DecidableEq, Repr

def apply (ep : Interest) (ch : Channel) : Operation → Except Stop (Interest × Channel)
  | .enablereading => enablereading ep ch
  | .disablereading => disablereading ep ch
  | .enablewriting => enablewriting ep ch
  | .disablewriting => disablewriting ep ch
  | .disableall => disableall ep ch
  | .remove => remove ep ch

def step (s : Interest × Channel) (op : Operation) : Option (Interest × Channel) :=
  (apply s.1 s.2 op).toOption

structure Agrees (s : Interest × Channel) : Prop where
  inepoll : s.2.inepoll = true ↔ (s.1 s.2.fd).isSome = true
  events : ∀ mask, s.1 s.2.fd = some mask → mask = s.2.events

variable {s : Interest × Channel} {ops : List Operation}

theorem make_agrees {ep : Interest} {fd : Int} (fresh : ep fd = none) : Agrees (ep, make fd) where
  inepoll := by simp [make, fresh]
  events mask stored := by simp [make, fresh] at stored

theorem written_agrees (ep : Interest) (ch : Channel) (events : UInt32) :
    Agrees (Function.update ep ch.fd (some events), { ch with events := events, inepoll := true }) where
  inepoll := by simp
  events mask stored := by simpa [eq_comm] using stored

theorem setevents_agrees (agrees : Agrees s) (events : UInt32) :
    ∃ t, setevents s.1 s.2 events = .ok t ∧ Agrees t := by
  obtain ⟨ep, ch⟩ := s
  have listed := agrees.inepoll
  cases inepoll : ch.inepoll with
  | false =>
    have absent : ep ch.fd = none := by simpa [inepoll] using listed
    refine ⟨_, ?_, written_agrees ep ch events⟩
    simp [setevents, updatechannel, epollCtl, inepoll, absent]
  | true =>
    obtain ⟨mask, stored⟩ : ∃ mask, ep ch.fd = some mask := by
      simpa [inepoll, Option.isSome_iff_exists] using listed
    have registered : ch.Registered ep := ⟨inepoll, by rw [stored, agrees.events mask stored]⟩
    refine ⟨_, setevents_registered registered events, ?_⟩
    simpa [inepoll] using written_agrees ep ch events

theorem step_agrees (agrees : Agrees s) {op : Operation} (other : op ≠ .remove) :
    ∃ t, step s op = some t ∧ Agrees t := by
  have kept (events : UInt32) (same : apply s.1 s.2 op = setevents s.1 s.2 events) :
      ∃ t, step s op = some t ∧ Agrees t := by
    obtain ⟨t, done, after⟩ := setevents_agrees agrees events
    exact ⟨t, by simp [step, same, done, Except.toOption], after⟩
  cases op with
  | enablereading => exact kept _ rfl
  | disablereading => exact kept _ rfl
  | enablewriting => exact kept _ rfl
  | disablewriting => exact kept _ rfl
  | disableall => exact kept _ rfl
  | remove => exact absurd rfl other

theorem run_agrees (agrees : Agrees s) (without : .remove ∉ ops) :
    ∃ t, run step s ops = some t ∧ Agrees t := by
  induction ops generalizing s with
  | nil => exact ⟨s, rfl, agrees⟩
  | cons op ops ih =>
    rw [List.mem_cons, not_or] at without
    obtain ⟨t, first, between⟩ := step_agrees agrees (Ne.symm without.1)
    obtain ⟨u, rest, after⟩ := ih between without.2
    exact ⟨u, run_cons_some.mpr ⟨t, first, rest⟩, after⟩

theorem remove_disagrees {t : Interest × Channel} (removed : step s .remove = some t) : ¬ Agrees t := by
  intro agrees
  cases done : remove s.1 s.2 with
  | error stop => simp [step, apply, done, Except.toOption] at removed
  | ok next =>
    obtain ⟨ep, ch⟩ := next
    obtain ⟨rfl, rfl⟩ := remove_ok done
    simp only [step, apply, done, Except.toOption, Option.some.injEq] at removed
    subst removed
    have listed := agrees.inepoll
    simp at listed

theorem registration_agrees_iff {ep : Interest} {fd : Int} (fresh : ep fd = none) (ops : List Operation) :
    (∀ front, front <+: ops → ∃ s, run step (ep, make fd) front = some s ∧ Agrees s) ↔
      .remove ∉ ops := by
  constructor
  · intro throughout member
    obtain ⟨before, after, rfl⟩ := List.append_of_mem member
    obtain ⟨s, ran, agrees⟩ := throughout (before ++ [.remove]) ⟨after, by simp⟩
    rw [run_append, Option.bind_eq_some_iff] at ran
    obtain ⟨t, -, removed⟩ := ran
    obtain ⟨u, first, same⟩ := run_cons_some.mp removed
    cases same
    exact remove_disagrees first agrees
  · intro without front inside
    exact run_agrees (make_agrees fresh) fun member => without (inside.subset member)

theorem registration_agrees_connected :
    (∀ front, front <+: [.enablereading, .enablewriting, .disableall] →
      ∃ s, run step (fun _ => none, make 5) front = some s ∧ Agrees s) ↔
      Operation.remove ∉ [Operation.enablereading, .enablewriting, .disableall] :=
  registration_agrees_iff rfl _

-- The third operation asks for EPOLL_CTL_MOD of an fd that is off the list.
theorem removed_channel_exits :
    (∃ s, run step (fun _ => none, make 5) [.enablereading, .remove] = some s ∧
      s.2.inepoll = true ∧ s.1 5 = none) ∧
      run step (fun _ => none, make 5) [.enablereading, .remove, .enablereading] = none :=
  ⟨⟨_, rfl, rfl, rfl⟩, rfl⟩

end Reactor.Channel
