import ReactorServer.PoolInvariants

set_option autoImplicit false

namespace Reactor.StopCalls

open Transition

variable {α : Type} {n : Nat}

inductive Call where
  | idle
  | storing
  | stored
  | joining (k : Nat)
  | returned
  deriving DecidableEq

-- A second join of a thread throws or is undefined; `joined` counts it and the run goes on.
structure State (α : Type) (n : Nat) where
  pool : ThreadPool α n
  calls : Nat → Call
  joined : Fin n → Nat

inductive Act (α : Type) (n : Nat) where
  | work (w : Fin n)
  | spurious (w : Fin n)
  | push (task : α)
  | notifyone (w : Option (Fin n))
  | test (c : Nat)
  | store (c : Nat)
  | notifyall (c : Nat)
  | join (c : Nat)

def initial : State α n := ⟨.initial, fun _ => .idle, fun _ => 0⟩

def setcall (s : State α n) (c : Nat) (pc : Call) : State α n :=
  { s with calls := Function.update s.calls c pc }

def other (s : State α n) (a : ThreadPool.Act α n) : Option (State α n) :=
  (s.pool.step a).map fun pool => { s with pool := pool }

def step (s : State α n) : Act α n → Option (State α n)
  | .work w => other s (.work w)
  | .spurious w => other s (.spurious w)
  | .push task => other s (.push task)
  | .notifyone w => other s (.notifyone w)
  | .test c =>
    match s.calls c with
    | .idle => some (setcall s c (if s.pool.stop then .returned else .storing))
    | _ => none
  | .store c =>
    match s.calls c with
    | .storing => some { setcall s c .stored with pool := { s.pool with stop := true } }
    | _ => none
  | .notifyall c =>
    match s.calls c with
    | .stored =>
      some { setcall s c (.joining 0) with
        pool := { s.pool with threads := ThreadPool.wakeall s.pool.threads } }
    | _ => none
  | .join c =>
    match s.calls c with
    | .joining k =>
      if h : k < n then
        if (s.pool.threads ⟨k, h⟩).isExited then
          some { setcall s c (.joining (k + 1)) with
            joined := Function.update s.joined ⟨k, h⟩ (s.joined ⟨k, h⟩ + 1) }
        else none
      else some (setcall s c .returned)
    | _ => none

def Joined (s : State α n) : Prop :=
  (∀ w, s.joined w ≤ 1) ∧ ∀ c, s.calls c = .returned → ∀ w, s.joined w = 1

def Call.Busy (n : Nat) : Call → Prop
  | .storing => 0 < n
  | .stored => 0 < n
  | .joining k => k < n
  | _ => False

def Alone (s : State α n) : Act α n → Prop
  | .test _ => ∀ c, ¬ (s.calls c).Busy n
  | _ => True

def Ended (s : State α n) : Prop := ∀ c, s.calls c = .idle ∨ s.calls c = .returned

def Call.progress (n : Nat) : Call → Nat
  | .joining k => k
  | .returned => n
  | _ => 0

def Call.hasStored : Call → Bool
  | .stored => true
  | .joining _ => true
  | .returned => true
  | _ => false

def Call.passed (pc : Call) (w : Fin n) : Nat := if w.val < pc.progress n then 1 else 0

variable {s t : State α n} {a : Act α n}

inductive Step (s : State α n) : Act α n → State α n → Prop where
  | other {a : Act α n} {pool : ThreadPool α n} (kind : ∀ c, a ≠ .test c)
      (stop : pool.stop = s.pool.stop) : Step s a { s with pool := pool }
  | early {c : Nat} (idle : s.calls c = .idle) (stopped : s.pool.stop = true) :
      Step s (.test c) (setcall s c .returned)
  | began {c : Nat} (idle : s.calls c = .idle) (running : s.pool.stop = false) :
      Step s (.test c) (setcall s c .storing)
  | stored {c : Nat} (pc : s.calls c = .storing) :
      Step s (.store c) { setcall s c .stored with pool := { s.pool with stop := true } }
  | notified {c : Nat} {pool : ThreadPool α n} (pc : s.calls c = .stored)
      (stop : pool.stop = s.pool.stop) :
      Step s (.notifyall c) { setcall s c (.joining 0) with pool := pool }
  | joined {c k : Nat} (pc : s.calls c = .joining k) (h : k < n) :
      Step s (.join c)
        { setcall s c (.joining (k + 1)) with
          joined := Function.update s.joined ⟨k, h⟩ (s.joined ⟨k, h⟩ + 1) }
  | finished {c k : Nat} (pc : s.calls c = .joining k) (all : n ≤ k) :
      Step s (.join c) (setcall s c .returned)

theorem other_cases {b : ThreadPool.Act α n} (running : b ≠ .stop) (taken : other s b = some t) :
    ∃ pool, pool.stop = s.pool.stop ∧ t = { s with pool := pool } := by
  obtain ⟨pool, moved, rfl⟩ := Option.map_eq_some_iff.mp taken
  refine ⟨pool, ?_, rfl⟩
  cases ThreadPool.step_cases moved with
  | worked works => exact (ThreadPool.works_stop works).1
  | stored stopper free => exact absurd rfl running
  | _ => rfl

theorem other_step {b : ThreadPool.Act α n} (kind : ∀ c, a ≠ .test c) (running : b ≠ .stop)
    (taken : other s b = some t) : Step s a t := by
  obtain ⟨pool, stop, rfl⟩ := other_cases running taken
  exact .other kind stop

theorem step_cases (taken : step s a = some t) : Step s a t := by
  cases a with
  | work w => exact other_step (by simp) (by simp) taken
  | spurious w => exact other_step (by simp) (by simp) taken
  | push task => exact other_step (by simp) (by simp) taken
  | notifyone w => exact other_step (by simp) (by simp) taken
  | test c =>
    simp only [step] at taken
    split at taken
    next idle =>
      cases taken
      cases stop : s.pool.stop with
      | true => exact .early idle stop
      | false => exact .began idle stop
    next => cases taken
  | store c =>
    simp only [step] at taken
    split at taken
    next pc =>
      cases taken
      exact .stored pc
    next => cases taken
  | notifyall c =>
    simp only [step] at taken
    split at taken
    next pc =>
      cases taken
      exact .notified pc rfl
    next => cases taken
  | join c =>
    simp only [step] at taken
    split at taken
    next k pc =>
      split at taken
      next h =>
        split at taken
        next =>
          cases taken
          exact .joined pc h
        next => cases taken
      next all =>
        cases taken
        exact .finished pc (by omega)
    next => cases taken

structure Moved (s : State α n) (c : Nat) (t : State α n) : Prop where
  past : s.calls c ≠ .idle ∧ s.calls c ≠ .returned
  others : ∀ d, d ≠ c → t.calls d = s.calls d
  still : t.calls c ≠ .idle
  grows : ∀ w, s.joined w ≤ t.joined w
  counted : ∀ w, t.joined w + (s.calls c).passed w = s.joined w + (t.calls c).passed w
  stop : s.pool.stop = (s.calls c).hasStored → t.pool.stop = (t.calls c).hasStored

inductive Change (s : State α n) (a : Act α n) (t : State α n) : Prop where
  | none (calls : t.calls = s.calls) (joined : t.joined = s.joined) (stop : t.pool.stop = s.pool.stop)
  | tested {c : Nat} (test : a = .test c) (idle : s.calls c = .idle)
      (calls : t = setcall s c (if s.pool.stop then .returned else .storing))
  | moved {c : Nat} (moved : Moved s c t)

theorem stored_moved {c : Nat} (pc : s.calls c = .storing) :
    Moved s c { setcall s c .stored with pool := { s.pool with stop := true } } where
  past := by simp [pc]
  others d other := by simp [setcall, other]
  still := by simp [setcall]
  grows w := Nat.le_refl _
  counted w := by simp [setcall, pc, Call.passed, Call.progress]
  stop _ := by simp [setcall, Call.hasStored]

theorem notified_moved {c : Nat} {pool : ThreadPool α n} (pc : s.calls c = .stored)
    (stop : pool.stop = s.pool.stop) : Moved s c { setcall s c (.joining 0) with pool := pool } where
  past := by simp [pc]
  others d other := by simp [setcall, other]
  still := by simp [setcall]
  grows w := Nat.le_refl _
  counted w := by simp [setcall, pc, Call.passed, Call.progress]
  stop before := by simpa [setcall, pc, Call.hasStored, stop] using before

theorem joined_moved {c k : Nat} (pc : s.calls c = .joining k) (h : k < n) :
    Moved s c
      { setcall s c (.joining (k + 1)) with
        joined := Function.update s.joined ⟨k, h⟩ (s.joined ⟨k, h⟩ + 1) } where
  past := by simp [pc]
  others d other := by simp [setcall, other]
  still := by simp [setcall]
  grows w := by
    by_cases here : w = ⟨k, h⟩
    · simp [here]
    · simp [here]
  counted w := by
    by_cases here : w = ⟨k, h⟩
    · simp [setcall, pc, here, Call.passed, Call.progress]
    · have apart : w.val ≠ k := fun same => here (Fin.ext same)
      have same : w.val < k + 1 ↔ w.val < k := by omega
      simp [setcall, pc, here, Call.passed, Call.progress, same]
  stop before := by simpa [setcall, pc, Call.hasStored] using before

theorem finished_moved {c k : Nat} (pc : s.calls c = .joining k) (all : n ≤ k) :
    Moved s c (setcall s c .returned) where
  past := by simp [pc]
  others d other := by simp [setcall, other]
  still := by simp [setcall]
  grows w := Nat.le_refl _
  counted w := by
    have inside : w.val < k := by omega
    simp [setcall, pc, Call.passed, Call.progress, inside]
  stop before := by simpa [setcall, pc, Call.hasStored] using before

theorem step_change (step : Step s a t) : Change s a t := by
  cases step with
  | other kind stop => exact .none rfl rfl stop
  | early idle stopped => exact .tested rfl idle (by simp [stopped])
  | began idle running => exact .tested rfl idle (by simp [running])
  | stored pc => exact .moved (stored_moved pc)
  | notified pc stop => exact .moved (notified_moved pc stop)
  | joined pc h => exact .moved (joined_moved pc h)
  | finished pc all => exact .moved (finished_moved pc all)

def Call.stopper : Call → StopPc
  | .idle => .idle
  | .storing => .idle
  | .stored => .stored
  | .joining k => .joining k
  | .returned => .returned

def view (s : State α n) : ThreadPool α n := { s.pool with stopper := (s.calls 0).stopper }

-- Its test of stop_ is seen together with the store.
def Act.seen : Act α n → List (ThreadPool.Act α n)
  | .work w => [.work w]
  | .spurious w => [.spurious w]
  | .push task => [.push task]
  | .notifyone w => [.notifyone w]
  | .test _ => []
  | .store _ => [.stop]
  | .notifyall _ => [.notifyall]
  | .join _ => [.join]

def Act.Single : Act α n → Prop
  | .test c => c = 0
  | .store c => c = 0
  | .notifyall c => c = 0
  | .join c => c = 0
  | _ => True

theorem work_stopper (p : ThreadPool α n) (stopper : StopPc) (w : Fin n) :
    ThreadPool.work { p with stopper := stopper } w =
      (p.work w).map fun q => { q with stopper := stopper } := by
  cases pc : p.threads w with
  | dequeuing notified => cases queue : p.taskqueue <;> simp [ThreadPool.work, pc, queue]
  | checking notified =>
    simp only [ThreadPool.work, pc]
    split
    · rfl
    · rfl
  | _ => simp [ThreadPool.work, ThreadPool.acquire, pc, apply_ite]

theorem other_seen {b : ThreadPool.Act α n} (stopper : StopPc)
    (kind : b ≠ .stop ∧ b ≠ .notifyall ∧ b ≠ .join) (p : ThreadPool α n) :
    ThreadPool.step { p with stopper := stopper } b =
      (p.step b).map fun q => { q with stopper := stopper } := by
  cases b with
  | work w => exact work_stopper p stopper w
  | spurious w => simp [ThreadPool.step, apply_ite]
  | push task => simp [ThreadPool.step, apply_ite]
  | notifyone w => cases w <;> simp [ThreadPool.step, apply_ite]
  | stop => exact absurd rfl kind.1
  | notifyall => exact absurd rfl kind.2.1
  | join => exact absurd rfl kind.2.2

theorem view_other {b : ThreadPool.Act α n} (kind : b ≠ .stop ∧ b ≠ .notifyall ∧ b ≠ .join)
    (taken : other s b = some t) : ThreadPool.step (view s) b = some (view t) := by
  obtain ⟨pool, moved, rfl⟩ := Option.map_eq_some_iff.mp taken
  rw [view, other_seen _ kind, moved]
  rfl

theorem other_alone {b : ThreadPool.Act α n} (kind : b ≠ .stop ∧ b ≠ .notifyall ∧ b ≠ .join)
    (alone : s.pool.stop = (s.calls 0).hasStored) (taken : other s b = some t) :
    t.pool.stop = (t.calls 0).hasStored ∧ run ThreadPool.step (view s) [b] = some (view t) := by
  have seen := run_single (view_other kind taken)
  obtain ⟨pool, stop, rfl⟩ := other_cases kind.1 taken
  exact ⟨stop.trans alone, seen⟩

theorem step_seen (alone : s.pool.stop = (s.calls 0).hasStored) (single : a.Single)
    (taken : step s a = some t) :
    t.pool.stop = (t.calls 0).hasStored ∧ run ThreadPool.step (view s) a.seen = some (view t) := by
  cases a with
  | work w => exact other_alone (by simp) alone taken
  | spurious w => exact other_alone (by simp) alone taken
  | push task => exact other_alone (by simp) alone taken
  | notifyone w => exact other_alone (by simp) alone taken
  | test c =>
    obtain rfl : c = 0 := single
    simp only [step] at taken
    split at taken
    next idle =>
      have running : s.pool.stop = false := by rw [alone, idle]; rfl
      cases taken
      simp [setcall, running, Call.hasStored, Act.seen, view, idle, Call.stopper]
    next => cases taken
  | store c =>
    obtain rfl : c = 0 := single
    simp only [step] at taken
    split at taken
    next pc =>
      have running : s.pool.stop = false := by rw [alone, pc]; rfl
      cases taken
      refine ⟨(stored_moved pc).stop alone, run_single ?_⟩
      simp [ThreadPool.step, view, setcall, pc, running, Call.stopper]
    next => cases taken
  | notifyall c =>
    obtain rfl : c = 0 := single
    simp only [step] at taken
    split at taken
    next pc =>
      cases taken
      refine ⟨(notified_moved pc rfl).stop alone, run_single ?_⟩
      simp [ThreadPool.step, view, setcall, pc, Call.stopper]
    next => cases taken
  | join c =>
    obtain rfl : c = 0 := single
    simp only [step] at taken
    split at taken
    next k pc =>
      split at taken
      next h =>
        split at taken
        next exited =>
          cases taken
          refine ⟨(joined_moved pc h).stop alone, run_single ?_⟩
          simp [ThreadPool.step, view, setcall, pc, Call.stopper, h, exited]
        next => cases taken
      next all =>
        cases taken
        refine ⟨(finished_moved pc (Nat.not_lt.mp all)).stop alone, run_single ?_⟩
        simp [ThreadPool.step, view, setcall, pc, Call.stopper, all]
    next => cases taken

-- The thread pool with one caller of Stop, whose test and store are one step there, is what this one
-- shows while nobody else calls Stop.
theorem single_call_seen {acts : List (Act α n)} (single : ∀ a ∈ acts, a.Single)
    (taken : run step initial acts = some s) :
    run ThreadPool.step ThreadPool.initial (acts.flatMap Act.seen) = some (view s) :=
  run_seen view Act.seen (fun _ _ _ alone single taken => step_seen alone single taken) rfl single taken

structure Led (s : State α n) (d : Nat) : Prop where
  others : ∀ c, c ≠ d → s.calls c = .idle ∨ s.calls c = .returned
  joined : ∀ w, s.joined w = (s.calls d).passed w
  early : ∀ c, c ≠ d → s.calls c = .returned → ∀ w, s.joined w = 1
  stop : s.pool.stop = (s.calls d).hasStored

def Twice (s : State α n) : Prop :=
  ∃ c d, c ≠ d ∧ s.calls c ≠ .idle ∧ s.calls d ≠ .idle ∧
    ∀ w, (s.calls c).passed w + (s.calls d).passed w ≤ s.joined w

theorem passed_returned (w : Fin n) : Call.returned.passed w = 1 := by
  simp [Call.passed, Call.progress]

theorem passed_all {pc : Call} (stored : pc.hasStored = true) (free : ¬ pc.Busy n) (w : Fin n) :
    pc.passed w = 1 := by
  have threads : 0 < n := w.pos
  cases pc with
  | idle => cases stored
  | storing => cases stored
  | stored => exact absurd threads free
  | joining k =>
    have inside : w.val < k := by
      have all : ¬ k < n := free
      omega
    simp [Call.passed, Call.progress, inside]
  | returned => exact passed_returned w

theorem busy_unpassed {pc : Call} (busy : pc.Busy n) : ∃ w : Fin n, pc.passed w = 0 := by
  cases pc with
  | idle => exact busy.elim
  | storing => exact ⟨⟨0, busy⟩, rfl⟩
  | stored => exact ⟨⟨0, busy⟩, rfl⟩
  | joining k => exact ⟨⟨k, busy⟩, by simp [Call.passed, Call.progress]⟩
  | returned => exact busy.elim

theorem Led.holds {d : Nat} (led : Led s d) : Joined s := by
  constructor
  · intro w
    rw [led.joined, Call.passed]
    split
    · exact Nat.le_refl 1
    · exact Nat.zero_le 1
  · intro c returned w
    by_cases same : c = d
    · subst same
      rw [led.joined, returned, passed_returned]
    · exact led.early c same returned w

theorem Led.busy {c d : Nat} (led : Led s d) (busy : (s.calls c).Busy n) : c = d := by
  by_contra other
  rcases led.others c other with pc | pc
  · rw [pc] at busy
    exact busy
  · rw [pc] at busy
    exact busy

theorem moved_led {c d : Nat} (led : Led s d) (moved : Moved s c t) : Led t d := by
  have same : c = d := by
    by_contra other
    rcases led.others c other with pc | pc
    · exact moved.past.1 pc
    · exact moved.past.2 pc
  subst same
  have joined (w : Fin n) : t.joined w = (t.calls c).passed w := by
    have counted := moved.counted w
    rw [led.joined] at counted
    omega
  constructor
  case joined => exact joined
  case stop => exact moved.stop led.stop
  case others =>
    intro e other
    rw [moved.others e other]
    exact led.others e other
  case early =>
    intro e other returned w
    rw [moved.others e other] at returned
    have before := led.early e other returned w
    have grows := moved.grows w
    have atMost : (t.calls c).passed w ≤ 1 := by
      rw [Call.passed]
      split <;> omega
    rw [joined w] at grows ⊢
    omega

theorem early_led {c d : Nat} (led : Led s d) (idle : s.calls c = .idle) (stopped : s.pool.stop = true)
    (alone : ∀ e, ¬ (s.calls e).Busy n) : Led (setcall s c .returned) d := by
  have stored : (s.calls d).hasStored = true := led.stop.symm.trans stopped
  have all (w : Fin n) : s.joined w = 1 := (led.joined w).trans (passed_all stored (alone d) w)
  have other : d ≠ c := by
    rintro rfl
    rw [idle] at stored
    cases stored
  constructor
  case others =>
    intro e apart
    by_cases same : e = c
    · simp [setcall, same]
    · simpa [setcall, same] using led.others e apart
  case joined => simpa [setcall, other] using led.joined
  case early => exact fun _ _ _ => all
  case stop => simpa [setcall, other] using led.stop

theorem began_led {c d : Nat} (threads : 0 < n) (led : Led s d) (running : s.pool.stop = false)
    (alone : ∀ e, ¬ (s.calls e).Busy n) : Led (setcall s c .storing) c := by
  have idle : s.calls d = .idle := by
    have unstored := led.stop.symm.trans running
    have free := alone d
    cases pc : s.calls d with
    | idle => rfl
    | storing =>
      rw [pc] at free
      exact absurd threads free
    | _ =>
      rw [pc] at unstored
      cases unstored
  constructor
  case others =>
    intro e other
    by_cases same : e = d
    · exact .inl (by simp [setcall, other, same ▸ idle])
    · simpa [setcall, other] using led.others e same
  case joined =>
    intro w
    simpa [setcall, idle, Call.passed, Call.progress] using led.joined w
  case early =>
    intro e other returned
    have before : s.calls e = .returned := by simpa [setcall, other] using returned
    refine led.early e ?_ before
    rintro rfl
    rw [idle] at before
    cases before
  case stop => simpa [setcall, Call.hasStored] using running

theorem step_led (threads : 0 < n) (led : ∃ d, Led s d) (alone : Alone s a) (change : Change s a t) :
    ∃ d, Led t d := by
  obtain ⟨d, led⟩ := led
  cases change with
  | none calls joined stop =>
    refine ⟨d, ?_, ?_, ?_, ?_⟩
    · simpa only [calls] using led.others
    · simpa only [calls, joined] using led.joined
    · simpa only [calls, joined] using led.early
    · simpa only [calls, stop] using led.stop
  | @tested c test idle calls =>
    subst test calls
    cases stop : s.pool.stop with
    | true => exact ⟨d, early_led led idle stop alone⟩
    | false => exact ⟨c, began_led threads led stop alone⟩
  | moved moved => exact ⟨d, moved_led led moved⟩

theorem step_broken (led : ∃ d, Led s d) (crowded : ¬ Alone s a) (step : Step s a t) (holds : Joined t) :
    Twice t := by
  obtain ⟨d, led⟩ := led
  cases step with
  | @early c idle stopped =>
    obtain ⟨e, busy⟩ := not_forall_not.mp crowded
    obtain rfl := led.busy busy
    obtain ⟨w, unpassed⟩ := busy_unpassed busy
    have joined : s.joined w = 1 := holds.2 c (by simp [setcall]) w
    rw [led.joined, unpassed] at joined
    cases joined
  | @began c idle running =>
    obtain ⟨e, busy⟩ := not_forall_not.mp crowded
    obtain rfl := led.busy busy
    have past : s.calls e ≠ .idle := by
      intro same
      rw [same] at busy
      exact busy
    have other : e ≠ c := fun same => past (same ▸ idle)
    refine ⟨c, e, other.symm, by simp [setcall], by simpa [setcall, other] using past, ?_⟩
    intro w
    have unpassed : Call.storing.passed w = 0 := rfl
    simp [setcall, other, led.joined, unpassed]
  | other kind stop =>
    cases a with
    | test c => exact absurd rfl (kind c)
    | _ => exact absurd trivial crowded
  | _ => exact absurd trivial crowded

theorem step_twice (twice : Twice s) (change : Change s a t) : Twice t := by
  obtain ⟨c, d, apart, first, second, passed⟩ := twice
  cases change with
  | none calls joined stop => exact ⟨c, d, apart, by simpa only [calls, joined] using ⟨first, second, passed⟩⟩
  | @tested e test idle calls =>
    subst calls
    have other {b : Nat} (past : s.calls b ≠ .idle) : b ≠ e := fun same => past (same ▸ idle)
    refine ⟨c, d, apart, ?_⟩
    simpa [setcall, other first, other second] using ⟨first, second, passed⟩
  | @moved e moved =>
    have past {b : Nat} (before : s.calls b ≠ .idle) : t.calls b ≠ .idle := by
      by_cases same : b = e
      · exact same ▸ moved.still
      · exact moved.others b same ▸ before
    refine ⟨c, d, apart, past first, past second, ?_⟩
    intro w
    have before := passed w
    have grows := moved.grows w
    have counted := moved.counted w
    by_cases same : c = e
    · subst same
      rw [moved.others d apart.symm]
      omega
    · rw [moved.others c same]
      by_cases same : d = e
      · subst same
        omega
      · rw [moved.others d same]
        omega

theorem Twice.ended (twice : Twice s) (threads : 0 < n) (ended : Ended s) : ¬ Joined s := by
  obtain ⟨c, d, apart, first, second, passed⟩ := twice
  intro holds
  have both := passed ⟨0, threads⟩
  rw [(ended c).resolve_left first, (ended d).resolve_left second, passed_returned] at both
  have once := holds.1 ⟨0, threads⟩
  omega

theorem initial_led (d : Nat) : Led (initial : State α n) d where
  others _ _ := .inl rfl
  joined _ := rfl
  early _ _ returned := by cases returned
  stop := rfl

theorem not_busy (pc : Call) : ¬ pc.Busy 0 := by
  cases pc <;> simp [Call.Busy]

theorem joined_once_iff {acts : List (Act α n)} {s : State α n} (taken : run step initial acts = some s) :
    (Guarded step Alone initial acts → Each step (fun _ _ t => Joined t) initial acts) ∧
      (Ended s → Each step (fun _ _ t => Joined t) initial acts → Guarded step Alone initial acts) := by
  rcases Nat.eq_zero_or_pos n with rfl | threads
  · constructor
    · intro guarded
      exact guarded_each (fun s a t (_ : True) _ _ => trivial)
        (fun s a t _ _ _ => ⟨fun w => w.elim0, fun _ _ w => w.elim0⟩) trivial guarded
    · intro _ _
      apply guarded_always
      intro a _ s
      cases a with
      | test c => exact fun c => not_busy _
      | _ => trivial
  · have start : ∃ d, Led (initial : State α n) d := ⟨0, initial_led 0⟩
    have preserved (s : State α n) (a : Act α n) (t : State α n) (led : ∃ d, Led s d) (alone : Alone s a)
        (next : step s a = some t) : ∃ d, Led t d :=
      step_led threads led alone (step_change (step_cases next))
    constructor
    · intro guarded
      refine guarded_each preserved ?_ start guarded
      intro s a t led alone next
      obtain ⟨d, after⟩ := preserved s a t led alone next
      exact after.holds
    · intro ended each
      have outcome := each_dichotomy preserved
        (fun s a t led crowded next (holds : Joined t) =>
          And.intro (step_broken led crowded (step_cases next) holds) holds)
        (fun s a t bad next holds => ⟨step_twice bad.1 (step_change (step_cases next)), holds⟩)
        start taken each
      rcases outcome with ⟨guarded, -⟩ | ⟨twice, holds⟩
      · exact guarded
      · exact absurd holds (twice.ended threads ended)

-- The handler's Stop joins the only worker, then the destructor's call finds stop_ set.
def stopThenDestroy : List (Act Nat 1) :=
  [.test 0, .store 0, .notifyall 0, .work ⟨0, Nat.zero_lt_one⟩, .join 0, .join 0, .test 1]

theorem joined_once_destroyed :
    (Guarded step Alone initial stopThenDestroy →
        Each step (fun _ _ t => Joined t) initial stopThenDestroy) ∧
      (Ended (final step initial stopThenDestroy) →
        Each step (fun _ _ t => Joined t) initial stopThenDestroy →
          Guarded step Alone initial stopThenDestroy) :=
  joined_once_iff (run_final (by decide))

theorem second_stop_call :
    (∃ s : State Nat 1, run step initial [.test 0, .store 0, .test 1] = some s ∧
      s.calls 1 = .returned ∧ s.joined 0 = 0) ∧
    ∃ s : State Nat 1, run step initial
        [.test 0, .test 1, .store 0, .store 1, .notifyall 0, .notifyall 1, .work 0, .join 0, .join 1] =
          some s ∧
      s.joined 0 = 2 :=
  ⟨⟨_, run_final (by decide), by decide, by decide⟩, ⟨_, run_final (by decide), by decide⟩⟩

end Reactor.StopCalls
