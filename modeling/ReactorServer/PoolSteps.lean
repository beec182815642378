import ReactorServer.ThreadPool

set_option autoImplicit false

namespace Reactor.ThreadPool

variable {α : Type} {n : Nat} {s t : ThreadPool α n}

inductive Works (s : ThreadPool α n) (w : Fin n) : ThreadPool α n → Prop where
  | entered (pc : s.threads w = .testing) (running : s.stop = false) : Works s w (s.setpc w .locking)
  | left (pc : s.threads w = .testing) (stopped : s.stop = true) : Works s w (s.setpc w .exited)
  | acquired {notified : Bool}
      (pc : s.threads w = .locking ∧ notified = false ∨ s.threads w = .woken ∧ notified = true)
      (free : s.mutex = none) :
      Works s w { s.setpc w (.evaluating notified) with mutex := some w }
  | passed {notified : Bool} (pc : s.threads w = .evaluating notified)
      (found : s.stop = true ∨ s.taskqueue ≠ []) : Works s w (s.setpc w (.checking notified))
  | failed {notified : Bool} (pc : s.threads w = .evaluating notified) (running : s.stop = false)
      (empty : s.taskqueue = []) : Works s w (s.setpc w .blocking)
  | blocked (pc : s.threads w = .blocking) : Works s w { s.setpc w .waiting with mutex := none }
  | drained {notified : Bool} (pc : s.threads w = .checking notified) (stopped : s.stop = true)
      (empty : s.taskqueue = []) : Works s w { s.setpc w .exited with mutex := none }
  | kept {notified : Bool} (pc : s.threads w = .checking notified)
      (left : s.stop = false ∨ s.taskqueue ≠ []) : Works s w (s.setpc w (.dequeuing notified))
  | underflowed {notified : Bool} (pc : s.threads w = .dequeuing notified) (empty : s.taskqueue = []) :
      Works s w { s with underflow := true }
  | dequeued {notified : Bool} {task : α} {rest : List α} (pc : s.threads w = .dequeuing notified)
      (front : s.taskqueue = task :: rest) :
      Works s w
        { s.setpc w (.running task) with
          mutex := none, taskqueue := rest, dequeued := s.dequeued ++ [(w, task)] }
  | executed {task : α} (pc : s.threads w = .running task) :
      Works s w { s.setpc w .testing with executed := s.executed ++ [(w, task)] }

inductive Step (s : ThreadPool α n) : Act α n → ThreadPool α n → Prop where
  | worked {w : Fin n} {t : ThreadPool α n} (works : Works s w t) : Step s (.work w) t
  | woken {w : Fin n} (pc : s.threads w = .waiting) : Step s (.spurious w) (s.setpc w .woken)
  | pushed {task : α} (free : s.mutex = none) :
      Step s (.push task)
        { s with
          taskqueue := s.taskqueue ++ [task], pushed := s.pushed ++ [task], adding := s.adding + 1 }
  | notified {w : Fin n} (due : 0 < s.adding) (pc : s.threads w = .waiting) :
      Step s (.notifyone (some w)) { s.setpc w .woken with adding := s.adding - 1 }
  | wasted (due : 0 < s.adding) (nobody : ∀ w, s.threads w ≠ .waiting) :
      Step s (.notifyone none) { s with adding := s.adding - 1 }
  | stored (stopper : s.stopper = .idle ∨ s.stopper = .returned) (running : s.stop = false) :
      Step s .stop { s with stop := true, stopper := .stored }
  | again (stopper : s.stopper = .idle ∨ s.stopper = .returned) (stopped : s.stop = true) :
      Step s .stop { s with stopper := .returned }
  | notifiedall (stopper : s.stopper = .stored) :
      Step s .notifyall { s with threads := wakeall s.threads, stopper := .joining 0 }
  | joined {k : Nat} (stopper : s.stopper = .joining k) (h : k < n)
      (pc : s.threads ⟨k, h⟩ = .exited) : Step s .join { s with stopper := .joining (k + 1) }
  | finished {k : Nat} (stopper : s.stopper = .joining k) (all : n ≤ k) :
      Step s .join { s with stopper := .returned }

theorem isWaiting_iff {pc : WorkerPc α} : pc.isWaiting = true ↔ pc = .waiting := by
  cases pc <;> simp [WorkerPc.isWaiting]

theorem isExited_iff {pc : WorkerPc α} : pc.isExited = true ↔ pc = .exited := by
  cases pc <;> simp [WorkerPc.isExited]

theorem acquire_cases {w : Fin n} {notified : Bool} (taken : s.acquire w notified = some t) :
    s.mutex = none ∧ t = { s.setpc w (.evaluating notified) with mutex := some w } := by
  unfold acquire at taken
  split at taken
  · next free =>
    cases taken
    exact ⟨free, rfl⟩
  · cases taken

theorem work_cases {w : Fin n} (taken : s.work w = some t) : Works s w t := by
  unfold work at taken
  split at taken
  next pc =>
    cases taken
    cases running : s.stop with
    | false => exact .entered pc running
    | true => exact .left pc running
  next pc =>
    obtain ⟨free, rfl⟩ := acquire_cases taken
    exact .acquired (.inl ⟨pc, rfl⟩) free
  next notified pc =>
    cases taken
    split
    next found => exact .passed pc (by simpa using found)
    next found =>
      obtain ⟨running, empty⟩ := not_or.mp found
      exact .failed pc (by simpa using running) (by simpa using empty)
  next pc =>
    cases taken
    exact .blocked pc
  next => cases taken
  next pc =>
    obtain ⟨free, rfl⟩ := acquire_cases taken
    exact .acquired (.inr ⟨pc, rfl⟩) free
  next notified pc =>
    split at taken
    next found =>
      cases taken
      exact .drained pc found.1 (by simpa using found.2)
    next found =>
      cases taken
      exact .kept pc (by simpa [or_iff_not_imp_left] using found)
  next notified pc =>
    split at taken
    next empty =>
      cases taken
      exact .underflowed pc empty
    next task rest front =>
      cases taken
      exact .dequeued pc front
  next task pc =>
    cases taken
    exact .executed pc
  next => cases taken

theorem step_cases {a : Act α n} (taken : step s a = some t) : Step s a t := by
  cases a with
  | work w => exact .worked (work_cases taken)
  | spurious w =>
    obtain ⟨pc, rfl⟩ : (s.threads w).isWaiting ∧ s.setpc w .woken = t := by simpa [step] using taken
    exact .woken (isWaiting_iff.mp pc)
  | push task =>
    obtain ⟨free, next⟩ := Option.ite_none_right_eq_some.mp taken
    cases next
    exact .pushed free
  | notifyone w =>
    cases w with
    | some w =>
      obtain ⟨found, next⟩ := Option.ite_none_right_eq_some.mp taken
      cases next
      exact .notified found.1 (isWaiting_iff.mp found.2)
    | none =>
      obtain ⟨found, next⟩ := Option.ite_none_right_eq_some.mp taken
      cases next
      exact .wasted found.1 fun w pc => by simpa [pc, WorkerPc.isWaiting] using found.2 w
  | stop =>
    simp only [step] at taken
    split at taken
    next stopper =>
      split at taken
      next stopped =>
        cases taken
        exact .again stopper stopped
      next running =>
        cases taken
        exact .stored stopper (by simpa using running)
    next => cases taken
  | notifyall =>
    obtain ⟨stopper, next⟩ := Option.ite_none_right_eq_some.mp taken
    cases next
    exact .notifiedall stopper
  | join =>
    simp only [step] at taken
    split at taken
    next k stopper =>
      split at taken
      next h =>
        split at taken
        next pc =>
          cases taken
          exact .joined stopper h (isExited_iff.mp pc)
        next => cases taken
      next all =>
        cases taken
        exact .finished stopper (by omega)
    next => cases taken

end Reactor.ThreadPool
