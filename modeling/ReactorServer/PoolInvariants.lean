import ReactorServer.PoolSteps

set_option autoImplicit false

namespace Reactor

variable {α : Type} {n : Nat}

def WorkerPc.critical : WorkerPc α → Bool
  | .evaluating _ => true
  | .blocking => true
  | .checking _ => true
  | .dequeuing _ => true
  | _ => false

-- What the worker has read under mutex_ is still so: only stop_ changes without it.
def WorkerPc.Found (stop : Bool) (taskqueue : List α) : WorkerPc α → Prop
  | .blocking => taskqueue = []
  | .checking _ => stop = true ∨ taskqueue ≠ []
  | .dequeuing _ => taskqueue ≠ []
  | _ => True

def WorkerPc.held : WorkerPc α → List α
  | .running task => [task]
  | _ => []

def StopPc.joined (n : Nat) : StopPc → Nat
  | .idle => 0
  | .stored => 0
  | .joining k => k
  | .returned => n

namespace ThreadPool

variable {s t : ThreadPool α n} {a : Act α n}

def tasksof (w : Fin n) (log : List (Fin n × α)) : List α :=
  (log.filter fun entry => entry.1 = w).map Prod.snd

@[simp] theorem tasksof_nil (w : Fin n) : tasksof w ([] : List (Fin n × α)) = [] := rfl

@[simp] theorem tasksof_self (w : Fin n) (log : List (Fin n × α)) (task : α) :
    tasksof w (log ++ [(w, task)]) = tasksof w log ++ [task] := by
  simp [tasksof]

@[simp] theorem tasksof_other {v w : Fin n} (other : v ≠ w) (log : List (Fin n × α)) (task : α) :
    tasksof v (log ++ [(w, task)]) = tasksof v log := by
  simp [tasksof, Ne.symm other]

theorem count_tasksof [DecidableEq α] (log : List (Fin n × α)) (w : Fin n) (task : α) :
    log.count (w, task) = (tasksof w log).count task := by
  induction log with
  | nil => rfl
  | cons entry log ih =>
    obtain ⟨v, other⟩ := entry
    by_cases here : v = w <;> simp_all [tasksof, List.count_cons]

theorem perm_of_tasksof {log log' : List (Fin n × α)} (same : ∀ w, tasksof w log = tasksof w log') :
    log.Perm log' := by
  classical
  apply List.perm_iff_count.mpr
  intro entry
  obtain ⟨w, task⟩ := entry
  rw [count_tasksof, count_tasksof, same]

theorem found_free {pc : WorkerPc α} (free : pc.critical = false) (stop : Bool) (taskqueue : List α) :
    pc.Found stop taskqueue := by
  cases pc <;> simp_all [WorkerPc.critical, WorkerPc.Found]

theorem wakeall_waiting {w : Fin n} (pc : s.threads w = .waiting) : wakeall s.threads w = .woken := by
  simp [wakeall, pc, WorkerPc.isWaiting]

theorem wakeall_other {w : Fin n} (pc : s.threads w ≠ .waiting) :
    wakeall s.threads w = s.threads w := by
  simp [wakeall, isWaiting_iff, pc]

theorem wakeall_critical (w : Fin n) :
    (wakeall s.threads w).critical = (s.threads w).critical := by
  by_cases pc : s.threads w = .waiting
  · simp [wakeall_waiting pc, pc, WorkerPc.critical]
  · rw [wakeall_other pc]

def Owner (s : ThreadPool α n) : Prop := ∀ w, s.mutex = some w ↔ (s.threads w).critical = true

theorem Owner.alone (owner : Owner s) {v w : Fin n} (first : (s.threads v).critical = true)
    (second : (s.threads w).critical = true) : v = w :=
  Option.some.inj (((owner v).mpr first).symm.trans ((owner w).mpr second))

theorem Owner.free (owner : Owner s) (free : s.mutex = none) (w : Fin n) :
    (s.threads w).critical = false := by
  cases critical : (s.threads w).critical with
  | false => rfl
  | true => simp [(owner w).mpr critical] at free

theorem Owner.update (owner : Owner s) {w : Fin n} {pc : WorkerPc α} {mutex : Option (Fin n)}
    (moved : (s.threads w).critical = true ∧ (mutex = s.mutex ∧ pc.critical = true ∨
        mutex = none ∧ pc.critical = false) ∨
      (s.threads w).critical = false ∧ (mutex = s.mutex ∧ pc.critical = false ∨
        s.mutex = none ∧ mutex = some w ∧ pc.critical = true)) (v : Fin n) :
    mutex = some v ↔ (Function.update s.threads w pc v).critical = true := by
  have now := owner w
  have here := owner v
  by_cases same : v = w
  · subst same
    simp only [Function.update_self]
    rcases moved with ⟨inside, ⟨rfl, still⟩ | ⟨rfl, left⟩⟩ | ⟨outside, ⟨rfl, still⟩ | ⟨free, rfl, entered⟩⟩ <;>
      simp_all
  · have different : w ≠ v := fun h => same h.symm
    simp only [Function.update_of_ne same]
    rcases moved with ⟨inside, ⟨rfl, still⟩ | ⟨rfl, left⟩⟩ | ⟨outside, ⟨rfl, still⟩ | ⟨free, rfl, entered⟩⟩
    · exact here
    · have other := here
      rw [now.mpr inside] at other
      simpa [different] using other
    · exact here
    · rw [free] at here
      simpa [different] using here

theorem Owner.works (owner : Owner s) {w : Fin n} (works : Works s w t) : Owner t := by
  cases works with
  | entered pc running => exact owner.update (.inr ⟨by simp [pc, WorkerPc.critical], .inl ⟨rfl, rfl⟩⟩)
  | left pc stopped => exact owner.update (.inr ⟨by simp [pc, WorkerPc.critical], .inl ⟨rfl, rfl⟩⟩)
  | acquired pc free => exact owner.update (.inr ⟨owner.free free w, .inr ⟨free, rfl, rfl⟩⟩)
  | passed pc found => exact owner.update (.inl ⟨by simp [pc, WorkerPc.critical], .inl ⟨rfl, rfl⟩⟩)
  | failed pc running empty =>
    exact owner.update (.inl ⟨by simp [pc, WorkerPc.critical], .inl ⟨rfl, rfl⟩⟩)
  | blocked pc => exact owner.update (.inl ⟨by simp [pc, WorkerPc.critical], .inr ⟨rfl, rfl⟩⟩)
  | drained pc stopped empty =>
    exact owner.update (.inl ⟨by simp [pc, WorkerPc.critical], .inr ⟨rfl, rfl⟩⟩)
  | kept pc left => exact owner.update (.inl ⟨by simp [pc, WorkerPc.critical], .inl ⟨rfl, rfl⟩⟩)
  | underflowed pc empty => exact owner
  | dequeued pc front => exact owner.update (.inl ⟨by simp [pc, WorkerPc.critical], .inr ⟨rfl, rfl⟩⟩)
  | executed pc => exact owner.update (.inr ⟨by simp [pc, WorkerPc.critical], .inl ⟨rfl, rfl⟩⟩)

theorem Owner.step (owner : Owner s) (step : Step s a t) : Owner t := by
  cases step with
  | worked works => exact owner.works works
  | woken pc => exact owner.update (.inr ⟨by simp [pc, WorkerPc.critical], .inl ⟨rfl, rfl⟩⟩)
  | notified due pc => exact owner.update (.inr ⟨by simp [pc, WorkerPc.critical], .inl ⟨rfl, rfl⟩⟩)
  | notifiedall stopper =>
    intro w
    rw [wakeall_critical]
    exact owner w
  | pushed free => exact owner
  | wasted due nobody => exact owner
  | stored stopper running => exact owner
  | again stopper stopped => exact owner
  | joined stopper h pc => exact owner
  | finished stopper all => exact owner

structure Inv (s : ThreadPool α n) : Prop where
  owner : Owner s
  found : ∀ w, (s.threads w).Found s.stop s.taskqueue
  idle : s.stop = false ↔ s.stopper = .idle
  joined : ∀ w : Fin n, w.val < s.stopper.joined n → s.threads w = .exited
  fifo : s.pushed = s.dequeued.map Prod.snd ++ s.taskqueue
  held : ∀ w, tasksof w s.dequeued = tasksof w s.executed ++ (s.threads w).held
  underflow : s.underflow = false

theorem initial_inv : Inv (initial : ThreadPool α n) where
  owner := by simp [Owner, initial, WorkerPc.critical]
  found := by simp [initial, WorkerPc.Found]
  idle := by simp [initial]
  joined := by simp [initial, StopPc.joined]
  fifo := rfl
  held := fun _ => rfl
  underflow := rfl

theorem Owner.others (owner : Owner s) {v w : Fin n} (inside : (s.threads w).critical = true)
    (other : v ≠ w) : (s.threads v).critical = false := by
  cases critical : (s.threads v).critical with
  | false => rfl
  | true => exact absurd (owner.alone critical inside) other

theorem works_found (inv : Inv s) {w : Fin n} (works : Works s w t) (v : Fin n) :
    (t.threads v).Found t.stop t.taskqueue := by
  have others : ∀ v, v ≠ w → (s.threads v).Found s.stop s.taskqueue := fun v _ => inv.found v
  have here := inv.found w
  revert v
  cases works with
  | entered pc running => exact (Function.forall_update_iff _ _).mpr ⟨trivial, others⟩
  | left pc stopped => exact (Function.forall_update_iff _ _).mpr ⟨trivial, others⟩
  | acquired pc free => exact (Function.forall_update_iff _ _).mpr ⟨trivial, others⟩
  | passed pc found => exact (Function.forall_update_iff _ _).mpr ⟨found, others⟩
  | failed pc running empty => exact (Function.forall_update_iff _ _).mpr ⟨empty, others⟩
  | blocked pc => exact (Function.forall_update_iff _ _).mpr ⟨trivial, others⟩
  | drained pc stopped empty => exact (Function.forall_update_iff _ _).mpr ⟨trivial, others⟩
  | kept pc left =>
    rw [pc] at here
    have nonempty : s.taskqueue ≠ [] := by
      rcases here with stopped | nonempty
      · simpa [stopped] using left
      · exact nonempty
    exact (Function.forall_update_iff _ _).mpr ⟨nonempty, others⟩
  | underflowed pc empty => exact inv.found
  | dequeued pc front =>
    refine (Function.forall_update_iff _ _).mpr ⟨trivial, fun v other => ?_⟩
    exact found_free (inv.owner.others (by simp [pc, WorkerPc.critical]) other) _ _
  | executed pc => exact (Function.forall_update_iff _ _).mpr ⟨trivial, others⟩

theorem step_found (inv : Inv s) (step : Step s a t) (v : Fin n) :
    (t.threads v).Found t.stop t.taskqueue := by
  have all := inv.found
  revert v
  cases step with
  | worked works => exact works_found inv works
  | woken pc => exact (Function.forall_update_iff _ _).mpr ⟨trivial, fun v _ => all v⟩
  | notified due pc => exact (Function.forall_update_iff _ _).mpr ⟨trivial, fun v _ => all v⟩
  | pushed free => exact fun v => found_free (inv.owner.free free v) _ _
  | notifiedall stopper =>
    intro v
    by_cases pc : s.threads v = .waiting
    · simp [wakeall_waiting pc, WorkerPc.Found]
    · simpa [wakeall_other pc] using all v
  | stored stopper running =>
    intro v
    have found := all v
    cases pc : s.threads v <;> simp_all [WorkerPc.Found]
  | wasted due nobody => exact all
  | again stopper stopped => exact all
  | joined stopper h pc => exact all
  | finished stopper all' => exact all

theorem exited_stays (step : Step s a t) {v : Fin n} (exited : s.threads v = .exited) :
    t.threads v = .exited := by
  have elsewhere {w : Fin n} {pc : WorkerPc α} (other : s.threads w ≠ .exited) :
      Function.update s.threads w pc v = .exited := by
    have different : v ≠ w := by
      intro same
      exact other (same ▸ exited)
    simpa [different] using exited
  cases step with
  | worked works =>
    cases works with
    | acquired pc free => exact elsewhere (by rcases pc with ⟨pc, -⟩ | ⟨pc, -⟩ <;> simp [pc])
    | underflowed pc empty => exact exited
    | _ => exact elsewhere (by simp_all)
  | woken pc => exact elsewhere (by simp [pc])
  | notified due pc => exact elsewhere (by simp [pc])
  | notifiedall stopper => exact (wakeall_other (by simp [exited])).trans exited
  | pushed free => exact exited
  | wasted due nobody => exact exited
  | stored stopper running => exact exited
  | again stopper stopped => exact exited
  | joined stopper h pc => exact exited
  | finished stopper all => exact exited

theorem works_stop {w : Fin n} (works : Works s w t) : t.stop = s.stop ∧ t.stopper = s.stopper := by
  cases works <;> exact ⟨rfl, rfl⟩

theorem step_idle (inv : Inv s) (step : Step s a t) : t.stop = false ↔ t.stopper = .idle := by
  have idle := inv.idle
  cases step with
  | worked works =>
    obtain ⟨stop, stopper⟩ := works_stop works
    rw [stop, stopper]
    exact idle
  | again stopper stopped => simpa using stopped
  | notifiedall stopper => simp_all
  | joined stopper h pc => simp_all
  | finished stopper all => simp_all
  | stored stopper running => simp
  | _ => exact idle

theorem step_joined (inv : Inv s) (step : Step s a t) (v : Fin n) (before : v.val < t.stopper.joined n) :
    t.threads v = .exited := by
  have kept (before : v.val < s.stopper.joined n) : t.threads v = .exited :=
    exited_stays step (inv.joined v before)
  cases step with
  | worked works => exact kept ((works_stop works).2 ▸ before)
  | woken pc => exact kept before
  | notified due pc => exact kept before
  | pushed free => exact kept before
  | wasted due nobody => exact kept before
  | stored stopper running => exact absurd before (Nat.not_lt_zero _)
  | again stopper stopped =>
    rcases stopper with stopper | stopper
    · simp [inv.idle.mpr stopper] at stopped
    · exact kept (by simpa [stopper] using before)
  | notifiedall stopper => exact absurd before (Nat.not_lt_zero _)
  | @joined k stopper h pc =>
    by_cases last : v.val = k
    · subst last
      exact pc
    · exact kept (by simp only [stopper, StopPc.joined] at before ⊢; omega)
  | finished stopper all => exact kept (by simp only [stopper, StopPc.joined]; omega)

theorem step_fifo (inv : Inv s) (step : Step s a t) :
    t.pushed = t.dequeued.map Prod.snd ++ t.taskqueue := by
  have fifo := inv.fifo
  cases step with
  | worked works =>
    cases works with
    | dequeued pc front => simpa [front] using fifo
    | _ => exact fifo
  | pushed free => simp [fifo]
  | _ => exact fifo

theorem held_update {dequeued executed : List (Fin n × α)} {threads : Fin n → WorkerPc α}
    (holds : ∀ v, tasksof v dequeued = tasksof v executed ++ (threads v).held) {w : Fin n}
    {pc : WorkerPc α} (same : pc.held = (threads w).held) (v : Fin n) :
    tasksof v dequeued = tasksof v executed ++ (Function.update threads w pc v).held := by
  by_cases here : v = w
  · subst here
    simpa [same] using holds v
  · simpa [here] using holds v

theorem works_held (inv : Inv s) {w : Fin n} (works : Works s w t) (v : Fin n) :
    tasksof v t.dequeued = tasksof v t.executed ++ (t.threads v).held := by
  have before := inv.held v
  cases works with
  | entered pc running => exact held_update inv.held (by simp [pc, WorkerPc.held]) v
  | left pc stopped => exact held_update inv.held (by simp [pc, WorkerPc.held]) v
  | acquired pc free =>
    refine held_update inv.held ?_ v
    rcases pc with ⟨pc, -⟩ | ⟨pc, -⟩ <;> simp [pc, WorkerPc.held]
  | passed pc found => exact held_update inv.held (by simp [pc, WorkerPc.held]) v
  | failed pc running empty => exact held_update inv.held (by simp [pc, WorkerPc.held]) v
  | blocked pc => exact held_update inv.held (by simp [pc, WorkerPc.held]) v
  | drained pc stopped empty => exact held_update inv.held (by simp [pc, WorkerPc.held]) v
  | kept pc left => exact held_update inv.held (by simp [pc, WorkerPc.held]) v
  | underflowed pc empty => exact before
  | dequeued pc front =>
    by_cases here : v = w
    · subst here
      simpa [pc, WorkerPc.held] using before
    · simpa [here] using before
  | executed pc =>
    by_cases here : v = w
    · subst here
      simpa [pc, WorkerPc.held] using before
    · simpa [here] using before

theorem step_held (inv : Inv s) (step : Step s a t) (v : Fin n) :
    tasksof v t.dequeued = tasksof v t.executed ++ (t.threads v).held := by
  cases step with
  | worked works => exact works_held inv works v
  | woken pc => exact held_update inv.held (by simp [pc, WorkerPc.held]) v
  | notified due pc => exact held_update inv.held (by simp [pc, WorkerPc.held]) v
  | notifiedall stopper =>
    have before := inv.held v
    by_cases pc : s.threads v = .waiting
    · simpa [wakeall_waiting pc, pc, WorkerPc.held] using before
    · simpa [wakeall_other pc] using before
  | pushed free => exact inv.held v
  | wasted due nobody => exact inv.held v
  | stored stopper running => exact inv.held v
  | again stopper stopped => exact inv.held v
  | joined stopper h pc => exact inv.held v
  | finished stopper all => exact inv.held v

theorem step_underflow (inv : Inv s) (step : Step s a t) : t.underflow = false := by
  have before := inv.underflow
  cases step with
  | @worked w _ works =>
    cases works with
    | underflowed pc empty =>
      have nonempty := inv.found w
      rw [pc] at nonempty
      exact absurd empty nonempty
    | _ => exact before
  | _ => exact before

theorem step_inv (inv : Inv s) (taken : step s a = some t) : Inv t where
  owner := inv.owner.step (step_cases taken)
  found := step_found inv (step_cases taken)
  idle := step_idle inv (step_cases taken)
  joined := step_joined inv (step_cases taken)
  fifo := step_fifo inv (step_cases taken)
  held := step_held inv (step_cases taken)
  underflow := step_underflow inv (step_cases taken)

theorem run_inv {acts : List (Act α n)} (taken : Transition.run step initial acts = some s) : Inv s :=
  Transition.run_invariant (fun _ _ _ inv taken => step_inv inv taken) initial_inv taken

end ThreadPool

end Reactor
