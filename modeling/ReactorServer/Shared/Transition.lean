import Mathlib.Data.Option.Basic

set_option autoImplicit false

namespace Transition

variable {σ α : Type}

def run (step : σ → α → Option σ) : σ → List α → Option σ
  | s, [] => some s
  | s, a :: as => (step s a).bind fun t => run step t as

/-- Where a run ends; a run that stops short gives its start back. -/
def final (step : σ → α → Option σ) (s : σ) (as : List α) : σ := (run step s as).getD s

/-- The guard is asked of the state before each step, whether or not the step is enabled there. -/
def Guarded (step : σ → α → Option σ) (guard : σ → α → Prop) : σ → List α → Prop
  | _, [] => True
  | s, a :: as => guard s a ∧ ∀ t, step s a = some t → Guarded step guard t as

def Each (step : σ → α → Option σ) (post : σ → α → σ → Prop) : σ → List α → Prop
  | _, [] => True
  | s, a :: as => ∀ t, step s a = some t → post s a t ∧ Each step post t as

variable {step : σ → α → Option σ}

@[simp] theorem run_nil (s : σ) : run step s [] = some s := rfl

theorem run_cons_some {s u : σ} {a : α} {as : List α} :
    run step s (a :: as) = some u ↔ ∃ t, step s a = some t ∧ run step t as = some u := by
  simp [run, Option.bind_eq_some_iff]

theorem run_append (s : σ) (as bs : List α) :
    run step s (as ++ bs) = (run step s as).bind fun t => run step t bs := by
  induction as generalizing s with
  | nil => rfl
  | cons a as ih => cases h : step s a <;> simp [run, h, ih]

theorem run_append_some {s t u : σ} {as bs : List α} (front : run step s as = some t)
    (back : run step t bs = some u) : run step s (as ++ bs) = some u := by
  rw [run_append, front]
  exact back

theorem run_single {s t : σ} {a : α} (taken : step s a = some t) : run step s [a] = some t := by
  simp [run, taken]

def Reached (step : σ → α → Option σ) (s t : σ) : Prop := ∃ as, run step s as = some t

theorem Reached.start (s : σ) : Reached step s s := ⟨[], rfl⟩

theorem Reached.next {s t u : σ} {a : α} (reached : Reached step s t) (taken : step t a = some u) :
    Reached step s u := by
  obtain ⟨as, before⟩ := reached
  exact ⟨as ++ [a], run_append_some before (run_single taken)⟩

/-- Every step of the first system is some steps of the second one, or none, from related states to
related states. -/
def Simulates {σ' α' : Type} (step : σ → α → Option σ) (step' : σ' → α' → Option σ')
    (related : σ → σ' → Prop) : Prop :=
  ∀ s a t u, related s u → step s a = some t → ∃ v, Reached step' u v ∧ related t v

theorem Simulates.reached {σ' α' : Type} {step' : σ' → α' → Option σ'} {related : σ → σ' → Prop}
    (simulates : Simulates step step' related) {s t : σ} {u : σ'} {as : List α} (start : related s u)
    (taken : run step s as = some t) : ∃ v, Reached step' u v ∧ related t v := by
  induction as generalizing s u with
  | nil =>
    cases taken
    exact ⟨u, .start u, start⟩
  | cons a as ih =>
    obtain ⟨s', first, rest⟩ := run_cons_some.mp taken
    obtain ⟨u', ⟨front, before⟩, related⟩ := simulates s a s' u start first
    obtain ⟨v, ⟨back, after⟩, related⟩ := ih related rest
    exact ⟨v, ⟨front ++ back, run_append_some before after⟩, related⟩

theorem run_final {s : σ} {as : List α} (enabled : (run step s as).isSome) :
    run step s as = some (final step s as) := by
  obtain ⟨t, taken⟩ := Option.isSome_iff_exists.mp enabled
  simp [final, taken]

theorem run_invariant {inv : σ → Prop}
    (preserved : ∀ s a t, inv s → step s a = some t → inv t)
    {s u : σ} {as : List α} (start : inv s) (taken : run step s as = some u) : inv u := by
  induction as generalizing s with
  | nil =>
    cases taken
    exact start
  | cons a as ih =>
    obtain ⟨t, first, rest⟩ := run_cons_some.mp taken
    exact ih (preserved s a t start first) rest

theorem guarded_invariant {guard : σ → α → Prop} {inv : σ → Prop}
    (preserved : ∀ s a t, inv s → guard s a → step s a = some t → inv t)
    {s u : σ} {as : List α} (start : inv s) (guarded : Guarded step guard s as)
    (taken : run step s as = some u) : inv u := by
  induction as generalizing s with
  | nil =>
    cases taken
    exact start
  | cons a as ih =>
    obtain ⟨t, first, rest⟩ := run_cons_some.mp taken
    exact ih (preserved s a t start guarded.1 first) (guarded.2 t first) rest

theorem guarded_always {guard : σ → α → Prop} {as : List α} (always : ∀ a ∈ as, ∀ s, guard s a)
    (s : σ) : Guarded step guard s as := by
  induction as generalizing s with
  | nil => trivial
  | cons a as ih =>
    exact ⟨always a List.mem_cons_self s, fun t _ =>
      ih (fun b member => always b (List.mem_cons_of_mem a member)) t⟩

theorem guarded_iff_forall {guard : α → Prop} {s u : σ} {as : List α} (taken : run step s as = some u) :
    Guarded step (fun _ a => guard a) s as ↔ ∀ a ∈ as, guard a := by
  induction as generalizing s with
  | nil => simp [Guarded]
  | cons a as ih =>
    obtain ⟨t, first, rest⟩ := run_cons_some.mp taken
    simp [Guarded, first, ih rest]

def decideGuarded {guard : σ → α → Prop} [∀ s a, Decidable (guard s a)] :
    (s : σ) → (as : List α) → Decidable (Guarded step guard s as)
  | _, [] => .isTrue trivial
  | s, a :: as =>
    match h : step s a with
    | none => decidable_of_iff (guard s a) (by simp [Guarded, h])
    | some t =>
      have later : Decidable (Guarded step guard t as) := decideGuarded t as
      decidable_of_iff (guard s a ∧ Guarded step guard t as) (by simp [Guarded, h])

instance {guard : σ → α → Prop} [∀ s a, Decidable (guard s a)] (s : σ) (as : List α) :
    Decidable (Guarded step guard s as) := decideGuarded s as

theorem guarded_next {guard : σ → α → Prop} {s : σ} {a : α} {as : List α} (now : guard s a)
    (later : Guarded step guard (final step s [a]) as) : Guarded step guard s (a :: as) := by
  refine ⟨now, fun t taken => ?_⟩
  simpa [final, run_single taken] using later

theorem guarded_append {guard : σ → α → Prop} {s t : σ} {as bs : List α}
    (front : Guarded step guard s as) (taken : run step s as = some t)
    (back : Guarded step guard t bs) : Guarded step guard s (as ++ bs) := by
  induction as generalizing s with
  | nil =>
    cases taken
    exact back
  | cons a as ih =>
    obtain ⟨u, first, rest⟩ := run_cons_some.mp taken
    refine ⟨front.1, fun u' first' => ?_⟩
    cases first.symm.trans first'
    exact ih (front.2 u first) rest

theorem guarded_each {guard : σ → α → Prop} {inv : σ → Prop} {post : σ → α → σ → Prop}
    (preserved : ∀ s a t, inv s → guard s a → step s a = some t → inv t)
    (holds : ∀ s a t, inv s → guard s a → step s a = some t → post s a t)
    {s : σ} {as : List α} (start : inv s) (guarded : Guarded step guard s as) :
    Each step post s as := by
  induction as generalizing s with
  | nil => trivial
  | cons a as ih =>
    intro t first
    exact ⟨holds s a t start guarded.1 first,
      ih (preserved s a t start guarded.1 first) (guarded.2 t first)⟩

theorem each_last {post : σ → α → σ → Prop} {s t u : σ} {as : List α} {a : α}
    (each : Each step post s (as ++ [a])) (front : run step s as = some t) (last : step t a = some u) :
    post t a u := by
  induction as generalizing s with
  | nil =>
    cases front
    exact (each u last).1
  | cons b as ih =>
    obtain ⟨v, first, rest⟩ := run_cons_some.mp front
    exact ih (each v first).2 rest

theorem each_final {post : σ → α → σ → Prop} {s : σ} (as : List α) (a : α)
    (each : Each step post s (as ++ [a])) (enabled : (run step s (as ++ [a])).isSome) :
    post (final step s as) a (final step s (as ++ [a])) := by
  have taken := run_final enabled
  rw [run_append] at taken
  obtain ⟨t, front, last⟩ := Option.bind_eq_some_iff.mp taken
  obtain ⟨u, last, same⟩ := run_cons_some.mp last
  cases same
  have before : final step s as = t := by simp [final, front]
  rw [before]
  exact each_last each front last

theorem each_guarded {guard : σ → α → Prop} {inv : σ → Prop} {post : σ → α → σ → Prop}
    (preserved : ∀ s a t, inv s → guard s a → step s a = some t → inv t)
    (needed : ∀ s a t, inv s → step s a = some t → post s a t → guard s a)
    {s u : σ} {as : List α} (start : inv s) (taken : run step s as = some u)
    (each : Each step post s as) : Guarded step guard s as := by
  induction as generalizing s with
  | nil => trivial
  | cons a as ih =>
    obtain ⟨t, first, rest⟩ := run_cons_some.mp taken
    obtain ⟨now, later⟩ := each t first
    have guarded := needed s a t start first now
    refine ⟨guarded, fun t' first' => ?_⟩
    cases first.symm.trans first'
    exact ih (preserved s a t start guarded first) rest later

/-- Once a step has broken the guard, what it broke stays broken. -/
theorem guarded_dichotomy {ambient guard : σ → α → Prop} {good bad : σ → Prop}
    (preserved : ∀ s a t, good s → ambient s a → guard s a → step s a = some t → good t)
    (broken : ∀ s a t, good s → ambient s a → ¬ guard s a → step s a = some t → bad t)
    (stays : ∀ s a t, bad s → ambient s a → step s a = some t → bad t)
    {s u : σ} {as : List α} (start : good s) (within : Guarded step ambient s as)
    (taken : run step s as = some u) :
    Guarded step guard s as ∧ good u ∨ ¬ Guarded step guard s as ∧ bad u := by
  induction as generalizing s with
  | nil =>
    cases taken
    exact .inl ⟨trivial, start⟩
  | cons a as ih =>
    obtain ⟨t, first, rest⟩ := run_cons_some.mp taken
    have only : Guarded step guard s (a :: as) ↔ guard s a ∧ Guarded step guard t as := by
      simp [Guarded, first]
    by_cases now : guard s a
    · rcases ih (preserved s a t start within.1 now first) (within.2 t first) rest with
        ⟨later, held⟩ | ⟨later, lost⟩
      · exact .inl ⟨only.mpr ⟨now, later⟩, held⟩
      · exact .inr ⟨fun all => later (only.mp all).2, lost⟩
    · exact .inr ⟨fun all => now (only.mp all).1,
        guarded_invariant stays (broken s a t start within.1 now first) (within.2 t first) rest⟩

theorem run_seen {σ' α' : Type} {step' : σ' → α' → Option σ'} {inv : σ → Prop} {only : α → Prop}
    (view : σ → σ') (seen : α → List α')
    (simulated : ∀ s a t, inv s → only a → step s a = some t →
      inv t ∧ run step' (view s) (seen a) = some (view t))
    {s u : σ} {as : List α} (start : inv s) (within : ∀ a ∈ as, only a) (taken : run step s as = some u) :
    run step' (view s) (as.flatMap seen) = some (view u) := by
  induction as generalizing s with
  | nil =>
    cases taken
    rfl
  | cons a as ih =>
    obtain ⟨t, first, rest⟩ := run_cons_some.mp taken
    obtain ⟨kept, here⟩ := simulated s a t start (within a List.mem_cons_self) first
    have later := ih kept (fun b member => within b (List.mem_cons_of_mem a member)) rest
    exact run_append_some here later

theorem each_invariant {post inv : σ → Prop}
    (preserved : ∀ s a t, inv s → step s a = some t → post t → inv t)
    {s u : σ} {as : List α} (start : inv s) (taken : run step s as = some u)
    (each : Each step (fun _ _ t => post t) s as) : inv u := by
  induction as generalizing s with
  | nil =>
    cases taken
    exact start
  | cons a as ih =>
    obtain ⟨t, first, rest⟩ := run_cons_some.mp taken
    obtain ⟨held, later⟩ := each t first
    exact ih (preserved s a t start first held) rest later

/-- The step that breaks the guard breaks the postcondition, or leaves something for a later step to break. -/
theorem each_dichotomy {guard : σ → α → Prop} {post good bad : σ → Prop}
    (preserved : ∀ s a t, good s → guard s a → step s a = some t → good t)
    (broken : ∀ s a t, good s → ¬ guard s a → step s a = some t → post t → bad t)
    (stays : ∀ s a t, bad s → step s a = some t → post t → bad t)
    {s u : σ} {as : List α} (start : good s) (taken : run step s as = some u)
    (each : Each step (fun _ _ t => post t) s as) : Guarded step guard s as ∧ good u ∨ bad u := by
  induction as generalizing s with
  | nil =>
    cases taken
    exact .inl ⟨trivial, start⟩
  | cons a as ih =>
    obtain ⟨t, first, rest⟩ := run_cons_some.mp taken
    obtain ⟨held, later⟩ := each t first
    by_cases now : guard s a
    · have guarded (tail : Guarded step guard t as) : Guarded step guard s (a :: as) := by
        simpa [Guarded, first] using ⟨now, tail⟩
      exact (ih (preserved s a t start now first) rest later).imp_left fun both => ⟨guarded both.1, both.2⟩
    · exact .inr (each_invariant stays (broken s a t start now first held) rest later)

theorem run_dichotomy {guard : σ → α → Prop} {good bad : σ → Prop}
    (preserved : ∀ s a t, good s → guard s a → step s a = some t → good t)
    (broken : ∀ s a t, good s → ¬ guard s a → step s a = some t → bad t)
    (stays : ∀ s a t, bad s → step s a = some t → bad t)
    {s u : σ} {as : List α} (start : good s) (taken : run step s as = some u) :
    Guarded step guard s as ∧ good u ∨ ¬ Guarded step guard s as ∧ bad u := by
  have always : Guarded step (fun _ _ => True) s as := guarded_always (fun _ _ _ => trivial) s
  apply guarded_dichotomy _ _ _ start always taken
  · intro s a t held _ now first
    exact preserved s a t held now first
  · intro s a t held _ never first
    exact broken s a t held never first
  · intro s a t lost _ first
    exact stays s a t lost first

end Transition
