import Mathlib.Algebra.BigOperators.Group.Finset.Basic
import Mathlib.Algebra.Order.BigOperators.Group.Finset
import ReactorServer.Shared.Transition

set_option autoImplicit false

namespace Transition

variable {σ α : Type}

def Stuck (step : σ → α → Option σ) (guard : σ → α → Prop) (s : σ) : Prop :=
  ∀ a, guard s a → step s a = none

/-- However the steps are chosen, a run within the guard is over after `bound` steps, and it is only over
where the goal holds. -/
def Inevitable (step : σ → α → Option σ) (guard : σ → α → Prop) (s : σ) (goal : σ → Prop)
    (bound : Nat) : Prop :=
  ∀ as u, run step s as = some u → Guarded step guard s as →
    as.length ≤ bound ∧ (Stuck step guard u → goal u)

variable {step : σ → α → Option σ} {guard : σ → α → Prop} {inv : σ → Prop}

theorem guarded_bounded {measure : σ → Nat}
    (preserved : ∀ s a t, inv s → guard s a → step s a = some t → inv t)
    (decreases : ∀ s a t, inv s → guard s a → step s a = some t → measure t < measure s)
    {s u : σ} {as : List α} (start : inv s) (guarded : Guarded step guard s as)
    (taken : run step s as = some u) : as.length + measure u ≤ measure s := by
  induction as generalizing s with
  | nil =>
    cases taken
    simp
  | cons a as ih =>
    obtain ⟨t, first, rest⟩ := run_cons_some.mp taken
    have later := ih (preserved s a t start guarded.1 first) (guarded.2 t first) rest
    have less := decreases s a t start guarded.1 first
    rw [List.length_cons]
    omega

theorem inevitable {goal : σ → Prop} (measure : σ → Nat)
    (preserved : ∀ s a t, inv s → guard s a → step s a = some t → inv t)
    (decreases : ∀ s a t, inv s → guard s a → step s a = some t → measure t < measure s)
    (progress : ∀ s, inv s → Stuck step guard s → goal s) {s : σ} (start : inv s) :
    Inevitable step guard s goal (measure s) := by
  intro as u taken guarded
  have bounded := guarded_bounded preserved decreases start guarded taken
  have reached := guarded_invariant preserved start guarded taken
  exact ⟨by omega, progress u reached⟩

theorem endless (preserved : ∀ s a t, inv s → guard s a → step s a = some t → inv t)
    (enabled : ∀ s, inv s → ¬ Stuck step guard s) {s : σ} (start : inv s) (length : Nat) :
    ∃ as u, run step s as = some u ∧ Guarded step guard s as ∧ as.length = length := by
  induction length generalizing s with
  | zero => exact ⟨[], s, rfl, trivial, rfl⟩
  | succ length ih =>
    have some := enabled s start
    simp only [Stuck, not_forall] at some
    obtain ⟨a, allowed, moves⟩ := some
    obtain ⟨t, first⟩ := Option.ne_none_iff_exists'.mp moves
    obtain ⟨as, u, rest, guarded, size⟩ := ih (preserved s a t start allowed first)
    refine ⟨a :: as, u, run_cons_some.mpr ⟨t, first, rest⟩, ⟨allowed, fun t' first' => ?_⟩, by simp [size]⟩
    obtain rfl : t = t' := Option.some.inj (first.symm.trans first')
    exact guarded

theorem Inevitable.imp {s : σ} {goal goal' : σ → Prop} {bound : Nat}
    (inevitable : Inevitable step guard s goal bound) (weaker : ∀ u, goal u → goal' u) :
    Inevitable step guard s goal' bound := by
  intro as u taken guarded
  obtain ⟨bounded, reached⟩ := inevitable as u taken guarded
  exact ⟨bounded, fun stuck => weaker u (reached stuck)⟩

section Sums

variable {ι : Type} [DecidableEq ι] {indices : Finset ι} {weight weight' : ι → Nat} {i : ι}

theorem sum_changed (member : i ∈ indices) (others : ∀ j ∈ indices, j ≠ i → weight' j = weight j) :
    indices.sum weight' + weight i = indices.sum weight + weight' i := by
  have before : weight i + (indices.erase i).sum weight = indices.sum weight :=
    Finset.add_sum_erase indices weight member
  have after : weight' i + (indices.erase i).sum weight' = indices.sum weight' :=
    Finset.add_sum_erase indices weight' member
  have rest : (indices.erase i).sum weight' = (indices.erase i).sum weight :=
    Finset.sum_congr rfl fun j other =>
      others j (Finset.mem_of_mem_erase other) (Finset.ne_of_mem_erase other)
  omega

end Sums

end Transition
