import Mathlib.Algebra.BigOperators.Group.Finset.Basic
import Mathlib.Algebra.BigOperators.Group.Finset.Piecewise
import Mathlib.Algebra.Order.BigOperators.Group.Finset
import Mathlib.Data.Fintype.Basic

set_option autoImplicit false

namespace Tally

variable {ι β : Type} [Fintype ι]

def tally (weight : β → Nat) (place : ι → β) : Nat := Finset.univ.sum fun i => weight (place i)

theorem tally_congr {weight weight' : β → Nat} {place place' : ι → β}
    (same : ∀ i, weight (place i) = weight' (place' i)) : tally weight place = tally weight' place' :=
  Finset.sum_congr rfl fun i _ => same i

theorem tally_add (weight weight' : β → Nat) (place : ι → β) :
    tally (fun b => weight b + weight' b) place = tally weight place + tally weight' place :=
  Finset.sum_add_distrib

theorem tally_zero {weight : β → Nat} {place : ι → β} :
    tally weight place = 0 ↔ ∀ i, weight (place i) = 0 := by
  simp [tally, Finset.sum_eq_zero_iff]

theorem tally_single {weight : β → Nat} {place : ι → β} {i : ι}
    (others : ∀ j, j ≠ i → weight (place j) = 0) : tally weight place = weight (place i) :=
  Finset.sum_eq_single i (fun j _ other => others j other) fun absent =>
    absurd (Finset.mem_univ i) absent

variable [DecidableEq ι]

theorem tally_update (weight : β → Nat) (place : ι → β) (i : ι) (b : β) :
    tally weight (Function.update place i b) + weight (place i) = tally weight place + weight b := by
  have moved : (fun j => weight (Function.update place i b j)) =
      Function.update (fun j => weight (place j)) i (weight b) := by
    funext j
    by_cases same : j = i
    · subst same
      simp
    · simp [same]
  have before := Finset.add_sum_erase Finset.univ (fun j => weight (place j)) (Finset.mem_univ i)
  unfold tally
  rw [moved, Finset.sum_update_of_mem (Finset.mem_univ i), Finset.sdiff_singleton_eq_erase]
  omega

theorem tally_lowered {weight weight' : β → Nat} {place : ι → β} {d : Nat} (i : ι)
    (lower : ∀ j, weight' (place j) ≤ weight (place j)) (here : weight' (place i) + d ≤ weight (place i)) :
    tally weight' place + d ≤ tally weight place := by
  have before := Finset.add_sum_erase Finset.univ (fun j => weight (place j)) (Finset.mem_univ i)
  have after := Finset.add_sum_erase Finset.univ (fun j => weight' (place j)) (Finset.mem_univ i)
  have rest : (Finset.univ.erase i).sum (fun j => weight' (place j)) ≤
      (Finset.univ.erase i).sum fun j => weight (place j) := Finset.sum_le_sum fun j _ => lower j
  unfold tally
  omega

end Tally
