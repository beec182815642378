import Mathlib.Logic.Function.Basic

set_option autoImplicit false

/-- Blocks by address. Addresses are not given out twice, so a block is the same as its address. -/
structure Heap (β : Type) where
  live : Nat → Option β
  next : Nat
  frees : Nat → Nat

namespace Heap

variable {β : Type} {h : Heap β} {a : Nat} {b b' : β}

def empty : Heap β := ⟨fun _ => none, 0, fun _ => 0⟩

def alloc (h : Heap β) (b : β) : Heap β :=
  { h with live := Function.update h.live h.next (some b), next := h.next + 1 }

def free (h : Heap β) (a : Nat) : Heap β :=
  { h with live := Function.update h.live a none, frees := Function.update h.frees a (h.frees a + 1) }

structure Sound (h : Heap β) : Prop where
  beyond : ∀ a, h.next ≤ a → h.live a = none ∧ h.frees a = 0
  once : ∀ a, a < h.next → (∃ b, h.live a = some b) ∧ h.frees a = 0 ∨ h.live a = none ∧ h.frees a = 1

theorem empty_sound : Sound (empty : Heap β) where
  beyond _ _ := ⟨rfl, rfl⟩
  once _ inside := absurd inside (Nat.not_lt_zero _)

theorem Sound.inside (sound : h.Sound) (live : h.live a = some b) : a < h.next := by
  by_contra outside
  rw [(sound.beyond a (Nat.not_lt.mp outside)).1] at live
  cases live

@[simp] theorem alloc_self : (h.alloc b).live h.next = some b := by
  simp [alloc]

theorem alloc_other (other : a ≠ h.next) : (h.alloc b).live a = h.live a := by
  simp [alloc, other]

theorem alloc_live (sound : h.Sound) (live : h.live a = some b') : (h.alloc b).live a = some b' :=
  (alloc_other (Nat.ne_of_lt (sound.inside live))).trans live

theorem free_other {a' : Nat} (other : a ≠ a') : (h.free a').live a = h.live a := by
  simp [free, other]

theorem free_live {a' : Nat} (live : h.live a = some b) (freed : h.live a' = some b') (different : b ≠ b') :
    (h.free a').live a = some b := by
  have other : a ≠ a' := fun same => different (Option.some.inj (live.symm.trans (same ▸ freed)))
  rw [free_other other, live]

theorem Sound.alloc (sound : h.Sound) (b : β) : (h.alloc b).Sound where
  beyond a outside := by
    have other : a ≠ h.next := by
      simp only [Heap.alloc] at outside
      omega
    rw [alloc_other other]
    exact sound.beyond a (Nat.le_of_succ_le outside)
  once a inside := by
    by_cases new : a = h.next
    · subst new
      exact .inl ⟨⟨b, alloc_self⟩, (sound.beyond _ (Nat.le_refl _)).2⟩
    · have before : a < h.next := by
        simp only [Heap.alloc] at inside
        omega
      rw [alloc_other new]
      exact sound.once a before

theorem Sound.unfreed (sound : h.Sound) (live : h.live a = some b) : h.frees a = 0 := by
  rcases sound.once a (sound.inside live) with ⟨-, unfreed⟩ | ⟨dead, -⟩
  · exact unfreed
  · rw [dead] at live
    cases live

theorem free_count (sound : h.Sound) (live : h.live a = some b) : (h.free a).frees a = 1 := by
  simp [free, sound.unfreed live]

theorem Sound.different (sound : h.Sound) {a' : Nat} (freed : h.frees a' = 1) (live : h.live a = some b) :
    a' ≠ a := by
  rintro rfl
  rw [sound.unfreed live] at freed
  cases freed

theorem free_frees_other {a' : Nat} (other : a' ≠ a) : (h.free a).frees a' = h.frees a' := by
  simp [free, other]

theorem free_frees_freed (sound : h.Sound) {a' : Nat} (live : h.live a = some b) (freed : h.frees a' = 1) :
    (h.free a).frees a' = 1 := by
  rw [free_frees_other (sound.different freed live), freed]

theorem Sound.free (sound : h.Sound) (live : h.live a = some b) : (h.free a).Sound where
  beyond a' outside := by
    have other : a' ≠ a := fun same => by
      have inside := sound.inside live
      simp only [Heap.free] at outside
      omega
    simpa [Heap.free, other] using sound.beyond a' outside
  once a' inside := by
    by_cases same : a' = a
    · subst same
      exact .inr ⟨by simp [Heap.free], free_count sound live⟩
    · simpa [Heap.free, same] using sound.once a' inside

end Heap
