import Mathlib.Data.List.Sort
import Mathlib.Order.Defs.LinearOrder

set_option autoImplicit false

/-- Entries in strictly increasing key order: a key is a position, and `next` moves an iterator. -/
structure OrderedMap (κ ν : Type) [LinearOrder κ] where
  entries : List (κ × ν)
  sorted : entries.Pairwise fun a b => a.1 < b.1

namespace OrderedMap

variable {κ ν : Type} [LinearOrder κ]

instance : Membership (κ × ν) (OrderedMap κ ν) := ⟨fun m e => e ∈ m.entries⟩

instance [DecidableEq ν] (e : κ × ν) (m : OrderedMap κ ν) : Decidable (e ∈ m) :=
  inferInstanceAs (Decidable (e ∈ m.entries))

def empty : OrderedMap κ ν := ⟨[], .nil⟩

def find? (m : OrderedMap κ ν) (k : κ) : Option ν :=
  (m.entries.find? fun e => e.1 = k).map Prod.snd

def erase (m : OrderedMap κ ν) (k : κ) : OrderedMap κ ν :=
  ⟨m.entries.filter fun e => e.1 ≠ k, m.sorted.filter _⟩

theorem insert_sorted (m : OrderedMap κ ν) (k : κ) (v : ν) :
    ((m.entries.filter fun e => e.1 < k) ++ (k, v) :: m.entries.filter fun e => k < e.1).Pairwise
      fun a b => a.1 < b.1 := by
  refine List.pairwise_append.mpr ⟨m.sorted.filter _, ?_, ?_⟩
  · refine List.pairwise_cons.mpr ⟨fun e member => ?_, m.sorted.filter _⟩
    simpa using (List.mem_filter.mp member).2
  · intro a left b right
    have before : a.1 < k := by simpa using (List.mem_filter.mp left).2
    rcases List.mem_cons.mp right with rfl | right
    · exact before
    · have after : k < b.1 := by simpa using (List.mem_filter.mp right).2
      exact before.trans after

def insert (m : OrderedMap κ ν) (k : κ) (v : ν) : OrderedMap κ ν :=
  ⟨(m.entries.filter fun e => e.1 < k) ++ (k, v) :: m.entries.filter fun e => k < e.1,
    insert_sorted m k v⟩

def first (m : OrderedMap κ ν) : Option κ := m.entries.head?.map Prod.fst

def next (m : OrderedMap κ ν) (k : κ) : Option κ :=
  (m.entries.find? fun e => k < e.1).map Prod.fst

@[simp] theorem not_mem_empty (e : κ × ν) : e ∉ (empty : OrderedMap κ ν) :=
  List.not_mem_nil

@[simp] theorem mem_erase {m : OrderedMap κ ν} {k : κ} {e : κ × ν} :
    e ∈ m.erase k ↔ e ∈ m ∧ e.1 ≠ k := by
  change e ∈ m.entries.filter _ ↔ e ∈ m.entries ∧ _
  simp [List.mem_filter]

@[simp] theorem mem_insert {m : OrderedMap κ ν} {k : κ} {v : ν} {e : κ × ν} :
    e ∈ m.insert k v ↔ e = (k, v) ∨ e ∈ m ∧ e.1 ≠ k := by
  change e ∈ _ ++ _ :: _ ↔ e = (k, v) ∨ e ∈ m.entries ∧ _
  simp only [List.mem_append, List.mem_cons, List.mem_filter, decide_eq_true_eq, ne_iff_lt_or_gt]
  tauto

theorem mem_insert_other {m : OrderedMap κ ν} {k j : κ} {v w : ν} (different : w ≠ v)
    (apart : (j, w) ∈ m → j ≠ k) : (j, w) ∈ m.insert k v ↔ (j, w) ∈ m := by
  rw [mem_insert]
  constructor
  · rintro (own | ⟨stored, -⟩)
    · exact absurd (congrArg Prod.snd own) different
    · exact stored
  · exact fun stored => .inr ⟨stored, apart stored⟩

theorem mem_unique {m : OrderedMap κ ν} {k : κ} {v w : ν} (left : (k, v) ∈ m)
    (right : (k, w) ∈ m) : v = w := by
  have distinct : m.entries.Pairwise fun a b => a.1 ≠ b.1 := m.sorted.imp fun less => less.ne
  have same := List.inj_on_of_nodup_map (f := Prod.fst) (List.pairwise_map.mpr distinct) left right rfl
  exact congrArg Prod.snd same

theorem find?_eq_some {m : OrderedMap κ ν} {k : κ} {v : ν} : m.find? k = some v ↔ (k, v) ∈ m := by
  constructor
  · intro found
    obtain ⟨⟨j, w⟩, h, rfl⟩ := Option.map_eq_some_iff.mp found
    have key : j = k := by simpa using List.find?_some h
    exact key ▸ List.mem_of_find?_eq_some h
  · intro member
    cases h : m.entries.find? fun e => e.1 = k with
    | none =>
      have absent := List.find?_eq_none.mp h _ member
      simp at absent
    | some e =>
      have key : e.1 = k := by simpa using List.find?_some h
      have stored : (k, e.2) ∈ m := key ▸ List.mem_of_find?_eq_some h
      simp [find?, h, mem_unique stored member]

theorem next_mem {m : OrderedMap κ ν} {k j : κ} (h : m.next k = some j) :
    k < j ∧ ∃ v, (j, v) ∈ m := by
  obtain ⟨⟨j', v⟩, found, rfl⟩ := Option.map_eq_some_iff.mp h
  exact ⟨by simpa using List.find?_some found, v, List.mem_of_find?_eq_some found⟩

theorem first_mem {m : OrderedMap κ ν} {k : κ} (h : m.first = some k) : ∃ v, (k, v) ∈ m := by
  obtain ⟨⟨k', v⟩, found, rfl⟩ := Option.map_eq_some_iff.mp h
  exact ⟨v, List.mem_of_head? found⟩

end OrderedMap
