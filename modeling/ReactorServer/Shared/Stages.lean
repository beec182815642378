import Mathlib.Data.List.Perm.Basic

set_option autoImplicit false

/-- Items on their way through a queue, a crew of workers and a second queue, each stage in the order in
which its items entered it. -/
structure Stages (α : Type) where
  entered : List α
  waiting : List α
  held : List α
  queued : List α
  left : List α

namespace Stages

variable {α : Type}

def empty : Stages α := ⟨[], [], [], [], []⟩

/-- `fifo` says whether an item may only pass from the crew to the second queue before later ones. -/
inductive Move (fifo : Prop) : Stages α → Stages α → Prop where
  | stay (s : Stages α) : Move fifo s s
  | enter (a : α) (e w h q l : List α) : Move fifo ⟨e, w, h, q, l⟩ ⟨e ++ [a], w ++ [a], h, q, l⟩
  | take (a : α) (e w h q l : List α) : Move fifo ⟨e, a :: w, h, q, l⟩ ⟨e, w, h ++ [a], q, l⟩
  | pass (a : α) (e w before after q l : List α) (order : fifo → before = []) :
      Move fifo ⟨e, w, before ++ a :: after, q, l⟩ ⟨e, w, before ++ after, q ++ [a], l⟩
  | leave (a : α) (e w h q l : List α) : Move fifo ⟨e, w, h, a :: q, l⟩ ⟨e, w, h, q, l ++ [a]⟩

def Conserved (s : Stages α) : Prop := s.entered.Perm (s.left ++ s.queued ++ s.held ++ s.waiting)

def Ordered (s : Stages α) : Prop := s.entered = s.left ++ s.queued ++ s.held ++ s.waiting

variable {fifo : Prop} {s t : Stages α}

theorem conserved_move (conserved : Conserved s) (move : Move fifo s t) : Conserved t := by
  cases move with
  | stay => exact conserved
  | enter a e w h q l =>
    have grown := conserved.append_right [a]
    simpa [Conserved] using grown
  | take a e w h q l => simpa [Conserved] using conserved
  | pass a e w before after q l order =>
    refine conserved.trans ?_
    have moved : (before ++ a :: after).Perm ([a] ++ (before ++ after)) := List.perm_middle
    simpa using ((moved.append_left (l ++ q)).append_right w)
  | leave a e w h q l => simpa [Conserved] using conserved

theorem ordered_move (always : fifo) (ordered : Ordered s) (move : Move fifo s t) : Ordered t := by
  cases move with
  | stay => exact ordered
  | enter a e w h q l =>
    have same : e = l ++ q ++ h ++ w := ordered
    simp [Ordered, same]
  | take a e w h q l => simpa [Ordered] using ordered
  | pass a e w before after q l order =>
    obtain rfl := order always
    simpa [Ordered] using ordered
  | leave a e w h q l => simpa [Ordered] using ordered

theorem ordered_move_alone (alone : s.held.length ≤ 1) (ordered : Ordered s) (move : Move fifo s t) :
    Ordered t := by
  cases move with
  | stay => exact ordered
  | enter a e w h q l =>
    exact ordered_move trivial ordered (.enter a e w h q l)
  | take a e w h q l => exact ordered_move trivial ordered (.take a e w h q l)
  | pass a e w before after q l order =>
    have first : before = [] := by
      rw [List.length_append, List.length_cons] at alone
      exact List.eq_nil_of_length_eq_zero (by omega)
    exact ordered_move trivial ordered (.pass a e w before after q l fun _ => first)
  | leave a e w h q l => exact ordered_move trivial ordered (.leave a e w h q l)

theorem left_grows (move : Move fifo s t) : s.left <+: t.left := by
  cases move with
  | leave a e w h q l => exact List.prefix_append l [a]
  | _ => exact List.prefix_rfl

theorem ordered_left (ordered : Ordered s) : s.left <+: s.entered := by
  rw [ordered, List.append_assoc, List.append_assoc]
  exact List.prefix_append _ _

end Stages
