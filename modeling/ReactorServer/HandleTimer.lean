import ReactorServer.Connection
import ReactorServer.Shared.OrderedMap

set_option autoImplicit false

namespace Reactor.EventLoop

-- `conns_.erase(aa)` gave the end iterator, and `aa->first` reads it.
inductive TimerFault where
  | endIterator
  deriving DecidableEq, Repr

-- The iterator aa is where the entries given are still ahead; the last list is the calls of
-- timercallback_ so far.
def scan (now timeout : Int) :
    List (Int × Connection) → OrderedMap Int Connection → List Int →
      Except TimerFault (OrderedMap Int Connection × List Int)
  | [], conns, calls => .ok (conns, calls)
  | (fd, conn) :: rest, conns, calls =>
    if conn.timeout now timeout then
      match rest with
      | [] => .error .endIterator
      -- After the erase aa is the next entry: the callback gets its fd and aa++ passes it.
      | (next, _) :: rest => scan now timeout rest (conns.erase fd) (calls ++ [next])
    else scan now timeout rest conns calls

def handletimer (mainloop : Bool) (now timeout : Int) (conns : OrderedMap Int Connection) :
    Except TimerFault (OrderedMap Int Connection × List Int) :=
  if mainloop then .ok (conns, []) else scan now timeout conns.entries conns []

def Sweeps (now timeout : Int) (conns conns' : OrderedMap Int Connection) (calls : List Int) : Prop :=
  (∀ e, e ∈ conns' ↔ e ∈ conns ∧ e.2.timeout now timeout = false) ∧
  calls.Perm ((conns.entries.filter fun e => e.2.timeout now timeout).map Prod.fst)

variable {now timeout : Int}

theorem scan_next {conn : Connection} (fresh : conn.timeout now timeout = false) (fd : Int)
    (rest : List (Int × Connection)) (conns : OrderedMap Int Connection) (calls : List Int) :
    scan now timeout ((fd, conn) :: rest) conns calls = scan now timeout rest conns calls := by
  cases rest <;> simp [scan, fresh]

theorem scan_fresh {ahead : List (Int × Connection)} (fresh : ∀ e ∈ ahead, e.2.timeout now timeout = false)
    (conns : OrderedMap Int Connection) (calls : List Int) :
    scan now timeout ahead conns calls = .ok (conns, calls) := by
  induction ahead with
  | nil => rfl
  | cons e ahead ih =>
    obtain ⟨fd, conn⟩ := e
    have here : conn.timeout now timeout = false := fresh _ List.mem_cons_self
    rw [scan_next here]
    exact ih fun e member => fresh e (List.mem_cons_of_mem _ member)

theorem scan_keeps {ahead : List (Int × Connection)} {conns conns' : OrderedMap Int Connection}
    {calls calls' : List Int} (done : scan now timeout ahead conns calls = .ok (conns', calls')) :
    calls ⊆ calls' ∧ ∀ e ∈ conns, (∀ e' ∈ ahead, e.1 ≠ e'.1) → e ∈ conns' := by
  induction ahead, conns, calls using scan.induct now timeout with
  | case1 conns calls =>
    cases done
    exact ⟨List.Subset.refl _, fun e member _ => member⟩
  | case2 fd conn conns calls late =>
    simp [scan, late] at done
  | case3 fd conn conns calls late next conn' rest ih =>
    simp only [scan, late, if_true] at done
    obtain ⟨made, kept⟩ := ih done
    refine ⟨fun k member => made (List.mem_append_left _ member), fun e member past => ?_⟩
    have other : e.1 ≠ fd := past (fd, conn) List.mem_cons_self
    apply kept e (OrderedMap.mem_erase.mpr ⟨member, other⟩)
    intro e' ahead
    exact past e' (List.mem_cons_of_mem _ (List.mem_cons_of_mem _ ahead))
  | case4 fd conn rest conns calls fresh ih =>
    rw [scan_next (Bool.not_eq_true _ ▸ fresh)] at done
    obtain ⟨made, kept⟩ := ih done
    refine ⟨made, fun e member past => kept e member fun e' ahead => ?_⟩
    exact past e' (List.mem_cons_of_mem _ ahead)

theorem scan_idle {ahead : List (Int × Connection)} {conns conns' : OrderedMap Int Connection}
    {calls calls' : List Int} (sorted : ahead.Pairwise fun a b => a.1 < b.1)
    (stored : ∀ e ∈ ahead, e ∈ conns) (idle : ∃ e ∈ ahead, e.2.timeout now timeout = true)
    (done : scan now timeout ahead conns calls = .ok (conns', calls')) :
    ∃ e ∈ conns', e ∈ conns ∧ e.1 ∈ calls' := by
  induction ahead with
  | nil =>
    obtain ⟨e, member, -⟩ := idle
    cases member
  | cons e ahead ih =>
    obtain ⟨fd, conn⟩ := e
    have later := List.pairwise_cons.mp sorted
    cases late : conn.timeout now timeout with
    | true =>
      cases ahead with
      | nil => simp [scan, late] at done
      | cons e rest =>
        obtain ⟨next, conn'⟩ := e
        simp only [scan, late, if_true] at done
        obtain ⟨made, kept⟩ := scan_keeps done
        have present : (next, conn') ∈ conns := stored _ (List.mem_cons_of_mem _ List.mem_cons_self)
        have apart : fd < next := later.1 _ List.mem_cons_self
        refine ⟨(next, conn'), kept _ (OrderedMap.mem_erase.mpr ⟨present, apart.ne'⟩) ?_, present,
          made (List.mem_append_right _ List.mem_cons_self)⟩
        intro e ahead
        exact ((List.pairwise_cons.mp later.2).1 e ahead).ne
    | false =>
      rw [scan_next late] at done
      apply ih later.2 (fun e member => stored e (List.mem_cons_of_mem _ member)) _ done
      obtain ⟨e, member, idle⟩ := idle
      rcases List.mem_cons.mp member with rfl | member
      · simp [late] at idle
      · exact ⟨e, member, idle⟩

theorem handletimer_sweeps_iff (now timeout : Int) (conns : OrderedMap Int Connection) :
    (∃ conns' calls, handletimer false now timeout conns = .ok (conns', calls) ∧
      Sweeps now timeout conns conns' calls) ↔ ∀ e ∈ conns, e.2.timeout now timeout = false := by
  constructor
  · intro sweeps
    obtain ⟨conns', calls, done, kept, called⟩ := sweeps
    intro e stored
    by_contra late
    have idle : ∃ e ∈ conns.entries, e.2.timeout now timeout = true := ⟨e, stored, by simpa using late⟩
    obtain ⟨⟨k, conn⟩, left, present, member⟩ := scan_idle conns.sorted (fun e member => member) idle done
    obtain ⟨⟨k', removed⟩, idle, same⟩ := List.mem_map.mp (called.subset member)
    obtain ⟨present', timedout⟩ := List.mem_filter.mp idle
    dsimp only at same
    subst same
    have fresh := ((kept _).mp left).2
    rw [OrderedMap.mem_unique present present'] at fresh
    simp [timedout] at fresh
  · intro fresh
    refine ⟨conns, [], scan_fresh fresh conns [], fun e => ?_, ?_⟩
    · constructor
      · exact fun stored => ⟨stored, fresh e stored⟩
      · exact fun stored => stored.1
    · have none : (conns.entries.filter fun e => e.2.timeout now timeout) = [] := by
        apply List.filter_eq_nil_iff.mpr
        intro e stored
        simpa using fresh e stored
      rw [none]
      exact List.Perm.refl _

def lastUsed (fd lasttime : Int) : Connection := ⟨.make fd, .make 1, .make 1, false, lasttime⟩

def oneConnection : OrderedMap Int Connection := OrderedMap.empty.insert 5 (lastUsed 5 0)

def twoConnections : OrderedMap Int Connection := oneConnection.insert 7 (lastUsed 7 100)

-- The idle connection 5 is erased and timercallback_ is given 7; with 5 alone aa is the end iterator.
theorem wrong_connection_reported :
    twoConnections.entries.map (fun e => (e.1, e.2.timeout 100 10)) = [(5, true), (7, false)] ∧
      (handletimer false 100 10 twoConnections).map (fun r => (r.1.entries.map Prod.fst, r.2)) =
        .ok ([7], [7]) ∧
      (handletimer false 100 10 oneConnection).map (fun r => r.2) = .error .endIterator := by
  decide

end Reactor.EventLoop
