import Mathlib.Data.List.Nodup

namespace ZephyrBluetooth.Data

open List Function Option

/-! Singly linked lists with a head and a tail.  The links of all nodes are one
function, so that several lists live in one memory. -/

universe u

structure Slist (Node : Type u) where
  head : Option Node
  tail : Option Node

abbrev Links (Node : Type u) := Node → Option Node

variable {Node : Type u} {start : Option Node} {node : Node}

/-- Following the links from `start` visits the nodes and arrives at `stop`. -/
def Segment (links : Links Node) : Option Node → List Node → Option Node → Prop
  | start, [], stop => start = stop
  | start, node :: rest, stop =>
    start = some node ∧ Segment links (links node) rest stop

structure Slist.Represents (links : Links Node) (list : Slist Node)
    (nodes : List Node) : Prop where
  chain : Segment links list.head nodes none
  last : list.tail = nodes.getLast?
  nodup : nodes.Nodup

/-- The nodes from a start on, nothing when the end is not found within the
given number of them. -/
def walk (links : Links Node) : Nat → Option Node → Option (List Node)
  | _, none => some []
  | 0, some _ => none
  | fuel + 1, some node => (walk links fuel (links node)).map (node :: ·)

namespace Segment

variable {links other : Links Node}

theorem append {stop : Option Node} {front back : List Node} :
    Segment links start (front ++ back) stop ↔
      ∃ middle, Segment links start front middle ∧
        Segment links middle back stop := by
  induction front generalizing start with
  | nil =>
    constructor
    · exact fun whole => ⟨start, rfl, whole⟩
    · rintro ⟨middle, rfl, whole⟩
      exact whole
  | cons node rest ih =>
    simp only [cons_append, Segment, ih]
    constructor
    · rintro ⟨first, middle, before, after⟩
      exact ⟨middle, ⟨first, before⟩, after⟩
    · rintro ⟨middle, ⟨first, before⟩, after⟩
      exact ⟨first, middle, before, after⟩

theorem congr {stop : Option Node} {nodes : List Node}
    (same : ∀ node ∈ nodes, other node = links node)
    (segment : Segment links start nodes stop) :
    Segment other start nodes stop := by
  induction nodes generalizing start with
  | nil => exact segment
  | cons node rest ih =>
    refine ⟨segment.1, ?_⟩
    rw [same node mem_cons_self]
    apply ih _ segment.2
    intro later member
    exact same later (mem_cons_of_mem _ member)

theorem walk {nodes : List Node} (segment : Segment links start nodes none)
    {fuel : Nat} (enough : nodes.length ≤ fuel) :
    walk links fuel start = some nodes := by
  induction nodes generalizing start fuel with
  | nil =>
    cases segment
    cases fuel <;> rfl
  | cons node rest ih =>
    obtain ⟨rfl, later⟩ := segment
    cases fuel with
    | zero => simp at enough
    | succ =>
      simp only [length_cons, Nat.add_le_add_iff_right] at enough
      simp only [Data.walk, ih later enough, map_some]

end Segment

namespace Slist

variable [DecidableEq Node]

def prepend (links : Links Node) (list : Slist Node) (node : Node) :
    Links Node × Slist Node :=
  (update links node list.head,
    { head := some node
      tail := if list.tail = none then some node else list.tail })

def remove (links : Links Node) (list : Slist Node) (prev : Option Node)
    (node : Node) : Links Node × Slist Node :=
  match prev with
  | none =>
    (update links node none,
      { head := links node
        tail := if list.tail = some node then links node else list.tail })
  | some prev =>
    (update (update links prev (links node)) node none,
      { list with
        tail := if list.tail = some node then some prev else list.tail })

theorem prepend_links {links : Links Node} {list : Slist Node} {other : Node}
    (differs : other ≠ node) : (prepend links list node).1 other = links other :=
  update_of_ne differs _ _

theorem remove_links {links : Links Node} {list : Slist Node} {prev : Option Node}
    {other : Node} (differs : other ≠ node) (apart : prev ≠ some other) :
    (remove links list prev node).1 other = links other := by
  cases prev with
  | none => exact update_of_ne differs _ _
  | some prev =>
    have behind : other ≠ prev := fun same => apart (by rw [same])
    simp only [remove]
    rw [update_of_ne differs, update_of_ne behind]

namespace Represents

variable {links other : Links Node} {list : Slist Node} {nodes : List Node}

omit [DecidableEq Node] in
theorem frame (represents : Represents links list nodes)
    (same : ∀ node ∈ nodes, other node = links node) :
    Represents other list nodes :=
  ⟨represents.chain.congr same, represents.last, represents.nodup⟩

omit [DecidableEq Node] in
theorem head_eq (represents : Represents links list nodes) :
    list.head = nodes.head? := by
  have chain := represents.chain
  cases nodes with
  | nil => exact chain
  | cons => exact chain.1

theorem prepend (represents : Represents links list nodes) (fresh : node ∉ nodes) :
    Represents (list.prepend links node).1 (list.prepend links node).2
      (node :: nodes) where
  chain := by
    refine ⟨rfl, ?_⟩
    simp only [Slist.prepend]
    rw [update_self]
    apply represents.chain.congr
    intro other member
    exact update_of_ne (ne_of_mem_of_not_mem member fresh) _ _
  last := by
    simp only [Slist.prepend, represents.last]
    cases nodes with
    | nil => rfl
    | cons => simp [getLast?_cons_cons]
  nodup := nodup_cons.mpr ⟨fresh, represents.nodup⟩

theorem remove {front back : List Node}
    (represents : Represents links list (front ++ node :: back)) :
    Represents (list.remove links front.getLast? node).1
      (list.remove links front.getLast? node).2 (front ++ back) := by
  obtain ⟨chain, last, nodup⟩ := represents
  obtain ⟨_, before, first, after⟩ := Segment.append.mp chain
  subst first
  rw [nodup_append, nodup_cons] at nodup
  obtain ⟨frontNodup, ⟨absent, backNodup⟩, apart⟩ := nodup
  have ends : list.tail = (node :: back).getLast? := by
    rw [last, getLast?_append, getLast?_cons]
    rfl
  have kept : ∀ other ∈ back, update links node none other =
      links other := fun other member =>
    update_of_ne (ne_of_mem_of_not_mem member absent) _ _
  have joined : (front ++ back).Nodup := by
    rw [nodup_append]
    exact ⟨frontNodup, backNodup, fun left inFront right inBack =>
      apart left inFront right (mem_cons_of_mem _ inBack)⟩
  rcases eq_nil_or_concat' front with rfl | ⟨rest, prev, rfl⟩
  · refine ⟨after.congr kept, ?_, joined⟩
    simp only [getLast?_nil, Slist.remove, ends, nil_append]
    cases back with
    | nil =>
      have stop : links node = none := after
      simp [stop]
    | cons second later =>
      have more : (node :: second :: later).getLast? ≠ some node := by
        rw [getLast?_cons_cons]
        intro same
        exact absent (mem_of_getLast? same)
      rw [if_neg more, getLast?_cons_cons]
  · have fresh : prev ∉ rest := by
      rw [nodup_append] at frontNodup
      intro member
      exact frontNodup.2.2 prev member prev (by simp) rfl
    have behind : prev ≠ node := apart prev (by simp) node mem_cons_self
    simp only [getLast?_append, getLast?_singleton, some_or, Slist.remove]
    refine ⟨?_, ?_, joined⟩
    · obtain ⟨_, toPrev, here, stop⟩ := Segment.append.mp before
      subst here
      rw [Segment.append]
      refine ⟨links node, ?_, ?_⟩
      · rw [Segment.append]
        refine ⟨some prev, ?_, rfl, ?_⟩
        · apply toPrev.congr
          intro other member
          have left : other ≠ node :=
            apart other (by simp [member]) node mem_cons_self
          rw [update_of_ne left, update_of_ne (ne_of_mem_of_not_mem member fresh)]
        · show _ = _
          rw [update_of_ne behind, update_self]
      · apply after.congr
        intro other member
        have left : other ≠ prev := fun same =>
          apart prev (by simp) other (mem_cons_of_mem _ member) same.symm
        rw [update_of_ne (ne_of_mem_of_not_mem member absent), update_of_ne left]
    · simp only [ends]
      cases back with
      | nil => simp
      | cons second later =>
        have more : (node :: second :: later).getLast? ≠ some node := by
          rw [getLast?_cons_cons]
          intro same
          exact absent (mem_of_getLast? same)
        rw [if_neg more]
        simp [getLast?_append, getLast?_cons]

end Represents

end Slist

end ZephyrBluetooth.Data
