import Mathlib.Data.List.TakeWhile
import ZephyrBluetooth.Mesh.CdbNodes

namespace ZephyrBluetooth.Mesh

open Bool Data List

inductive CdbNodeOp where
  | alloc (uuid : DevUuid) (addr netIdx : UInt16) (numElem : UInt8)
  | del (slot : Nat)
  | clear

def cdbNodeStep (nodes : List CdbNode) : CdbNodeOp → List CdbNode
  | .alloc uuid addr netIdx numElem =>
    match cdbNodeAlloc nodes uuid addr.toNat numElem.toNat netIdx.toNat with
    | none => nodes
    | some (slot, node) => nodes.set slot node
  | .del slot =>
    match nodes[slot]? with
    | none => nodes
    | some node => nodes.set slot node.deleted
  | .clear =>
    nodes.map fun node => if node.addr = addrUnassigned then node else node.deleted

def cdbNodeRun (count : Nat) (ops : List CdbNodeOp) : List CdbNode :=
  ops.foldl cdbNodeStep (replicate count .unused)

/-- The addresses from `start` on are unicast and belong to no node. -/
def FreeRange (nodes : List CdbNode) (numElem start : Nat) : Prop :=
  start ≠ addrUnassigned ∧ 0 < numElem ∧ start + numElem ≤ 0x8000 ∧
    ∀ node ∈ nodes, node.addr ≠ addrUnassigned →
      start + numElem ≤ node.addr ∨ node.addr + node.numElem ≤ start

structure AddressesKept (nodes : List CdbNode) : Prop where
  ranges : NodesOk nodes
  lowest : ∀ (uuid : DevUuid) (netIdx : UInt16) (numElem : UInt8) (start : Nat),
    (∃ node ∈ nodes, node.addr = addrUnassigned) →
    FreeRange nodes numElem.toNat start →
    ∃ slot node, cdbNodeAlloc nodes uuid addrUnassigned numElem.toNat netIdx.toNat =
        some (slot, node) ∧
      FreeRange nodes numElem.toNat node.addr ∧
      ∀ other, FreeRange nodes numElem.toNat other → node.addr ≤ other

def CdbNode.owns (node : CdbNode) (addr : Nat) : Bool :=
  node.addr != addrUnassigned && node.hasElem addr

/-- `bt_mesh_cdb_node_get` returns the node that has the address, and nothing when
none has it. -/
def FindsOwner (nodes : List CdbNode) (addr : Nat) : Prop :=
  ∀ slot node, cdbNodeGet nodes addr = some (slot, node) ↔
    nodes[slot]? = some node ∧ node.owns addr = true

/-- In front of the node that has the address, or in all of the array when none has
it, no slot without a node covers it with the elements of the node that it had. -/
def Unshadowed (nodes : List CdbNode) (addr : Nat) : Prop :=
  ∀ node ∈ nodes.takeWhile fun node => !node.owns addr,
    node.addr = addrUnassigned → node.numElem ≤ addr

variable {nodes : List CdbNode} {addr numElem start : Nat}

theorem NodesOk.of_unassigned
    (free : ∀ node ∈ nodes, node.addr = addrUnassigned) : NodesOk nodes where
  ranged := fun node member used => absurd (free node member) used
  apart := fun _ _ node _ here _ used =>
    absurd (free node (mem_of_getElem? here)) used

theorem NodesOk.step (ok : NodesOk nodes) (op : CdbNodeOp) :
    NodesOk (cdbNodeStep nodes op) := by
  cases op with
  | alloc uuid addr netIdx numElem =>
    simp only [cdbNodeStep]
    cases settled : cdbNodeAlloc nodes uuid addr.toNat numElem.toNat netIdx.toNat with
    | none => exact ok
    | some => exact (cdbNodeAlloc_allocated ok numElem.toNat_lt settled).nodesOk ok
  | del slot =>
    simp only [cdbNodeStep]
    cases nodes[slot]? with
    | none => exact ok
    | some node => exact ok.deleted node
  | clear =>
    apply NodesOk.of_unassigned
    intro node member
    obtain ⟨_, _, rfl⟩ := mem_map.mp member
    split
    · assumption
    · rfl

theorem cdbNodeRun_ok (count : Nat) (ops : List CdbNodeOp) :
    NodesOk (cdbNodeRun count ops) := by
  unfold cdbNodeRun
  refine foldlRecOn ops cdbNodeStep (NodesOk.of_unassigned ?_)
    fun nodes ok op _ => ok.step op
  intro node member
  rw [eq_of_mem_replicate member]
  rfl

section Lowest

variable (ok : NodesOk nodes) (size : numElem < 2 ^ 8)
  (range : FreeRange nodes numElem start)
include ok size range

/-- A conflict leads over a node that no free range has in front of it. -/
theorem addrIsFree_below (used : addr ≠ addrUnassigned) (low : addr ≤ start) :
    addrIsFree nodes addr numElem = .free ∨
      ∃ next, addrIsFree nodes addr numElem = .again next ∧
        next ≠ addrUnassigned ∧ next ≤ start := by
  obtain ⟨_, positive, _, apart⟩ := range
  have stop := @cdbAddrEnd_eq addr _ (by omega) size positive
  have first : addrIsUnicast addr = true :=
    (addrIsUnicast_iff addr).mpr ⟨used, by omega⟩
  have last : addrIsUnicast (cdbAddrEnd addr numElem) = true := by
    change addr ≠ 0 at used
    rw [stop, addrIsUnicast_iff]
    omega
  have some : (numElem == 0) = false := by
    rw [beq_eq_false_iff_ne]
    omega
  unfold addrIsFree
  simp only [first, last, some, Bool.not_true, Bool.or_self, Bool.false_eq_true,
    if_false]
  cases search : nodes.find? fun node =>
    node.conflicts addr (cdbAddrEnd addr numElem) with
  | none => exact .inl rfl
  | some node =>
    have member := mem_of_find?_eq_some search
    have conflict := find?_some search
    obtain ⟨assigned, front, _⟩ := CdbNode.conflicts_iff.mp conflict
    obtain ⟨_, _⟩ := ok.ranged node member assigned
    rw [stop] at front
    have next : (cdbAddrEnd node.addr node.numElem + 1) % 2 ^ 16 =
        node.addr + node.numElem := by
      rw [(ok.ranged node member assigned).end_eq]
      omega
    refine .inr ⟨_, rfl, ?_, ?_⟩
    · rw [next]
      change _ ≠ 0
      omega
    · have apart := apart node member assigned
      omega

theorem lowestFreeFrom_lowest :
    ∀ {turns addr : Nat}, nodesAhead nodes addr < turns → addr ≠ addrUnassigned →
      addr ≤ start →
      lowestFreeFrom nodes numElem turns addr ≠ addrUnassigned ∧
        lowestFreeFrom nodes numElem turns addr ≤ start
  | 0, _, enough, _, _ => absurd enough (Nat.not_lt_zero _)
  | turns + 1, addr, enough, used, low => by
      unfold lowestFreeFrom
      rcases addrIsFree_below ok size range used low with free | ⟨_, again, more⟩
      · rw [free]
        exact ⟨used, low⟩
      · rw [again]
        have fewer := addrIsFree_again ok again
        exact lowestFreeFrom_lowest (by omega) more.1 more.2

theorem cdbNodeAlloc_lowest (uuid : DevUuid) (netIdx : Nat)
    (room : ∃ node ∈ nodes, node.addr = addrUnassigned) :
    ∃ slot node, cdbNodeAlloc nodes uuid addrUnassigned numElem netIdx =
        some (slot, node) ∧ FreeRange nodes numElem node.addr ∧
      ∀ other, FreeRange nodes numElem other → node.addr ≤ other := by
  have chosen : cdbNodeAddr nodes addrUnassigned numElem =
      lowestFreeFrom nodes numElem (nodes.length + 2) 1 := if_pos rfl
  have least : ∀ other, FreeRange nodes numElem other →
      cdbNodeAddr nodes addrUnassigned numElem ≠ addrUnassigned ∧
        cdbNodeAddr nodes addrUnassigned numElem ≤ other := by
    intro other range
    have ahead : nodesAhead nodes 1 ≤ nodes.length := countP_le_length
    rw [chosen]
    exact lowestFreeFrom_lowest ok size range (by omega) (by decide)
      (Nat.pos_of_ne_zero range.1)
  obtain ⟨settled, _⟩ := least start range
  have free : FreeRange nodes numElem (cdbNodeAddr nodes addrUnassigned numElem) :=
    addrIsFree_free ok size (cdbNodeAddr_free ok settled)
  unfold cdbNodeAlloc
  dsimp only
  rw [if_neg settled]
  cases search : firstSlot (fun node => node.addr == addrUnassigned) nodes with
  | none =>
    obtain ⟨node, member, free⟩ := room
    have taken := firstSlot_eq_none.mp search node member
    rw [free] at taken
    cases taken
  | some found =>
    obtain ⟨_, _⟩ := found
    refine ⟨_, _, rfl, ?_⟩
    dsimp only
    exact ⟨free, fun other range => (least other range).2⟩

end Lowest

theorem findsOwner_iff (ok : NodesOk nodes) :
    FindsOwner nodes addr ↔ Unshadowed nodes addr := by
  have owned : ∀ node : CdbNode, node.owns addr = true ↔
      node.addr ≠ addrUnassigned ∧ node.hasElem addr = true := by
    intro node
    simp [CdbNode.owns]
  have unique : ∀ (slot place : Nat) (node twin : CdbNode),
      nodes[slot]? = some node → nodes[place]? = some twin →
      node.owns addr = true → twin.owns addr = true → slot = place := by
    intro slot place node twin here there mine other
    obtain ⟨used, has⟩ := (owned node).mp mine
    obtain ⟨twinUsed, twinHas⟩ := (owned twin).mp other
    rw [CdbNode.hasElem_iff] at has twinHas
    by_contra differ
    rcases ok.apart slot place node twin here there used twinUsed differ <;> omega
  have same : FindsOwner nodes addr ↔
      cdbNodeGet nodes addr = firstSlot (fun node => node.owns addr) nodes := by
    rw [Option.ext_iff, Prod.forall]
    refine forall₂_congr fun slot node => ?_
    rw [firstSlot_eq_some_iff unique]
  rw [same]
  unfold cdbNodeGet
  rw [firstSlot_eq_iff fun node mine => ((owned node).mp mine).2]
  refine forall₂_congr fun node member => ?_
  have misses := mem_takeWhile_imp member
  rw [not_eq_true', ← not_eq_true, owned] at misses
  rw [← not_eq_true]
  constructor
  · intro misses free
    rw [CdbNode.hasElem_iff, free] at misses
    change ¬(0 ≤ _ ∧ _ < 0 + _) at misses
    omega
  · intro small has
    apply misses
    refine ⟨fun free => ?_, has⟩
    have short := small free
    rw [CdbNode.hasElem_iff, free] at has
    change 0 ≤ _ ∧ _ < 0 + _ at has
    omega

/-- After every run the nodes have disjoint unicast ranges and the lowest free range
is given out; the node with an address is found exactly when no slot of a deleted
node hides it. -/
theorem cdb_addresses_iff (count : Nat) (ops : List CdbNodeOp) (addr : Nat) :
    AddressesKept (cdbNodeRun count ops) ∧ (FindsOwner (cdbNodeRun count ops) addr ↔
        Unshadowed (cdbNodeRun count ops) addr) := by
  have ok := cdbNodeRun_ok count ops
  refine ⟨⟨ok, ?_⟩, findsOwner_iff ok⟩
  intro uuid netIdx numElem start room range
  exact cdbNodeAlloc_lowest ok numElem.toNat_lt range uuid netIdx.toNat room

theorem cdb_finds_deleted : ¬∀ count ops addr,
    AddressesKept (cdbNodeRun count ops) ∧ FindsOwner (cdbNodeRun count ops) addr := by
  intro claimed
  have found := ((claimed 1 [.alloc 0 0 0 3, .del 0] 1).2 0
    ⟨0, addrUnassigned, 0, 3, 0, false⟩).mp (by decide)
  exact absurd found.2 (by decide)

end ZephyrBluetooth.Mesh
