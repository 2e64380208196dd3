import ZephyrBluetooth.Data.First
import ZephyrBluetooth.Mesh.Cdb

namespace ZephyrBluetooth.Mesh

open Data List Function Option

variable {addr numElem : Nat}

def CdbNode.key (node : CdbNode) : Option Nat :=
  if node.addr = addrUnassigned then none else some node.addr

theorem CdbNode.key_eq_some {node : CdbNode} :
    node.key = some addr ↔ node.addr = addr ∧ addr ≠ addrUnassigned := by
  unfold CdbNode.key
  split <;> grind

theorem CdbNode.key_used {node : CdbNode} (used : node.addr ≠ addrUnassigned) :
    node.key = some node.addr :=
  CdbNode.key_eq_some.mpr ⟨rfl, used⟩

def CdbNode.Ranged (node : CdbNode) : Prop :=
  0 < node.numElem ∧ node.addr + node.numElem ≤ 0x8000

def CdbNode.Apart (node other : CdbNode) : Prop :=
  node.addr + node.numElem ≤ other.addr ∨ other.addr + other.numElem ≤ node.addr

theorem CdbNode.Apart.symm {node other : CdbNode} (apart : node.Apart other) :
    other.Apart node :=
  Or.symm apart

theorem CdbNode.Ranged.not_apart {node other : CdbNode} (ranged : node.Ranged)
    (same : node.addr = other.addr) (twin : other.Ranged) :
    ¬ node.Apart other := by
  obtain ⟨_, _⟩ := ranged
  obtain ⟨_, _⟩ := twin
  rintro (before | after) <;> omega

structure NodesOk (nodes : List CdbNode) : Prop where
  ranged : ∀ node ∈ nodes, node.addr ≠ addrUnassigned → node.Ranged
  apart : ∀ (slot other : Nat) (node twin : CdbNode),
    nodes[slot]? = some node → nodes[other]? = some twin →
    node.addr ≠ addrUnassigned → twin.addr ≠ addrUnassigned →
    slot ≠ other → node.Apart twin

section Ranges

variable {nodes : List CdbNode} {slot : Nat} {node updated : CdbNode}

section

variable (ok : NodesOk nodes)
include ok

theorem NodesOk.unique : KeysUnique CdbNode.key nodes := by
  intro slot other node twin addr here there named same
  obtain ⟨rfl, used⟩ := CdbNode.key_eq_some.mp named
  obtain ⟨twinAddr, _⟩ := CdbNode.key_eq_some.mp same
  have twinUsed : twin.addr ≠ addrUnassigned := by
    rw [twinAddr]
    exact used
  by_contra differ
  have ranged := ok.ranged node (mem_of_getElem? here) used
  have twinRanged := ok.ranged twin (mem_of_getElem? there) twinUsed
  exact ranged.not_apart twinAddr.symm twinRanged
    (ok.apart slot other node twin here there used twinUsed differ)

theorem NodesOk.set (ranged : updated.addr ≠ addrUnassigned → updated.Ranged)
    (fresh : updated.addr ≠ addrUnassigned →
      ∀ (other : Nat) (twin : CdbNode), nodes[other]? = some twin →
        twin.addr ≠ addrUnassigned → other ≠ slot → updated.Apart twin) :
    NodesOk (nodes.set slot updated) where
  ranged := by
    intro known member used
    rcases mem_or_eq_of_mem_set member with before | rfl
    · exact ok.ranged known before used
    · exact ranged used
  apart := by
    intro first second left right leftHere rightHere leftUsed rightUsed differ
    rcases getElem?_set_cases leftHere with ⟨rfl, rfl⟩ | ⟨leftElse, leftOld⟩
    · rcases getElem?_set_cases rightHere with ⟨rfl, _⟩ | ⟨rightElse, rightOld⟩
      · exact absurd rfl differ
      · exact fresh leftUsed second right rightOld rightUsed rightElse
    · rcases getElem?_set_cases rightHere with ⟨rfl, rfl⟩ | ⟨rightElse, rightOld⟩
      · exact (fresh rightUsed first left leftOld leftUsed leftElse).symm
      · exact ok.apart first second left right leftOld rightOld leftUsed
          rightUsed differ

theorem NodesOk.same_range (found : nodes[slot]? = some node)
    (addr : updated.addr = node.addr) (size : updated.numElem = node.numElem) :
    NodesOk (nodes.set slot updated) := by
  have member := mem_of_getElem? found
  apply ok.set
  · intro used
    rw [addr] at used
    unfold CdbNode.Ranged
    rw [addr, size]
    exact ok.ranged node member used
  · intro used other twin there twinUsed differ
    rw [addr] at used
    unfold CdbNode.Apart
    rw [addr, size]
    exact ok.apart slot other node twin found there used twinUsed (Ne.symm differ)

theorem NodesOk.deleted (node : CdbNode) :
    NodesOk (nodes.set slot node.deleted) := by
  apply ok.set
  · intro used
    exact absurd rfl used
  · intro used
    exact absurd rfl used

end

theorem cdbAddrEnd_eq (small : addr < 0x8000) (size : numElem < 2 ^ 8)
    (some : 0 < numElem) : cdbAddrEnd addr numElem = addr + numElem - 1 := by
  unfold cdbAddrEnd
  omega

theorem CdbNode.Ranged.end_eq (ranged : node.Ranged) :
    cdbAddrEnd node.addr node.numElem = node.addr + node.numElem - 1 := by
  obtain ⟨_, _⟩ := ranged
  unfold cdbAddrEnd
  omega

theorem CdbNode.conflicts_iff {start stop : Nat} :
    node.conflicts start stop = true ↔
      node.addr ≠ addrUnassigned ∧ node.addr ≤ stop ∧
        start ≤ cdbAddrEnd node.addr node.numElem := by
  unfold CdbNode.conflicts
  simp

theorem addrIsFree_free {start : Nat} (ok : NodesOk nodes) (size : numElem < 2 ^ 8)
    (passed : addrIsFree nodes start numElem = .free) :
    start ≠ addrUnassigned ∧ 0 < numElem ∧ start + numElem ≤ 0x8000 ∧
      ∀ node ∈ nodes, node.addr ≠ addrUnassigned →
        start + numElem ≤ node.addr ∨ node.addr + node.numElem ≤ start := by
  unfold addrIsFree at passed
  dsimp only at passed
  split at passed
  · cases passed
  next accepted =>
    simp only [Bool.or_eq_true, Bool.not_eq_true', beq_iff_eq, not_or,
      Bool.not_eq_false, addrIsUnicast_iff] at accepted
    obtain ⟨⟨⟨startUsed, startSmall⟩, _, stopSmall⟩, notNone⟩ := accepted
    have some : 0 < numElem := Nat.pos_of_ne_zero notNone
    rw [cdbAddrEnd_eq startSmall size some] at stopSmall
    refine ⟨startUsed, some, by omega, ?_⟩
    intro node member used
    split at passed
    next search =>
      have clear := find?_eq_none.mp search node member
      rw [CdbNode.conflicts_iff, cdbAddrEnd_eq startSmall size some,
        (ok.ranged node member used).end_eq] at clear
      obtain ⟨_, _⟩ := ok.ranged node member used
      by_contra overlap
      apply clear
      refine ⟨used, ?_, ?_⟩ <;> omega
    next => cases passed

def nodesAhead (nodes : List CdbNode) (addr : Nat) : Nat :=
  nodes.countP fun node =>
    node.addr != addrUnassigned && decide (addr ≤ cdbAddrEnd node.addr node.numElem)

theorem countP_lt_of_mem {Item : Type} {fewer more : Item → Bool}
    {items : List Item} {item : Item} (member : item ∈ items)
    (weaker : ∀ item, fewer item = true → more item = true)
    (dropped : fewer item = false) (counted : more item = true) :
    items.countP fewer < items.countP more := by
  obtain ⟨front, back, rfl⟩ := append_of_mem member
  have before := countP_mono_left (l := front) fun item _ => weaker item
  have after := countP_mono_left (l := back) fun item _ => weaker item
  rw [countP_append, countP_append, countP_cons_of_neg (by simp [dropped]),
    countP_cons_of_pos counted]
  omega

theorem addrIsFree_again {start next : Nat} (ok : NodesOk nodes)
    (found : addrIsFree nodes start numElem = .again next) :
    nodesAhead nodes next < nodesAhead nodes start := by
  unfold addrIsFree at found
  dsimp only at found
  split at found
  · cases found
  split at found
  · cases found
  next node search =>
    obtain rfl := AddrCheck.again.inj found
    have member := mem_of_find?_eq_some search
    have conflict := find?_some search
    obtain ⟨used, _, overlaps⟩ := CdbNode.conflicts_iff.mp conflict
    have ranged := ok.ranged node member used
    have stop := ranged.end_eq
    obtain ⟨_, _⟩ := ranged
    rw [stop] at overlaps
    have next : (cdbAddrEnd node.addr node.numElem + 1) % 2 ^ 16 =
        node.addr + node.numElem := by
      rw [stop]
      omega
    rw [next]
    apply countP_lt_of_mem member
    · intro other counted
      simp only [Bool.and_eq_true, decide_eq_true_eq] at counted ⊢
      exact ⟨counted.1, by omega⟩
    · simp only [Bool.and_eq_false_iff, decide_eq_false_iff_not, stop]
      right
      omega
    · simp only [Bool.and_eq_true, bne_iff_ne, decide_eq_true_eq, stop]
      exact ⟨used, overlaps⟩

theorem lowestFreeFrom_free (ok : NodesOk nodes) :
    ∀ {turns addr : Nat}, nodesAhead nodes addr < turns →
      lowestFreeFrom nodes numElem turns addr ≠ addrUnassigned →
      addrIsFree nodes (lowestFreeFrom nodes numElem turns addr) numElem = .free
  | 0, _, enough, _ => absurd enough (Nat.not_lt_zero _)
  | turns + 1, addr, enough, settled => by
      unfold lowestFreeFrom at settled ⊢
      cases check : addrIsFree nodes addr numElem with
      | free => exact check
      | inval =>
        rw [check] at settled
        exact absurd rfl settled
      | again =>
        rw [check] at settled
        have fewer := addrIsFree_again ok check
        exact lowestFreeFrom_free ok (by omega) settled

theorem cdbNodeAddr_free (ok : NodesOk nodes)
    (settled : cdbNodeAddr nodes addr numElem ≠ addrUnassigned) :
    addrIsFree nodes (cdbNodeAddr nodes addr numElem) numElem = .free := by
  unfold cdbNodeAddr at settled ⊢
  split at settled
  next unassigned =>
    rw [if_pos unassigned]
    apply lowestFreeFrom_free ok _ settled
    have most : nodesAhead nodes 1 ≤ nodes.length := countP_le_length
    omega
  next assigned =>
    rw [if_neg assigned]
    cases check : addrIsFree nodes addr numElem with
    | free => exact check
    | inval =>
      rw [check] at settled
      exact absurd rfl settled
    | again =>
      rw [check] at settled
      exact absurd rfl settled

structure NodeAllocated (nodes : List CdbNode) (slot : Nat) (node : CdbNode) :
    Prop where
  taken : ∃ old, nodes[slot]? = some old ∧ old.addr = addrUnassigned
  used : node.addr ≠ addrUnassigned
  ranged : node.Ranged
  apart : ∀ twin ∈ nodes, twin.addr ≠ addrUnassigned → node.Apart twin

theorem cdbNodeAlloc_allocated {uuid : DevUuid} {netIdx : Nat} (ok : NodesOk nodes)
    (size : numElem < 2 ^ 8)
    (allocated : cdbNodeAlloc nodes uuid addr numElem netIdx = some (slot, node)) :
    NodeAllocated nodes slot node := by
  unfold cdbNodeAlloc at allocated
  dsimp only at allocated
  split at allocated
  · cases allocated
  next settled =>
    obtain ⟨⟨_, old⟩, search, same⟩ := map_eq_some_iff.mp allocated
    cases same
    obtain ⟨found, free⟩ := firstSlot_some search
    obtain ⟨used, positive, bound, apart⟩ :=
      addrIsFree_free ok size (cdbNodeAddr_free ok settled)
    exact ⟨⟨old, found, by simpa using free⟩, used, ⟨positive, bound⟩, apart⟩

theorem NodeAllocated.nodesOk (allocated : NodeAllocated nodes slot node)
    (ok : NodesOk nodes) : NodesOk (nodes.set slot node) := by
  apply ok.set
  · exact fun _ => allocated.ranged
  · intro _ other twin there used _
    exact allocated.apart twin (mem_of_getElem? there) used

end Ranges

def liveNodes (nodes : List CdbNode) : Nat → Option CdbNodeVal :=
  keyedRecords CdbNode.key CdbNode.val nodes

/-- No slot without a node stands in front of the node with this address and
still covers the address with the elements of the node that it had. -/
def CdbUncovered (nodes : List CdbNode) (addr : Nat) : Prop :=
  ∀ node ∈ nodes.takeWhile fun node => node.addr != addr,
    node.addr = addrUnassigned → node.numElem ≤ addr

def CdbAllUncovered (nodes : List CdbNode)
    (saved : WriteBehind Nat CdbNodeVal) : Prop :=
  ∀ write ∈ saved.pending.filterMap id, write.clear = false →
    CdbUncovered nodes write.idx

structure CdbNodesOk (cfg : CdbConfig) (nodes : List CdbNode) (flag : Bool)
    (saved : WriteBehind Nat CdbNodeVal) (standing : Nat → Standing) : Prop where
  ranges : NodesOk nodes
  size : nodes.length = cfg.nodeCount
  flagged : ∀ write, some write ∈ saved.pending → flag = true
  tracks : saved.Tracks (fun _ => True) (liveNodes nodes) standing

section Records

variable {cfg : CdbConfig} {nodes : List CdbNode} {flag : Bool}
variable {saved : WriteBehind Nat CdbNodeVal} {standing : Nat → Standing}
variable {slot : Nat} {node updated : CdbNode}

theorem liveNodes_put (found : nodes[slot]? = some node)
    (own : node.addr ≠ addrUnassigned → node.addr = updated.addr)
    (used : updated.addr ≠ addrUnassigned)
    (ok : NodesOk (nodes.set slot updated)) : liveNodes (nodes.set slot updated) =
      update (liveNodes nodes) updated.addr (some updated.val) := by
  apply keyedRecords_put found _ (CdbNode.key_used used) ok.unique
  intro other named
  obtain ⟨rfl, assigned⟩ := CdbNode.key_eq_some.mp named
  exact own assigned

theorem liveNodes_found (ok : NodesOk nodes) (found : nodes[slot]? = some node)
    (used : node.addr ≠ addrUnassigned) :
    liveNodes nodes node.addr = some node.val :=
  keyedRecords_found ok.unique found (CdbNode.key_used used)

theorem NodeAllocated.fresh (allocated : NodeAllocated nodes slot node)
    (ok : NodesOk nodes) : liveNodes nodes node.addr = none := by
  apply keyedRecords_eq_none.mpr
  intro twin member named
  obtain ⟨same, used⟩ := CdbNode.key_eq_some.mp named
  have twinUsed : twin.addr ≠ addrUnassigned := by
    rw [same]
    exact used
  exact allocated.ranged.not_apart same.symm (ok.ranged twin member twinUsed)
    (allocated.apart twin member twinUsed)

theorem CdbNodesOk.alloc (ok : CdbNodesOk cfg nodes flag saved standing)
    (allocated : NodeAllocated nodes slot node) :
    CdbNodesOk cfg (nodes.set slot node) flag saved
      (update standing node.addr .unstored) where
  ranges := allocated.nodesOk ok.ranges
  size := by rw [length_set, ok.size]
  flagged := ok.flagged
  tracks := by
    obtain ⟨_, found, free⟩ := allocated.taken
    rw [liveNodes_put found _ allocated.used (allocated.nodesOk ok.ranges)]
    · exact ok.tracks.alloc (allocated.fresh ok.ranges)
    · exact fun used => absurd free used

section

variable (ok : CdbNodesOk cfg nodes flag saved standing)
  (found : nodes[slot]? = some node) (used : node.addr ≠ addrUnassigned)
include ok found used

theorem CdbNodesOk.change (addr : updated.addr = node.addr)
    (size : updated.numElem = node.numElem) :
    CdbNodesOk cfg (nodes.set slot updated) flag saved
      (update standing node.addr (standing node.addr).touched) where
  ranges := ok.ranges.same_range found addr size
  size := by rw [length_set, ok.size]
  flagged := ok.flagged
  tracks := by
    have live := liveNodes_found ok.ranges found used
    rw [liveNodes_put found (fun _ => addr.symm) (by rw [addr]; exact used)
      (ok.ranges.same_range found addr size), addr]
    exact ok.tracks.change live

theorem CdbNodesOk.store :
    CdbNodesOk cfg nodes (flag || !saved.full node.addr)
      (saved.note id (fun _ => some node.val) ⟨node.addr, false⟩)
      (update standing node.addr .stored) where
  ranges := ok.ranges
  size := ok.size
  flagged := WriteBehind.note_flagged ok.flagged
  tracks := ok.tracks.store trivial rfl (liveNodes_found ok.ranges found used) rfl

theorem CdbNodesOk.delete :
    CdbNodesOk cfg (nodes.set slot node.deleted)
      (flag || !saved.full node.addr)
      (saved.note id (fun _ => some node.val) ⟨node.addr, true⟩) standing where
  ranges := ok.ranges.deleted node
  size := by rw [length_set, ok.size]
  flagged := WriteBehind.note_flagged ok.flagged
  tracks := by
    have gone : liveNodes (nodes.set slot node.deleted) =
        update (liveNodes nodes) node.addr none :=
      keyedRecords_remove ok.ranges.unique found (CdbNode.key_used used) rfl
    rw [gone]
    exact ok.tracks.delete trivial rfl

end

theorem CdbNode.hasElem_iff : node.hasElem addr = true ↔
      node.addr ≤ addr ∧ addr < node.addr + node.numElem := by
  simp [CdbNode.hasElem]

theorem cdbNodeGet_own (ok : NodesOk nodes) (found : nodes[slot]? = some node)
    (used : node.addr ≠ addrUnassigned)
    (uncovered : CdbUncovered nodes node.addr) :
    (cdbNodeGet nodes node.addr).map Prod.snd = some node := by
  have ranged := ok.ranged node (mem_of_getElem? found) used
  have mine : node.hasElem node.addr = true := by
    obtain ⟨size, _⟩ := ranged
    rw [CdbNode.hasElem_iff]
    omega
  unfold cdbNodeGet
  rw [firstSlot_find]
  cases search : nodes.find? fun other => other.hasElem node.addr with
  | none =>
    have contrary := find?_eq_none.mp search node (mem_of_getElem? found)
    exact absurd mine contrary
  | some first =>
    have covers := find?_some search
    rw [CdbNode.hasElem_iff] at covers
    obtain ⟨_, _, split, _, before⟩ := find_split search
    by_cases free : first.addr = addrUnassigned
    · have ahead : first ∈ nodes.takeWhile fun other => other.addr != node.addr := by
        rw [split, takeWhile_append_of_pos, takeWhile_cons_of_pos]
        · simp
        · rw [free]
          simpa using Ne.symm used
        · intro other member
          have misses := before other member
          rw [bne_iff_ne]
          intro same
          have otherRanged := ok.ranged other
            (by rw [split]; exact mem_append_left _ member)
            (by rw [same]; exact used)
          obtain ⟨size, _⟩ := otherRanged
          have hits : other.hasElem node.addr = true := by
            rw [CdbNode.hasElem_iff]
            omega
          rw [hits] at misses
          cases misses
      have small := uncovered first ahead free
      rw [free, addrUnassigned] at covers
      omega
    · obtain ⟨other, there⟩ := mem_iff_getElem?.mp (mem_of_find?_eq_some search)
      by_cases same : other = slot
      · subst same
        rw [found] at there
        exact there.symm
      · obtain ⟨size, _⟩ := ranged
        rcases ok.apart other slot first node there found free used same with
          apart | apart
        · omega
        · omega

theorem storePendingNodes_eq (ok : NodesOk nodes)
    {pending : List (Option (PendingWrite Nat))}
    (due : ∀ write, some write ∈ pending → write.clear = false →
      (∃ record, liveNodes nodes write.idx = some record) ∧
        CdbUncovered nodes write.idx) (records : Nat → Option CdbNodeVal) :
    storePendingNodes nodes records pending =
      flushPending (liveNodes nodes) records pending := by
  induction pending generalizing records with
  | nil => rfl
  | cons element rest ih =>
    have later := ih fun write member =>
      due write (mem_cons_of_mem element member)
    cases element with
    | none => exact later records
    | some write =>
      unfold storePendingNodes flushPending writeRecord
      cases clears : write.clear with
      | true =>
        rw [if_pos rfl, if_pos rfl]
        exact later _
      | false =>
        obtain ⟨⟨record, recorded⟩, uncovered⟩ := due write mem_cons_self clears
        obtain ⟨_, member, named, rfl⟩ :=
          (keyedRecords_eq_some ok.unique).mp recorded
        obtain ⟨_, found⟩ := mem_iff_getElem?.mp member
        obtain ⟨same, used⟩ := CdbNode.key_eq_some.mp named
        rw [← same] at used uncovered recorded ⊢
        have search := cdbNodeGet_own ok found used uncovered
        obtain ⟨⟨_, _⟩, got, rfl⟩ := map_eq_some_iff.mp search
        rw [if_neg Bool.false_ne_true, if_neg Bool.false_ne_true, got, recorded]
        exact later _

theorem CdbNodesOk.flush (ok : CdbNodesOk cfg nodes flag saved standing)
    (uncovered : CdbAllUncovered nodes saved) :
    CdbNodesOk cfg nodes false ⟨saved.pending.map fun _ => none,
        storePendingNodes nodes saved.records saved.pending⟩ standing where
  ranges := ok.ranges
  size := ok.size
  flagged := by simp
  tracks := by
    rw [storePendingNodes_eq ok.ranges]
    · exact ok.tracks.flush fun _ _ _ => rfl
    · intro write member stores
      refine ⟨ok.tracks.live_of_pending member stores, ?_⟩
      exact uncovered write (mem_filterMap.mpr ⟨some write, member, rfl⟩) stores

end Records

end ZephyrBluetooth.Mesh
