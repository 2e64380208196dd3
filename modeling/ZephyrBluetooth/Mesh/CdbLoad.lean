import ZephyrBluetooth.Mesh.CdbKeys
import ZephyrBluetooth.Mesh.CdbNodes

namespace ZephyrBluetooth.Mesh

open Data List Option Bool

def CdbItem.Present : CdbItem → Prop
  | .net val => val.isSome = true
  | .node _ val => val.isSome = true
  | .subnet _ val => val.isSome = true
  | .appKey _ val => val.isSome = true

def CdbItem.netVal? : CdbItem → Option CdbNetVal
  | .net val => val
  | .node .. => none
  | .subnet .. => none
  | .appKey .. => none

def CdbItem.node? : CdbItem → Option (Nat × CdbNodeVal)
  | .net _ => none
  | .node addr val => val.map fun val => (addr, val)
  | .subnet .. => none
  | .appKey .. => none

def CdbItem.subnet? : CdbItem → Option (Nat × CdbNetKeyVal)
  | .net _ => none
  | .node .. => none
  | .subnet netIdx val => val.map fun val => (netIdx, val)
  | .appKey .. => none

def CdbItem.appKey? : CdbItem → Option (Nat × CdbAppKeyVal)
  | .net _ => none
  | .node .. => none
  | .subnet .. => none
  | .appKey appIdx val => val.map fun val => (appIdx, val)

def loadNode (nodes : List CdbNode) (item : Nat × CdbNodeVal) : List CdbNode :=
  match (cdbNodeGet nodes item.1).or
      (cdbNodeAlloc nodes item.2.uuid item.1 item.2.numElem item.2.netIdx) with
  | none => nodes
  | some (slot, node) =>
    nodes.set slot
      { node with
        configured :=
          node.configured || item.2.flags &&& nodeConfigured != 0
        uuid := item.2.uuid
        devKey := item.2.devKey }

def loadSubnet (subnets : List CdbSubnet) (item : Nat × CdbNetKeyVal) :
    List CdbSubnet :=
  match (cdbSubnetGet subnets item.1).or (cdbSubnetAlloc subnets item.1) with
  | none => subnets
  | some (slot, sub) =>
    subnets.set slot { sub with krPhase := item.2.krPhase, keys := item.2.val }

def loadAppKey (appKeys : List CdbAppKey) (item : Nat × CdbAppKeyVal) :
    List CdbAppKey :=
  match (cdbAppKeyGet appKeys item.1).or
      (cdbAppKeyAlloc appKeys item.2.netIdx item.1) with
  | none => appKeys
  | some (slot, app) => appKeys.set slot { app with keys := item.2.val }

structure CdbIv where
  ivIndex : Nat
  ivuInProgress : Bool
  valid : Bool

def Cdb.iv (db : Cdb) : CdbIv := ⟨db.ivIndex, db.ivuInProgress, db.valid⟩

def loadNet (iv : CdbIv) (net : CdbNetVal) : CdbIv :=
  ⟨net.ivIndex, iv.ivuInProgress || net.ivUpdate, true⟩

section Parts

variable {Part Item : Type}

theorem cdbLoad_part (part : Cdb → Part) {pick : CdbItem → Option Item}
    {load : Part → Item → Part}
    (step : ∀ (db : Cdb) (item : CdbItem), item.Present →
      part (cdbSet db item).2 = ((pick item).map (load (part db))).getD (part db))
    {items : List CdbItem} (present : ∀ item ∈ items, item.Present) (db : Cdb) :
    part (cdbLoad db items) = (items.filterMap pick).foldl load (part db) := by
  induction items generalizing db with
  | nil => rfl
  | cons item rest ih =>
    have later := ih fun other member =>
      present other (mem_cons_of_mem item member)
    have first := step db item (present item mem_cons_self)
    unfold cdbLoad at later ⊢
    rw [foldl_cons, later, first]
    cases picked : pick item with
    | none => rw [filterMap_cons_none picked, map_none, getD_none]
    | some => rw [filterMap_cons_some picked, map_some, getD_some, foldl_cons]

end Parts

theorem cdbSet_loads (db : Cdb) (item : CdbItem) (present : item.Present) :
    (cdbSet db item).2.nodes = (item.node?.map (loadNode db.nodes)).getD db.nodes ∧
      (cdbSet db item).2.subnets =
        (item.subnet?.map (loadSubnet db.subnets)).getD db.subnets ∧
      (cdbSet db item).2.appKeys =
        (item.appKey?.map (loadAppKey db.appKeys)).getD db.appKeys ∧
      (cdbSet db item).2.iv = (item.netVal?.map (loadNet db.iv)).getD db.iv := by
  cases item with
  | net val => cases val <;> exact ⟨rfl, rfl, rfl, rfl⟩
  | node addr val =>
    obtain ⟨val, rfl⟩ := isSome_iff_exists.mp present
    simp only [cdbSet, cdbNodeSet, CdbItem.node?, map_some, getD_some, loadNode]
    cases (cdbNodeGet db.nodes addr).or
      (cdbNodeAlloc db.nodes val.uuid addr val.numElem val.netIdx) <;>
        exact ⟨rfl, rfl, rfl, rfl⟩
  | subnet netIdx val =>
    obtain ⟨val, rfl⟩ := isSome_iff_exists.mp present
    simp only [cdbSet, cdbSubnetSet, CdbItem.subnet?, map_some, getD_some, loadSubnet]
    cases (cdbSubnetGet db.subnets netIdx).or (cdbSubnetAlloc db.subnets netIdx) <;>
      exact ⟨rfl, rfl, rfl, rfl⟩
  | appKey appIdx val =>
    obtain ⟨val, rfl⟩ := isSome_iff_exists.mp present
    simp only [cdbSet, cdbAppKeySet, CdbItem.appKey?, map_some, getD_some, loadAppKey]
    cases (cdbAppKeyGet db.appKeys appIdx).or
      (cdbAppKeyAlloc db.appKeys val.netIdx appIdx) <;> exact ⟨rfl, rfl, rfl, rfl⟩

def loadedNode (item : Nat × CdbNodeVal) : CdbNode where
  uuid := item.2.uuid
  addr := item.1
  netIdx := item.2.netIdx
  numElem := item.2.numElem
  devKey := item.2.devKey
  configured := item.2.flags &&& nodeConfigured != 0

def loadedSubnet (item : Nat × CdbNetKeyVal) : CdbSubnet :=
  ⟨item.1, item.2.krPhase, item.2.val⟩

def loadedAppKey (item : Nat × CdbAppKeyVal) : CdbAppKey :=
  ⟨item.2.netIdx, item.1, item.2.val⟩

theorem loadedNode_val {node : CdbNode} {addr : Nat}
    (named : node.key = some addr) : loadedNode (addr, node.val) = node := by
  obtain ⟨rfl, _⟩ := CdbNode.key_eq_some.mp named
  obtain ⟨_, addr, _, _, _, configured⟩ := node
  cases configured <;> simp [loadedNode, CdbNode.val, nodeConfigured]

theorem loadedSubnet_val {sub : CdbSubnet} {netIdx : Nat}
    (small : sub.krPhase < 2 ^ 7) (named : sub.key = some netIdx) :
    loadedSubnet (netIdx, sub.val) = sub := by
  obtain ⟨rfl, _⟩ := CdbSubnet.key_eq_some.mp named
  unfold loadedSubnet CdbSubnet.val
  rw [Nat.mod_eq_of_lt small]

theorem loadedAppKey_val {app : CdbAppKey} {appIdx : Nat}
    (named : app.key = some appIdx) : loadedAppKey (appIdx, app.val) = app := by
  obtain ⟨rfl, _⟩ := CdbAppKey.key_eq_some.mp named
  rfl

theorem addrIsFree_of_apart {nodes : List CdbNode} {start numElem : Nat}
    (used : start ≠ addrUnassigned) (positive : 0 < numElem)
    (bound : start + numElem ≤ 0x8000)
    (apart : ∀ node ∈ nodes, node.addr ≠ addrUnassigned → node.Ranged ∧
        (start + numElem ≤ node.addr ∨ node.addr + node.numElem ≤ start)) :
    addrIsFree nodes start numElem = .free := by
  have stop : cdbAddrEnd start numElem = start + numElem - 1 := by
    unfold cdbAddrEnd
    omega
  have accepted : (!addrIsUnicast start || !addrIsUnicast (cdbAddrEnd start numElem) ||
      numElem == 0) = false := by
    rw [stop]
    unfold addrUnassigned at used
    simp [addrIsUnicast]
    omega
  have missing : (nodes.find? fun node =>
      node.conflicts start (cdbAddrEnd start numElem)) = none := by
    rw [find?_eq_none]
    intro node member
    rw [CdbNode.conflicts_iff, stop]
    rintro ⟨nodeUsed, _, after⟩
    obtain ⟨ranged, _⟩ := apart node member nodeUsed
    rw [ranged.end_eq] at after
    obtain ⟨_, _⟩ := ranged
    omega
  unfold addrIsFree
  dsimp only
  rw [accepted, if_neg Bool.false_ne_true, missing]

def NodeItemFine (item : Nat × CdbNodeVal) : Prop :=
  item.1 ≠ addrUnassigned ∧ (loadedNode item).Ranged

theorem loadNode_step (loaded : List (Nat × CdbNodeVal))
    (item : Nat × CdbNodeVal) (room : Nat)
    (each : ∀ known ∈ loaded, NodeItemFine known) (fine : NodeItemFine item)
    (distinct : ∀ known ∈ loaded, (loadedNode known).Apart (loadedNode item)) :
    loadNode (loaded.map loadedNode ++ replicate (room + 1) .unused) item =
      loaded.map loadedNode ++ loadedNode item :: replicate room .unused := by
  obtain ⟨used, positive, bound⟩ := fine
  have missing : cdbNodeGet
      (loaded.map loadedNode ++ replicate (room + 1) .unused) item.1 =
        none := by
    apply firstSlot_eq_none.mpr
    intro node member
    rw [← not_eq_true, CdbNode.hasElem_iff]
    rcases mem_append.mp member with before | empty
    · obtain ⟨known, among, rfl⟩ := mem_map.mp before
      have clear := distinct known among
      unfold CdbNode.Apart at clear
      unfold loadedNode at clear positive ⊢
      dsimp only at clear positive ⊢
      omega
    · rw [eq_of_mem_replicate empty]
      simp [CdbNode.unused, addrUnassigned]
  have passes : addrIsFree
      (loaded.map loadedNode ++ replicate (room + 1) .unused) item.1
        item.2.numElem = .free := by
    apply addrIsFree_of_apart used positive bound
    intro node member nodeUsed
    rcases mem_append.mp member with before | empty
    · obtain ⟨known, among, rfl⟩ := mem_map.mp before
      exact ⟨(each known among).2, (distinct known among).symm⟩
    · rw [eq_of_mem_replicate empty] at nodeUsed
      exact absurd rfl nodeUsed
  have slots : firstSlot (fun node => node.addr == addrUnassigned)
      (loaded.map loadedNode ++ replicate (room + 1) CdbNode.unused) =
        some ((loaded.map loadedNode).length, .unused) := by
    apply firstSlot_first_free
    · intro node member
      obtain ⟨known, among, rfl⟩ := mem_map.mp member
      simpa [loadedNode] using (each known among).1
    · rfl
  have alloc : cdbNodeAlloc
      (loaded.map loadedNode ++ replicate (room + 1) .unused) item.2.uuid
        item.1 item.2.numElem item.2.netIdx = some ((loaded.map loadedNode).length,
            { CdbNode.unused with
              uuid := item.2.uuid
              addr := item.1
              numElem := item.2.numElem
              netIdx := item.2.netIdx }) := by
    unfold cdbNodeAlloc cdbNodeAddr
    rw [if_neg used, passes]
    rw [if_neg used, slots]
    rfl
  unfold loadNode
  rw [missing, none_or, alloc]
  dsimp only
  rw [set_first_free]
  simp [loadedNode, CdbNode.unused]

theorem loadSubnet_step (loaded : List (Nat × CdbNetKeyVal))
    (item : Nat × CdbNetKeyVal) (room : Nat)
    (each : ∀ known ∈ loaded, known.1 ≠ keyUnused) (fine : item.1 ≠ keyUnused)
    (distinct : ∀ known ∈ loaded, known.1 ≠ item.1) :
    loadSubnet (loaded.map loadedSubnet ++ replicate (room + 1) .unused)
        item = loaded.map loadedSubnet ++
        loadedSubnet item :: replicate room .unused := by
  have missing : cdbSubnetGet
      (loaded.map loadedSubnet ++ replicate (room + 1) .unused) item.1 =
        none := by
    apply firstSlot_eq_none.mpr
    intro sub member
    rcases mem_append.mp member with before | empty
    · obtain ⟨known, among, rfl⟩ := mem_map.mp before
      simpa [loadedSubnet] using distinct known among
    · rw [eq_of_mem_replicate empty]
      simpa [CdbSubnet.unused] using Ne.symm fine
  have slots : firstSlot (fun sub => sub.netIdx == keyUnused)
      (loaded.map loadedSubnet ++ replicate (room + 1) CdbSubnet.unused) =
        some ((loaded.map loadedSubnet).length, .unused) := by
    apply firstSlot_first_free
    · intro sub member
      obtain ⟨known, among, rfl⟩ := mem_map.mp member
      simpa [loadedSubnet] using each known among
    · rfl
  unfold loadSubnet cdbSubnetAlloc
  rw [missing, slots]
  simp only [isSome_none, false_eq_true, if_false, none_or, map_some]
  rw [set_first_free]
  simp [loadedSubnet, CdbSubnet.unused]

theorem loadAppKey_step (loaded : List (Nat × CdbAppKeyVal))
    (item : Nat × CdbAppKeyVal) (room : Nat)
    (each : ∀ known ∈ loaded, known.2.netIdx ≠ keyUnused)
    (_ : item.2.netIdx ≠ keyUnused)
    (distinct : ∀ known ∈ loaded, known.1 ≠ item.1) :
    loadAppKey (loaded.map loadedAppKey ++ replicate (room + 1) .unused)
        item = loaded.map loadedAppKey ++
        loadedAppKey item :: replicate room .unused := by
  have missing : cdbAppKeyGet
      (loaded.map loadedAppKey ++ replicate (room + 1) .unused) item.1 =
        none := by
    apply firstSlot_eq_none.mpr
    intro app member
    rcases mem_append.mp member with before | empty
    · obtain ⟨known, among, rfl⟩ := mem_map.mp before
      simp [loadedAppKey, distinct known among]
    · rw [eq_of_mem_replicate empty]
      simp [CdbAppKey.unused]
  have slots : firstSlot (fun app => app.netIdx == keyUnused)
      (loaded.map loadedAppKey ++ replicate (room + 1) CdbAppKey.unused) =
        some ((loaded.map loadedAppKey).length, .unused) := by
    apply firstSlot_first_free
    · intro app member
      obtain ⟨known, among, rfl⟩ := mem_map.mp member
      simpa [loadedAppKey] using each known among
    · rfl
  unfold loadAppKey cdbAppKeyAlloc
  rw [missing, slots, none_or, map_some]
  dsimp only
  rw [set_first_free]
  simp [loadedAppKey]

end ZephyrBluetooth.Mesh
