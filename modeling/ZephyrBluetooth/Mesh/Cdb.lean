import ZephyrBluetooth.Data.KeyedTable
import ZephyrBluetooth.Data.WriteDue
import ZephyrBluetooth.Mesh.KeyStore

namespace ZephyrBluetooth.Mesh

open Data

/-! The configuration database of a provisioner in `cdb.c`, with
`CONFIG_BT_SETTINGS`.  A record is named by what its path says below
`bt/mesh/cdb`, and the settings backend writes what it is given. -/

abbrev DevUuid := BitVec 128

structure CdbNode where
  uuid : DevUuid
  addr : Nat
  netIdx : Nat
  numElem : Nat
  devKey : Key
  configured : Bool
  deriving DecidableEq

structure CdbSubnet where
  netIdx : Nat
  krPhase : Nat
  keys : Slots Key

structure CdbAppKey where
  netIdx : Nat
  appIdx : Nat
  keys : Slots Key

def CdbNode.unused : CdbNode := ⟨0, addrUnassigned, 0, 0, 0, false⟩

def CdbSubnet.unused : CdbSubnet := ⟨keyUnused, 0, ⟨0, 0⟩⟩

def CdbAppKey.unused : CdbAppKey := ⟨keyUnused, 0, ⟨0, 0⟩⟩

structure Cdb where
  ivIndex : Nat
  valid : Bool
  netPending : Bool
  keysPending : Bool
  nodesPending : Bool
  ivuInProgress : Bool
  nodes : List CdbNode
  subnets : List CdbSubnet
  appKeys : List CdbAppKey

structure CdbConfig where
  nodeCount : Nat
  subnetCount : Nat
  appKeyCount : Nat

def Cdb.boot (cfg : CdbConfig) : Cdb where
  ivIndex := 0
  valid := false
  netPending := false
  keysPending := false
  nodesPending := false
  ivuInProgress := false
  nodes := List.replicate cfg.nodeCount .unused
  subnets := List.replicate cfg.subnetCount .unused
  appKeys := List.replicate cfg.appKeyCount .unused

/-- `struct net_val` of `cdb.c` -/
structure CdbNetVal where
  ivIndex : Nat
  ivUpdate : Bool
  deriving DecidableEq

structure CdbNodeVal where
  netIdx : Nat
  numElem : Nat
  flags : Byte
  uuid : DevUuid
  devKey : Key
  deriving DecidableEq

def nodeConfigured : Byte := 0x01

/-- `struct net_key_val` of `cdb.c` -/
structure CdbNetKeyVal where
  krFlag : Nat
  krPhase : Nat
  val : Slots Key

/-- `struct app_key_val` of `cdb.c` -/
structure CdbAppKeyVal where
  netIdx : Nat
  updated : Bool
  val : Slots Key

/-- The value that `store_cdb_node` writes. -/
def CdbNode.val (node : CdbNode) : CdbNodeVal where
  netIdx := node.netIdx
  numElem := node.numElem
  flags := if node.configured then nodeConfigured else 0
  uuid := node.uuid
  devKey := node.devKey

/-- The value that `store_cdb_subnet` writes; `kr_phase` has seven bits. -/
def CdbSubnet.val (sub : CdbSubnet) : CdbNetKeyVal where
  krFlag := 0
  krPhase := sub.krPhase % 2 ^ 7
  val := sub.keys

/-- The value that `store_cdb_app_key` writes. -/
def CdbAppKey.val (key : CdbAppKey) : CdbAppKeyVal where
  netIdx := key.netIdx
  updated := false
  val := key.keys

/-- What a pending update of a key says about it: `app_key` and `key_idx`. -/
inductive CdbKeyIdx where
  | net (netIdx : Nat)
  | app (appIdx : Nat)
  deriving DecidableEq

inductive CdbKeyVal where
  | net (val : CdbNetKeyVal)
  | app (val : CdbAppKeyVal)

def heldCdbKey : CdbKeyIdx → CdbKeyIdx
  | .net netIdx => .net (heldKeyIdx netIdx)
  | .app appIdx => .app (heldKeyIdx appIdx)

def cdbAddrEnd (addr numElem : Nat) : Nat :=
  (addr + numElem + 0xffff) % 2 ^ 16

def CdbNode.conflicts (node : CdbNode) (start stop : Nat) : Bool :=
  node.addr != addrUnassigned && !(decide (stop < node.addr) ||
      decide (cdbAddrEnd node.addr node.numElem < start))

inductive AddrCheck where
  | free
  | inval
  | again (next : Nat)

def addrIsFree (nodes : List CdbNode) (start numElem : Nat) : AddrCheck :=
  let stop := cdbAddrEnd start numElem
  if !addrIsUnicast start || !addrIsUnicast stop || numElem == 0 then
    .inval
  else
    match nodes.find? fun node => node.conflicts start stop with
    | none => .free
    | some node => .again ((cdbAddrEnd node.addr node.numElem + 1) % 2 ^ 16)

/-- The loop of `find_lowest_free_addr`. -/
def lowestFreeFrom (nodes : List CdbNode) (numElem : Nat) : Nat → Nat → Nat
  | 0, addr => addr
  | turns + 1, addr =>
    match addrIsFree nodes addr numElem with
    | .free => addr
    | .inval => addrUnassigned
    | .again next => lowestFreeFrom nodes numElem turns next

def findLowestFreeAddr (nodes : List CdbNode) (numElem : Nat) : Nat :=
  lowestFreeFrom nodes numElem (nodes.length + 2) 1

/-- The address that `bt_mesh_cdb_node_alloc` settles on. -/
def cdbNodeAddr (nodes : List CdbNode) (addr numElem : Nat) : Nat :=
  if addr = addrUnassigned then
    findLowestFreeAddr nodes numElem
  else
    match addrIsFree nodes addr numElem with
    | .free => addr
    | .inval => addrUnassigned
    | .again _ => addrUnassigned

def cdbNodeAlloc (nodes : List CdbNode) (uuid : DevUuid)
    (addr numElem netIdx : Nat) : Option (Nat × CdbNode) :=
  let chosen := cdbNodeAddr nodes addr numElem
  if chosen = addrUnassigned then
    none
  else
    (firstSlot (fun node => node.addr == addrUnassigned) nodes).map
      fun (slot, node) =>
        (slot,
          { node with
            uuid := uuid
            addr := chosen
            numElem := numElem
            netIdx := netIdx
            configured := false })

def CdbNode.hasElem (node : CdbNode) (addr : Nat) : Bool :=
  decide (node.addr ≤ addr) && decide (addr < node.addr + node.numElem)

def cdbNodeGet (nodes : List CdbNode) (addr : Nat) : Option (Nat × CdbNode) :=
  firstSlot (fun node => node.hasElem addr) nodes

/-- What `bt_mesh_cdb_node_del` leaves. -/
def CdbNode.deleted (node : CdbNode) : CdbNode :=
  { node with addr := addrUnassigned, devKey := 0 }

def cdbSubnetGet (subnets : List CdbSubnet) (netIdx : Nat) :
    Option (Nat × CdbSubnet) :=
  firstSlot (fun sub => sub.netIdx == netIdx) subnets

def cdbSubnetAlloc (subnets : List CdbSubnet) (netIdx : Nat) :
    Option (Nat × CdbSubnet) :=
  if (cdbSubnetGet subnets netIdx).isSome then
    none
  else
    (firstSlot (fun sub => sub.netIdx == keyUnused) subnets).map
      fun (slot, sub) => (slot, { sub with netIdx := netIdx })

def CdbSubnet.deleted (sub : CdbSubnet) : CdbSubnet :=
  { sub with netIdx := keyUnused, keys := ⟨0, 0⟩ }

def cdbAppKeyGet (appKeys : List CdbAppKey) (appIdx : Nat) :
    Option (Nat × CdbAppKey) :=
  firstSlot (fun key => key.netIdx != keyUnused && key.appIdx == appIdx) appKeys

def cdbAppKeyAlloc (appKeys : List CdbAppKey) (netIdx appIdx : Nat) :
    Option (Nat × CdbAppKey) :=
  (firstSlot (fun key => key.netIdx == keyUnused) appKeys).map
    fun (slot, key) => (slot, { key with netIdx := netIdx, appIdx := appIdx })

def CdbAppKey.deleted (key : CdbAppKey) : CdbAppKey :=
  { key with netIdx := keyUnused, keys := ⟨0, 0⟩ }

namespace Cdb

def setNode (db : Cdb) (slot : Nat) (node : CdbNode) : Cdb :=
  { db with nodes := db.nodes.set slot node }

def setSubnet (db : Cdb) (slot : Nat) (sub : CdbSubnet) : Cdb :=
  { db with subnets := db.subnets.set slot sub }

def setAppKey (db : Cdb) (slot : Nat) (key : CdbAppKey) : Cdb :=
  { db with appKeys := db.appKeys.set slot key }

end Cdb

inductive CdbItem where
  | net (val : Option CdbNetVal)
  | node (addr : Nat) (val : Option CdbNodeVal)
  | subnet (netIdx : Nat) (val : Option CdbNetKeyVal)
  | appKey (appIdx : Nat) (val : Option CdbAppKeyVal)

def cdbNetSet (db : Cdb) : Option CdbNetVal → Except Errno Unit × Cdb
  | none => (.ok (), db)
  | some net =>
    (.ok (),
      { db with
        ivIndex := net.ivIndex
        ivuInProgress := db.ivuInProgress || net.ivUpdate
        valid := true })

def cdbNodeSet (db : Cdb) (addr : Nat) :
    Option CdbNodeVal → Except Errno Unit × Cdb
  | none =>
    match cdbNodeGet db.nodes addr with
    | none => (.ok (), db)
    | some (slot, node) => (.ok (), db.setNode slot node.deleted)
  | some val =>
    match (cdbNodeGet db.nodes addr).or
        (cdbNodeAlloc db.nodes val.uuid addr val.numElem val.netIdx) with
    | none => (.error .noMem, db)
    | some (slot, node) =>
      (.ok (), db.setNode slot
          { node with
            configured :=
              node.configured || val.flags &&& nodeConfigured != 0
            uuid := val.uuid
            devKey := val.devKey })

def cdbSubnetSet (db : Cdb) (netIdx : Nat) :
    Option CdbNetKeyVal → Except Errno Unit × Cdb
  | none =>
    match cdbSubnetGet db.subnets netIdx with
    | none => (.error .noEnt, db)
    | some (slot, sub) => (.ok (), db.setSubnet slot sub.deleted)
  | some key =>
    match (cdbSubnetGet db.subnets netIdx).or (cdbSubnetAlloc db.subnets netIdx) with
    | none => (.error .noMem, db)
    | some (slot, sub) =>
      (.ok (),
        db.setSubnet slot { sub with krPhase := key.krPhase, keys := key.val })

def cdbAppKeySet (db : Cdb) (appIdx : Nat) :
    Option CdbAppKeyVal → Except Errno Unit × Cdb
  | none =>
    match cdbAppKeyGet db.appKeys appIdx with
    | none => (.ok (), db)
    | some (slot, app) => (.ok (), db.setAppKey slot app.deleted)
  | some key =>
    match (cdbAppKeyGet db.appKeys appIdx).or
        (cdbAppKeyAlloc db.appKeys key.netIdx appIdx) with
    | none => (.error .noMem, db)
    | some (slot, app) => (.ok (), db.setAppKey slot { app with keys := key.val })

def cdbSet (db : Cdb) : CdbItem → Except Errno Unit × Cdb
  | .net val => cdbNetSet db val
  | .node addr val => cdbNodeSet db addr val
  | .subnet netIdx val => cdbSubnetSet db netIdx val
  | .appKey appIdx val => cdbAppKeySet db appIdx val

def cdbLoad (db : Cdb) (items : List CdbItem) : Cdb :=
  items.foldl (fun db item => (cdbSet db item).2) db

structure CdbStore where
  db : Cdb
  netSaved : Option CdbNetVal
  nodeSaved : WriteBehind Nat CdbNodeVal
  keySaved : WriteBehind CdbKeyIdx CdbKeyVal

def CdbStore.boot (cfg : CdbConfig) : CdbStore where
  db := .boot cfg
  netSaved := none
  nodeSaved := ⟨List.replicate cfg.nodeCount none, fun _ => none⟩
  keySaved :=
    ⟨List.replicate (cfg.subnetCount + cfg.appKeyCount) none, fun _ => none⟩

/-- What `store_cdb_pending_keys` stores for an update. -/
def storeCdbKey (db : Cdb) : CdbKeyIdx → Option CdbKeyVal
  | .net netIdx =>
    (cdbSubnetGet db.subnets netIdx).map fun found => .net found.2.val
  | .app appIdx =>
    (cdbAppKeyGet db.appKeys appIdx).map fun found => .app found.2.val

/-- The loop of `store_cdb_pending_nodes`, which names the record after the node
that it finds. -/
def storePendingNodes (nodes : List CdbNode)
    (records : Nat → Option CdbNodeVal) :
    List (Option (PendingWrite Nat)) → Nat → Option CdbNodeVal
  | [] => records
  | none :: rest => storePendingNodes nodes records rest
  | some update :: rest =>
    if update.clear then
      storePendingNodes nodes (Function.update records update.idx none) rest
    else
      match cdbNodeGet nodes update.idx with
      | none => storePendingNodes nodes records rest
      | some (_, node) =>
        storePendingNodes nodes
          (Function.update records node.addr (some node.val)) rest

namespace CdbStore

def updateNetSettings (state : CdbStore) : CdbStore :=
  { state with db := { state.db with netPending := true } }

/-- `update_cdb_node_settings` for a node that has an address. -/
def updateNodeSettings (state : CdbStore) (node : CdbNode) (store : Bool) :
    CdbStore :=
  { state with
    db :=
      { state.db with
        nodesPending :=
          state.db.nodesPending || !state.nodeSaved.full node.addr }
    nodeSaved :=
      state.nodeSaved.note id (fun _ => some node.val) ⟨node.addr, !store⟩ }

def updateKeySettings (state : CdbStore) (idx : CdbKeyIdx) (val : CdbKeyVal)
    (store : Bool) : CdbStore :=
  { state with
    db :=
      { state.db with
        keysPending := state.db.keysPending || !state.keySaved.full idx }
    keySaved := state.keySaved.note heldCdbKey (fun _ => some val) ⟨idx, !store⟩ }

def updateSubnetSettings (state : CdbStore) (sub : CdbSubnet) (store : Bool) :
    CdbStore :=
  state.updateKeySettings (.net sub.netIdx) (.net sub.val) store

def updateAppKeySettings (state : CdbStore) (key : CdbAppKey) (store : Bool) :
    CdbStore :=
  state.updateKeySettings (.app key.appIdx) (.app key.val) store

def nodeDel (state : CdbStore) (slot : Nat) (node : CdbNode) : CdbStore :=
  let noted := state.updateNodeSettings node false
  { noted with db := noted.db.setNode slot node.deleted }

def subnetDel (state : CdbStore) (slot : Nat) (sub : CdbSubnet) : CdbStore :=
  let noted := state.updateSubnetSettings sub false
  { noted with db := noted.db.setSubnet slot sub.deleted }

def appKeyDel (state : CdbStore) (slot : Nat) (key : CdbAppKey) : CdbStore :=
  let noted := state.updateAppKeySettings key false
  { noted with db := noted.db.setAppKey slot key.deleted }

def create (state : CdbStore) (key : Key) : Except Errno Unit × CdbStore :=
  if state.db.valid then
    (.error .already, state)
  else
    let marked := { state with db := { state.db with valid := true } }
    match cdbSubnetAlloc marked.db.subnets keyPrimary with
    | none => (.error .noMem, marked)
    | some (slot, sub) =>
      let named := { sub with keys := { sub.keys with old := key } }
      let filled :=
        { marked with
          db := { marked.db.setSubnet slot named with ivIndex := 0 } }
      (.ok (), filled.updateNetSettings.updateSubnetSettings named true)

/-- One turn of the first loop of `bt_mesh_cdb_clear`. -/
def clearNodeAt (state : CdbStore) (slot : Nat) : CdbStore :=
  match state.db.nodes[slot]? with
  | none => state
  | some node =>
    if node.addr = addrUnassigned then state else state.nodeDel slot node

def clearSubnetAt (state : CdbStore) (slot : Nat) : CdbStore :=
  match state.db.subnets[slot]? with
  | none => state
  | some sub =>
    if sub.netIdx = keyUnused then state else state.subnetDel slot sub

def clearAppKeyAt (state : CdbStore) (slot : Nat) : CdbStore :=
  match state.db.appKeys[slot]? with
  | none => state
  | some key =>
    if key.netIdx = keyUnused then state else state.appKeyDel slot key

def clearNodes (state : CdbStore) : CdbStore :=
  (List.range state.db.nodes.length).foldl clearNodeAt state

def clearSubnets (state : CdbStore) : CdbStore :=
  (List.range state.db.subnets.length).foldl clearSubnetAt state

def clearAppKeys (state : CdbStore) : CdbStore :=
  (List.range state.db.appKeys.length).foldl clearAppKeyAt state

def clear (state : CdbStore) : CdbStore :=
  let marked := { state with db := { state.db with valid := false } }
  marked.clearNodes.clearSubnets.clearAppKeys.updateNetSettings

def ivUpdate (state : CdbStore) (ivIndex : Nat) (ivUpdate : Bool) : CdbStore :=
  { state with
    db := { state.db with ivIndex := ivIndex, ivuInProgress := ivUpdate }
    }.updateNetSettings

def pendingNet (state : CdbStore) : CdbStore :=
  if state.db.netPending then
    { state with
      db := { state.db with netPending := false }
      netSaved :=
        if state.db.valid then
          some ⟨state.db.ivIndex, state.db.ivuInProgress⟩
        else
          none }
  else
    state

def pendingNodes (state : CdbStore) : CdbStore :=
  if state.db.nodesPending then
    { state with
      db := { state.db with nodesPending := false }
      nodeSaved :=
        { pending := state.nodeSaved.pending.map fun _ => none
          records :=
            storePendingNodes state.db.nodes state.nodeSaved.records
              state.nodeSaved.pending } }
  else
    state

def pendingKeys (state : CdbStore) : CdbStore :=
  if state.db.keysPending then
    { state with
      db := { state.db with keysPending := false }
      keySaved := state.keySaved.flush (storeCdbKey state.db) }
  else
    state

def pendingStore (state : CdbStore) : CdbStore :=
  state.pendingNet.pendingNodes.pendingKeys

end CdbStore

/-- What is done to the database.  An entry is changed, stored and deleted
through the pointer that the database gave, here its slot; its address, size or
key index is not changed. -/
inductive CdbInput where
  | create (key : Key)
  | clear
  | ivUpdate (ivIndex : UInt32) (ivUpdate : Bool)
  | nodeAlloc (uuid : DevUuid) (addr : UInt16) (numElem : UInt8) (netIdx : UInt16)
  | nodeChange (slot : Nat) (uuid : DevUuid) (netIdx : UInt16) (devKey : Key)
      (configured : Bool)
  | nodeStore (slot : Nat)
  | nodeDel (slot : Nat)
  | subnetAlloc (netIdx : UInt16)
  | subnetChange (slot : Nat) (krPhase : UInt8) (keys : Slots Key)
  | subnetStore (slot : Nat)
  | subnetDel (slot : Nat)
  | appKeyAlloc (netIdx appIdx : UInt16)
  | appKeyChange (slot : Nat) (netIdx : UInt16) (keys : Slots Key)
  | appKeyStore (slot : Nat)
  | appKeyDel (slot : Nat)
  | pendingStore

def CdbNode.change (node : CdbNode) (uuid : DevUuid) (netIdx : Nat)
    (devKey : Key) (configured : Bool) : CdbNode :=
  { node with
    uuid := uuid
    netIdx := netIdx
    devKey := devKey
    configured := configured }

def cdbStep (state : CdbStore) : CdbInput → CdbStore
  | .create key => (state.create key).2
  | .clear => state.clear
  | .ivUpdate ivIndex ivUpdate => state.ivUpdate ivIndex.toNat ivUpdate
  | .nodeAlloc uuid addr numElem netIdx =>
    match cdbNodeAlloc state.db.nodes uuid addr.toNat numElem.toNat netIdx.toNat with
    | none => state
    | some (slot, node) => { state with db := state.db.setNode slot node }
  | .nodeChange slot uuid netIdx devKey configured =>
    match state.db.nodes[slot]? with
    | none => state
    | some node =>
      { state with
        db :=
          state.db.setNode slot
            (node.change uuid netIdx.toNat devKey configured) }
  | .nodeStore slot =>
    match state.db.nodes[slot]? with
    | none => state
    | some node => state.updateNodeSettings node true
  | .nodeDel slot =>
    match state.db.nodes[slot]? with
    | none => state
    | some node => state.nodeDel slot node
  | .subnetAlloc netIdx =>
    match cdbSubnetAlloc state.db.subnets netIdx.toNat with
    | none => state
    | some (slot, sub) => { state with db := state.db.setSubnet slot sub }
  | .subnetChange slot krPhase keys =>
    match state.db.subnets[slot]? with
    | none => state
    | some sub =>
      { state with
        db :=
          state.db.setSubnet slot
            { sub with krPhase := krPhase.toNat, keys := keys } }
  | .subnetStore slot =>
    match state.db.subnets[slot]? with
    | none => state
    | some sub => state.updateSubnetSettings sub true
  | .subnetDel slot =>
    match state.db.subnets[slot]? with
    | none => state
    | some sub => state.subnetDel slot sub
  | .appKeyAlloc netIdx appIdx =>
    match cdbAppKeyAlloc state.db.appKeys netIdx.toNat appIdx.toNat with
    | none => state
    | some (slot, key) => { state with db := state.db.setAppKey slot key }
  | .appKeyChange slot netIdx keys =>
    match state.db.appKeys[slot]? with
    | none => state
    | some key =>
      { state with
        db :=
          state.db.setAppKey slot
            { key with netIdx := netIdx.toNat, keys := keys } }
  | .appKeyStore slot =>
    match state.db.appKeys[slot]? with
    | none => state
    | some key => state.updateAppKeySettings key true
  | .appKeyDel slot =>
    match state.db.appKeys[slot]? with
    | none => state
    | some key => state.appKeyDel slot key
  | .pendingStore => state.pendingStore

end ZephyrBluetooth.Mesh
