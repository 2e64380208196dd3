import ZephyrBluetooth.Mesh.CdbLoad

namespace ZephyrBluetooth.Mesh

open Bool Data Function List Option

/-! What a provisioner finds again after a reboot: the records that
`bt_mesh_cdb_pending_store` leaves, and the database that `cdb_set` makes of
them. -/

def CdbStore.Holds (state : CdbStore) : CdbItem → Prop
  | .net (some val) => state.netSaved = some val
  | .node addr (some val) => state.nodeSaved.records addr = some val
  | .subnet netIdx (some val) => state.keySaved.records (.net netIdx) = some (.net val)
  | .appKey appIdx (some val) => state.keySaved.records (.app appIdx) = some (.app val)
  | .net none => False
  | .node _ none => False
  | .subnet _ none => False
  | .appKey _ none => False

structure Cdb.Same (db restored : Cdb) : Prop where
  ivIndex : restored.ivIndex = db.ivIndex
  ivuInProgress : restored.ivuInProgress = db.ivuInProgress
  nodes : (restored.nodes.filter fun node => node.key.isSome).Perm
    (db.nodes.filter fun node => node.key.isSome)
  subnets : (restored.subnets.filter fun sub => sub.key.isSome).Perm
    (db.subnets.filter fun sub => sub.key.isSome)
  appKeys : (restored.appKeys.filter fun app => app.key.isSome).Perm
    (db.appKeys.filter fun app => app.key.isSome)

structure CdbStore.Persisted (state : CdbStore) : Prop where
  net : state.netSaved =
    if state.db.valid then some ⟨state.db.ivIndex, state.db.ivuInProgress⟩
    else none
  nodes : state.nodeSaved.records = liveNodes state.db.nodes
  keys : state.keySaved.records = liveKeys state.db.subnets state.db.appKeys

def CdbStore.Restores (state : CdbStore) (cfg : CdbConfig) : Prop :=
  ∀ items : List CdbItem, items.Nodup → (∀ item, item ∈ items ↔ state.Holds item) →
    state.db.Same (cdbLoad (.boot cfg) items)

def CdbStore.Survives (state : CdbStore) (cfg : CdbConfig) : Prop :=
  state.Persisted ∧ state.Restores cfg

def Cdb.IvKept (db : Cdb) : Prop :=
  db.valid = true ∨ (db.ivIndex = 0 ∧ db.ivuInProgress = false)

variable {item : CdbItem}

theorem CdbItem.netVal?_eq_some {val : CdbNetVal} :
    item.netVal? = some val ↔ item = .net (some val) := by
  cases item <;> simp [CdbItem.netVal?]

theorem CdbItem.node?_eq_some {found : Nat × CdbNodeVal} :
    item.node? = some found ↔ item = .node found.1 (some found.2) := by
  cases item <;> simp [CdbItem.node?, Prod.ext_iff]
  grind

theorem CdbItem.subnet?_eq_some {found : Nat × CdbNetKeyVal} :
    item.subnet? = some found ↔ item = .subnet found.1 (some found.2) := by
  cases item <;> simp [CdbItem.subnet?, Prod.ext_iff]
  grind

theorem CdbItem.appKey?_eq_some {found : Nat × CdbAppKeyVal} :
    item.appKey? = some found ↔ item = .appKey found.1 (some found.2) := by
  cases item <;> simp [CdbItem.appKey?, Prod.ext_iff]
  grind

section Picking

variable {Item : Type} {pick : CdbItem → Option Item} {named : Item → CdbItem}
variable {items : List CdbItem}

section

variable (picks : ∀ item found, pick item = some found ↔ item = named found)
include picks

theorem nodup_picked (nodup : items.Nodup) : (items.filterMap pick).Nodup := by
  apply nodup.filterMap
  intro item other found here there
  rw [(picks item found).mp here, (picks other found).mp there]

theorem mem_picked
    {found : Item} : found ∈ items.filterMap pick ↔ named found ∈ items := by
  rw [mem_filterMap]
  constructor
  · rintro ⟨item, member, picked⟩
    rw [← (picks item found).mp picked]
    exact member
  · intro member
    exact ⟨named found, member, (picks _ found).mpr rfl⟩

end

end Picking

theorem eq_toList {Item : Type} [DecidableEq Item] {listed : List Item}
    {held : Option Item} (nodup : listed.Nodup)
    (complete : ∀ item, item ∈ listed ↔ held = some item) :
    listed = held.toList := by
  cases held with
  | none =>
    apply eq_nil_iff_forall_not_mem.mpr
    intro item member
    cases (complete item).mp member
  | some found =>
    have perm : listed.Perm [found] := by
      apply (perm_ext_iff_of_nodup nodup (nodup_singleton found)).mpr
      intro item
      rw [complete item, some.injEq, mem_singleton]
      exact eq_comm
    exact perm_singleton.mp perm

section Restoring

variable {cfg : CdbConfig} {state : CdbStore} {items : List CdbItem}
variable {flag : Bool}

theorem present_of_held (held : ∀ item, item ∈ items ↔ state.Holds item) :
    ∀ item ∈ items, item.Present := by
  intro item member
  have holds := (held item).mp member
  cases item with
  | net val | node _ val | subnet _ val | appKey _ val =>
    cases val with
    | none => cases holds
    | some => rfl

theorem restored_nodes {standing : Nat → Standing}
    {saved : WriteBehind Nat CdbNodeVal}
    (ok : CdbNodesOk cfg state.db.nodes flag saved standing)
    (persisted : state.Persisted) (nodup : items.Nodup)
    (held : ∀ item, item ∈ items ↔ state.Holds item) :
    ((cdbLoad (.boot cfg) items).nodes.filter fun node => node.key.isSome).Perm
      (state.db.nodes.filter fun node => node.key.isSome) := by
  have picks := fun item found => @CdbItem.node?_eq_some item found
  have loaded := cdbLoad_part Cdb.nodes
    (fun db item present => (cdbSet_loads db item present).1) (present_of_held held)
    (.boot cfg)
  have size : (Cdb.boot cfg).nodes =
      replicate state.db.nodes.length .unused := by
    rw [ok.size]
    rfl
  rw [loaded, size]
  apply foldl_load_perm loadNode_step ok.ranges.unique rfl
  · exact fun node _ addr named => loadedNode_val named
  · intro node member addr named
    have made := loadedNode_val named
    obtain ⟨rfl, used⟩ := CdbNode.key_eq_some.mp named
    refine ⟨used, ?_⟩
    rw [made]
    exact ok.ranges.ranged node member used
  · intro item member other twin differ
    obtain ⟨node, here, named, saves⟩ := mem_keyedList.mp member
    obtain ⟨second, there, twinNamed, twinSaves⟩ := mem_keyedList.mp twin
    obtain ⟨addr, _⟩ := item
    obtain ⟨_, _⟩ := other
    subst saves twinSaves
    rw [loadedNode_val named, loadedNode_val twinNamed]
    obtain ⟨slot, found⟩ := mem_iff_getElem?.mp here
    obtain ⟨place, stored⟩ := mem_iff_getElem?.mp there
    obtain ⟨rfl, used⟩ := CdbNode.key_eq_some.mp named
    obtain ⟨rfl, twinUsed⟩ := CdbNode.key_eq_some.mp twinNamed
    apply ok.ranges.apart slot place node second found stored used twinUsed
    rintro rfl
    rw [found] at stored
    cases stored
    exact differ rfl
  · exact nodup_picked picks nodup
  · intro item
    rw [mem_picked picks, held]
    show state.nodeSaved.records item.1 = some item.2 ↔ _
    rw [persisted.nodes]
    rfl

section

variable {standing : CdbKeyIdx → Standing} {saved : WriteBehind CdbKeyIdx CdbKeyVal}
  (ok : CdbKeysOk cfg state.db.subnets state.db.appKeys flag saved standing)
  (persisted : state.Persisted) (nodup : items.Nodup)
  (held : ∀ item, item ∈ items ↔ state.Holds item)
include ok persisted nodup held

theorem restored_subnets :
    ((cdbLoad (.boot cfg) items).subnets.filter fun sub => sub.key.isSome).Perm
      (state.db.subnets.filter fun sub => sub.key.isSome) := by
  have picks := fun item found => @CdbItem.subnet?_eq_some item found
  have loaded := cdbLoad_part Cdb.subnets
    (fun db item present => (cdbSet_loads db item present).2.1) (present_of_held held)
    (.boot cfg)
  have size : (Cdb.boot cfg).subnets =
      replicate state.db.subnets.length .unused := by
    rw [ok.subnetSize]
    rfl
  rw [loaded, size]
  apply foldl_load_perm loadSubnet_step ok.subnetsUnique rfl
  · exact fun sub member netIdx named => loadedSubnet_val (ok.phases sub member) named
  · intro sub member netIdx named
    exact (CdbSubnet.key_eq_some.mp named).2
  · intro item member other twin differ same
    exact differ (keyedList_inj ok.subnetsUnique member twin same)
  · exact nodup_picked picks nodup
  · intro item
    rw [mem_picked picks, held]
    show state.keySaved.records (.net item.1) = some (.net item.2) ↔ _
    rw [persisted.keys]
    simp [liveKeys]

theorem restored_appKeys :
    ((cdbLoad (.boot cfg) items).appKeys.filter fun app => app.key.isSome).Perm
      (state.db.appKeys.filter fun app => app.key.isSome) := by
  have picks := fun item found => @CdbItem.appKey?_eq_some item found
  have loaded := cdbLoad_part Cdb.appKeys
    (fun db item present => (cdbSet_loads db item present).2.2.1) (present_of_held held)
    (.boot cfg)
  have size : (Cdb.boot cfg).appKeys =
      replicate state.db.appKeys.length .unused := by
    rw [ok.appKeySize]
    rfl
  rw [loaded, size]
  apply foldl_load_perm loadAppKey_step ok.appKeysUnique rfl
  · exact fun app _ appIdx named => loadedAppKey_val named
  · intro app member appIdx named
    exact (CdbAppKey.key_eq_some.mp named).2
  · intro item member other twin differ same
    exact differ (keyedList_inj ok.appKeysUnique member twin same)
  · exact nodup_picked picks nodup
  · intro item
    rw [mem_picked picks, held]
    show state.keySaved.records (.app item.1) = some (.app item.2) ↔ _
    rw [persisted.keys]
    simp [liveKeys]

end

theorem restored_iv (persisted : state.Persisted) (kept : state.db.IvKept)
    (nodup : items.Nodup) (held : ∀ item, item ∈ items ↔ state.Holds item) :
    (cdbLoad (.boot cfg) items).ivIndex = state.db.ivIndex ∧
      (cdbLoad (.boot cfg) items).ivuInProgress = state.db.ivuInProgress := by
  have picks := fun item found => @CdbItem.netVal?_eq_some item found
  have listed : items.filterMap CdbItem.netVal? = state.netSaved.toList := by
    apply eq_toList (nodup_picked picks nodup)
    intro val
    rw [mem_picked picks, held]
    rfl
  have loaded := cdbLoad_part Cdb.iv
    (fun db item present => (cdbSet_loads db item present).2.2.2) (present_of_held held)
    (.boot cfg)
  rw [listed, persisted.net] at loaded
  have parts : (cdbLoad (.boot cfg) items).ivIndex =
        (cdbLoad (.boot cfg) items).iv.ivIndex ∧
      (cdbLoad (.boot cfg) items).ivuInProgress =
        (cdbLoad (.boot cfg) items).iv.ivuInProgress := ⟨rfl, rfl⟩
  rw [parts.1, parts.2, loaded]
  cases valid : state.db.valid with
  | true => simp [loadNet, Cdb.iv, Cdb.boot]
  | false =>
    rcases kept with contrary | ⟨zero, none⟩
    · rw [valid] at contrary
      cases contrary
    · simp [Cdb.iv, Cdb.boot, zero, none]

end Restoring

structure CdbRun where
  store : CdbStore
  nodes : Nat → Standing
  keys : CdbKeyIdx → Standing

def CdbRun.boot (cfg : CdbConfig) : CdbRun :=
  ⟨.boot cfg, fun _ => .unstored, fun _ => .unstored⟩

def nodeStandings (run : CdbRun) : CdbInput → Nat → Standing
  | .nodeAlloc uuid addr numElem netIdx =>
    match cdbNodeAlloc run.store.db.nodes uuid addr.toNat numElem.toNat
        netIdx.toNat with
    | none => run.nodes
    | some (_, node) => update run.nodes node.addr .unstored
  | .nodeChange slot .. =>
    match run.store.db.nodes[slot]? with
    | none => run.nodes
    | some node => update run.nodes node.addr (run.nodes node.addr).touched
  | .nodeStore slot =>
    match run.store.db.nodes[slot]? with
    | none => run.nodes
    | some node => update run.nodes node.addr .stored
  | _ => run.nodes

def keyStandings (run : CdbRun) : CdbInput → CdbKeyIdx → Standing
  | .create _ =>
    if run.store.db.valid then
      run.keys
    else
      match cdbSubnetAlloc run.store.db.subnets keyPrimary with
      | none => run.keys
      | some _ => update run.keys (.net keyPrimary) .stored
  | .subnetAlloc netIdx =>
    match cdbSubnetAlloc run.store.db.subnets netIdx.toNat with
    | none => run.keys
    | some _ => update run.keys (.net netIdx.toNat) .unstored
  | .subnetChange slot .. =>
    match run.store.db.subnets[slot]? with
    | none => run.keys
    | some sub =>
      update run.keys (.net sub.netIdx) (run.keys (.net sub.netIdx)).touched
  | .subnetStore slot =>
    match run.store.db.subnets[slot]? with
    | none => run.keys
    | some sub => update run.keys (.net sub.netIdx) .stored
  | .appKeyAlloc netIdx appIdx =>
    match cdbAppKeyAlloc run.store.db.appKeys netIdx.toNat appIdx.toNat with
    | none => run.keys
    | some _ => update run.keys (.app appIdx.toNat) .unstored
  | .appKeyChange slot .. =>
    match run.store.db.appKeys[slot]? with
    | none => run.keys
    | some app =>
      update run.keys (.app app.appIdx) (run.keys (.app app.appIdx)).touched
  | .appKeyStore slot =>
    match run.store.db.appKeys[slot]? with
    | none => run.keys
    | some app => update run.keys (.app app.appIdx) .stored
  | _ => run.keys

def cdbMachine : Machine CdbRun CdbInput Empty where
  step run input :=
    (⟨cdbStep run.store input, nodeStandings run input, keyStandings run input⟩, [])

structure CdbRun.AllStored (run : CdbRun) : Prop where
  nodes : ∀ node ∈ run.store.db.nodes, node.addr ≠ addrUnassigned →
    run.nodes node.addr = .stored
  subnets : ∀ sub ∈ run.store.db.subnets, sub.netIdx ≠ keyUnused →
    run.keys (.net sub.netIdx) = .stored
  appKeys : ∀ app ∈ run.store.db.appKeys, app.netIdx ≠ keyUnused →
    run.keys (.app app.appIdx) = .stored

/-- The pointer is that of an entry in use, and application keys get indexes of
their own. -/
def CdbCalled (run : CdbRun) : CdbInput → Prop
  | .nodeChange slot .. | .nodeStore slot | .nodeDel slot =>
    (slotView CdbNode.key run.store.db.nodes slot).isSome = true
  | .subnetChange slot .. | .subnetStore slot | .subnetDel slot =>
    (slotView CdbSubnet.key run.store.db.subnets slot).isSome = true
  | .appKeyChange slot .. | .appKeyStore slot | .appKeyDel slot =>
    (slotView CdbAppKey.key run.store.db.appKeys slot).isSome = true
  | .appKeyAlloc _ appIdx =>
    ∀ app ∈ run.store.db.appKeys, app.netIdx ≠ keyUnused → app.appIdx ≠ appIdx.toNat
  | .create _ | .clear | .ivUpdate .. | .nodeAlloc .. | .subnetAlloc _
  | .pendingStore => True

/-- Creating finds a place for the primary subnet, indexes and phases fit into
the bits that hold them, and no slot without a node covers the address of a node
whose record is to be stored. -/
def CdbSpared (run : CdbRun) : CdbInput → Prop
  | .create _ =>
    run.store.db.valid = true ∨
      ((∀ sub ∈ run.store.db.subnets, sub.netIdx ≠ keyPrimary) ∧
        ∃ sub ∈ run.store.db.subnets, sub.netIdx = keyUnused)
  | .subnetAlloc netIdx => KeyIdxHeld netIdx.toNat
  | .subnetChange _ krPhase _ => krPhase.toNat < 2 ^ 7
  | .appKeyAlloc netIdx appIdx => KeyIdxHeld appIdx.toNat ∧ netIdx.toNat ≠ keyUnused
  | .appKeyChange _ netIdx _ => netIdx.toNat ≠ keyUnused
  | .pendingStore => CdbAllUncovered run.store.db.nodes run.store.nodeSaved
  | .clear | .ivUpdate .. | .nodeAlloc .. | .nodeChange .. | .nodeStore _
  | .nodeDel _ | .subnetStore _ | .subnetDel _ | .appKeyStore _
  | .appKeyDel _ => True

structure CdbTablesOk (cfg : CdbConfig) (state : CdbStore)
    (nodes : Nat → Standing) (keys : CdbKeyIdx → Standing) : Prop where
  nodes : CdbNodesOk cfg state.db.nodes state.db.nodesPending state.nodeSaved nodes
  keys : CdbKeysOk cfg state.db.subnets state.db.appKeys state.db.keysPending
    state.keySaved keys

structure CdbOk (cfg : CdbConfig) (run : CdbRun) : Prop where
  tables : CdbTablesOk cfg run.store run.nodes run.keys
  net : run.store.db.netPending = false → run.store.netSaved =
      if run.store.db.valid then
        some ⟨run.store.db.ivIndex, run.store.db.ivuInProgress⟩
      else none

section Invariant

variable {cfg : CdbConfig} {state : CdbStore} {nodes : Nat → Standing}
variable {keys : CdbKeyIdx → Standing} {run : CdbRun} {slot : Nat}

section

variable (ok : CdbTablesOk cfg state nodes keys)
include ok

theorem CdbTablesOk.nodeDel {node : CdbNode}
    (found : state.db.nodes[slot]? = some node) (used : node.addr ≠ addrUnassigned) :
    CdbTablesOk cfg (state.nodeDel slot node) nodes keys :=
  ⟨ok.nodes.delete found used, ok.keys⟩

theorem CdbTablesOk.subnetDel {sub : CdbSubnet}
    (found : state.db.subnets[slot]? = some sub) (used : sub.netIdx ≠ keyUnused) :
    CdbTablesOk cfg (state.subnetDel slot sub) nodes keys :=
  ⟨ok.nodes, ok.keys.subnetDelete found used⟩

theorem CdbTablesOk.appKeyDel {app : CdbAppKey}
    (found : state.db.appKeys[slot]? = some app) (used : app.netIdx ≠ keyUnused) :
    CdbTablesOk cfg (state.appKeyDel slot app) nodes keys :=
  ⟨ok.nodes, ok.keys.appKeyDelete found used⟩

theorem CdbTablesOk.clearNodeAt (slot : Nat) :
    CdbTablesOk cfg (state.clearNodeAt slot) nodes keys := by
  unfold CdbStore.clearNodeAt
  split
  · exact ok
  next node found =>
    split
    · exact ok
    next used => exact ok.nodeDel found used

theorem CdbTablesOk.clearSubnetAt (slot : Nat) :
    CdbTablesOk cfg (state.clearSubnetAt slot) nodes keys := by
  unfold CdbStore.clearSubnetAt
  split
  · exact ok
  next sub found =>
    split
    · exact ok
    next used => exact ok.subnetDel found used

theorem CdbTablesOk.clearAppKeyAt (slot : Nat) :
    CdbTablesOk cfg (state.clearAppKeyAt slot) nodes keys := by
  unfold CdbStore.clearAppKeyAt
  split
  · exact ok
  next app found =>
    split
    · exact ok
    next used => exact ok.appKeyDel found used

theorem CdbTablesOk.clear : CdbTablesOk cfg state.clear nodes keys := by
  have marked : CdbTablesOk cfg
      { state with db := { state.db with valid := false } } nodes keys :=
    ⟨ok.nodes, ok.keys⟩
  have cleared := foldlRecOn (motive := fun state =>
      CdbTablesOk cfg state nodes keys)
    (range state.db.nodes.length) CdbStore.clearNodeAt marked
    fun state ok slot _ => ok.clearNodeAt slot
  have subnets : ∀ {state : CdbStore}, CdbTablesOk cfg state nodes keys →
      CdbTablesOk cfg state.clearSubnets nodes keys := fun {state} ok =>
    foldlRecOn (motive := fun state => CdbTablesOk cfg state nodes keys)
      (range state.db.subnets.length) CdbStore.clearSubnetAt ok
      fun state ok slot _ => ok.clearSubnetAt slot
  have appKeys : ∀ {state : CdbStore}, CdbTablesOk cfg state nodes keys →
      CdbTablesOk cfg state.clearAppKeys nodes keys := fun {state} ok =>
    foldlRecOn (motive := fun state => CdbTablesOk cfg state nodes keys)
      (range state.db.appKeys.length) CdbStore.clearAppKeyAt ok
      fun state ok slot _ => ok.clearAppKeyAt slot
  have last := appKeys (subnets cleared)
  unfold CdbStore.clear CdbStore.updateNetSettings
  exact ⟨last.nodes, last.keys⟩

end

theorem node_called
    (called : (slotView CdbNode.key state.db.nodes slot).isSome = true) :
    ∃ node, state.db.nodes[slot]? = some node ∧ node.addr ≠ addrUnassigned := by
  obtain ⟨_, seen⟩ := isSome_iff_exists.mp called
  obtain ⟨node, found, named⟩ := slotView_eq_some.mp seen
  obtain ⟨rfl, used⟩ := CdbNode.key_eq_some.mp named
  exact ⟨node, found, used⟩

theorem subnet_called
    (called : (slotView CdbSubnet.key state.db.subnets slot).isSome = true) :
    ∃ sub, state.db.subnets[slot]? = some sub ∧ sub.netIdx ≠ keyUnused := by
  obtain ⟨_, seen⟩ := isSome_iff_exists.mp called
  obtain ⟨sub, found, named⟩ := slotView_eq_some.mp seen
  obtain ⟨rfl, used⟩ := CdbSubnet.key_eq_some.mp named
  exact ⟨sub, found, used⟩

theorem appKey_called
    (called : (slotView CdbAppKey.key state.db.appKeys slot).isSome = true) :
    ∃ app, state.db.appKeys[slot]? = some app ∧ app.netIdx ≠ keyUnused := by
  obtain ⟨_, seen⟩ := isSome_iff_exists.mp called
  obtain ⟨app, found, named⟩ := slotView_eq_some.mp seen
  obtain ⟨rfl, used⟩ := CdbAppKey.key_eq_some.mp named
  exact ⟨app, found, used⟩

theorem cdbSubnetAlloc_spared {subnets : List CdbSubnet} {netIdx : Nat}
    (fresh : ∀ sub ∈ subnets, sub.netIdx ≠ netIdx)
    (free : ∃ sub ∈ subnets, sub.netIdx = keyUnused) :
    ∃ slot sub, cdbSubnetAlloc subnets netIdx = some (slot, sub) := by
  have missing : cdbSubnetGet subnets netIdx = none := by
    apply firstSlot_eq_none.mpr
    intro sub member
    simpa using fresh sub member
  unfold cdbSubnetAlloc
  rw [missing, if_neg (by simp)]
  cases search : firstSlot (fun sub => sub.netIdx == keyUnused) subnets with
  | none =>
    obtain ⟨sub, member, unused⟩ := free
    have used := firstSlot_eq_none.mp search sub member
    simp [unused] at used
  | some found => exact ⟨found.1, _, rfl⟩

theorem CdbTablesOk.create (ok : CdbTablesOk cfg run.store run.nodes run.keys)
    (invalid : run.store.db.valid = false)
    (spared : (∀ sub ∈ run.store.db.subnets, sub.netIdx ≠ keyPrimary) ∧
      ∃ sub ∈ run.store.db.subnets, sub.netIdx = keyUnused) (key : Key) :
    CdbTablesOk cfg (run.store.create key).2 run.nodes
        (keyStandings run (.create key)) ∧
      (run.store.create key).2.db.netPending = true := by
  obtain ⟨slot, sub, allocated⟩ := cdbSubnetAlloc_spared spared.1 spared.2
  have effect := cdbSubnetAlloc_allocated allocated
  have named : SubnetAllocated run.store.db.subnets keyPrimary slot
      { sub with keys := { sub.keys with old := key } } :=
    ⟨effect.taken, effect.named, effect.fresh⟩
  have held : KeyIdxHeld keyPrimary := Nat.two_pow_pos 12
  obtain ⟨old, found, _⟩ := effect.taken
  obtain ⟨bound, _⟩ := List.getElem?_eq_some_iff.mp found
  have used : sub.netIdx ≠ keyUnused := by
    rw [effect.named]
    exact held.ne_unused
  have stored := (ok.keys.subnetAlloc named held).subnetStore
    (getElem?_set_self bound) used
  have standings : update
      (update run.keys (.net keyPrimary) .unstored)
        (.net sub.netIdx) .stored = keyStandings run (.create key) := by
    simp [keyStandings, invalid, allocated, effect.named]
  rw [standings] at stored
  simp only [CdbStore.create, invalid, false_eq_true, if_false, allocated]
  exact ⟨⟨ok.nodes, stored⟩, rfl⟩

theorem CdbOk.create (ok : CdbOk cfg run) (key : Key)
    (spared : CdbSpared run (.create key)) :
    CdbOk cfg (cdbMachine.next run (.create key)) := by
  cases valid : run.store.db.valid with
  | true =>
    have same : (run.store.create key).2 = run.store := by
      simp [CdbStore.create, valid]
    have standings : keyStandings run (.create key) = run.keys := by
      simp [keyStandings, valid]
    simp only [Machine.next, cdbMachine, cdbStep, nodeStandings, same, standings]
    exact ok
  | false =>
    rcases spared with contrary | room
    · rw [valid] at contrary
      cases contrary
    obtain ⟨tables, pending⟩ := ok.tables.create valid room key
    refine ⟨tables, ?_⟩
    intro settled
    exact absurd (pending.symm.trans settled) Bool.noConfusion

structure CdbSettled (cfg : CdbConfig) (state : CdbStore)
    (nodes : Nat → Standing) (keys : CdbKeyIdx → Standing) : Prop where
  tables : CdbTablesOk cfg state nodes keys
  nodesIdle : ∀ write, some write ∉ state.nodeSaved.pending
  keysIdle : ∀ write, some write ∉ state.keySaved.pending
  net : state.netSaved =
    if state.db.valid then some ⟨state.db.ivIndex, state.db.ivuInProgress⟩
    else none

theorem pendingNodes_flushed (ok : CdbTablesOk cfg state nodes keys)
    (uncovered : CdbAllUncovered state.db.nodes state.nodeSaved) :
    CdbTablesOk cfg state.pendingNodes nodes keys ∧
      ∀ write, some write ∉ state.pendingNodes.nodeSaved.pending := by
  unfold CdbStore.pendingNodes
  split
  · exact ⟨⟨ok.nodes.flush uncovered, ok.keys⟩, by simp⟩
  next quiet =>
    exact ⟨ok, fun write member => quiet (ok.nodes.flagged write member)⟩

theorem pendingKeys_flushed (ok : CdbTablesOk cfg state nodes keys) :
    CdbTablesOk cfg state.pendingKeys nodes keys ∧
      ∀ write, some write ∉ state.pendingKeys.keySaved.pending := by
  unfold CdbStore.pendingKeys
  split
  · exact ⟨⟨ok.nodes, ok.keys.flush⟩, WriteBehind.flush_pending _ _⟩
  next quiet =>
    exact ⟨ok, fun write member => quiet (ok.keys.flagged write member)⟩

theorem CdbOk.settled (ok : CdbOk cfg run)
    (spared : CdbSpared run .pendingStore) :
    CdbSettled cfg run.store.pendingStore run.nodes run.keys := by
  have netTables : CdbTablesOk cfg run.store.pendingNet run.nodes run.keys := by
    unfold CdbStore.pendingNet
    split <;> exact ⟨ok.tables.nodes, ok.tables.keys⟩
  have netSaved : run.store.pendingNet.netSaved =
      if run.store.pendingNet.db.valid then
        some ⟨run.store.pendingNet.db.ivIndex, run.store.pendingNet.db.ivuInProgress⟩
      else none := by
    unfold CdbStore.pendingNet
    split
    · rfl
    next quiet => exact ok.net (by simpa using quiet)
  have uncovered : CdbAllUncovered run.store.pendingNet.db.nodes
      run.store.pendingNet.nodeSaved := by
    unfold CdbStore.pendingNet
    split <;> exact spared
  obtain ⟨nodeTables, nodesIdle⟩ := pendingNodes_flushed netTables uncovered
  obtain ⟨keyTables, keysIdle⟩ := pendingKeys_flushed nodeTables
  refine ⟨keyTables, ?_, keysIdle, ?_⟩
  · unfold CdbStore.pendingStore CdbStore.pendingKeys
    split <;> exact nodesIdle
  · unfold CdbStore.pendingStore CdbStore.pendingKeys CdbStore.pendingNodes
    split <;> split <;> exact netSaved

theorem CdbOk.pendingStore (ok : CdbOk cfg run)
    (spared : CdbSpared run .pendingStore) :
    CdbOk cfg (cdbMachine.next run .pendingStore) := by
  have settled := ok.settled spared
  exact ⟨settled.tables, fun _ => settled.net⟩

theorem CdbOk.next (ok : CdbOk cfg run) (input : CdbInput)
    (called : CdbCalled run input) (spared : CdbSpared run input) :
    CdbOk cfg (cdbMachine.next run input) := by
  have nodesOk := ok.tables.nodes
  have keysOk := ok.tables.keys
  cases input with
  | create key => exact ok.create key spared
  | clear =>
    refine ⟨ok.tables.clear, ?_⟩
    intro settled
    cases settled
  | ivUpdate =>
    refine ⟨⟨nodesOk, keysOk⟩, ?_⟩
    intro settled
    cases settled
  | nodeAlloc uuid addr numElem netIdx =>
    simp only [Machine.next, cdbMachine, cdbStep, nodeStandings]
    cases allocated : cdbNodeAlloc run.store.db.nodes uuid addr.toNat
        numElem.toNat netIdx.toNat with
    | none => exact ok
    | some found =>
      have effect := cdbNodeAlloc_allocated nodesOk.ranges numElem.toNat_lt allocated
      exact ⟨⟨nodesOk.alloc effect, keysOk⟩, ok.net⟩
  | nodeChange slot uuid netIdx devKey configured =>
    obtain ⟨node, found, used⟩ := node_called called
    simp only [Machine.next, cdbMachine, cdbStep, nodeStandings, found]
    exact ⟨⟨nodesOk.change found used rfl rfl, keysOk⟩, ok.net⟩
  | nodeStore slot =>
    obtain ⟨node, found, used⟩ := node_called called
    simp only [Machine.next, cdbMachine, cdbStep, nodeStandings, found]
    exact ⟨⟨nodesOk.store found used, keysOk⟩, ok.net⟩
  | nodeDel slot =>
    obtain ⟨node, found, used⟩ := node_called called
    simp only [Machine.next, cdbMachine, cdbStep, found]
    exact ⟨ok.tables.nodeDel found used, ok.net⟩
  | subnetAlloc netIdx =>
    simp only [Machine.next, cdbMachine, cdbStep, keyStandings]
    cases allocated : cdbSubnetAlloc run.store.db.subnets netIdx.toNat with
    | none => exact ok
    | some =>
      have effect := cdbSubnetAlloc_allocated allocated
      exact ⟨⟨nodesOk, keysOk.subnetAlloc effect spared⟩, ok.net⟩
  | subnetChange slot krPhase keys =>
    obtain ⟨sub, found, used⟩ := subnet_called called
    simp only [Machine.next, cdbMachine, cdbStep, keyStandings, found]
    exact ⟨⟨nodesOk, keysOk.subnetChange found used rfl spared⟩, ok.net⟩
  | subnetStore slot =>
    obtain ⟨sub, found, used⟩ := subnet_called called
    simp only [Machine.next, cdbMachine, cdbStep, keyStandings, found]
    exact ⟨⟨nodesOk, keysOk.subnetStore found used⟩, ok.net⟩
  | subnetDel slot =>
    obtain ⟨sub, found, used⟩ := subnet_called called
    simp only [Machine.next, cdbMachine, cdbStep, found]
    exact ⟨ok.tables.subnetDel found used, ok.net⟩
  | appKeyAlloc netIdx appIdx =>
    simp only [Machine.next, cdbMachine, cdbStep, keyStandings]
    cases allocated : cdbAppKeyAlloc run.store.db.appKeys netIdx.toNat
        appIdx.toNat with
    | none => exact ok
    | some found =>
      have effect := cdbAppKeyAlloc_allocated allocated
      exact ⟨⟨nodesOk, keysOk.appKeyAlloc effect called spared.1 spared.2⟩, ok.net⟩
  | appKeyChange slot netIdx keys =>
    obtain ⟨app, found, used⟩ := appKey_called called
    simp only [Machine.next, cdbMachine, cdbStep, keyStandings, found]
    exact ⟨⟨nodesOk, keysOk.appKeyChange found used rfl spared⟩, ok.net⟩
  | appKeyStore slot =>
    obtain ⟨app, found, used⟩ := appKey_called called
    simp only [Machine.next, cdbMachine, cdbStep, keyStandings, found]
    exact ⟨⟨nodesOk, keysOk.appKeyStore found used⟩, ok.net⟩
  | appKeyDel slot =>
    obtain ⟨app, found, used⟩ := appKey_called called
    simp only [Machine.next, cdbMachine, cdbStep, found]
    exact ⟨ok.tables.appKeyDel found used, ok.net⟩
  | pendingStore => exact ok.pendingStore spared

def Cdb.SameBut (db after : Cdb) : Prop :=
  ∃ net keys nodes, after =
    { db with
      netPending := net
      keysPending := keys
      nodesPending := nodes }

theorem Cdb.SameBut.trans {db middle after : Cdb} (one : db.SameBut middle)
    (two : middle.SameBut after) : db.SameBut after := by
  obtain ⟨_, _, _, rfl⟩ := one
  obtain ⟨netLater, keysLater, nodesLater, rfl⟩ := two
  exact ⟨netLater, keysLater, nodesLater, rfl⟩

theorem pendingNet_db (state : CdbStore) : state.db.SameBut state.pendingNet.db := by
  unfold CdbStore.pendingNet
  split <;> exact ⟨_, _, _, rfl⟩

theorem pendingNodes_db (state : CdbStore) :
    state.db.SameBut state.pendingNodes.db := by
  unfold CdbStore.pendingNodes
  split <;> exact ⟨_, _, _, rfl⟩

theorem pendingKeys_db (state : CdbStore) :
    state.db.SameBut state.pendingKeys.db := by
  unfold CdbStore.pendingKeys
  split <;> exact ⟨_, _, _, rfl⟩

theorem pendingStore_db (state : CdbStore) :
    state.db.SameBut state.pendingStore.db :=
  ((pendingNet_db state).trans (pendingNodes_db _)).trans (pendingKeys_db _)

theorem CdbSettled.persisted
    (settled : CdbSettled cfg run.store.pendingStore run.nodes run.keys)
    (stored : run.AllStored) : run.store.pendingStore.Persisted := by
  obtain ⟨net, _, _, same⟩ := pendingStore_db run.store
  have nodes := settled.tables.nodes
  have keys := settled.tables.keys
  refine ⟨settled.net, nodes.tracks.settled settled.nodesIdle ?_,
    keys.tracks.settled settled.keysIdle ?_⟩
  · intro addr live
    obtain ⟨record, recorded⟩ := isSome_iff_exists.mp live
    obtain ⟨node, member, named, _⟩ :=
      (keyedRecords_eq_some nodes.ranges.unique).mp recorded
    obtain ⟨rfl, used⟩ := CdbNode.key_eq_some.mp named
    rw [same] at member
    exact stored.nodes node member used
  · intro idx live
    cases idx with
    | net =>
      simp only [liveKeys, isSome_map] at live
      obtain ⟨record, recorded⟩ := isSome_iff_exists.mp live
      obtain ⟨sub, member, named, _⟩ :=
        (keyedRecords_eq_some keys.subnetsUnique).mp recorded
      obtain ⟨rfl, used⟩ := CdbSubnet.key_eq_some.mp named
      rw [same] at member
      exact stored.subnets sub member used
    | app =>
      simp only [liveKeys, isSome_map] at live
      obtain ⟨record, recorded⟩ := isSome_iff_exists.mp live
      obtain ⟨app, member, named, _⟩ :=
        (keyedRecords_eq_some keys.appKeysUnique).mp recorded
      obtain ⟨rfl, used⟩ := CdbAppKey.key_eq_some.mp named
      rw [same] at member
      exact stored.appKeys app member used

theorem CdbOk.boot (cfg : CdbConfig) : CdbOk cfg (.boot cfg) where
  tables :=
    { nodes :=
        { ranges :=
            { ranged := by
                intro node member used
                rw [eq_of_mem_replicate member] at used
                exact absurd rfl used
              apart := by
                intro slot other node twin here _ used
                rw [eq_of_mem_replicate (mem_of_getElem? here)] at used
                exact absurd rfl used }
          size := length_replicate
          flagged := by simp [CdbRun.boot, CdbStore.boot]
          tracks := by
            apply WriteBehind.Tracks.empty
            · simp [CdbRun.boot, CdbStore.boot]
            · exact fun _ => rfl
            · intro addr
              apply keyedRecords_eq_none.mpr
              intro node member
              rw [eq_of_mem_replicate member]
              exact nofun }
      keys :=
        { subnetsUnique := by
            intro slot other sub twin idx here _ named
            rw [eq_of_mem_replicate (mem_of_getElem? here)] at named
            cases named
          appKeysUnique := by
            intro slot other app twin idx here _ named
            rw [eq_of_mem_replicate (mem_of_getElem? here)] at named
            cases named
          subnetSize := length_replicate
          appKeySize := length_replicate
          netHeld := by
            intro sub member used
            rw [eq_of_mem_replicate member] at used
            exact absurd rfl used
          appHeld := by
            intro app member used
            rw [eq_of_mem_replicate member] at used
            exact absurd rfl used
          phases := by
            intro sub member
            rw [eq_of_mem_replicate member]
            decide
          flagged := by simp [CdbRun.boot, CdbStore.boot]
          tracks := by
            apply WriteBehind.Tracks.empty
            · simp [CdbRun.boot, CdbStore.boot]
            · exact fun _ => rfl
            · intro idx
              cases idx with
              | net =>
                apply map_eq_none_iff.mpr
                apply keyedRecords_eq_none.mpr
                intro sub member
                rw [eq_of_mem_replicate member]
                exact nofun
              | app =>
                apply map_eq_none_iff.mpr
                apply keyedRecords_eq_none.mpr
                intro app member
                rw [eq_of_mem_replicate member]
                exact nofun } }
  net := fun _ => rfl

theorem CdbSettled.restores
    (settled : CdbSettled cfg state nodes keys) (persisted : state.Persisted)
    (kept : state.db.IvKept) : state.Restores cfg := by
  intro items nodup held
  obtain ⟨ivIndex, ivu⟩ := @restored_iv cfg state items persisted kept nodup held
  exact
    { ivIndex := ivIndex
      ivuInProgress := ivu
      nodes := restored_nodes settled.tables.nodes persisted nodup held
      subnets := restored_subnets settled.tables.keys persisted nodup held
      appKeys := restored_appKeys settled.tables.keys persisted nodup held }

theorem Cdb.IvKept.same {db after : Cdb} (kept : db.IvKept)
    (same : db.SameBut after) : after.IvKept := by
  obtain ⟨_, _, _, rfl⟩ := same
  exact kept

end Invariant

/-- The database survives a reboot after every run that meets the conditions and
has stored its entries. -/
theorem cdb_survives (cfg : CdbConfig) {inputs : List CdbInput}
    (along : cdbMachine.Along
      (fun run input => CdbCalled run input ∧ CdbSpared run input) (.boot cfg)
      (inputs ++ [.pendingStore]))
    (stored : (cdbMachine.run (.boot cfg) inputs).AllStored)
    (kept : (cdbMachine.run (.boot cfg) inputs).store.db.IvKept) :
    (cdbMachine.run (.boot cfg) (inputs ++ [.pendingStore])).store.Survives cfg := by
  obtain ⟨earlier, _, spared⟩ := along.append_last
  have always : cdbMachine.Always (CdbOk cfg) (.boot cfg) inputs := by
    apply Machine.always_of_along _ (CdbOk.boot cfg) earlier
    intro run input ok admitted
    exact ok.next input admitted.1 admitted.2
  have settled := always.last.settled spared
  have persisted := settled.persisted stored
  rw [Machine.run_append_last]
  exact ⟨persisted, settled.restores persisted (kept.same (pendingStore_db _))⟩

instance decidableCdbCalled (run : CdbRun) : ∀ input, Decidable (CdbCalled run input)
  | .nodeChange slot .. | .nodeStore slot | .nodeDel slot =>
    inferInstanceAs (Decidable
      ((slotView CdbNode.key run.store.db.nodes slot).isSome = true))
  | .subnetChange slot .. | .subnetStore slot | .subnetDel slot =>
    inferInstanceAs (Decidable
      ((slotView CdbSubnet.key run.store.db.subnets slot).isSome = true))
  | .appKeyChange slot .. | .appKeyStore slot | .appKeyDel slot =>
    inferInstanceAs (Decidable
      ((slotView CdbAppKey.key run.store.db.appKeys slot).isSome = true))
  | .appKeyAlloc _ appIdx =>
    inferInstanceAs (Decidable (∀ app ∈ run.store.db.appKeys,
      app.netIdx ≠ keyUnused → app.appIdx ≠ appIdx.toNat))
  | .create _ | .clear | .ivUpdate .. | .nodeAlloc .. | .subnetAlloc _
  | .pendingStore => .isTrue trivial

instance decidableCdbUncovered (nodes : List CdbNode) (addr : Nat) :
    Decidable (CdbUncovered nodes addr) :=
  inferInstanceAs (Decidable (∀ node ∈ nodes.takeWhile fun node => node.addr != addr,
      node.addr = addrUnassigned → node.numElem ≤ addr))

instance decidableCdbSpared (run : CdbRun) : ∀ input, Decidable (CdbSpared run input)
  | .create _ =>
    inferInstanceAs (Decidable (run.store.db.valid = true ∨
      ((∀ sub ∈ run.store.db.subnets, sub.netIdx ≠ keyPrimary) ∧
        ∃ sub ∈ run.store.db.subnets, sub.netIdx = keyUnused)))
  | .subnetAlloc netIdx => inferInstanceAs (Decidable (netIdx.toNat < 2 ^ 12))
  | .subnetChange _ krPhase _ => inferInstanceAs (Decidable (krPhase.toNat < 2 ^ 7))
  | .appKeyAlloc netIdx appIdx =>
    inferInstanceAs (Decidable (appIdx.toNat < 2 ^ 12 ∧ netIdx.toNat ≠ keyUnused))
  | .appKeyChange _ netIdx _ =>
    inferInstanceAs (Decidable (netIdx.toNat ≠ keyUnused))
  | .pendingStore =>
    inferInstanceAs (Decidable (∀ write ∈ run.store.nodeSaved.pending.filterMap id,
        write.clear = false → CdbUncovered run.store.db.nodes write.idx))
  | .clear | .ivUpdate .. | .nodeAlloc .. | .nodeChange .. | .nodeStore _
  | .nodeDel _ | .subnetStore _ | .subnetDel _ | .appKeyStore _
  | .appKeyDel _ => .isTrue trivial

def CdbRun.allStored (run : CdbRun) : Bool :=
  (run.store.db.nodes.all fun node =>
    node.addr == addrUnassigned || run.nodes node.addr == .stored) &&
  (run.store.db.subnets.all fun sub =>
    sub.netIdx == keyUnused || run.keys (.net sub.netIdx) == .stored) &&
  run.store.db.appKeys.all fun app =>
    app.netIdx == keyUnused || run.keys (.app app.appIdx) == .stored

theorem CdbRun.allStored_iff (run : CdbRun) :
    run.allStored = true ↔ run.AllStored := by
  unfold CdbRun.allStored
  simp only [and_eq_true, List.all_eq_true, or_eq_true, beq_iff_eq]
  constructor
  · rintro ⟨⟨nodes, subnets⟩, appKeys⟩
    exact ⟨fun node member => (nodes node member).resolve_left,
      fun sub member => (subnets sub member).resolve_left,
      fun app member => (appKeys app member).resolve_left⟩
  · intro stored
    exact ⟨⟨fun node member => or_iff_not_imp_left.mpr (stored.nodes node member),
      fun sub member => or_iff_not_imp_left.mpr (stored.subnets sub member)⟩,
      fun app member => or_iff_not_imp_left.mpr (stored.appKeys app member)⟩

def sampleCdbConfig : CdbConfig := ⟨2, 2, 1⟩

def sampleCdbRun : List CdbInput :=
  [.create 7, .nodeAlloc 1 0x10 2 0, .nodeStore 0, .subnetAlloc 1, .subnetStore 1,
    .appKeyAlloc 0 3, .appKeyStore 0, .subnetDel 1, .subnetAlloc 2, .subnetStore 1,
    .subnetDel 1, .subnetAlloc 1, .subnetChange 1 2 ⟨5, 6⟩, .subnetStore 1,
    .pendingStore, .nodeDel 0, .nodeAlloc 4 0 3 0, .nodeChange 0 4 1 9 true,
    .nodeStore 0, .ivUpdate 3 true]

theorem cdb_survives_reuse : (cdbMachine.run (.boot sampleCdbConfig)
      (sampleCdbRun ++ [.pendingStore])).store.Survives sampleCdbConfig := by
  apply cdb_survives sampleCdbConfig
  · decide +kernel
  · rw [← CdbRun.allStored_iff]
    decide +kernel
  · exact .inl (by decide +kernel)

def coveredCdbRun : List CdbInput :=
  [.create 7, .nodeAlloc 1 0x10 5 0, .nodeStore 0, .nodeAlloc 2 1 1 0,
    .nodeStore 1, .nodeDel 0]

theorem covered_node_lost : cdbMachine.Along CdbCalled (.boot sampleCdbConfig)
        (coveredCdbRun ++ [.pendingStore]) ∧
      (cdbMachine.run (.boot sampleCdbConfig) coveredCdbRun).AllStored ∧
      (cdbMachine.run (.boot sampleCdbConfig) coveredCdbRun).store.db.IvKept ∧
      ¬ (cdbMachine.run (.boot sampleCdbConfig)
        (coveredCdbRun ++ [.pendingStore])).store.Survives sampleCdbConfig := by
  refine ⟨by decide +kernel, ?_, .inl (by decide +kernel), ?_⟩
  · rw [← CdbRun.allStored_iff]
    decide +kernel
  · rintro ⟨persisted, _⟩
    have lost := congrFun persisted.nodes 1
    revert lost
    decide +kernel

end ZephyrBluetooth.Mesh
