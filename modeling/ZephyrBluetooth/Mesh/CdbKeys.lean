import ZephyrBluetooth.Mesh.Cdb

namespace ZephyrBluetooth.Mesh

open Data List Function Option

/-! The subnets and application keys of the configuration database, which share
one array of pending updates, and the records that follow them. -/

def CdbSubnet.key (sub : CdbSubnet) : Option Nat :=
  if sub.netIdx = keyUnused then none else some sub.netIdx

def CdbAppKey.key (app : CdbAppKey) : Option Nat :=
  if app.netIdx = keyUnused then none else some app.appIdx

theorem CdbSubnet.key_eq_some {sub : CdbSubnet} {netIdx : Nat} :
    sub.key = some netIdx ↔ sub.netIdx = netIdx ∧ netIdx ≠ keyUnused := by
  unfold CdbSubnet.key
  split <;> grind

theorem CdbAppKey.key_eq_some {app : CdbAppKey} {appIdx : Nat} :
    app.key = some appIdx ↔ app.appIdx = appIdx ∧ app.netIdx ≠ keyUnused := by
  unfold CdbAppKey.key
  split <;> grind

theorem CdbSubnet.key_used {sub : CdbSubnet} (used : sub.netIdx ≠ keyUnused) :
    sub.key = some sub.netIdx :=
  CdbSubnet.key_eq_some.mpr ⟨rfl, used⟩

theorem CdbAppKey.key_used {app : CdbAppKey} (used : app.netIdx ≠ keyUnused) :
    app.key = some app.appIdx :=
  CdbAppKey.key_eq_some.mpr ⟨rfl, used⟩

def CdbKeyHeld : CdbKeyIdx → Prop
  | .net netIdx => KeyIdxHeld netIdx
  | .app appIdx => KeyIdxHeld appIdx

theorem heldCdbKey_eq : ∀ {idx : CdbKeyIdx}, CdbKeyHeld idx → heldCdbKey idx = idx
  | .net _, held => congrArg CdbKeyIdx.net (heldKeyIdx_eq held)
  | .app _, held => congrArg CdbKeyIdx.app (heldKeyIdx_eq held)

def liveKeys (subnets : List CdbSubnet) (appKeys : List CdbAppKey) :
    CdbKeyIdx → Option CdbKeyVal
  | .net netIdx =>
    (keyedRecords CdbSubnet.key CdbSubnet.val subnets netIdx).map .net
  | .app appIdx =>
    (keyedRecords CdbAppKey.key CdbAppKey.val appKeys appIdx).map .app

structure CdbKeysOk (cfg : CdbConfig) (subnets : List CdbSubnet)
    (appKeys : List CdbAppKey) (flag : Bool)
    (saved : WriteBehind CdbKeyIdx CdbKeyVal)
    (standing : CdbKeyIdx → Standing) : Prop where
  subnetsUnique : KeysUnique CdbSubnet.key subnets
  appKeysUnique : KeysUnique CdbAppKey.key appKeys
  subnetSize : subnets.length = cfg.subnetCount
  appKeySize : appKeys.length = cfg.appKeyCount
  netHeld : ∀ sub ∈ subnets, sub.netIdx ≠ keyUnused → KeyIdxHeld sub.netIdx
  appHeld : ∀ app ∈ appKeys, app.netIdx ≠ keyUnused → KeyIdxHeld app.appIdx
  phases : ∀ sub ∈ subnets, sub.krPhase < 2 ^ 7
  flagged : ∀ write, some write ∈ saved.pending → flag = true
  tracks : saved.Tracks CdbKeyHeld (liveKeys subnets appKeys) standing

section Lookups

variable {subnets after : List CdbSubnet} {appKeys later : List CdbAppKey}
variable {slot netIdx appIdx : Nat} {sub : CdbSubnet} {app : CdbAppKey}

theorem liveKeys_net {value : Option CdbNetKeyVal}
    (same : keyedRecords CdbSubnet.key CdbSubnet.val after =
      update (keyedRecords CdbSubnet.key CdbSubnet.val subnets) netIdx value) :
    liveKeys after appKeys = update (liveKeys subnets appKeys) (.net netIdx)
        (value.map .net) := by
  funext idx
  cases idx with
  | net other =>
    simp only [liveKeys, same]
    by_cases here : other = netIdx
    · rw [here, update_self, update_self]
    rw [update_of_ne here, update_of_ne fun named => here (CdbKeyIdx.net.inj named)]
    rfl
  | app =>
    rw [update_of_ne (by simp)]
    rfl

theorem liveKeys_app {value : Option CdbAppKeyVal}
    (same : keyedRecords CdbAppKey.key CdbAppKey.val later =
      update (keyedRecords CdbAppKey.key CdbAppKey.val appKeys) appIdx value) :
    liveKeys subnets later = update (liveKeys subnets appKeys) (.app appIdx)
        (value.map .app) := by
  funext idx
  cases idx with
  | net =>
    rw [update_of_ne (by simp)]
    rfl
  | app other =>
    simp only [liveKeys, same]
    by_cases here : other = appIdx
    · rw [here, update_self, update_self]
    rw [update_of_ne here, update_of_ne fun named => here (CdbKeyIdx.app.inj named)]
    rfl

theorem cdbSubnetGet_find (used : netIdx ≠ keyUnused) :
    (cdbSubnetGet subnets netIdx).map Prod.snd =
      slotByKey CdbSubnet.key subnets netIdx := by
  unfold cdbSubnetGet slotByKey
  rw [firstSlot_find]
  congr 1
  funext sub
  simp only [CdbSubnet.key_eq_some]
  grind

theorem cdbAppKeyGet_find : (cdbAppKeyGet appKeys appIdx).map Prod.snd =
      slotByKey CdbAppKey.key appKeys appIdx := by
  unfold cdbAppKeyGet slotByKey
  rw [firstSlot_find]
  congr 1
  funext app
  simp only [CdbAppKey.key_eq_some]
  grind

theorem storeCdbKey_live (db : Cdb) :
    ∀ {idx : CdbKeyIdx}, CdbKeyHeld idx →
      storeCdbKey db idx = liveKeys db.subnets db.appKeys idx
  | .net netIdx, held => by
      simp only [storeCdbKey, liveKeys, keyedRecords]
      rw [← cdbSubnetGet_find (KeyIdxHeld.ne_unused held), Option.map_map,
        Option.map_map]
      rfl
  | .app appIdx, _ => by
      simp only [storeCdbKey, liveKeys, keyedRecords]
      rw [← cdbAppKeyGet_find, Option.map_map, Option.map_map]
      rfl

structure SubnetAllocated (subnets : List CdbSubnet) (netIdx slot : Nat)
    (sub : CdbSubnet) : Prop where
  taken : ∃ old, subnets[slot]? = some old ∧ old.netIdx = keyUnused ∧
    sub.krPhase = old.krPhase
  named : sub.netIdx = netIdx
  fresh : ∀ twin ∈ subnets, twin.netIdx ≠ netIdx

theorem cdbSubnetAlloc_allocated
    (allocated : cdbSubnetAlloc subnets netIdx = some (slot, sub)) :
    SubnetAllocated subnets netIdx slot sub := by
  unfold cdbSubnetAlloc at allocated
  split at allocated
  · cases allocated
  next missing =>
    obtain ⟨⟨_, old⟩, search, same⟩ := map_eq_some_iff.mp allocated
    cases same
    obtain ⟨found, free⟩ := firstSlot_some search
    refine ⟨⟨old, found, by simpa using free, rfl⟩, rfl, ?_⟩
    intro twin member
    rw [not_isSome_iff_eq_none] at missing
    simpa using firstSlot_eq_none.mp missing twin member

structure AppKeyAllocated (appKeys : List CdbAppKey) (netIdx appIdx slot : Nat)
    (app : CdbAppKey) : Prop where
  taken : ∃ old, appKeys[slot]? = some old ∧ old.netIdx = keyUnused
  net : app.netIdx = netIdx
  named : app.appIdx = appIdx

theorem cdbAppKeyAlloc_allocated
    (allocated : cdbAppKeyAlloc appKeys netIdx appIdx = some (slot, app)) :
    AppKeyAllocated appKeys netIdx appIdx slot app := by
  obtain ⟨⟨_, old⟩, search, same⟩ := map_eq_some_iff.mp allocated
  cases same
  obtain ⟨found, free⟩ := firstSlot_some search
  exact ⟨⟨old, found, by simpa using free⟩, rfl, rfl⟩

theorem SubnetAllocated.unique (allocated : SubnetAllocated subnets netIdx slot sub)
    (unique : KeysUnique CdbSubnet.key subnets) :
    KeysUnique CdbSubnet.key (subnets.set slot sub) := by
  apply unique.set
  intro idx named other twin there same
  obtain ⟨rfl, _⟩ := CdbSubnet.key_eq_some.mp named
  obtain ⟨twinIdx, _⟩ := CdbSubnet.key_eq_some.mp same
  exact absurd (twinIdx.trans allocated.named)
    (allocated.fresh twin (mem_of_getElem? there))

theorem AppKeyAllocated.unique
    (allocated : AppKeyAllocated appKeys netIdx appIdx slot app)
    (unique : KeysUnique CdbAppKey.key appKeys)
    (fresh : ∀ twin ∈ appKeys, twin.netIdx ≠ keyUnused → twin.appIdx ≠ appIdx) :
    KeysUnique CdbAppKey.key (appKeys.set slot app) := by
  apply unique.set
  intro idx named other twin there same
  obtain ⟨rfl, _⟩ := CdbAppKey.key_eq_some.mp named
  obtain ⟨twinIdx, used⟩ := CdbAppKey.key_eq_some.mp same
  exact absurd (twinIdx.trans allocated.named)
    (fresh twin (mem_of_getElem? there) used)

end Lookups

section Keys

variable {cfg : CdbConfig} {subnets : List CdbSubnet} {appKeys : List CdbAppKey}
variable {flag : Bool} {saved : WriteBehind CdbKeyIdx CdbKeyVal}
variable {standing : CdbKeyIdx → Standing} {slot netIdx appIdx : Nat}
variable {sub updated : CdbSubnet} {app changed : CdbAppKey}

section

variable (ok : CdbKeysOk cfg subnets appKeys flag saved standing)
include ok

theorem liveKeys_subnet
    (found : subnets[slot]? = some sub) (used : sub.netIdx ≠ keyUnused) :
    liveKeys subnets appKeys (.net sub.netIdx) = some (.net sub.val) := by
  simp only [liveKeys]
  rw [keyedRecords_found ok.subnetsUnique found (CdbSubnet.key_used used)]
  rfl

theorem liveKeys_appKey
    (found : appKeys[slot]? = some app) (used : app.netIdx ≠ keyUnused) :
    liveKeys subnets appKeys (.app app.appIdx) = some (.app app.val) := by
  simp only [liveKeys]
  rw [keyedRecords_found ok.appKeysUnique found (CdbAppKey.key_used used)]
  rfl

end

theorem forall_mem_set {Entry : Type} {fine : Entry → Prop} {entries : List Entry}
    (each : ∀ entry ∈ entries, fine entry) {entry : Entry} (new : fine entry)
    (slot : Nat) : ∀ known ∈ entries.set slot entry, fine known := by
  intro known member
  rcases mem_or_eq_of_mem_set member with before | rfl
  · exact each known before
  · exact new

namespace CdbKeysOk

section

variable (ok : CdbKeysOk cfg subnets appKeys flag saved standing)
include ok

theorem subnetAlloc (allocated : SubnetAllocated subnets netIdx slot sub)
    (held : KeyIdxHeld netIdx) :
    CdbKeysOk cfg (subnets.set slot sub) appKeys flag saved
      (update standing (.net netIdx) .unstored) := by
  obtain ⟨old, found, free, phase⟩ := allocated.taken
  have unique := allocated.unique ok.subnetsUnique
  have named : sub.key = some netIdx :=
    CdbSubnet.key_eq_some.mpr ⟨allocated.named, held.ne_unused⟩
  refine
    { ok with
      subnetsUnique := unique
      subnetSize := by rw [length_set, ok.subnetSize]
      netHeld := forall_mem_set ok.netHeld (fun _ => ?_) slot
      phases := forall_mem_set ok.phases ?_ slot
      tracks := ?_ }
  · rw [allocated.named]
    exact held
  · rw [phase]
    exact ok.phases old (mem_of_getElem? found)
  · rw [liveKeys_net (keyedRecords_put found _ named unique)]
    · apply ok.tracks.alloc
      unfold liveKeys
      rw [map_eq_none_iff, keyedRecords_eq_none]
      intro twin member same
      exact allocated.fresh twin member (CdbSubnet.key_eq_some.mp same).1
    · intro other same
      obtain ⟨rfl, used⟩ := CdbSubnet.key_eq_some.mp same
      exact absurd free used

theorem subnetChange (found : subnets[slot]? = some sub)
    (used : sub.netIdx ≠ keyUnused) (same : updated.netIdx = sub.netIdx)
    (phase : updated.krPhase < 2 ^ 7) :
    CdbKeysOk cfg (subnets.set slot updated) appKeys flag saved
      (update standing (.net sub.netIdx) (standing (.net sub.netIdx)).touched) := by
  have held := ok.netHeld sub (mem_of_getElem? found) used
  have named : updated.key = some sub.netIdx :=
    CdbSubnet.key_eq_some.mpr ⟨same, used⟩
  have unique : KeysUnique CdbSubnet.key (subnets.set slot updated) := by
    apply ok.subnetsUnique.set
    intro idx mine other twin there theirs
    rw [named] at mine
    cases mine
    exact ok.subnetsUnique other slot twin sub _ there found theirs
      (CdbSubnet.key_used used)
  refine
    { ok with
      subnetsUnique := unique
      subnetSize := by rw [length_set, ok.subnetSize]
      netHeld := forall_mem_set ok.netHeld (fun _ => ?_) slot
      phases := forall_mem_set ok.phases phase slot
      tracks := ?_ }
  · rw [same]
    exact held
  · rw [liveKeys_net (keyedRecords_put found _ named unique)]
    · exact ok.tracks.change (liveKeys_subnet ok found used)
    · intro other mine
      exact (CdbSubnet.key_eq_some.mp mine).1.symm

theorem appKeyAlloc (allocated : AppKeyAllocated appKeys netIdx appIdx slot app)
    (fresh : ∀ twin ∈ appKeys, twin.netIdx ≠ keyUnused → twin.appIdx ≠ appIdx)
    (held : KeyIdxHeld appIdx) (bound : netIdx ≠ keyUnused) :
    CdbKeysOk cfg subnets (appKeys.set slot app) flag saved
      (update standing (.app appIdx) .unstored) := by
  obtain ⟨_, found, free⟩ := allocated.taken
  have unique := allocated.unique ok.appKeysUnique fresh
  have used : app.netIdx ≠ keyUnused := by
    rw [allocated.net]
    exact bound
  have named : app.key = some appIdx :=
    CdbAppKey.key_eq_some.mpr ⟨allocated.named, used⟩
  refine
    { ok with
      appKeysUnique := unique
      appKeySize := by rw [length_set, ok.appKeySize]
      appHeld := forall_mem_set ok.appHeld (fun _ => ?_) slot
      tracks := ?_ }
  · rw [allocated.named]
    exact held
  · rw [liveKeys_app (keyedRecords_put found _ named unique)]
    · apply ok.tracks.alloc
      unfold liveKeys
      rw [map_eq_none_iff, keyedRecords_eq_none]
      intro twin member same
      obtain ⟨twinIdx, twinUsed⟩ := CdbAppKey.key_eq_some.mp same
      exact fresh twin member twinUsed twinIdx
    · intro other same
      exact absurd free (CdbAppKey.key_eq_some.mp same).2

theorem appKeyChange (found : appKeys[slot]? = some app)
    (used : app.netIdx ≠ keyUnused) (same : changed.appIdx = app.appIdx)
    (bound : changed.netIdx ≠ keyUnused) :
    CdbKeysOk cfg subnets (appKeys.set slot changed) flag saved
      (update standing (.app app.appIdx) (standing (.app app.appIdx)).touched) := by
  have held := ok.appHeld app (mem_of_getElem? found) used
  have named : changed.key = some app.appIdx :=
    CdbAppKey.key_eq_some.mpr ⟨same, bound⟩
  have unique : KeysUnique CdbAppKey.key (appKeys.set slot changed) := by
    apply ok.appKeysUnique.set
    intro idx mine other twin there theirs
    rw [named] at mine
    cases mine
    exact ok.appKeysUnique other slot twin app _ there found theirs
      (CdbAppKey.key_used used)
  refine
    { ok with
      appKeysUnique := unique
      appKeySize := by rw [length_set, ok.appKeySize]
      appHeld := forall_mem_set ok.appHeld (fun _ => ?_) slot
      tracks := ?_ }
  · rw [same]
    exact held
  · rw [liveKeys_app (keyedRecords_put found _ named unique)]
    · exact ok.tracks.change (liveKeys_appKey ok found used)
    · intro other mine
      exact (CdbAppKey.key_eq_some.mp mine).1.symm

end

theorem store {idx : CdbKeyIdx} {val : CdbKeyVal}
    (ok : CdbKeysOk cfg subnets appKeys flag saved standing)
    (held : CdbKeyHeld idx) (live : liveKeys subnets appKeys idx = some val) :
    CdbKeysOk cfg subnets appKeys (flag || !saved.full idx)
      (saved.note heldCdbKey (fun _ => some val) ⟨idx, false⟩)
      (update standing idx .stored) :=
  { ok with
    flagged := WriteBehind.note_flagged ok.flagged
    tracks := ok.tracks.store held (heldCdbKey_eq held) live rfl }

section

variable (ok : CdbKeysOk cfg subnets appKeys flag saved standing)
include ok

theorem subnetStore (found : subnets[slot]? = some sub)
    (used : sub.netIdx ≠ keyUnused) :
    CdbKeysOk cfg subnets appKeys (flag || !saved.full (.net sub.netIdx))
      (saved.note heldCdbKey (fun _ => some (.net sub.val)) ⟨.net sub.netIdx, false⟩)
      (update standing (.net sub.netIdx) .stored) :=
  ok.store (ok.netHeld sub (mem_of_getElem? found) used)
    (liveKeys_subnet ok found used)

theorem appKeyStore (found : appKeys[slot]? = some app)
    (used : app.netIdx ≠ keyUnused) :
    CdbKeysOk cfg subnets appKeys (flag || !saved.full (.app app.appIdx))
      (saved.note heldCdbKey (fun _ => some (.app app.val)) ⟨.app app.appIdx, false⟩)
      (update standing (.app app.appIdx) .stored) :=
  ok.store (ok.appHeld app (mem_of_getElem? found) used)
    (liveKeys_appKey ok found used)

theorem subnetDelete (found : subnets[slot]? = some sub)
    (used : sub.netIdx ≠ keyUnused) :
    CdbKeysOk cfg (subnets.set slot sub.deleted) appKeys
      (flag || !saved.full (.net sub.netIdx))
      (saved.note heldCdbKey (fun _ => some (.net sub.val))
        ⟨.net sub.netIdx, true⟩) standing := by
  have member := mem_of_getElem? found
  have held : CdbKeyHeld (.net sub.netIdx) := ok.netHeld sub member used
  have gone : keyedRecords CdbSubnet.key CdbSubnet.val
      (subnets.set slot sub.deleted) =
        update (keyedRecords CdbSubnet.key CdbSubnet.val subnets) sub.netIdx none :=
    keyedRecords_remove ok.subnetsUnique found (CdbSubnet.key_used used) rfl
  have phase : sub.deleted.krPhase < 2 ^ 7 := ok.phases sub member
  refine
    { ok with
      subnetsUnique := ok.subnetsUnique.set (fun _ named => by cases named)
      subnetSize := by rw [length_set, ok.subnetSize]
      netHeld := forall_mem_set ok.netHeld (fun freed => absurd rfl freed) slot
      phases := forall_mem_set ok.phases phase slot
      flagged := WriteBehind.note_flagged ok.flagged
      tracks := ?_ }
  rw [liveKeys_net gone]
  exact ok.tracks.delete held (heldCdbKey_eq held)

theorem appKeyDelete (found : appKeys[slot]? = some app)
    (used : app.netIdx ≠ keyUnused) :
    CdbKeysOk cfg subnets (appKeys.set slot app.deleted)
      (flag || !saved.full (.app app.appIdx))
      (saved.note heldCdbKey (fun _ => some (.app app.val))
        ⟨.app app.appIdx, true⟩) standing := by
  have member := mem_of_getElem? found
  have held : CdbKeyHeld (.app app.appIdx) := ok.appHeld app member used
  have gone : keyedRecords CdbAppKey.key CdbAppKey.val
      (appKeys.set slot app.deleted) =
        update (keyedRecords CdbAppKey.key CdbAppKey.val appKeys) app.appIdx none :=
    keyedRecords_remove ok.appKeysUnique found (CdbAppKey.key_used used) rfl
  refine
    { ok with
      appKeysUnique := ok.appKeysUnique.set (fun _ named => by cases named)
      appKeySize := by rw [length_set, ok.appKeySize]
      appHeld := forall_mem_set ok.appHeld (fun freed => absurd rfl freed) slot
      flagged := WriteBehind.note_flagged ok.flagged
      tracks := ?_ }
  rw [liveKeys_app gone]
  exact ok.tracks.delete held (heldCdbKey_eq held)

end

theorem flush {db : Cdb}
    (ok : CdbKeysOk cfg db.subnets db.appKeys flag saved standing) :
    CdbKeysOk cfg db.subnets db.appKeys false (saved.flush (storeCdbKey db))
      standing :=
  { ok with
    flagged := fun write member =>
      absurd member (WriteBehind.flush_pending _ saved write)
    tracks := by
      apply ok.tracks.flush
      intro write member _
      exact storeCdbKey_live db (ok.tracks.within write member) }

end CdbKeysOk

end Keys

end ZephyrBluetooth.Mesh
