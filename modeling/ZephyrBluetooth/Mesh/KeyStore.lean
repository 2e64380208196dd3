import ZephyrBluetooth.Data.Machine
import ZephyrBluetooth.Data.WriteBehind
import ZephyrBluetooth.Mesh.AppKeys

namespace ZephyrBluetooth.Mesh

open Data

/-- What `key_idx` of a pending update holds of an index. -/
def heldKeyIdx (idx : Nat) : Nat := idx % 2 ^ 12

structure AppKeyVal where
  netIdx : Nat
  updated : Bool
  val : Slots Key

def storeAppKey (apps : List AppKey) (appIdx : Nat) : Option AppKeyVal :=
  match appGet apps appIdx with
  | none => none
  | some slot =>
    apps[slot]?.map fun app =>
      ⟨app.netIdx, app.updated, ⟨app.keys.old.val, app.keys.new.val⟩⟩

structure NetKeyStore where
  subs : List Subnet
  saved : WriteBehind Nat NetKeyVal

structure AppKeyStore where
  apps : List AppKey
  saved : WriteBehind Nat AppKeyVal

structure KeyStore where
  net : NetKeyStore
  app : AppKeyStore

section Operations

variable (cfg : Config)

def NetKeyStore.updateSubnetSettings (state : NetKeyStore) (netIdx : Nat)
    (store : Bool) : NetKeyStore :=
  if cfg.settings then
    { state with
      saved := state.saved.note heldKeyIdx (storeSubnet state.subs)
        ⟨netIdx, !store⟩ }
  else
    state

def AppKeyStore.updateAppKeySettings (state : AppKeyStore) (appIdx : Nat)
    (store : Bool) : AppKeyStore :=
  if cfg.settings then
    { state with
      saved := state.saved.note heldKeyIdx (storeAppKey state.apps)
        ⟨appIdx, !store⟩ }
  else
    state

def AppKeyStore.delete (state : AppKeyStore) (slot : Nat) (app : AppKey) :
    AppKeyStore :=
  { state.updateAppKeySettings cfg app.appIdx false with
    apps := state.apps.set slot app.deleted }

def AppKeyStore.revoke (state : AppKeyStore) (slot : Nat) (app : AppKey) :
    AppKeyStore :=
  if app.updated then
    { state with apps := state.apps.set slot app.revoked }.updateAppKeySettings
      cfg app.appIdx true
  else
    state

/-- One turn of the loop in `subnet_evt` of `app_keys.c`. -/
def AppKeyStore.subnetEvtAt (netIdx : Nat) (evt : KeyEvt) (state : AppKeyStore)
    (slot : Nat) : AppKeyStore :=
  match state.apps[slot]? with
  | none => state
  | some app =>
    if app.appIdx = keyUnused ∨ app.netIdx ≠ netIdx then
      state
    else
      match evt with
      | .deleted => state.delete cfg slot app
      | .revoked => state.revoke cfg slot app
      | .added | .updated | .swapped => state

def AppKeyStore.subnetEvt (netIdx : Nat) (evt : KeyEvt) (state : AppKeyStore) :
    AppKeyStore :=
  (List.range state.apps.length).foldl (subnetEvtAt cfg netIdx evt) state

def AppKeyStore.announce (state : AppKeyStore) (evt : Nat × KeyEvt) :
    AppKeyStore :=
  match evt with
  | (appIdx, .deleted) => state.updateAppKeySettings cfg appIdx false
  | (_, .swapped) => state
  | (appIdx, _) => state.updateAppKeySettings cfg appIdx true

def AppKeyStore.change (state : AppKeyStore) (change : AppChange) :
    AppKeyStore :=
  change.evts.foldl (announce cfg) { state with apps := change.apps }

def KeyStore.subnetChange (state : KeyStore) (change : SubnetChange) :
    KeyStore :=
  match change.evt with
  | none => { state with net := { state.net with subs := change.table } }
  | some (slot, .deleted) =>
    match state.net.subs[slot]? with
    | none => { state with net := { state.net with subs := change.table } }
    | some sub =>
      { net :=
          { state.net.updateSubnetSettings cfg sub.netIdx false with
            subs := change.table }
        app := state.app.subnetEvt cfg sub.netIdx .deleted }
  | some (slot, evt) =>
    match change.table[slot]? with
    | none => { state with net := { state.net with subs := change.table } }
    | some sub =>
      { net :=
          { state.net with subs := change.table }.updateSubnetSettings cfg
            sub.netIdx true
        app := state.app.subnetEvt cfg sub.netIdx evt }

def KeyStore.appChange (state : KeyStore) (change : AppChange) : KeyStore :=
  { state with app := state.app.change cfg change }

def NetKeyStore.netCreate (crypto : Crypto) (netIdx flags : Nat) (key : Key)
    (state : NetKeyStore) : NetKeyStore :=
  match netCreateSubnet cfg crypto state.subs netIdx flags key with
  | (.error _, table) => { state with subs := table }
  | (.ok (), table) =>
    { state with subs := table }.updateSubnetSettings cfg netIdx true

def NetKeyStore.pendingStore (state : NetKeyStore) : NetKeyStore :=
  { state with saved := state.saved.flush (storeSubnet state.subs) }

def AppKeyStore.pendingStore (state : AppKeyStore) : AppKeyStore :=
  { state with saved := state.saved.flush (storeAppKey state.apps) }

end Operations

inductive KeyStoreInput where
  | netCreate (netIdx : UInt16) (flags : UInt8) (key : Key)
  | subnetAdd (netIdx : UInt16) (key : Key)
  | subnetUpdate (netIdx : UInt16) (key : Key)
  | subnetDel (netIdx : UInt16)
  | krPhaseSet (netIdx : UInt16) (phase : UInt8)
  | krUpdate (netIdx : UInt16) (krFlag newKey : Bool)
  | appKeyAdd (appIdx netIdx : UInt16) (key : Key)
  | appKeyUpdate (appIdx netIdx : UInt16) (key : Key)
  | appKeyDel (appIdx netIdx : UInt16)
  | subnetPendingStore
  | appKeyPendingStore

section Step

variable (cfg : Config) (crypto : Crypto) (appId : AppId)

def keyStoreStep (state : KeyStore) : KeyStoreInput → KeyStore
  | .netCreate netIdx flags key =>
    { state with
      net := state.net.netCreate cfg crypto netIdx.toNat flags.toNat key }
  | .subnetAdd netIdx key =>
    state.subnetChange cfg (subnetAdd cfg crypto state.net.subs netIdx.toNat key).2
  | .subnetUpdate netIdx key =>
    state.subnetChange cfg
      (subnetUpdate cfg crypto state.net.subs netIdx.toNat key).2
  | .subnetDel netIdx =>
    state.subnetChange cfg (subnetDel state.net.subs netIdx.toNat).2
  | .krPhaseSet netIdx phase =>
    state.subnetChange cfg
      (subnetKrPhaseSet state.net.subs netIdx.toNat phase.toNat).2.2
  | .krUpdate netIdx krFlag newKey =>
    match subnetGet state.net.subs netIdx.toNat with
    | none => state
    | some slot =>
      state.subnetChange cfg (krUpdate state.net.subs slot krFlag newKey)
  | .appKeyAdd appIdx netIdx key =>
    state.appChange cfg
      (appKeyAdd appId state.net.subs state.app.apps appIdx.toNat netIdx.toNat key).2
  | .appKeyUpdate appIdx netIdx key =>
    state.appChange cfg
      (appKeyUpdate appId state.net.subs state.app.apps appIdx.toNat
        netIdx.toNat key).2
  | .appKeyDel appIdx netIdx =>
    state.appChange cfg
      (appKeyDel state.net.subs state.app.apps appIdx.toNat netIdx.toNat).2
  | .subnetPendingStore => { state with net := state.net.pendingStore }
  | .appKeyPendingStore => { state with app := state.app.pendingStore }

def keyStoreMachine : Machine KeyStore KeyStoreInput Empty where
  step state input := (keyStoreStep cfg crypto appId state input, [])

end Step

def Subnet.key (sub : Subnet) : Option Nat :=
  if sub.netIdx = keyUnused then none else some sub.netIdx

def AppKey.key (app : AppKey) : Option Nat :=
  if app.appIdx = keyUnused then none else some app.appIdx

def Subnet.record (sub : Subnet) : NetKeyVal :=
  ⟨sub.krPhase, ⟨sub.keys.old.net, sub.keys.new.net⟩⟩

def AppKey.record (app : AppKey) : AppKeyVal :=
  ⟨app.netIdx, app.updated, ⟨app.keys.old.val, app.keys.new.val⟩⟩

def Subnet.Kept (sub : Subnet) (record : NetKeyVal) : Prop :=
  record.krPhase = sub.krPhase ∧ ∀ idx, (sub.keys.get idx).valid = true →
      record.val.get idx = (sub.keys.get idx).net

def AppKey.Kept (app : AppKey) (record : AppKeyVal) : Prop :=
  record = app.record

structure KeyStore.Persisted (state : KeyStore) : Prop where
  net : ∀ netIdx, Option.Rel Subnet.Kept
    (slotByKey Subnet.key state.net.subs netIdx) (state.net.saved.records netIdx)
  app : ∀ appIdx, Option.Rel AppKey.Kept
    (slotByKey AppKey.key state.app.apps appIdx) (state.app.saved.records appIdx)

def KeyIdxHeld (idx : Nat) : Prop := idx < 2 ^ 12

theorem heldKeyIdx_eq {idx : Nat} (small : KeyIdxHeld idx) :
    heldKeyIdx idx = idx :=
  Nat.mod_eq_of_lt small

theorem KeyIdxHeld.ne_unused {idx : Nat} (small : KeyIdxHeld idx) :
    idx ≠ keyUnused := by
  unfold KeyIdxHeld at small
  unfold keyUnused
  omega

theorem Subnet.kept_record (sub : Subnet) : sub.Kept sub.record := by
  refine ⟨rfl, ?_⟩
  intro idx _
  cases idx <;> rfl

theorem AppKey.kept_record (app : AppKey) : app.Kept app.record := rfl

theorem Subnet.key_eq_some {sub : Subnet} {netIdx : Nat} :
    sub.key = some netIdx ↔ sub.netIdx = netIdx ∧ netIdx ≠ keyUnused := by
  unfold Subnet.key
  split <;> grind

theorem AppKey.key_eq_some {app : AppKey} {appIdx : Nat} :
    app.key = some appIdx ↔ app.appIdx = appIdx ∧ appIdx ≠ keyUnused := by
  unfold AppKey.key
  split <;> grind

def subnetAt (subs : List Subnet) (netIdx : Nat) : Option Subnet :=
  subs.find? fun sub => sub.netIdx == netIdx

def appAt (apps : List AppKey) (appIdx : Nat) : Option AppKey :=
  apps.find? fun app => app.appIdx == appIdx

theorem storeSubnet_lookup (subs : List Subnet) :
    storeSubnet subs = fun netIdx => (subnetAt subs netIdx).map Subnet.record := by
  funext netIdx
  unfold storeSubnet subnetAt subnetGet
  rw [List.find?_eq_bind_findIdx?_getElem?]
  cases subs.findIdx? fun sub => sub.netIdx == netIdx <;> rfl

theorem storeAppKey_lookup (apps : List AppKey) :
    storeAppKey apps = fun appIdx => (appAt apps appIdx).map AppKey.record := by
  funext appIdx
  unfold storeAppKey appAt appGet
  rw [List.find?_eq_bind_findIdx?_getElem?]
  cases apps.findIdx? fun app => app.appIdx == appIdx <;> rfl

theorem subnetAt_eq (subs : List Subnet) {netIdx : Nat}
    (used : netIdx ≠ keyUnused) :
    subnetAt subs netIdx = slotByKey Subnet.key subs netIdx := by
  unfold subnetAt slotByKey
  congr 1
  funext sub
  simp only [Subnet.key_eq_some]
  grind

theorem appAt_eq (apps : List AppKey) {appIdx : Nat} (used : appIdx ≠ keyUnused) :
    appAt apps appIdx = slotByKey AppKey.key apps appIdx := by
  unfold appAt slotByKey
  congr 1
  funext app
  simp only [AppKey.key_eq_some]
  grind

end ZephyrBluetooth.Mesh
