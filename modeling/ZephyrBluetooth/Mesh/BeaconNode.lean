import ZephyrBluetooth.Mesh.Beacon
import ZephyrBluetooth.Mesh.Nonce

namespace ZephyrBluetooth.Mesh

open Data Function Bool

/-! The secure network beacon of a node, with the authentication value that each
subnet keeps for it, from provisioning or a power-up on. -/

structure BeaconNode extends BeaconNet where
  auths : Nat → BitVec 64

def netFlags (net : Net) (sub : Subnet) : Byte :=
  (if sub.krPhase = .phase2 then 0x01 else 0x00) |||
    (if net.ivuInProgress then 0x02 else 0x00)

def authNow (auth : BeaconAuth) (net : Net) (sub : Subnet) : BitVec 64 :=
  let keys := sub.keys.get sub.txIdx
  auth keys.beacon (netFlags net sub) keys.netId (UInt32.ofNat net.ivIndex)

inductive MeshRecord where
  | netKey (netIdx : UInt16) (key : NetKeyVal)
  | iv (record : Option IvVal)
  | seq (record : Option Nat)
  | cfg (beacon : Bool)

namespace BeaconNode

def beaconCreate (state : BeaconNode) (slot : Nat) (sub : Subnet) : SecureBeacon where
  flags := netFlags state.net sub
  netId := (sub.keys.get sub.txIdx).netId
  ivIndex := UInt32.ofNat state.net.ivIndex
  auth := state.auths slot

def beaconUpdate (auth : BeaconAuth) (slot : Nat) (state : BeaconNode) :
    BeaconNode :=
  match state.table[slot]? with
  | none => state
  | some sub =>
    { state with
      auths := update state.auths slot (authNow auth state.net sub) }

def subnetForeach (cb : Nat → BeaconNode → BeaconNode) (state : BeaconNode) :
    BeaconNode :=
  state.table.zipIdx.foldl
    (fun state entry =>
      if entry.1.netIdx = keyUnused then state else cb entry.2 state)
    state

def subnetBeaconEnable (auth : BeaconAuth) (slot : Nat) (state : BeaconNode) :
    BeaconNode :=
  beaconUpdate auth slot
    { state with
      beacons := update state.beacons slot
        { state.beacons slot with cur := 0 } }

def beaconEnable (auth : BeaconAuth) (state : BeaconNode) : BeaconNode :=
  if state.net.valid then subnetForeach (subnetBeaconEnable auth) state
  else state

def beaconSet (auth : BeaconAuth) (beacon : Bool) (state : BeaconNode) :
    BeaconNode :=
  if state.beaconEnabled = beacon then state
  else
    let set := { state with beaconEnabled := beacon }
    if beacon then beaconEnable auth set else set

def subnetEvt (auth : BeaconAuth) (evt : Option (Nat × KeyEvt))
    (state : BeaconNode) : BeaconNode :=
  match evt with
  | none => state
  | some (slot, .deleted) =>
    { state with
      beacons := update state.beacons slot ⟨.zero, 0⟩
      auths := update state.auths slot 0 }
  | some (slot, _) => beaconUpdate auth slot state

def subnetChange (auth : BeaconAuth) (change : SubnetChange)
    (state : BeaconNode) : BeaconNode :=
  subnetEvt auth change.evt { state with table := change.table }

section Steps

variable (cfg : Config) (crypto : Crypto) (auth : BeaconAuth)

def ivUpdate (ivIndex : Nat) (ivUpdate txInProgress : Bool)
    (state : BeaconNode) : BeaconNode :=
  let (updated, net) := netIvUpdate cfg state.net ivIndex ivUpdate txInProgress
  let moved := { state with net := net }
  if updated then subnetForeach (beaconUpdate auth) moved else moved

def nextSeq (txInProgress : Bool) (state : BeaconNode) : BeaconNode :=
  let advanced := { state.net with seq := (state.net.seq + 1) % 2 ^ 32 }
  let stored := if cfg.settings then storeSeq cfg advanced else advanced
  let sent := { state with net := stored }
  if !stored.ivuInProgress && decide (cfg.ivUpdateSeqLimit < stored.seq) &&
      (subnetGet state.table keyPrimary).isSome then
    ivUpdate cfg auth ((stored.ivIndex + 1) % 2 ^ 32) true txInProgress
      { sent with ivuInitiator := true }
  else
    sent

def ivuRefresh (txInProgress : Bool) (state : BeaconNode) : BeaconNode :=
  if !state.net.valid then
    state
  else
    let aged :=
      { state.net with
        ivuDuration := min 255 (state.net.ivuDuration + ivuHours cfg) }
    if aged.ivuDuration < ivuMinHours then
      { state with net := if cfg.settings then storeIv true aged else aged }
    else if aged.ivuInProgress then
      ivUpdate cfg auth aged.ivIndex false txInProgress
        { state with net := aged, ivuInitiator := true }
    else
      { state with net := if cfg.settings then storeIv true aged else aged }

/-- The end of `seg_tx_reset`. -/
def txReset (txInProgress : Bool) (state : BeaconNode) : BeaconNode :=
  if state.net.ivuPending then
    ivUpdate cfg auth state.net.ivIndex false txInProgress
      { state with net := { state.net with ivuPending := false } }
  else
    state

def stats (slot : Nat) (state : BeaconNode) : BeaconNode :=
  { state with toBeaconNet := updateStats slot state.toBeaconNet }

/-- `secure_beacon_recv` behind the look into the cache. -/
def process (beacon : SecureBeacon) (txInProgress : Bool) (state : BeaconNode) :
    BeaconNode :=
  match subnetFind state.table (fun _ sub => subnetById auth beacon sub) with
  | none => state
  | some (slot, newKey) =>
    match state.table[slot]? with
    | none => state
    | some sub =>
      if sub.krPhase = .phase2 ∧ newKey = false then
        state
      else
        let cached :=
          { state with toBeaconNet := cacheAdd slot beacon state.toBeaconNet }
        let refreshed :=
          subnetChange auth (krUpdate cached.table slot beacon.krFlag newKey) cached
        if (subnetGet refreshed.table keyPrimary).isSome = true ∧
            sub.netIdx ≠ keyPrimary then
          stats slot refreshed
        else
          stats slot
            (ivUpdate cfg auth beacon.ivIndex.toNat beacon.ivUpdate txInProgress
              { refreshed with
                ivuInitiator :=
                  if refreshed.ivuInitiator &&
                      refreshed.net.ivuInProgress == beacon.ivUpdate then false
                  else refreshed.ivuInitiator })

def recv (beacon : SecureBeacon) (txInProgress : Bool) (state : BeaconNode) :
    BeaconNode :=
  match cacheCheck state.toBeaconNet beacon with
  | some slot => stats slot state
  | none => process cfg auth beacon txInProgress state

def subnetSet (netIdx : Nat) (krPhase : KrPhase) (oldKey newKey : Option Key)
    (state : BeaconNode) : Except Errno Unit × BeaconNode :=
  let (result, table) :=
    Mesh.subnetSet cfg crypto state.table netIdx krPhase oldKey newKey
  let set := { state with table := table }
  match result, subnetAlloc state.table netIdx with
  | .ok (), some slot => (.ok (), beaconUpdate auth slot set)
  | result, _ => (result, set)

def netCreate (netIdx flags : Nat) (key : Key) (ivIndex : Nat)
    (state : BeaconNode) : Except Errno Unit × BeaconNode :=
  let (result, set) :=
    if flags % 2 = 1 then
      subnetSet cfg crypto auth netIdx .phase2 none (some key) state
    else
      subnetSet cfg crypto auth netIdx .normal (some key) none state
  match result with
  | .error err => (.error err, set)
  | .ok () => (.ok (), { set with net := netCreateIv cfg set.net flags ivIndex })

/-- `bt_mesh_start`; `adv` is whether `bt_mesh_adv_enable` succeeds. -/
def start (adv : Bool) (state : BeaconNode) : BeaconNode :=
  if !adv then state
  else if state.beaconEnabled then beaconEnable auth state
  else state

/-- `bt_mesh_provision` with the address and the IV index that it settles on. -/
def provision (adv : Bool) (netIdx flags : Nat) (key : Key) (ivIndex : Nat)
    (state : BeaconNode) : BeaconNode :=
  if state.net.valid then
    state
  else
    match netCreate cfg crypto auth netIdx flags key ivIndex
        { state with net := { state.net with valid := true } } with
    | (.error _, created) =>
      { created with net := { created.net with valid := false } }
    | (.ok (), created) =>
      start auth adv { created with net := { created.net with seq := 0 } }

def load (record : MeshRecord) (state : BeaconNode) : BeaconNode :=
  match record with
  | .netKey netIdx key =>
    (subnetSet cfg crypto auth netIdx.toNat key.krPhase (some key.val.old)
      (if key.krPhase ≠ .normal then some key.val.new else none) state).2
  | .iv record => { state with net := ivSet record state.net }
  | .seq record => { state with net := seqSet cfg record state.net }
  | .cfg beacon => beaconSet auth beacon state

def commit (adv : Bool) (state : BeaconNode) : BeaconNode :=
  if state.table.any fun sub => sub.netIdx != keyUnused then
    start auth adv { state with net := { state.net with valid := true } }
  else
    state

def boot (beaconDefault : Bool) (count : Nat) (rpl : ReplayList) :
    BeaconNode where
  net := ⟨0, 0, false, false, false, false, 0, false, false, rpl⟩
  table := List.replicate count Subnet.unused
  ivuInitiator := false
  beaconEnabled := beaconDefault
  beacons _ := ⟨.zero, 0⟩
  auths _ := 0

def powerUp (beaconDefault : Bool) (rpl : ReplayList) (records : List MeshRecord)
    (adv : Bool) (state : BeaconNode) : BeaconNode :=
  commit auth adv
    (records.foldl (fun state record => load cfg crypto auth record state)
      (boot beaconDefault state.table.length rpl))

def inUse (state : BeaconNode) (slot : Nat) : Bool :=
  state.table[slot]?.any fun sub => sub.netIdx != keyUnused

/-- `subnet_del` for every subnet. -/
def netKeysReset (state : BeaconNode) : BeaconNode :=
  { state with
    table := state.table.map fun sub =>
      if sub.netIdx = keyUnused then sub else Subnet.unused
    beacons := fun slot =>
      if state.inUse slot then ⟨.zero, 0⟩ else state.beacons slot
    auths := fun slot => if state.inUse slot then 0 else state.auths slot }

def reset (beaconDefault : Bool) (state : BeaconNode) : BeaconNode :=
  if !state.net.valid then
    state
  else
    netKeysReset
      { state with
        net :=
          { state.net with
            ivIndex := 0
            seq := 0
            valid := false
            ivuInProgress := false
            ivuTest := false
            ivuPending := false
            ivuDuration := 0
            ivPending := state.net.ivPending || cfg.settings
            seqPending := state.net.seqPending || cfg.settings
            rpl := rplClear cfg state.net.rpl }
        ivuInitiator := false
        beaconEnabled := beaconDefault }

end Steps

end BeaconNode

inductive BeaconNodeInput where
  | beacon (beacon : SecureBeacon) (txInProgress : Bool)
  | add (netIdx : NetIdx) (key : Key)
  | update (netIdx : NetIdx) (key : Key)
  | del (netIdx : NetIdx)
  | krPhaseSet (netIdx : NetIdx) (phase : UInt8)
  | krUpdate (netIdx : NetIdx) (krFlag newKey : Bool)
  | ivUpdate (ivIndex : UInt32) (ivUpdate txInProgress : Bool)
  | ivuRefresh (txInProgress : Bool)
  | ivUpdateTest (enable : Bool)
  | nextSeq (txInProgress : Bool)
  | txReset (txInProgress : Bool)
  | beaconSet (beacon : Bool)
  | provision (adv : Bool) (netIdx : UInt16) (flags : UInt8) (key : Key)
      (ivIndex : UInt32)
  | powerUp (rpl : ReplayList) (records : List MeshRecord) (adv : Bool)
  | reset

def beaconNodeStep (cfg : Config) (crypto : Crypto) (auth : BeaconAuth)
    (beaconDefault : Bool) (state : BeaconNode) : BeaconNodeInput → BeaconNode
  | .beacon beacon txInProgress => state.recv cfg auth beacon txInProgress
  | .add netIdx key =>
    state.subnetChange auth (subnetAdd cfg crypto state.table netIdx.val key).2
  | .update netIdx key =>
    state.subnetChange auth (subnetUpdate cfg crypto state.table netIdx.val key).2
  | .del netIdx => state.subnetChange auth (subnetDel state.table netIdx.val).2
  | .krPhaseSet netIdx phase =>
    state.subnetChange auth (subnetKrPhaseSet state.table netIdx.val phase.toNat).2.2
  | .krUpdate netIdx krFlag newKey =>
    match subnetGet state.table netIdx.val with
    | none => state
    | some slot => state.subnetChange auth (krUpdate state.table slot krFlag newKey)
  | .ivUpdate ivIndex ivUpdate txInProgress =>
    state.ivUpdate cfg auth ivIndex.toNat ivUpdate txInProgress
  | .ivuRefresh txInProgress => state.ivuRefresh cfg auth txInProgress
  | .ivUpdateTest enable => { state with net := ivUpdateTest state.net enable }
  | .nextSeq txInProgress => state.nextSeq cfg auth txInProgress
  | .txReset txInProgress => state.txReset cfg auth txInProgress
  | .beaconSet beacon => state.beaconSet auth beacon
  | .provision adv netIdx flags key ivIndex =>
    state.provision cfg crypto auth adv netIdx.toNat flags.toNat key ivIndex.toNat
  | .powerUp rpl records adv =>
    state.powerUp cfg crypto auth beaconDefault rpl records adv
  | .reset => state.reset cfg beaconDefault

def beaconNodeMachine (cfg : Config) (crypto : Crypto) (auth : BeaconAuth)
    (beaconDefault : Bool) : Machine BeaconNode BeaconNodeInput Empty where
  step state input := (beaconNodeStep cfg crypto auth beaconDefault state input, [])

namespace BeaconNode

@[simp] theorem beaconUpdate_toBeaconNet (auth : BeaconAuth) (slot : Nat)
    (state : BeaconNode) :
    (state.beaconUpdate auth slot).toBeaconNet = state.toBeaconNet := by
  unfold beaconUpdate
  split <;> rfl

theorem subnetForeach_keeps {β : Type} {view : BeaconNode → β}
    {cb : Nat → BeaconNode → BeaconNode}
    (keeps : ∀ slot state, view (cb slot state) = view state)
    (state : BeaconNode) : view (state.subnetForeach cb) = view state := by
  unfold subnetForeach
  generalize state.table.zipIdx = entries
  induction entries generalizing state with
  | nil => rfl
  | cons entry rest ih =>
    rw [List.foldl_cons, ih]
    split
    · rfl
    · exact keeps entry.2 state

theorem subnetChange_toBeaconNet (auth : BeaconAuth) (change : SubnetChange)
    (state : BeaconNode) :
    (state.subnetChange auth change).toBeaconNet =
      { state.toBeaconNet with
        table := change.table
        beacons := clearDeleted change.evt state.beacons } := by
  obtain ⟨table, evt⟩ := change
  cases evt with
  | none => rfl
  | some raised =>
    obtain ⟨slot, evt⟩ := raised
    cases evt with
    | deleted => rfl
    | added => exact beaconUpdate_toBeaconNet auth slot _
    | updated => exact beaconUpdate_toBeaconNet auth slot _
    | swapped => exact beaconUpdate_toBeaconNet auth slot _
    | revoked => exact beaconUpdate_toBeaconNet auth slot _

end BeaconNode

end ZephyrBluetooth.Mesh
