import ZephyrBluetooth.Mesh.Net
import ZephyrBluetooth.Mesh.SubnetStore

namespace ZephyrBluetooth.Mesh

open Data Function

variable {txInProgress : Bool}

/-! The reception of secure network beacons in `beacon.c` with the cache of the
last authenticated beacon of each subnet, against the same reception without the
cache. -/

structure SecureBeacon where
  flags : Byte
  netId : BitVec 64
  ivIndex : UInt32
  auth : BitVec 64
  deriving DecidableEq

def SecureBeacon.zero : SecureBeacon := ⟨0, 0, 0, 0⟩

def SecureBeacon.krFlag (beacon : SecureBeacon) : Bool :=
  beacon.flags.getLsbD 0

def SecureBeacon.ivUpdate (beacon : SecureBeacon) : Bool :=
  beacon.flags.getLsbD 1

/-- The authentication value that `bt_mesh_beacon_auth` leaves for a beacon key,
the flags, a network id and an IV index. -/
abbrev BeaconAuth := Key → Byte → BitVec 64 → UInt32 → BitVec 64

/-- The beacon fields of `struct bt_mesh_subnet`. -/
structure SubnetBeacon where
  cache : SecureBeacon
  cur : Nat

structure BeaconNet where
  net : Net
  table : List Subnet
  ivuInitiator : Bool
  beaconEnabled : Bool
  beacons : Nat → SubnetBeacon

variable {state twin : BeaconNet}

def subnetFind {Found : Type} (table : List Subnet)
    (cb : Nat → Subnet → Option Found) : Option (Nat × Found) :=
  table.zipIdx.findSome? fun entry =>
    if entry.1.netIdx = keyUnused then none
    else (cb entry.2 entry.1).map fun found => (entry.2, found)

def cacheCheck (state : BeaconNet) (beacon : SecureBeacon) : Option Nat :=
  (subnetFind state.table fun slot _ =>
    if (state.beacons slot).cache = beacon then some () else none).map (·.1)

def cacheAdd (slot : Nat) (beacon : SecureBeacon) (state : BeaconNet) : BeaconNet :=
  { state with
    beacons := update state.beacons slot
      { state.beacons slot with cache := beacon } }

def authMatch (auth : BeaconAuth) (beacon : SecureBeacon) (keys : SubnetKeys) :
    Bool :=
  decide (beacon.netId = keys.netId) &&
    decide (beacon.auth = auth keys.beacon beacon.flags keys.netId beacon.ivIndex)

def subnetById (auth : BeaconAuth) (beacon : SecureBeacon) (sub : Subnet) :
    Option Bool :=
  if sub.keys.old.valid && authMatch auth beacon sub.keys.old then
    some false
  else if sub.keys.new.valid && authMatch auth beacon sub.keys.new then
    some true
  else
    none

def updateStats (slot : Nat) (state : BeaconNet) : BeaconNet :=
  if state.beaconEnabled && decide ((state.beacons slot).cur < 0xff) then
    { state with
      beacons := update state.beacons slot
        { state.beacons slot with cur := (state.beacons slot).cur + 1 } }
  else
    state

/-- The part of `secure_beacon_recv` behind the look into the cache. -/
def beaconProcess (cfg : Config) (auth : BeaconAuth) (beacon : SecureBeacon)
    (txInProgress : Bool) (state : BeaconNet) : BeaconNet :=
  match subnetFind state.table (fun _ sub => subnetById auth beacon sub) with
  | none => state
  | some (slot, newKey) =>
    match state.table[slot]? with
    | none => state
    | some sub =>
      if sub.krPhase = .phase2 ∧ newKey = false then
        state
      else
        let cached := cacheAdd slot beacon state
        let refreshed :=
          { cached with
            table := (krUpdate cached.table slot beacon.krFlag newKey).table }
        if (subnetGet refreshed.table keyPrimary).isSome = true ∧
            sub.netIdx ≠ keyPrimary then
          updateStats slot refreshed
        else
          updateStats slot
            { refreshed with
              ivuInitiator :=
                if refreshed.ivuInitiator &&
                    refreshed.net.ivuInProgress == beacon.ivUpdate then false
                else refreshed.ivuInitiator
              net := (netIvUpdate cfg refreshed.net beacon.ivIndex.toNat
                beacon.ivUpdate txInProgress).2 }

def secureBeaconRecv (cfg : Config) (auth : BeaconAuth) (beacon : SecureBeacon)
    (txInProgress : Bool) (state : BeaconNet) : BeaconNet :=
  match cacheCheck state beacon with
  | some slot => updateStats slot state
  | none => beaconProcess cfg auth beacon txInProgress state

/-- The key commands, the IV update timer and the other places that call
`bt_mesh_net_iv_update`. -/
inductive NetCommand where
  | subnet (input : SubnetInput)
  | ivUpdate (ivIndex : UInt32) (ivUpdate txInProgress : Bool)
  | ivuRefresh (txInProgress : Bool)
  | ivUpdateTest (enable : Bool)
  | nextSeq (txInProgress : Bool)
  | txReset (txInProgress : Bool)

inductive BeaconInput where
  | beacon (beacon : SecureBeacon) (txInProgress : Bool)
  | command (command : NetCommand)

/-- The end of `seg_tx_reset`. -/
def ivuProceed (cfg : Config) (net : Net) (txInProgress : Bool) : Net :=
  if net.ivuPending then
    (netIvUpdate cfg { net with ivuPending := false } net.ivIndex false
      txInProgress).2
  else
    net

def ivuRefreshLeads (cfg : Config) (net : Net) : Bool :=
  net.valid && net.ivuInProgress &&
    decide (ivuMinHours ≤ min 255 (net.ivuDuration + ivuHours cfg))

def nextSeqLeads (cfg : Config) (net : Net) (primary : Bool) : Bool :=
  !net.ivuInProgress && decide (cfg.ivUpdateSeqLimit < (net.seq + 1) % 2 ^ 32) &&
    primary

/-- `subnet_del` clears the whole `struct bt_mesh_subnet`. -/
def clearDeleted (evt : Option (Nat × KeyEvt)) (beacons : Nat → SubnetBeacon) :
    Nat → SubnetBeacon :=
  match evt with
  | some (slot, .deleted) => update beacons slot ⟨.zero, 0⟩
  | _ => beacons

def netCommand (cfg : Config) (crypto : Crypto) (state : BeaconNet) :
    NetCommand → BeaconNet
  | .subnet input =>
    let change := subnetStep cfg crypto state.table input
    { state with
      table := change.table
      beacons := clearDeleted change.evt state.beacons }
  | .ivUpdate ivIndex ivUpdate txInProgress =>
    { state with
      net := (netIvUpdate cfg state.net ivIndex.toNat ivUpdate txInProgress).2 }
  | .ivuRefresh txInProgress =>
    { state with
      ivuInitiator := ivuRefreshLeads cfg state.net || state.ivuInitiator
      net := ivuRefresh cfg state.net txInProgress }
  | .ivUpdateTest enable => { state with net := ivUpdateTest state.net enable }
  | .nextSeq txInProgress =>
    let primary := (subnetGet state.table keyPrimary).isSome
    { state with
      ivuInitiator := nextSeqLeads cfg state.net primary || state.ivuInitiator
      net := (nextSeq cfg state.net primary txInProgress).2 }
  | .txReset txInProgress =>
    { state with net := ivuProceed cfg state.net txInProgress }

def cachedMachine (cfg : Config) (crypto : Crypto) (auth : BeaconAuth) :
    Machine BeaconNet BeaconInput Unit where
  step state input :=
    match input with
    | .beacon beacon txInProgress =>
      (secureBeaconRecv cfg auth beacon txInProgress state, [])
    | .command command => (netCommand cfg crypto state command, [])

def uncachedMachine (cfg : Config) (crypto : Crypto) (auth : BeaconAuth) :
    Machine BeaconNet BeaconInput Unit where
  step state input :=
    match input with
    | .beacon beacon txInProgress =>
      (beaconProcess cfg auth beacon txInProgress state, [])
    | .command command => (netCommand cfg crypto state command, [])

def krIdle (sub : Subnet) (krFlag newKey : Bool) : Prop :=
  newKey = true → sub.krPhase ≠ .phase1 ∧ (sub.krPhase = .phase2 → krFlag = true)

def ivuTooEarly (cfg : Config) (net : Net) : Prop :=
  (cfg.ivUpdateTest && net.ivuTest) = false ∧ net.ivuDuration < ivuMinHours

def ivIdle (cfg : Config) (net : Net) (ivIndex : Nat)
    (ivUpdate txInProgress : Bool) : Prop :=
  if net.ivuInProgress then
    ivIndex = net.ivIndex → ivUpdate = false →
      ivuTooEarly cfg net ∨ txInProgress = true ∧ net.ivuPending = true
  else
    net.ivIndex < ivIndex → ivIndex ≤ (net.ivIndex + 42) % 2 ^ 32 →
      ivIndex = net.ivIndex + 1 ∧ (ivUpdate = true → ivuTooEarly cfg net)

def beaconIdle (cfg : Config) (auth : BeaconAuth) (beacon : SecureBeacon)
    (txInProgress : Bool) (state : BeaconNet) : Prop :=
  ∀ slot newKey sub,
    subnetFind state.table (fun _ sub => subnetById auth beacon sub) =
      some (slot, newKey) →
    state.table[slot]? = some sub → (sub.krPhase = .phase2 → newKey = true) →
      krIdle sub beacon.krFlag newKey ∧
        (((subnetGet state.table keyPrimary).isSome = true →
            sub.netIdx = keyPrimary) →
          ivIdle cfg state.net beacon.ivIndex.toNat beacon.ivUpdate txInProgress)

@[simp] theorem updateStats_net (slot : Nat) (state : BeaconNet) :
    (updateStats slot state).net = state.net := by
  unfold updateStats
  split <;> rfl

@[simp] theorem updateStats_table (slot : Nat) (state : BeaconNet) :
    (updateStats slot state).table = state.table := by
  unfold updateStats
  split <;> rfl

theorem krUpdate_idle {table : List Subnet} {slot : Nat} {sub : Subnet}
    {krFlag newKey : Bool} (here : table[slot]? = some sub)
    (idle : krIdle sub krFlag newKey) :
    (krUpdate table slot krFlag newKey).table = table := by
  unfold krUpdate
  rw [here]
  cases newKey with
  | false => rfl
  | true =>
    obtain ⟨notFirst, second⟩ := idle rfl
    have kept : ¬ (sub.krPhase = .phase2 ∧ krFlag = false) := by
      rintro ⟨phase, flag⟩
      rw [second phase] at flag
      cases flag
    simp [notFirst, kept, SubnetChange.none]

variable {cfg : Config}

theorem ivUpdateGuarded_idle {net : Net} {ivIndex : Nat}
    {ivUpdate : Bool} (idle : ivuTooEarly cfg net ∨
      ivUpdate = false ∧ txInProgress = true ∧ net.ivuPending = true) :
    (ivUpdateGuarded cfg net ivIndex ivUpdate txInProgress).2 = net := by
  unfold ivUpdateGuarded
  rcases idle with ⟨notTest, early⟩ | ⟨flag, busy, pending⟩
  · rw [notTest]
    simp [early]
  subst flag busy
  split
  · rfl
  · simp [← pending]

theorem netIvUpdate_idle {net : Net} {ivIndex : Nat}
    {ivUpdate : Bool} (idle : ivIdle cfg net ivIndex ivUpdate txInProgress)
    (bound : ivIndex < 2 ^ 32) :
    (netIvUpdate cfg net ivIndex ivUpdate txInProgress).2 = net := by
  unfold ivIdle at idle
  unfold netIvUpdate
  by_cases inProgress : net.ivuInProgress = true
  · rw [if_pos inProgress] at idle ⊢
    split
    · rfl
    rename_i same
    split
    · rfl
    rename_i flag
    rw [Bool.not_eq_true] at flag
    apply ivUpdateGuarded_idle
    rcases idle (not_not.mp same) flag with early | deferred
    · exact .inl early
    · exact .inr ⟨flag, deferred⟩
  · rw [if_neg inProgress] at idle ⊢
    split
    · rfl
    rename_i different
    split
    · rfl
    rename_i window
    have ahead : net.ivIndex < ivIndex := by omega
    obtain ⟨_, guarded⟩ := idle ahead (by omega)
    have noWrap : (net.ivIndex + 1) % 2 ^ 32 = net.ivIndex + 1 :=
      Nat.mod_eq_of_lt (by omega)
    rw [noWrap, if_neg (by omega)]
    split
    · rfl
    split
    · rfl
    rename_i flag
    apply ivUpdateGuarded_idle
    exact .inl (guarded (by simpa using flag))

theorem beaconProcess_idle {auth : BeaconAuth}
    {beacon : SecureBeacon} (idle : beaconIdle cfg auth beacon txInProgress state) :
    (beaconProcess cfg auth beacon txInProgress state).net = state.net ∧
      (beaconProcess cfg auth beacon txInProgress state).table = state.table := by
  unfold beaconProcess
  split
  · exact ⟨rfl, rfl⟩
  rename_i slot newKey found
  split
  · exact ⟨rfl, rfl⟩
  rename_i sub here
  split
  · exact ⟨rfl, rfl⟩
  rename_i accepted
  have admitted : sub.krPhase = .phase2 → newKey = true := by
    intro phase
    by_contra old
    exact accepted ⟨phase, by simpa using old⟩
  obtain ⟨kr, iv⟩ := idle slot newKey sub found here admitted
  have same := krUpdate_idle here kr
  have kept : (krUpdate (cacheAdd slot beacon state).table slot beacon.krFlag
      newKey).table = state.table := same
  simp only [kept]
  split
  · simp only [updateStats_net, updateStats_table, and_true]
    rfl
  rename_i primary
  simp only [updateStats_net, updateStats_table, and_true]
  apply netIvUpdate_idle
  · apply iv
    intro isPrimary
    by_contra other
    exact primary ⟨isPrimary, other⟩
  · exact beacon.ivIndex.toNat_lt

structure Agree (state twin : BeaconNet) : Prop where
  net : twin.net = state.net
  table : twin.table = state.table

theorem beaconProcess_agree (cfg : Config) (auth : BeaconAuth)
    (beacon : SecureBeacon) (txInProgress : Bool) (agree : Agree state twin) :
    Agree (beaconProcess cfg auth beacon txInProgress state)
      (beaconProcess cfg auth beacon txInProgress twin) := by
  obtain ⟨_, _, _, _, _⟩ := state
  obtain ⟨_, _, _, _, _⟩ := twin
  obtain ⟨rfl, rfl⟩ := agree
  unfold beaconProcess
  dsimp only [cacheAdd]
  split
  · exact ⟨rfl, rfl⟩
  split
  · exact ⟨rfl, rfl⟩
  split
  · exact ⟨rfl, rfl⟩
  split
  · constructor <;> simp
  · constructor <;> simp

theorem netCommand_agree (cfg : Config) (crypto : Crypto) (command : NetCommand)
    (agree : Agree state twin) : Agree (netCommand cfg crypto state command)
      (netCommand cfg crypto twin command) := by
  cases command with
  | subnet => exact ⟨agree.net, by simp only [netCommand, agree.table]⟩
  | ivUpdate => exact ⟨by simp only [netCommand, agree.net], agree.table⟩
  | ivuRefresh => exact ⟨by simp only [netCommand, agree.net], agree.table⟩
  | ivUpdateTest => exact ⟨by simp only [netCommand, agree.net], agree.table⟩
  | nextSeq =>
    exact ⟨by simp only [netCommand, agree.net, agree.table], agree.table⟩
  | txReset => exact ⟨by simp only [netCommand, agree.net], agree.table⟩

def cacheAdmitted (cfg : Config) (auth : BeaconAuth) (state : BeaconNet) :
    BeaconInput → Prop
  | .beacon beacon txInProgress =>
    (cacheCheck state beacon).isSome = true →
      beaconIdle cfg auth beacon txInProgress state
  | .command _ => True

theorem cachedStep_agree (cfg : Config) (crypto : Crypto) (auth : BeaconAuth)
    (input : BeaconInput) (agree : Agree state twin)
    (admitted : cacheAdmitted cfg auth state input) :
    Agree ((cachedMachine cfg crypto auth).next state input)
      ((uncachedMachine cfg crypto auth).next twin input) := by
  cases input with
  | beacon beacon txInProgress =>
    have processed := beaconProcess_agree cfg auth beacon txInProgress agree
    simp only [Machine.next, cachedMachine, uncachedMachine, secureBeaconRecv]
    cases hit : cacheCheck state beacon with
    | none => exact processed
    | some =>
      obtain ⟨net, table⟩ := beaconProcess_idle (admitted (by rw [hit]; rfl))
      exact ⟨processed.net.trans (net.trans (updateStats_net ..).symm),
        processed.table.trans (table.trans (updateStats_table ..).symm)⟩
  | command command => exact netCommand_agree cfg crypto command agree

structure NetOutcome where
  ivIndex : Nat
  ivuInProgress : Bool
  seq : Nat
  krPhases : List KrPhase
  deriving DecidableEq

def netOutcome (state : BeaconNet) : NetOutcome :=
  ⟨state.net.ivIndex, state.net.ivuInProgress, state.net.seq,
    state.table.map (·.krPhase)⟩

/-- The cache makes no difference in a run in which the beacons that are found in
it are idle. -/
theorem beacon_cache_transparent (cfg : Config) (crypto : Crypto)
    (auth : BeaconAuth) (state : BeaconNet) (inputs : List BeaconInput)
    (along : (cachedMachine cfg crypto auth).Along (cacheAdmitted cfg auth)
      state inputs) :
    netOutcome ((cachedMachine cfg crypto auth).run state inputs) =
      netOutcome ((uncachedMachine cfg crypto auth).run state inputs) := by
  have agree : Agree ((cachedMachine cfg crypto auth).run state inputs)
      ((uncachedMachine cfg crypto auth).run state inputs) := by
    apply Machine.related_run _ ⟨rfl, rfl⟩ along
    intro before twin input related admitted
    exact cachedStep_agree cfg crypto auth input related admitted
  unfold netOutcome
  rw [agree.net, agree.table]

def sampleBeaconConfig : Config := plainConfig

def plainAuth : BeaconAuth := fun key flags netId ivIndex =>
  key.setWidth 64 ^^^ netId ^^^ flags.setWidth 64 ^^^ ivIndex.toBitVec.setWidth 64

def bootBeacon : BeaconNet where
  net := ⟨0, 0, true, false, false, false, 0, false, false, .boot 1⟩
  table := [Subnet.unused]
  ivuInitiator := false
  beaconEnabled := true
  beacons _ := ⟨.zero, 0⟩

def sampleBeacon : SecureBeacon := ⟨2, 7, 1, 13⟩

def sampleAnnounced : List BeaconInput :=
  [.command (.subnet (.netCreate 0 0 7)), .beacon sampleBeacon false,
    .beacon sampleBeacon false]

theorem beacon_cache_transparent_early :
    (cacheCheck ((cachedMachine sampleBeaconConfig plainCrypto plainAuth).run
      bootBeacon (sampleAnnounced.take 2)) sampleBeacon).isSome = true ∧
    netOutcome ((cachedMachine sampleBeaconConfig plainCrypto plainAuth).run bootBeacon
        sampleAnnounced) =
      netOutcome ((uncachedMachine sampleBeaconConfig plainCrypto plainAuth).run
        bootBeacon sampleAnnounced) := by
  refine ⟨by decide +kernel, ?_⟩
  apply beacon_cache_transparent
  refine ⟨trivial, ?_, ?_, trivial⟩
  · intro hit
    have miss : (cacheCheck ((cachedMachine sampleBeaconConfig plainCrypto
        plainAuth).next bootBeacon (.command (.subnet (.netCreate 0 0 7))))
        sampleBeacon).isSome = false := by decide +kernel
    rw [miss] at hit
    cases hit
  · intro _ slot newKey sub found here _
    have first : some (0, false) = some (slot, newKey) := found
    cases first
    refine ⟨nofun, ?_⟩
    intro _ _ _
    exact ⟨rfl, fun _ => ⟨rfl, by decide⟩⟩

theorem beacon_cache_hides_update :
    netOutcome ((cachedMachine sampleBeaconConfig plainCrypto plainAuth).run bootBeacon
        ([.command (.subnet (.netCreate 0 0 7)), .beacon sampleBeacon false] ++
          List.replicate 4 (.command (.ivuRefresh false)) ++
          [.beacon sampleBeacon false])) ≠
      netOutcome ((uncachedMachine sampleBeaconConfig plainCrypto plainAuth).run bootBeacon
        ([.command (.subnet (.netCreate 0 0 7)), .beacon sampleBeacon false] ++
          List.replicate 4 (.command (.ivuRefresh false)) ++
          [.beacon sampleBeacon false])) := by
  decide +kernel

end ZephyrBluetooth.Mesh
