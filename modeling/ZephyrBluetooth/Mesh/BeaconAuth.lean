import ZephyrBluetooth.Data.Slots
import ZephyrBluetooth.Mesh.BeaconNode

namespace ZephyrBluetooth.Mesh

open Data List Function Bool

variable {slot : Nat}

structure IvAgrees (net other : Net) : Prop where
  ivIndex : other.ivIndex = net.ivIndex
  inProgress : other.ivuInProgress = net.ivuInProgress

theorem IvAgrees.refl (net : Net) : IvAgrees net net := ⟨rfl, rfl⟩

theorem IvAgrees.authNow {net other : Net} (same : IvAgrees net other)
    (auth : BeaconAuth) (sub : Subnet) :
    authNow auth other sub = authNow auth net sub := by
  unfold Mesh.authNow netFlags
  rw [same.ivIndex, same.inProgress]

structure SameTx (before after : Subnet) : Prop where
  netIdx : after.netIdx = before.netIdx
  krPhase : after.krPhase = before.krPhase
  keys : after.keys.get after.txIdx = before.keys.get before.txIdx

theorem SameTx.refl (sub : Subnet) : SameTx sub sub := ⟨rfl, rfl, rfl⟩

theorem SameTx.authNow {before after : Subnet} (same : SameTx before after)
    (auth : BeaconAuth) (net : Net) :
    authNow auth net after = authNow auth net before := by
  unfold Mesh.authNow netFlags
  rw [same.keys, same.krPhase]

structure Announced (table : List Subnet) (change : SubnetChange) : Prop where
  each : ∀ (slot : Nat) (sub : Subnet), change.table[slot]? = some sub →
    sub.netIdx ≠ keyUnused →
    (∃ evt, change.evt = some (slot, evt) ∧ evt ≠ .deleted) ∨
    ∃ before, table[slot]? = some before ∧ SameTx before sub
  deleted : ∀ (slot : Nat) (sub : Subnet), change.evt = some (slot, .deleted) →
    change.table[slot]? = some sub → sub.netIdx = keyUnused

theorem announced_none (table : List Subnet) :
    Announced table (.none table) where
  each _ sub here _ := .inr ⟨sub, here, .refl sub⟩
  deleted _ _ raised _ := nomatch raised

theorem announced_evt (table : List Subnet) (slot : Nat) (sub : Subnet)
    {evt : KeyEvt} (kept : evt ≠ .deleted) :
    Announced table ⟨table.set slot sub, some (slot, evt)⟩ where
  each other twin here _ := by
    rcases getElem?_set_cases here with ⟨rfl, _⟩ | ⟨_, stays⟩
    · exact .inl ⟨evt, rfl, kept⟩
    · exact .inr ⟨twin, stays, .refl twin⟩
  deleted other twin raised _ := by
    cases raised
    exact absurd rfl kept

variable {table : List Subnet}

theorem announced_silent {before sub : Subnet} (here : table[slot]? = some before)
    (quiet : sub.netIdx = keyUnused ∨ SameTx before sub) :
    Announced table (.none (table.set slot sub)) where
  each other twin found used := by
    rcases getElem?_set_cases found with ⟨rfl, rfl⟩ | ⟨_, stays⟩
    · rcases quiet with unused | same
      · exact absurd unused used
      · exact .inr ⟨before, here, same⟩
    · exact .inr ⟨twin, stays, .refl twin⟩
  deleted _ _ raised _ := nomatch raised

theorem refreshAt_announced {sub : Subnet}
    (here : table[slot]? = some sub) (newPhase : KrPhase) :
    Announced table (refreshAt table slot sub newPhase) := by
  unfold refreshAt keyRefresh
  cases newPhase with
  | phase1 => exact announced_evt table slot _ nofun
  | phase2 => exact announced_evt table slot _ nofun
  | normal => exact announced_evt table slot _ nofun
  | phase3 =>
    by_cases normal : sub.krPhase = .normal
    · simp only [if_pos normal]
      exact announced_silent here (.inr (.refl sub))
    · simp only [if_neg normal]
      exact announced_evt table slot _ nofun

theorem krUpdate_announced (table : List Subnet) (slot : Nat)
    (krFlag newKey : Bool) :
    Announced table (krUpdate table slot krFlag newKey) := by
  unfold krUpdate
  split
  · exact announced_none table
  rename_i sub here
  split
  · exact announced_none table
  split
  · exact refreshAt_announced here _
  split
  · exact refreshAt_announced here _
  · exact announced_none table

theorem subnetAdd_announced (cfg : Config) (crypto : Crypto)
    (table : List Subnet) (netIdx : Nat) (key : Key) :
    Announced table (subnetAdd cfg crypto table netIdx key).2 := by
  unfold subnetAdd
  split
  · exact announced_none table
  rename_i slot allocated
  split
  · exact announced_none table
  rename_i sub here
  split
  · split <;> exact announced_none table
  rename_i fresh
  obtain ⟨free, _, _⟩ := subnetAlloc_free allocated here fresh
  simp only
  split
  · exact announced_evt table slot _ nofun
  · exact announced_silent here (.inl free)

theorem subnetUpdate_announced (cfg : Config) (crypto : Crypto)
    (table : List Subnet) (netIdx : Nat) (key : Key) :
    Announced table (subnetUpdate cfg crypto table netIdx key).2 := by
  unfold subnetUpdate
  split
  · exact announced_none table
  rename_i slot got
  split
  · exact announced_none table
  rename_i sub here
  split
  · rename_i normal
    split
    · exact announced_none table
    simp only
    split
    · exact announced_evt table slot _ nofun
    refine announced_silent here (.inr ⟨rfl, rfl, ?_⟩)
    have sends : sub.txIdx = false := by
      unfold Subnet.txIdx
      rw [normal]
      rfl
    change Slots.get _ sub.txIdx = _
    rw [sends]
    rfl
  · split <;> exact announced_none table
  · exact announced_none table
  · exact announced_none table

theorem subnetDel_announced (table : List Subnet) (netIdx : Nat) :
    Announced table (subnetDel table netIdx).2 := by
  unfold subnetDel
  split
  · exact announced_none table
  rename_i slot got
  constructor
  · intro other twin here used
    rcases getElem?_set_cases here with ⟨_, rfl⟩ | ⟨_, stays⟩
    · exact absurd rfl used
    · exact .inr ⟨twin, stays, .refl twin⟩
  · intro other twin raised here
    cases raised
    rcases getElem?_set_cases here with ⟨_, rfl⟩ | ⟨different, _⟩
    · rfl
    · exact absurd rfl different

theorem subnetKrPhaseSet_announced (table : List Subnet) (netIdx phase : Nat) :
    Announced table (subnetKrPhaseSet table netIdx phase).2.2 := by
  unfold subnetKrPhaseSet
  split
  · exact announced_none table
  split
  · exact announced_none table
  rename_i sub here
  split
  · exact announced_none table
  split
  · exact announced_none table
  split
  · exact refreshAt_announced here _
  · exact announced_none table

theorem subnetSet_cases (cfg : Config) (crypto : Crypto) (table : List Subnet)
    (netIdx : Nat) (krPhase : KrPhase) (oldKey newKey : Option Key) :
    ((subnetSet cfg crypto table netIdx krPhase oldKey newKey).1 = .ok () ∧
      ∃ slot sub, subnetAlloc table netIdx = some slot ∧
        (subnetSet cfg crypto table netIdx krPhase oldKey newKey).2 =
          table.set slot sub) ∨
    ∃ err, (subnetSet cfg crypto table netIdx krPhase oldKey newKey).1 =
        .error err ∧ ∀ (slot : Nat) (sub : Subnet),
        (subnetSet cfg crypto table netIdx krPhase oldKey newKey).2[slot]? =
          some sub → sub.netIdx ≠ keyUnused → table[slot]? = some sub := by
  unfold subnetSet
  split
  · exact .inr ⟨_, rfl, fun _ _ here _ => here⟩
  rename_i slot allocated
  split
  · exact .inr ⟨_, rfl, fun _ _ here _ => here⟩
  rename_i sub found
  split
  · exact .inr ⟨_, rfl, fun _ _ here _ => here⟩
  rename_i fresh
  obtain ⟨free, _, _⟩ := subnetAlloc_free allocated found fresh
  have spoiled (written : Subnet) (same : written.netIdx = sub.netIdx)
      (other : Nat) (twin : Subnet)
      (here : (table.set slot written)[other]? = some twin)
      (used : twin.netIdx ≠ keyUnused) : table[other]? = some twin := by
    rcases getElem?_set_cases here with ⟨_, rfl⟩ | ⟨_, stays⟩
    · exact absurd (same.trans free) used
    · exact stays
  simp only
  split
  · exact .inr ⟨_, rfl, spoiled _ rfl⟩
  split
  · exact .inr ⟨_, rfl, spoiled _ rfl⟩
  · exact .inl ⟨rfl, slot, _, allocated, rfl⟩

variable {state : BeaconNode}

namespace BeaconNode

def AuthFor (auth : BeaconAuth) (net : Net) (state : BeaconNode) : Prop :=
  ∀ (slot : Nat) (sub : Subnet), state.table[slot]? = some sub →
    sub.netIdx ≠ keyUnused → state.auths slot = authNow auth net sub

def Authentic (auth : BeaconAuth) (state : BeaconNode) : Prop :=
  ∀ (slot : Nat) (sub : Subnet), state.table[slot]? = some sub →
    sub.netIdx ≠ keyUnused →
      authMatch auth (state.beaconCreate slot sub) (sub.keys.get sub.txIdx) = true

def Current (auth : BeaconAuth) (state : BeaconNode) : Prop :=
  state.AuthFor auth state.net

theorem authentic_iff (state : BeaconNode) (auth : BeaconAuth) :
    state.Authentic auth ↔ state.Current auth := by
  have same (slot : Nat) (sub : Subnet) :
      authMatch auth (state.beaconCreate slot sub) (sub.keys.get sub.txIdx) = true ↔
        state.auths slot = authNow auth state.net sub := by
    unfold authMatch beaconCreate authNow
    simp
  unfold Authentic Current AuthFor
  simp only [same]

section Updates

variable {auth : BeaconAuth} {net : Net} {state : BeaconNode}

theorem AuthFor.agrees {other : Net} (authentic : state.AuthFor auth net)
    (agrees : IvAgrees net other) : state.AuthFor auth other := by
  intro slot sub here used
  rw [agrees.authNow]
  exact authentic slot sub here used

theorem AuthFor.congr {after : BeaconNode} (authentic : state.AuthFor auth net)
    (table : after.table = state.table) (auths : after.auths = state.auths) :
    after.AuthFor auth net := by
  intro slot sub here used
  rw [table] at here
  rw [auths]
  exact authentic slot sub here used

theorem beaconUpdate_self {sub : Subnet} (here : state.table[slot]? = some sub) :
    (state.beaconUpdate auth slot).auths slot = authNow auth state.net sub := by
  unfold beaconUpdate
  rw [here]
  exact update_self ..

theorem beaconUpdate_other {other : Nat} (different : other ≠ slot) :
    (state.beaconUpdate auth slot).auths other = state.auths other := by
  unfold beaconUpdate
  split
  · rfl
  · exact update_of_ne different ..

theorem AuthFor.updated {slot : Nat}
    (authentic : state.AuthFor auth net) (agrees : IvAgrees net state.net)
    (others : ∀ (other : Nat) (sub : Subnet), other ≠ slot →
      table[other]? = some sub → sub.netIdx ≠ keyUnused →
        ∃ before, state.table[other]? = some before ∧ SameTx before sub) :
    (beaconUpdate auth slot { state with table := table }).AuthFor auth net := by
  intro other sub here used
  have found : table[other]? = some sub := by
    rw [beaconUpdate_toBeaconNet] at here
    exact here
  by_cases same : other = slot
  · subst same
    rw [beaconUpdate_self found]
    exact agrees.authNow auth sub
  · obtain ⟨before, there, sends⟩ := others other sub same found used
    rw [beaconUpdate_other same, sends.authNow]
    exact authentic other before there (by rw [← sends.netIdx]; exact used)

theorem subnetChange_raised (table : List Subnet) (slot : Nat) {evt : KeyEvt}
    (kept : evt ≠ .deleted) :
    state.subnetChange auth ⟨table, some (slot, evt)⟩ =
      beaconUpdate auth slot { state with table := table } := by
  cases evt with
  | deleted => exact absurd rfl kept
  | added => rfl
  | updated => rfl
  | swapped => rfl
  | revoked => rfl

theorem AuthFor.change {change : SubnetChange}
    (authentic : state.AuthFor auth net) (agrees : IvAgrees net state.net)
    (announced : Announced state.table change) :
    (state.subnetChange auth change).AuthFor auth net := by
  obtain ⟨table, evt⟩ := change
  cases evt with
  | none =>
    intro slot sub here used
    rcases announced.each slot sub here used with ⟨evt, raised, _⟩ |
      ⟨before, there, sends⟩
    · cases raised
    · rw [sends.authNow]
      exact authentic slot before there (by rw [← sends.netIdx]; exact used)
  | some raised =>
    obtain ⟨slot, evt⟩ := raised
    have others (other : Nat) (sub : Subnet) (different : other ≠ slot)
        (here : table[other]? = some sub) (used : sub.netIdx ≠ keyUnused) :
        ∃ before, state.table[other]? = some before ∧ SameTx before sub := by
      rcases announced.each other sub here used with ⟨_, raised, _⟩ | kept
      · cases raised
        exact absurd rfl different
      · exact kept
    by_cases gone : evt = .deleted
    · subst gone
      intro other sub here used
      by_cases same : other = slot
      · subst same
        exact absurd (announced.deleted other sub rfl here) used
      obtain ⟨before, there, sends⟩ := others other sub same here used
      have kept : (state.subnetChange auth ⟨table, some (slot, .deleted)⟩).auths
          other = state.auths other := update_of_ne same ..
      rw [kept, sends.authNow]
      exact authentic other before there (by rw [← sends.netIdx]; exact used)
    · rw [subnetChange_raised table slot gone]
      exact authentic.updated agrees others

theorem AuthFor.subnetSet (authentic : state.AuthFor auth net) (cfg : Config)
    (crypto : Crypto) (netIdx : Nat) (krPhase : KrPhase)
    (oldKey newKey : Option Key)
    (agrees : (Mesh.subnetSet cfg crypto state.table netIdx krPhase oldKey
      newKey).1 = .ok () → IvAgrees net state.net) :
    (state.subnetSet cfg crypto auth netIdx krPhase oldKey newKey).2.AuthFor auth
      net := by
  unfold BeaconNode.subnetSet
  rcases subnetSet_cases cfg crypto state.table netIdx krPhase oldKey newKey with
    ⟨created, slot, sub, allocated, set⟩ | ⟨err, failed, kept⟩
  · have current := agrees created
    simp only [created, allocated, set]
    apply authentic.updated current
    intro other twin different here _
    rcases getElem?_set_cases here with ⟨same, _⟩ | ⟨_, stays⟩
    · exact absurd same different
    · exact ⟨twin, stays, .refl twin⟩
  · simp only [failed]
    intro slot sub here used
    exact authentic slot sub (kept slot sub here used) used

structure Refreshing (auth : BeaconAuth) (cb : Nat → BeaconNode → BeaconNode) :
    Prop where
  net : ∀ slot state, (cb slot state).net = state.net
  table : ∀ slot state, (cb slot state).table = state.table
  self : ∀ (slot : Nat) (state : BeaconNode) (sub : Subnet),
    state.table[slot]? = some sub →
      (cb slot state).auths slot = authNow auth state.net sub
  other : ∀ (slot : Nat) (state : BeaconNode) (other : Nat), other ≠ slot →
    (cb slot state).auths other = state.auths other

theorem beaconUpdate_refreshing (auth : BeaconAuth) :
    Refreshing auth (beaconUpdate auth) where
  net slot state := by rw [beaconUpdate_toBeaconNet]
  table slot state := by rw [beaconUpdate_toBeaconNet]
  self _ _ _ here := beaconUpdate_self here
  other _ _ _ different := beaconUpdate_other different

theorem subnetBeaconEnable_refreshing (auth : BeaconAuth) :
    Refreshing auth (subnetBeaconEnable auth) where
  net slot state := by
    unfold subnetBeaconEnable
    rw [beaconUpdate_toBeaconNet]
  table slot state := by
    unfold subnetBeaconEnable
    rw [beaconUpdate_toBeaconNet]
  self _ _ _ here := beaconUpdate_self here
  other _ _ _ different := beaconUpdate_other different

theorem Refreshing.foreach {cb : Nat → BeaconNode → BeaconNode}
    (refreshing : Refreshing auth cb) (state : BeaconNode) :
    (state.subnetForeach cb).Current auth := by
  unfold Current
  have net : (state.subnetForeach cb).net = state.net :=
    @subnetForeach_keeps _ (fun state => state.net) cb refreshing.net state
  rw [net]
  clear net
  unfold subnetForeach
  have pending (slot : Nat) (sub : Subnet)
      (here : state.table[slot]? = some sub) (_ : sub.netIdx ≠ keyUnused) :
      (sub, slot) ∈ state.table.zipIdx ∨
        state.auths slot = authNow auth state.net sub :=
    .inl (mk_mem_zipIdx_iff_getElem?.mpr here)
  generalize state.table.zipIdx = entries at pending
  induction entries generalizing state with
  | nil =>
    intro slot sub here used
    exact (pending slot sub here used).resolve_left not_mem_nil
  | cons entry rest ih =>
    obtain ⟨_, position⟩ := entry
    rw [foldl_cons]
    split
    · rename_i unused
      apply ih
      intro slot sub here used
      rcases pending slot sub here used with member | current
      · rcases mem_cons.mp member with same | later
        · cases same
          exact absurd unused used
        · exact .inl later
      · exact .inr current
    · rw [← refreshing.net position state]
      apply ih
      intro slot sub here used
      rw [refreshing.table] at here
      rw [refreshing.net]
      by_cases same : slot = position
      · subst same
        exact .inr (refreshing.self slot state sub here)
      rw [refreshing.other position state slot same]
      rcases pending slot sub here used with member | current
      · rcases mem_cons.mp member with equal | later
        · cases equal
          exact absurd rfl same
        · exact .inl later
      · exact .inr current

theorem Current.congr {after : BeaconNode} (current : state.Current auth)
    (agrees : IvAgrees state.net after.net) (table : after.table = state.table)
    (auths : after.auths = state.auths) : after.Current auth :=
  (AuthFor.congr current table auths).agrees agrees

theorem Current.change {change : SubnetChange} (current : state.Current auth)
    (announced : Announced state.table change) :
    (state.subnetChange auth change).Current auth := by
  unfold Current
  rw [subnetChange_toBeaconNet]
  exact AuthFor.change current (.refl _) announced

theorem netIvUpdate_rejected {cfg : Config} {ivIndex : Nat}
    {ivUpdate txInProgress : Bool}
    (rejected : (netIvUpdate cfg net ivIndex ivUpdate txInProgress).1 = false) :
    IvAgrees net (netIvUpdate cfg net ivIndex ivUpdate txInProgress).2 := by
  have guarded
      (rejected : (ivUpdateGuarded cfg net ivIndex ivUpdate txInProgress).1 =
        false) :
      IvAgrees net (ivUpdateGuarded cfg net ivIndex ivUpdate txInProgress).2 := by
    revert rejected
    unfold ivUpdateGuarded
    split
    · exact fun _ => ⟨rfl, rfl⟩
    split
    · exact fun _ => ⟨rfl, rfl⟩
    · exact nofun
  revert rejected
  unfold netIvUpdate
  split
  · split
    · exact fun _ => .refl net
    split
    · exact fun _ => .refl net
    · exact guarded
  · split
    · exact fun _ => .refl net
    split
    · exact fun _ => .refl net
    split
    · exact nofun
    split
    · exact fun _ => .refl net
    split
    · exact fun _ => .refl net
    · exact guarded

theorem Current.ivUpdate (current : state.Current auth) (cfg : Config)
    (ivIndex : Nat) (ivUpdate txInProgress : Bool) :
    (state.ivUpdate cfg auth ivIndex ivUpdate txInProgress).Current auth := by
  unfold BeaconNode.ivUpdate
  simp only
  split
  · exact (beaconUpdate_refreshing auth).foreach _
  rename_i rejected
  exact current.congr (netIvUpdate_rejected (eq_false_iff.mpr rejected)) rfl rfl

theorem Current.stats (current : state.Current auth) (slot : Nat) :
    (state.stats slot).Current auth := by
  apply current.congr
  · unfold BeaconNode.stats
    rw [updateStats_net]
    exact .refl _
  · exact updateStats_table slot state.toBeaconNet
  · rfl

theorem storeSeq_agrees (cfg : Config) (net : Net) :
    IvAgrees net (storeSeq cfg net) := by
  unfold storeSeq
  split
  · exact .refl net
  · exact ⟨rfl, rfl⟩

section

variable (current : state.Current auth)
include current

section

variable (cfg : Config)
include cfg

theorem Current.nextSeq (txInProgress : Bool) :
    (state.nextSeq cfg auth txInProgress).Current auth := by
  unfold BeaconNode.nextSeq
  simp only
  split
  · have stored := storeSeq_agrees cfg
      { state.net with seq := (state.net.seq + 1) % 2 ^ 32 }
    split
    · apply Current.ivUpdate
      exact current.congr ⟨stored.ivIndex, stored.inProgress⟩ rfl rfl
    · exact current.congr ⟨stored.ivIndex, stored.inProgress⟩ rfl rfl
  · split
    · apply Current.ivUpdate
      exact current.congr ⟨rfl, rfl⟩ rfl rfl
    · exact current.congr ⟨rfl, rfl⟩ rfl rfl

theorem Current.ivuRefresh (txInProgress : Bool) :
    (state.ivuRefresh cfg auth txInProgress).Current auth := by
  unfold BeaconNode.ivuRefresh
  split
  · exact current
  have stored (aged : Net) (agrees : IvAgrees state.net aged) :
      IvAgrees state.net (if cfg.settings then storeIv true aged else aged) := by
    split
    · exact ⟨agrees.ivIndex, agrees.inProgress⟩
    · exact agrees
  simp only
  split
  · exact current.congr (stored _ ⟨rfl, rfl⟩) rfl rfl
  split
  · apply Current.ivUpdate
    exact current.congr ⟨rfl, rfl⟩ rfl rfl
  · exact current.congr (stored _ ⟨rfl, rfl⟩) rfl rfl

theorem Current.txReset (txInProgress : Bool) :
    (state.txReset cfg auth txInProgress).Current auth := by
  unfold BeaconNode.txReset
  split
  · apply Current.ivUpdate
    exact current.congr ⟨rfl, rfl⟩ rfl rfl
  · exact current

theorem Current.process (beacon : SecureBeacon) (txInProgress : Bool) :
    (state.process cfg auth beacon txInProgress).Current auth := by
  unfold BeaconNode.process
  split
  · exact current
  rename_i slot newKey _
  split
  · exact current
  split
  · exact current
  have cached : Current auth
      { state with toBeaconNet := cacheAdd slot beacon state.toBeaconNet } :=
    current.congr (.refl _) rfl rfl
  have refreshed := cached.change
    (krUpdate_announced state.table slot beacon.krFlag newKey)
  simp only
  split
  · exact refreshed.stats slot
  apply Current.stats
  apply Current.ivUpdate
  exact refreshed.congr (.refl _) rfl rfl

theorem Current.recv (beacon : SecureBeacon) (txInProgress : Bool) :
    (state.recv cfg auth beacon txInProgress).Current auth := by
  unfold BeaconNode.recv
  split
  · exact current.stats _
  · exact current.process cfg beacon txInProgress

end

theorem Current.beaconEnable : (state.beaconEnable auth).Current auth := by
  unfold BeaconNode.beaconEnable
  split
  · exact (subnetBeaconEnable_refreshing auth).foreach state
  · exact current

theorem Current.beaconSet (beacon : Bool) :
    (state.beaconSet auth beacon).Current auth := by
  have set : Current auth { state with beaconEnabled := beacon } :=
    current.congr (.refl _) rfl rfl
  unfold BeaconNode.beaconSet
  split
  · exact current
  split
  · exact set.beaconEnable
  · exact set

theorem reset_current (cfg : Config) (beaconDefault : Bool) :
    (state.reset cfg beaconDefault).Current auth := by
  unfold BeaconNode.reset
  split
  · exact current
  intro slot sub here used
  unfold netKeysReset at here
  rw [getElem?_map] at here
  obtain ⟨_, _, rfl⟩ := Option.map_eq_some_iff.mp here
  split at used
  · rename_i unused
    exact absurd unused used
  · exact absurd rfl used

end

theorem start_current (adv : Bool)
    (settled : (adv = true ∧ state.beaconEnabled = true ∧
      state.net.valid = true) ∨ state.Current auth) :
    (state.start auth adv).Current auth := by
  unfold start
  rcases settled with ⟨enabled, beacon, valid⟩ | current
  · rw [enabled, if_neg (by decide), if_pos beacon]
    unfold BeaconNode.beaconEnable
    rw [if_pos valid]
    exact (subnetBeaconEnable_refreshing auth).foreach state
  · split
    · exact current
    split
    · exact current.beaconEnable
    · exact current

theorem subnetSet_fst (cfg : Config) (crypto : Crypto) (auth : BeaconAuth)
    (netIdx : Nat) (krPhase : KrPhase) (oldKey newKey : Option Key)
    (state : BeaconNode) :
    (state.subnetSet cfg crypto auth netIdx krPhase oldKey newKey).1 =
      (Mesh.subnetSet cfg crypto state.table netIdx krPhase oldKey newKey).1 := by
  unfold BeaconNode.subnetSet
  simp only
  split
  · rename_i created _
    exact created.symm
  · rfl

theorem subnetSet_toBeaconNet (cfg : Config) (crypto : Crypto)
    (auth : BeaconAuth) (netIdx : Nat) (krPhase : KrPhase)
    (oldKey newKey : Option Key) (state : BeaconNode) :
    (state.subnetSet cfg crypto auth netIdx krPhase oldKey newKey).2.toBeaconNet =
      { state.toBeaconNet with table :=
          (Mesh.subnetSet cfg crypto state.table netIdx krPhase oldKey newKey).2 } := by
  unfold BeaconNode.subnetSet
  simp only
  split
  · exact beaconUpdate_toBeaconNet auth _ _
  · rfl

theorem Current.subnetSet (current : state.Current auth) (cfg : Config)
    (crypto : Crypto) (netIdx : Nat) (krPhase : KrPhase)
    (oldKey newKey : Option Key) :
    (state.subnetSet cfg crypto auth netIdx krPhase oldKey newKey).2.Current
      auth := by
  unfold Current
  rw [subnetSet_toBeaconNet]
  exact AuthFor.subnetSet current cfg crypto netIdx krPhase oldKey newKey
    fun _ => .refl _

theorem netCreate_phase (cfg : Config) (crypto : Crypto) (auth : BeaconAuth)
    (netIdx flags : Nat) (key : Key) (state : BeaconNode) :
    ∃ krPhase oldKey newKey,
      netCreateSubnet cfg crypto state.table netIdx flags key =
        Mesh.subnetSet cfg crypto state.table netIdx krPhase oldKey newKey ∧
      (if flags % 2 = 1 then
          state.subnetSet cfg crypto auth netIdx .phase2 none (some key)
        else state.subnetSet cfg crypto auth netIdx .normal (some key) none) =
        state.subnetSet cfg crypto auth netIdx krPhase oldKey newKey := by
  unfold netCreateSubnet
  by_cases refresh : flags % 2 = 1
  · refine ⟨.phase2, none, some key, ?_, ?_⟩
    · rw [if_pos refresh]
    · rw [if_pos refresh]
  · refine ⟨.normal, some key, none, ?_, ?_⟩
    · rw [if_neg refresh]
    · rw [if_neg refresh]

theorem netCreate_spec (current : state.Current auth) (cfg : Config)
    (crypto : Crypto) (netIdx flags : Nat) (key : Key) (ivIndex : Nat) :
    ∃ set : BeaconNode, set.Current auth ∧ set.net = state.net ∧
      set.beaconEnabled = state.beaconEnabled ∧
      ((∃ err, state.netCreate cfg crypto auth netIdx flags key ivIndex =
          (.error err, set)) ∨
        (netCreateSubnet cfg crypto state.table netIdx flags key).1 = .ok () ∧
          state.netCreate cfg crypto auth netIdx flags key ivIndex =
            (.ok (), { set with
              net := netCreateIv cfg state.net flags ivIndex })) := by
  obtain ⟨krPhase, oldKey, newKey, subnet, set⟩ :=
    netCreate_phase cfg crypto auth netIdx flags key state
  have same := subnetSet_toBeaconNet cfg crypto auth netIdx krPhase oldKey newKey
    state
  have net : (state.subnetSet cfg crypto auth netIdx krPhase oldKey newKey).2.net =
      state.net := by rw [same]
  refine ⟨(state.subnetSet cfg crypto auth netIdx krPhase oldKey newKey).2,
    current.subnetSet cfg crypto netIdx krPhase oldKey newKey, net, by rw [same], ?_⟩
  unfold netCreate
  rw [set, subnet, ← subnetSet_fst]
  simp only
  split
  · rename_i err failed
    exact .inl ⟨err, rfl⟩
  rename_i done
  rw [net]
  exact .inr ⟨done, rfl⟩

def ProvisionSettled (cfg : Config) (crypto : Crypto) (adv : Bool)
    (netIdx flags : Nat) (key : Key) (ivIndex : Nat) (state : BeaconNode) :
    Prop :=
  state.net.valid = false →
    (netCreateSubnet cfg crypto state.table netIdx flags key).1 = .ok () →
      (adv = true ∧ state.beaconEnabled = true) ∨
      (ivIndex = state.net.ivIndex ∧
        ((flags >>> 1) % 2 == 1) = state.net.ivuInProgress)

theorem Current.provision (current : state.Current auth) (cfg : Config)
    (crypto : Crypto) (adv : Bool) (netIdx flags : Nat) (key : Key)
    (ivIndex : Nat)
    (settled : state.ProvisionSettled cfg crypto adv netIdx flags key ivIndex) :
    (state.provision cfg crypto auth adv netIdx flags key ivIndex).Current auth := by
  unfold BeaconNode.provision
  split
  · exact current
  rename_i unprovisioned
  rw [not_eq_true] at unprovisioned
  have opened : Current auth
      { state with net := { state.net with valid := true } } :=
    current.congr ⟨rfl, rfl⟩ rfl rfl
  obtain ⟨_, kept, net, beacon, ⟨_, failed⟩ | ⟨done, created⟩⟩ :=
    netCreate_spec opened cfg crypto netIdx flags key ivIndex
  · rw [failed]
    exact kept.congr ⟨rfl, rfl⟩ rfl rfl
  rw [created]
  apply start_current
  rcases settled unprovisioned done with ⟨enabled, disabled⟩ | ⟨index, progress⟩
  · refine .inl ⟨enabled, beacon.trans disabled, ?_⟩
    unfold netCreateIv
    simp only
    split <;> rfl
  · refine .inr (kept.congr ?_ rfl rfl)
    rw [net]
    unfold netCreateIv
    simp only
    split
    · exact ⟨index, progress⟩
    · exact ⟨index, progress⟩

end Updates

def loadTable (cfg : Config) (crypto : Crypto) (table : List Subnet)
    (records : List MeshRecord) : List Subnet :=
  records.foldl
    (fun table record =>
      match record with
      | .netKey netIdx key => (netKeySet cfg crypto table netIdx.toNat key).2
      | _ => table)
    table

def loadNet (cfg : Config) (net : Net) (records : List MeshRecord) : Net :=
  records.foldl
    (fun net record =>
      match record with
      | .iv record => ivSet record net
      | .seq record => seqSet cfg record net
      | _ => net)
    net

def loadBeacon (beacon : Bool) (records : List MeshRecord) : Bool :=
  records.foldl
    (fun beacon record =>
      match record with
      | .cfg beacon => beacon
      | _ => beacon)
    beacon

def IvFirst (cfg : Config) (crypto : Crypto) (table : List Subnet) (net : Net)
    (records : List MeshRecord) : Prop :=
  ∀ before netIdx key after, records = before ++ .netKey netIdx key :: after →
    (netKeySet cfg crypto (loadTable cfg crypto table before) netIdx.toNat key).1 =
        .ok () →
      IvAgrees (loadNet cfg net records) (loadNet cfg net before)

section Loading

variable {cfg : Config} {crypto : Crypto} {auth : BeaconAuth}

structure Loaded (cfg : Config) (crypto : Crypto) (state : BeaconNode)
    (records : List MeshRecord) (after : BeaconNode) : Prop where
  table : after.table = loadTable cfg crypto state.table records
  net : after.net = loadNet cfg state.net records
  beacon : after.beaconEnabled = loadBeacon state.beaconEnabled records

theorem beaconSet_loaded (auth : BeaconAuth) (beacon : Bool)
    (state : BeaconNode) :
    Loaded cfg crypto state [.cfg beacon] (state.beaconSet auth beacon) := by
  have enabled (set : BeaconNode) : (set.beaconEnable auth).net = set.net ∧
      (set.beaconEnable auth).table = set.table ∧
      (set.beaconEnable auth).beaconEnabled = set.beaconEnabled := by
    have keeps (slot : Nat) (each : BeaconNode) :
        (each.subnetBeaconEnable auth slot).beaconEnabled = each.beaconEnabled := by
      unfold subnetBeaconEnable
      rw [beaconUpdate_toBeaconNet]
    have refreshing := subnetBeaconEnable_refreshing auth
    unfold beaconEnable
    split
    · exact ⟨@subnetForeach_keeps _ (fun state => state.net) _ refreshing.net set,
        @subnetForeach_keeps _ (fun state => state.table) _ refreshing.table set,
        @subnetForeach_keeps _ (fun state => state.beaconEnabled) _ keeps set⟩
    · exact ⟨rfl, rfl, rfl⟩
  unfold beaconSet
  split
  · rename_i same
    exact ⟨rfl, rfl, same⟩
  split
  · obtain ⟨net, table, flag⟩ := enabled { state with beaconEnabled := beacon }
    exact ⟨table, net, flag⟩
  · exact ⟨rfl, rfl, rfl⟩

theorem load_loaded (auth : BeaconAuth) (record : MeshRecord)
    (state : BeaconNode) :
    Loaded cfg crypto state [record] (state.load cfg crypto auth record) := by
  cases record with
  | netKey =>
    unfold load
    constructor
    · rw [subnetSet_toBeaconNet]
      rfl
    · rw [subnetSet_toBeaconNet]
      rfl
    · rw [subnetSet_toBeaconNet]
      rfl
  | iv => exact ⟨rfl, rfl, rfl⟩
  | seq => exact ⟨rfl, rfl, rfl⟩
  | cfg beacon => exact beaconSet_loaded auth beacon state

theorem loads_loaded (auth : BeaconAuth) (records : List MeshRecord)
    (state : BeaconNode) : Loaded cfg crypto state records
      (records.foldl (fun state record => state.load cfg crypto auth record)
        state) := by
  induction records generalizing state with
  | nil => exact ⟨rfl, rfl, rfl⟩
  | cons record rest ih =>
    have first : Loaded cfg crypto state [record]
        (state.load cfg crypto auth record) := load_loaded auth record state
    obtain ⟨table, net, beacon⟩ := ih (state.load cfg crypto auth record)
    rw [first.table] at table
    rw [first.net] at net
    rw [first.beacon] at beacon
    exact ⟨table, net, beacon⟩

theorem loadNet_valid (net : Net) (records : List MeshRecord) :
    (loadNet cfg net records).valid = net.valid := by
  unfold loadNet
  induction records generalizing net with
  | nil => rfl
  | cons record rest ih =>
    rw [foldl_cons, ih]
    cases record with
    | netKey => rfl
    | iv record => cases record <;> rfl
    | seq => rfl
    | cfg => rfl

theorem AuthFor.load {net : Net}
    (authentic : state.AuthFor auth net) (unprovisioned : state.net.valid = false)
    (record : MeshRecord) (created : ∀ netIdx key, record = .netKey netIdx key →
      (netKeySet cfg crypto state.table netIdx.toNat key).1 = .ok () →
        IvAgrees net state.net) :
    (state.load cfg crypto auth record).AuthFor auth net := by
  cases record with
  | netKey netIdx key =>
    exact authentic.subnetSet cfg crypto _ _ _ _ (created netIdx key rfl)
  | iv => exact authentic.congr rfl rfl
  | seq => exact authentic.congr rfl rfl
  | cfg beacon =>
    change AuthFor auth net (state.beaconSet auth beacon)
    unfold BeaconNode.beaconSet
    split
    · exact authentic
    split
    · unfold BeaconNode.beaconEnable
      rw [if_neg (by rw [unprovisioned]; decide)]
      exact authentic.congr rfl rfl
    · exact authentic.congr rfl rfl

theorem AuthFor.loads {net : Net}
    (authentic : state.AuthFor auth net) (unprovisioned : state.net.valid = false)
    (records : List MeshRecord) (created : ∀ before netIdx key after,
      records = before ++ .netKey netIdx key :: after →
      (netKeySet cfg crypto (loadTable cfg crypto state.table before) netIdx.toNat
        key).1 = .ok () → IvAgrees net (loadNet cfg state.net before)) :
    AuthFor auth net
      (records.foldl (fun state record => state.load cfg crypto auth record)
        state) := by
  induction records generalizing state with
  | nil => exact authentic
  | cons record rest ih =>
    have loaded : Loaded cfg crypto state [record]
        (state.load cfg crypto auth record) := load_loaded auth record state
    apply ih
    · apply authentic.load unprovisioned record
      intro netIdx key same
      exact created [] netIdx key rest (by rw [same]; rfl)
    · rw [loaded.net, loadNet_valid]
      exact unprovisioned
    · intro before netIdx key after split
      rw [loaded.table, loaded.net]
      exact created (record :: before) netIdx key after (by rw [split]; rfl)

theorem boot_current (auth : BeaconAuth) (beaconDefault : Bool) (count : Nat)
    (rpl : ReplayList) (net : Net) :
    (boot beaconDefault count rpl).AuthFor auth net := by
  intro slot sub here used
  have unused := eq_of_mem_replicate (mem_of_getElem? here)
  rw [unused] at used
  exact absurd rfl used

/-- The node comes up with beacons enabled, or its subnets are created under the
IV state that the records leave. -/
def PowerUpSettled (cfg : Config) (crypto : Crypto) (beaconDefault : Bool)
    (rpl : ReplayList) (records : List MeshRecord) (adv : Bool)
    (state : BeaconNode) : Prop :=
  (adv = true ∧ loadBeacon beaconDefault records = true) ∨
  IvFirst cfg crypto (List.replicate state.table.length Subnet.unused)
    (boot beaconDefault state.table.length rpl).net records

theorem powerUp_current (auth : BeaconAuth) {beaconDefault : Bool}
    {rpl : ReplayList} {records : List MeshRecord} {adv : Bool}
    (settled : state.PowerUpSettled cfg crypto beaconDefault rpl records adv) :
    (state.powerUp cfg crypto auth beaconDefault rpl records adv).Current auth := by
  have loaded : Loaded cfg crypto (boot beaconDefault state.table.length rpl) records
      _ := loads_loaded auth records (boot beaconDefault state.table.length rpl)
  unfold powerUp commit
  split
  · apply start_current
    rcases settled with ⟨enabled, beacon⟩ | first
    · exact .inl ⟨enabled, loaded.beacon.trans beacon, rfl⟩
    refine .inr ?_
    have values := AuthFor.loads (boot_current auth beaconDefault
      state.table.length rpl _) rfl records first
    rw [← loaded.net] at values
    exact Current.congr values ⟨rfl, rfl⟩ rfl rfl
  · rename_i none
    intro slot sub here used
    rw [any_eq_true] at none
    refine absurd ⟨sub, mem_of_getElem? here, ?_⟩ none
    exact bne_iff_ne.mpr used

end Loading

end BeaconNode

def AuthSettled (cfg : Config) (crypto : Crypto) (beaconDefault : Bool)
    (state : BeaconNode) : BeaconNodeInput → Prop
  | .provision adv netIdx flags key ivIndex =>
    state.ProvisionSettled cfg crypto adv netIdx.toNat flags.toNat key ivIndex.toNat
  | .powerUp rpl records adv =>
    state.PowerUpSettled cfg crypto beaconDefault rpl records adv
  | _ => True

theorem beaconNodeStep_current (cfg : Config) (crypto : Crypto)
    (auth : BeaconAuth) (beaconDefault : Bool)
    {input : BeaconNodeInput} (current : state.Current auth)
    (settled : AuthSettled cfg crypto beaconDefault state input) :
    (beaconNodeStep cfg crypto auth beaconDefault state input).Current auth := by
  cases input with
  | beacon beacon txInProgress => exact current.recv cfg beacon txInProgress
  | add => exact current.change (subnetAdd_announced cfg crypto _ _ _)
  | update => exact current.change (subnetUpdate_announced cfg crypto _ _ _)
  | del => exact current.change (subnetDel_announced _ _)
  | krPhaseSet => exact current.change (subnetKrPhaseSet_announced _ _ _)
  | krUpdate =>
    unfold beaconNodeStep
    simp only
    split
    · exact current
    · exact current.change (krUpdate_announced _ _ _ _)
  | ivUpdate ivIndex ivUpdate txInProgress =>
    exact current.ivUpdate cfg _ ivUpdate txInProgress
  | ivuRefresh txInProgress => exact current.ivuRefresh cfg txInProgress
  | ivUpdateTest => exact current.congr ⟨rfl, rfl⟩ rfl rfl
  | nextSeq txInProgress => exact current.nextSeq cfg txInProgress
  | txReset txInProgress => exact current.txReset cfg txInProgress
  | beaconSet beacon => exact current.beaconSet beacon
  | provision adv netIdx flags key =>
    exact current.provision cfg crypto adv _ _ key _ settled
  | powerUp => exact BeaconNode.powerUp_current auth settled
  | reset => exact BeaconNode.reset_current current cfg beaconDefault

/-- In a run whose starts are settled every beacon authenticates. -/
theorem beacons_authentic (cfg : Config) (crypto : Crypto) (auth : BeaconAuth)
    (beaconDefault : Bool) (count : Nat) (rpl : ReplayList)
    (inputs : List BeaconNodeInput)
    (along : (beaconNodeMachine cfg crypto auth beaconDefault).Along
      (AuthSettled cfg crypto beaconDefault) (.boot beaconDefault count rpl) inputs) :
    (beaconNodeMachine cfg crypto auth beaconDefault).Always
      (BeaconNode.Authentic auth) (.boot beaconDefault count rpl) inputs := by
  apply Machine.Always.mono
  · exact fun state current => (state.authentic_iff auth).mpr current
  · refine Machine.always_of_along ?_ ?_ along
    · intro state input current settled
      exact beaconNodeStep_current cfg crypto auth beaconDefault current settled
    · exact BeaconNode.boot_current auth beaconDefault count rpl _

def keyBeforeIv : List MeshRecord :=
  [.netKey 0 ⟨.normal, ⟨7, 0⟩⟩, .iv (some ⟨5, false, 96⟩)]

def ivBeforeKey : List MeshRecord :=
  [.cfg false, .iv (some ⟨5, false, 96⟩), .netKey 0 ⟨.normal, ⟨7, 0⟩⟩]

theorem beacons_authentic_restored :
    (beaconNodeMachine sampleBeaconConfig plainCrypto plainAuth true).Always
      (BeaconNode.Authentic plainAuth) (.boot true 1 (.boot 1))
      [.provision true 0 0 7 5, .ivUpdate 6 true false,
        .powerUp (.boot 1) keyBeforeIv true,
        .powerUp (.boot 1) ivBeforeKey true] := by
  apply beacons_authentic
  refine ⟨fun _ _ => .inl ⟨rfl, rfl⟩, trivial, .inl ⟨rfl, rfl⟩, .inr ?_, trivial⟩
  intro before netIdx key after split _
  rcases before with _ | ⟨_, _ | ⟨_, _ | ⟨_, rest⟩⟩⟩
  · cases split
  · cases split
  · cases split
    exact ⟨rfl, rfl⟩
  · have none : ([] : List MeshRecord) = rest ++ .netKey netIdx key :: after := by
      injection split with _ split
      injection split with _ split
      injection split with _ split
    cases rest <;> cases none

def keySevenSubnet : Subnet := ⟨0, .normal, ⟨⟨true, 7, ⟨1, 7, 8⟩, 7, 8, 9⟩, .zero⟩⟩

theorem beacons_outdated :
    ¬ (beaconNodeMachine sampleBeaconConfig plainCrypto plainAuth false).Always
        (BeaconNode.Authentic plainAuth) (.boot false 1 (.boot 1))
        [.provision true 0 0 7 5] ∧
    ¬ (beaconNodeMachine sampleBeaconConfig plainCrypto plainAuth false).Always
        (BeaconNode.Authentic plainAuth) (.boot false 1 (.boot 1))
        [.powerUp (.boot 1) keyBeforeIv true] := by
  have outdated (input : BeaconNodeInput) (sub : Subnet)
      (here : ((beaconNodeMachine sampleBeaconConfig plainCrypto plainAuth
        false).run (.boot false 1 (.boot 1)) [input]).table[0]? = some sub)
      (used : sub.netIdx ≠ keyUnused)
      (rejected : ¬ authMatch plainAuth
        (((beaconNodeMachine sampleBeaconConfig plainCrypto plainAuth false).run
          (.boot false 1 (.boot 1)) [input]).beaconCreate 0 sub)
        (sub.keys.get sub.txIdx) = true) :
      ¬ (beaconNodeMachine sampleBeaconConfig plainCrypto plainAuth false).Always
        (BeaconNode.Authentic plainAuth) (.boot false 1 (.boot 1)) [input] := by
    intro always
    exact rejected (always.last 0 sub here used)
  constructor
  · exact outdated _ keySevenSubnet (by decide +kernel) (by decide)
      (by decide +kernel)
  · exact outdated _ keySevenSubnet (by decide +kernel) (by decide)
      (by decide +kernel)

end ZephyrBluetooth.Mesh
