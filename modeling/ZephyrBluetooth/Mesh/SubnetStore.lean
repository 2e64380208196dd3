import ZephyrBluetooth.Data.Machine
import ZephyrBluetooth.Mesh.Subnet

namespace ZephyrBluetooth.Mesh

open Data List Option

def subnetMachine (cfg : Config) (crypto : Crypto) :
    Machine (List Subnet) SubnetInput (Nat × KeyEvt) where
  step table input :=
    let change := subnetStep cfg crypto table input
    (change.table, change.evt.toList)

/-- What `net_key_set` restores from the record of a subnet. -/
def restoreSubnet (cfg : Config) (crypto : Crypto) (count : Nat)
    (table : List Subnet) (netIdx : Nat) : Option Subnet :=
  match storeSubnet table netIdx with
  | none => none
  | some record =>
    match netKeySet cfg crypto (emptyTable count) netIdx record with
    | (.ok _, restored) =>
      (subnetGet restored netIdx).bind fun slot => restored[slot]?
    | (.error _, _) => none

structure SameSubnet (sub restored : Subnet) : Prop where
  krPhase : restored.krPhase = sub.krPhase
  valid : ∀ idx, (restored.keys.get idx).valid = (sub.keys.get idx).valid
  material : ∀ idx, (sub.keys.get idx).valid = true →
    restored.keys.get idx = sub.keys.get idx

def Faithful (cfg : Config) (crypto : Crypto) (table : List Subnet)
    (sub : Subnet) : Prop :=
  ∃ restored,
    restoreSubnet cfg crypto table.length table sub.netIdx = some restored ∧
      SameSubnet sub restored

theorem tableOk_run (cfg : Config) (crypto : Crypto) {table : List Subnet}
    (ok : TableOk cfg crypto table) (inputs : List SubnetInput) :
    TableOk cfg crypto ((subnetMachine cfg crypto).run table inputs) := by
  induction inputs generalizing table with
  | nil => exact ok
  | cons input rest ih => exact ih ((subnetStep_effect ok input).tableOk ok)

section

variable {cfg : Config} {crypto : Crypto} {table : List Subnet}
  (ok : TableOk cfg crypto table) {slot : Nat} {sub : Subnet}
  (found : table[slot]? = some sub) (used : sub.netIdx ≠ keyUnused)
include ok found used

theorem subnetGet_eq : subnetGet table sub.netIdx = some slot := by
  cases got : subnetGet table sub.netIdx with
  | none => exact absurd rfl (subnetGet_none got slot sub found)
  | some other =>
    obtain ⟨twin, stored, same⟩ := subnetGet_some got
    rw [ok.unique slot other sub twin found stored same.symm used]

theorem storeSubnet_eq : storeSubnet table sub.netIdx =
      some ⟨sub.krPhase, ⟨sub.keys.old.net, sub.keys.new.net⟩⟩ := by
  unfold storeSubnet
  rw [subnetGet_eq ok found used]
  simp only [found, map_some]

end

theorem netKeysCreate_zero (cfg : Config) (crypto : Crypto) (key : Key) :
    (deriveKeys cfg crypto key = none ∧
      ∃ left, netKeysCreate cfg crypto .zero key = (false, left)) ∨
    ∃ filled, deriveKeys cfg crypto key = some filled ∧
      netKeysCreate cfg crypto .zero key = (true, filled) := by
  have succeeds := netKeysCreate_fst cfg crypto .zero key
  cases outcome : netKeysCreate cfg crypto .zero key with
  | mk created keys =>
    rw [outcome] at succeeds
    cases created with
    | true =>
      obtain ⟨_, derived⟩ := netKeysCreate_created (.zero cfg crypto) outcome
      exact .inr ⟨keys, derived, rfl⟩
    | false =>
      left
      exact ⟨isNone_iff_eq_none.mp (by simpa using succeeds.symm), keys, rfl⟩

variable {count netIdx : Nat}

theorem subnetGet_emptyTable (named : netIdx ≠ keyUnused) :
    subnetGet (emptyTable count) netIdx = none := by
  apply findIdx?_eq_none_iff.mpr
  intro sub member
  rw [eq_of_mem_replicate member]
  simpa [Subnet.unused] using Ne.symm named

theorem subnetAlloc_emptyTable (named : netIdx ≠ keyUnused) :
    subnetAlloc (emptyTable (count + 1)) netIdx = some 0 := by
  unfold subnetAlloc
  rw [subnetGet_emptyTable named]
  rfl

theorem netKeySet_emptyTable (cfg : Config) (crypto : Crypto)
    (named : netIdx ≠ keyUnused) (record : NetKeyVal) :
    (match netKeySet cfg crypto (emptyTable (count + 1)) netIdx record with
      | (.ok _, restored) =>
        (subnetGet restored netIdx).bind fun slot => restored[slot]?
      | (.error _, _) => none) =
      (deriveKeys cfg crypto record.val.old).bind fun old =>
        (if record.krPhase = .normal then some .zero
          else deriveKeys cfg crypto record.val.new).map fun new =>
            ⟨netIdx, record.krPhase, ⟨old, new⟩⟩ := by
  have stored : (emptyTable (count + 1))[0]? = some Subnet.unused := rfl
  have different : Subnet.unused.netIdx ≠ netIdx := Ne.symm named
  have zero : Subnet.unused.keys = ⟨.zero, .zero⟩ := rfl
  have lookup : ∀ sub : Subnet, sub.netIdx = netIdx →
      ((subnetGet ((emptyTable (count + 1)).set 0 sub) netIdx).bind fun slot =>
        ((emptyTable (count + 1)).set 0 sub)[slot]?) = some sub := by
    intro sub same
    have first : (emptyTable (count + 1)).set 0 sub = sub :: emptyTable count := rfl
    simp [first, subnetGet, findIdx?_cons, same]
  unfold netKeySet subnetSet
  rw [subnetAlloc_emptyTable named]
  simp only [stored, if_neg different, setKey, zero]
  rcases netKeysCreate_zero cfg crypto record.val.old with
    ⟨noOld, left, failed⟩ | ⟨old, derivedOld, createdOld⟩
  · simp [failed, noOld]
  by_cases normal : record.krPhase = .normal
  · simp [createdOld, derivedOld, normal, lookup]
  rcases netKeysCreate_zero cfg crypto record.val.new with
    ⟨noNew, left, failed⟩ | ⟨new, derivedNew, createdNew⟩
  · simp [createdOld, derivedOld, normal, failed, noNew]
  · simp [createdOld, derivedOld, normal, createdNew, derivedNew, lookup]

theorem restoreSubnet_eq {cfg : Config} {crypto : Crypto} {table : List Subnet}
    (ok : TableOk cfg crypto table) {slot : Nat} {sub : Subnet}
    (found : table[slot]? = some sub) (used : sub.netIdx ≠ keyUnused) :
    restoreSubnet cfg crypto table.length table sub.netIdx =
      (deriveKeys cfg crypto sub.keys.old.net).bind fun old =>
        (if sub.krPhase = .normal then some .zero
          else deriveKeys cfg crypto sub.keys.new.net).map fun new =>
            ⟨sub.netIdx, sub.krPhase, ⟨old, new⟩⟩ := by
  obtain ⟨bound, _⟩ := List.getElem?_eq_some_iff.mp found
  obtain ⟨_, size⟩ := Nat.exists_eq_succ_of_ne_zero
    (Nat.ne_of_gt (Nat.lt_of_le_of_lt (Nat.zero_le slot) bound))
  unfold restoreSubnet
  rw [storeSubnet_eq ok found used, size]
  exact netKeySet_emptyTable cfg crypto used _

/-- The round trip of a reachable subnet is faithful exactly when its first key
slot is valid. -/
theorem subnet_faithful_iff (cfg : Config) (crypto : Crypto) (count : Nat)
    (inputs : List SubnetInput) (slot : Nat) (sub : Subnet)
    (found : ((subnetMachine cfg crypto).run (emptyTable count) inputs)[slot]? =
      some sub) (used : sub.netIdx ≠ keyUnused) : Faithful cfg crypto
        ((subnetMachine cfg crypto).run (emptyTable count) inputs) sub ↔
      sub.keys.old.valid = true := by
  have ok := tableOk_run cfg crypto (.empty cfg crypto count) inputs
  have fine := ok.each slot sub found
  unfold Faithful
  rw [restoreSubnet_eq ok found used]
  constructor
  · intro faithful
    obtain ⟨_, restoredEq, same⟩ := faithful
    obtain ⟨old, derived, rest⟩ := bind_eq_some_iff.mp restoredEq
    obtain ⟨_, _, rfl⟩ := map_eq_some_iff.mp rest
    have valid : old.valid = sub.keys.old.valid := same.valid false
    rw [← valid]
    simp only [deriveKeys, bind_eq_some_iff, map_eq_some_iff] at derived
    obtain ⟨_, _, _, _, _, _, _, _, filled⟩ := derived
    rw [← filled]
  · intro valid
    rw [fine.old.derived valid]
    by_cases normal : sub.krPhase = .normal
    · have unset := (fine.normal used normal).2
      refine ⟨⟨sub.netIdx, sub.krPhase, ⟨sub.keys.old, .zero⟩⟩, ?_, rfl, ?_, ?_⟩
      · simp [normal]
      · intro idx
        cases idx with
        | false => rfl
        | true => exact unset.symm
      · intro idx idxValid
        cases idx with
        | false => rfl
        | true =>
          have contrary : sub.keys.new.valid = true := idxValid
          rw [unset] at contrary
          cases contrary
    · refine ⟨sub, ?_, rfl, fun _ => rfl, fun _ _ => rfl⟩
      simp [normal, fine.new.derived (fine.refresh normal)]

/-! A subnet added in normal operation, and one that provisioning puts into the
middle of a Key Refresh. -/

def plainCrypto : Crypto where
  k2 key p := some ⟨BitVec.ofNat 8 p.length, key, key + BitVec.ofNat 128 p.length⟩
  k2Left _ _ cred := cred
  k3 key := some (key.setWidth 64)
  identityKey key := some (key + 1)
  beaconKey key := some (key + 2)

def addedSubnet : List SubnetInput :=
  [.add ⟨1, one_le_maxNetIdx⟩ 7, .update ⟨1, one_le_maxNetIdx⟩ 8]

def provisionedInRefresh : List SubnetInput :=
  [.netCreate 1 1 7]

theorem subnet_faithful_added : ∃ sub : Subnet,
      ((subnetMachine plainConfig plainCrypto).run (emptyTable 1)
        addedSubnet)[0]? = some sub ∧ sub.krPhase = .phase1 ∧
      Faithful plainConfig plainCrypto
        ((subnetMachine plainConfig plainCrypto).run (emptyTable 1) addedSubnet)
        sub := by
  refine ⟨_, rfl, rfl, ?_⟩
  exact (subnet_faithful_iff plainConfig plainCrypto 1 addedSubnet 0 _ rfl
    (by decide)).mpr rfl

theorem subnet_provisioned_in_refresh : ∃ sub restored : Subnet,
      ((subnetMachine plainConfig plainCrypto).run (emptyTable 1)
        provisionedInRefresh)[0]? = some sub ∧ sub.keys.old.valid = false ∧
      restoreSubnet plainConfig plainCrypto 1
        ((subnetMachine plainConfig plainCrypto).run (emptyTable 1)
          provisionedInRefresh) sub.netIdx = some restored ∧
      restored.keys.old.valid = true ∧ restored.keys.old.net = 0 ∧
      ¬ Faithful plainConfig plainCrypto
        ((subnetMachine plainConfig plainCrypto).run (emptyTable 1)
          provisionedInRefresh) sub := by
  refine ⟨_, _, rfl, rfl, rfl, rfl, rfl, ?_⟩
  intro faithful
  obtain ⟨restored, restoredEq, same⟩ := faithful
  cases restoredEq
  have valid := same.valid false
  cases valid

end ZephyrBluetooth.Mesh
