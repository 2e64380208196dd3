import ZephyrBluetooth.Mesh.Basic

namespace ZephyrBluetooth.Mesh

open List Option Prod

variable {netIdx slot : Nat}

abbrev Key := BitVec 128

structure NetCred where
  nid : BitVec 8
  enc : Key
  privacy : Key
  deriving DecidableEq

def NetCred.zero : NetCred := ⟨0, 0, 0⟩

/-- The key derivation functions of `crypto.c`.  A failing `bt_mesh_k2` leaves
in the credentials what it had written before the failure. -/
structure Crypto where
  k2 : Key → List (BitVec 8) → Option NetCred
  k2Left : Key → List (BitVec 8) → NetCred → NetCred
  k3 : Key → Option (BitVec 64)
  identityKey : Key → Option Key
  beaconKey : Key → Option Key

structure SubnetKeys where
  valid : Bool
  net : Key
  msg : NetCred
  netId : BitVec 64
  identity : Key
  beacon : Key
  deriving DecidableEq

def SubnetKeys.zero : SubnetKeys := ⟨false, 0, .zero, 0, 0, 0⟩

structure Slots (α : Type) where
  old : α
  new : α
  deriving DecidableEq

def Slots.get {α : Type} (slots : Slots α) : Bool → α
  | false => slots.old
  | true => slots.new

def Slots.set {α : Type} (slots : Slots α) : Bool → α → Slots α
  | false, value => { slots with old := value }
  | true, value => { slots with new := value }

@[simp] theorem Slots.get_set_self {α : Type} (slots : Slots α) (idx : Bool)
    (value : α) : (slots.set idx value).get idx = value := by
  cases idx <;> rfl

@[simp] theorem Slots.get_set_not {α : Type} (slots : Slots α) (idx : Bool)
    (value : α) : (slots.set idx value).get (!idx) = slots.get (!idx) := by
  cases idx <;> rfl

inductive KrPhase where
  | normal
  | phase1
  | phase2
  | phase3
  deriving DecidableEq

def KrPhase.code : KrPhase → Nat
  | .normal => 0x00
  | .phase1 => 0x01
  | .phase2 => 0x02
  | .phase3 => 0x03

def KrPhase.ofCode? : Nat → Option KrPhase
  | 0x00 => some .normal
  | 0x01 => some .phase1
  | 0x02 => some .phase2
  | 0x03 => some .phase3
  | _ => none

structure Subnet where
  netIdx : Nat
  krPhase : KrPhase
  keys : Slots SubnetKeys
  deriving DecidableEq

def Subnet.unused : Subnet := ⟨keyUnused, .normal, ⟨.zero, .zero⟩⟩

def Subnet.txIdx (sub : Subnet) : Bool :=
  sub.krPhase == .phase2

inductive KeyEvt where
  | added
  | deleted
  | updated
  | swapped
  | revoked
  deriving DecidableEq

inductive Status where
  | success
  | invalidAddress
  | invalidModel
  | invalidAppkey
  | invalidNetkey
  | insuffResources
  | idxAlreadyStored
  | nvalPubParam
  | featNotSupp
  | cannotUpdate
  | cannotRemove
  | cannotBind
  | cannotSet
  | unspecified
  | invalidBinding
  deriving DecidableEq

/-- What an operation does to the table, with the event it raises for the subnet
in a slot. -/
structure SubnetChange where
  table : List Subnet
  evt : Option (Nat × KeyEvt)

def SubnetChange.none (table : List Subnet) : SubnetChange := ⟨table, .none⟩

def msgCredCreate (crypto : Crypto) (cred : NetCred) (p : List (BitVec 8))
    (key : Key) : Bool × NetCred :=
  match crypto.k2 key p with
  | some created => (true, created)
  | none => (false, crypto.k2Left key p cred)

def netKeysCreate (cfg : Config) (crypto : Crypto) (keys : SubnetKeys)
    (key : Key) : Bool × SubnetKeys :=
  match msgCredCreate crypto keys.msg [0] key with
  | (false, msg) => (false, { keys with msg := msg })
  | (true, msg) =>
    let named := { keys with msg := msg, net := key }
    match crypto.k3 key with
    | none => (false, named)
    | some netId =>
      let identified := { named with netId := netId }
      match
        if cfg.gattProxy then crypto.identityKey key
        else some identified.identity with
      | none => (false, identified)
      | some identity =>
        let proxied := { identified with identity := identity }
        match crypto.beaconKey key with
        | none => (false, proxied)
        | some beacon => (true, { proxied with beacon := beacon, valid := true })

def be16 (value : Nat) : List (BitVec 8) :=
  [BitVec.ofNat 8 (value / 2 ^ 8), BitVec.ofNat 8 value]

def friendCredP (lpnAddr frndAddr lpnCounter frndCounter : Nat) :
    List (BitVec 8) :=
  0x01 :: (be16 lpnAddr ++ be16 frndAddr ++ be16 lpnCounter ++ be16 frndCounter)

def friendCredCreate (crypto : Crypto) (cred : NetCred)
    (lpnAddr frndAddr lpnCounter frndCounter : Nat) (key : Key) :
    Bool × NetCred :=
  msgCredCreate crypto cred (friendCredP lpnAddr frndAddr lpnCounter frndCounter) key

def subnetGet (table : List Subnet) (netIdx : Nat) : Option Nat :=
  table.findIdx? fun sub => sub.netIdx == netIdx

def subnetAlloc (table : List Subnet) (netIdx : Nat) : Option Nat :=
  match subnetGet table netIdx with
  | some slot => some slot
  | none => subnetGet table keyUnused

def keyRefresh (sub : Subnet) (newPhase : KrPhase) :
    Subnet × Option KeyEvt :=
  let revoke :=
    ({ sub with
        krPhase := .normal
        keys := ⟨sub.keys.new, { sub.keys.new with valid := false }⟩ },
      some KeyEvt.revoked)
  match newPhase with
  | .phase1 => ({ sub with krPhase := .phase1 }, some .updated)
  | .phase2 => ({ sub with krPhase := .phase2 }, some .swapped)
  | .phase3 => if sub.krPhase = .normal then (sub, none) else revoke
  | .normal => revoke

def refreshAt (table : List Subnet) (slot : Nat) (sub : Subnet)
    (newPhase : KrPhase) : SubnetChange :=
  let (refreshed, evt) := keyRefresh sub newPhase
  ⟨table.set slot refreshed, evt.map fun raised => (slot, raised)⟩

def krUpdate (table : List Subnet) (slot : Nat) (krFlag newKey : Bool) :
    SubnetChange :=
  match table[slot]? with
  | none => .none table
  | some sub =>
    if !newKey then
      .none table
    else if sub.krPhase = .phase1 then
      refreshAt table slot sub (if krFlag then .phase2 else .phase3)
    else if sub.krPhase = .phase2 ∧ krFlag = false then
      refreshAt table slot sub .phase3
    else
      .none table

def subnetAdd (cfg : Config) (crypto : Crypto) (table : List Subnet)
    (netIdx : Nat) (key : Key) : Status × SubnetChange :=
  match subnetAlloc table netIdx with
  | none => (.insuffResources, .none table)
  | some slot =>
    match table[slot]? with
    | none => (.insuffResources, .none table)
    | some sub =>
      if sub.netIdx = netIdx then
        if key ≠ sub.keys.old.net then
          (.idxAlreadyStored, .none table)
        else
          (.success, .none table)
      else
        let (created, keys) := netKeysCreate cfg crypto sub.keys.old key
        let written := { sub with keys := { sub.keys with old := keys } }
        if created then
          (.success, ⟨table.set slot
                { written with netIdx := netIdx, krPhase := .normal },
              some (slot, .added)⟩)
        else
          (.unspecified, .none (table.set slot written))

def subnetUpdate (cfg : Config) (crypto : Crypto) (table : List Subnet)
    (netIdx : Nat) (key : Key) : Status × SubnetChange :=
  match subnetGet table netIdx with
  | none => (.invalidNetkey, .none table)
  | some slot =>
    match table[slot]? with
    | none => (.invalidNetkey, .none table)
    | some sub =>
      match sub.krPhase with
      | .normal =>
        if key = sub.keys.old.net then
          (.idxAlreadyStored, .none table)
        else
          let (created, keys) := netKeysCreate cfg crypto sub.keys.new key
          let written := { sub with keys := { sub.keys with new := keys } }
          if created then
            (.success, refreshAt table slot written .phase1)
          else
            (.cannotUpdate, .none (table.set slot written))
      | .phase1 =>
        if key = sub.keys.new.net then
          (.success, .none table)
        else
          (.cannotUpdate, .none table)
      | .phase2 => (.cannotUpdate, .none table)
      | .phase3 => (.cannotUpdate, .none table)

def subnetDel (table : List Subnet) (netIdx : Nat) : Status × SubnetChange :=
  match subnetGet table netIdx with
  | none => (.invalidNetkey, .none table)
  | some slot => (.success, ⟨table.set slot Subnet.unused, some (slot, .deleted)⟩)

/-- `valid_transitions` of `bt_mesh_subnet_kr_phase_set`. -/
def validTransition : KrPhase → KrPhase → Bool
  | .normal, .phase3 => true
  | .phase1, .phase2 => true
  | .phase1, .phase3 => true
  | .phase2, .phase3 => true
  | _, _ => false

def subnetKrPhaseSet (table : List Subnet) (netIdx phase : Nat) :
    Status × Nat × SubnetChange :=
  match subnetGet table netIdx with
  | none => (.invalidNetkey, 0x00, .none table)
  | some slot =>
    match table[slot]? with
    | none => (.invalidNetkey, 0x00, .none table)
    | some sub =>
      if phase = sub.krPhase.code then
        (.success, phase, .none table)
      else
        match KrPhase.ofCode? phase with
        | none => (.cannotUpdate, sub.krPhase.code, .none table)
        | some newPhase =>
          if validTransition sub.krPhase newPhase then
            (.success, (keyRefresh sub newPhase).1.krPhase.code,
              refreshAt table slot sub newPhase)
          else
            (.cannotUpdate, sub.krPhase.code, .none table)

/-- One turn of the loop over the two keys in `bt_mesh_subnet_set`. -/
def setKey (cfg : Config) (crypto : Crypto) (keys : SubnetKeys) :
    Option Key → Bool × SubnetKeys
  | none => (true, keys)
  | some key => netKeysCreate cfg crypto keys key

def subnetSet (cfg : Config) (crypto : Crypto) (table : List Subnet)
    (netIdx : Nat) (krPhase : KrPhase) (oldKey newKey : Option Key) :
    Except Errno Unit × List Subnet :=
  match subnetAlloc table netIdx with
  | none => (.error .noMem, table)
  | some slot =>
    match table[slot]? with
    | none => (.error .noMem, table)
    | some sub =>
      if sub.netIdx = netIdx then
        (.error .already, table)
      else
        let (oldCreated, old) := setKey cfg crypto sub.keys.old oldKey
        if !oldCreated then
          (.error .io,
            table.set slot { sub with keys := { sub.keys with old := old } })
        else
          let (newCreated, new) := setKey cfg crypto sub.keys.new newKey
          if !newCreated then
            (.error .io, table.set slot { sub with keys := ⟨old, new⟩ })
          else
            (.ok (), table.set slot ⟨netIdx, krPhase, ⟨old, new⟩⟩)

/-- The subnet part of `bt_mesh_net_create`. -/
def netCreateSubnet (cfg : Config) (crypto : Crypto) (table : List Subnet)
    (netIdx flags : Nat) (key : Key) : Except Errno Unit × List Subnet :=
  if flags % 2 = 1 then
    subnetSet cfg crypto table netIdx .phase2 none (some key)
  else
    subnetSet cfg crypto table netIdx .normal (some key) none

structure NetKeyVal where
  krPhase : KrPhase
  val : Slots Key

def storeSubnet (table : List Subnet) (netIdx : Nat) : Option NetKeyVal :=
  match subnetGet table netIdx with
  | none => none
  | some slot =>
    table[slot]?.map fun sub =>
      ⟨sub.krPhase, ⟨sub.keys.old.net, sub.keys.new.net⟩⟩

def netKeySet (cfg : Config) (crypto : Crypto) (table : List Subnet)
    (netIdx : Nat) (key : NetKeyVal) : Except Errno Unit × List Subnet :=
  subnetSet cfg crypto table netIdx key.krPhase (some key.val.old)
    (if key.krPhase ≠ .normal then some key.val.new else none)

/-- The key slot that `net_keys_create` fills in from scratch. -/
def deriveKeys (cfg : Config) (crypto : Crypto) (key : Key) :
    Option SubnetKeys :=
  (crypto.k2 key [0]).bind fun msg =>
    (crypto.k3 key).bind fun netId =>
      (if cfg.gattProxy then crypto.identityKey key else some 0).bind fun identity =>
          (crypto.beaconKey key).map fun beacon =>
            ⟨true, key, msg, netId, identity, beacon⟩

structure KeysOk (cfg : Config) (crypto : Crypto) (keys : SubnetKeys) :
    Prop where
  derived : keys.valid = true → deriveKeys cfg crypto keys.net = some keys
  identity : cfg.gattProxy = false → keys.identity = 0

theorem KeysOk.zero (cfg : Config) (crypto : Crypto) :
    KeysOk cfg crypto .zero := by
  refine ⟨?_, fun _ => rfl⟩
  intro contrary
  cases contrary

theorem netKeysCreate_created {cfg : Config} {crypto : Crypto}
    {keys filled : SubnetKeys} {key : Key} (ok : KeysOk cfg crypto keys)
    (created : netKeysCreate cfg crypto keys key = (true, filled)) :
    filled.net = key ∧ deriveKeys cfg crypto key = some filled := by
  have identity := ok.identity
  revert created
  unfold netKeysCreate msgCredCreate deriveKeys
  cases crypto.k2 key [0] with
  | none => simp
  | some =>
    cases crypto.k3 key with
    | none => simp
    | some =>
      cases crypto.beaconKey key with
      | none =>
        simp only
        split <;> simp
      | some =>
        cases proxy : cfg.gattProxy with
        | false =>
          simp only [identity proxy]
          intro created
          obtain rfl := (mk.inj created).2
          exact ⟨rfl, rfl⟩
        | true =>
          cases crypto.identityKey key with
          | none => simp
          | some =>
            intro created
            obtain rfl := (mk.inj created).2
            exact ⟨rfl, rfl⟩

theorem netKeysCreate_failed {cfg : Config} {crypto : Crypto}
    {keys left : SubnetKeys} {key : Key}
    (failed : netKeysCreate cfg crypto keys key = (false, left)) :
    left.valid = keys.valid ∧
      (cfg.gattProxy = false → left.identity = keys.identity) := by
  revert failed
  unfold netKeysCreate msgCredCreate
  cases crypto.k2 key [0] with
  | none =>
    intro failed
    obtain rfl := (mk.inj failed).2
    exact ⟨rfl, fun _ => rfl⟩
  | some =>
    cases crypto.k3 key with
    | none =>
      intro failed
      obtain rfl := (mk.inj failed).2
      exact ⟨rfl, fun _ => rfl⟩
    | some =>
      cases cfg.gattProxy with
      | false =>
        cases crypto.beaconKey key with
        | none =>
          intro failed
          obtain rfl := (mk.inj failed).2
          exact ⟨rfl, fun _ => rfl⟩
        | some => simp
      | true =>
        cases crypto.identityKey key with
        | none =>
          intro failed
          obtain rfl := (mk.inj failed).2
          exact ⟨rfl, fun _ => rfl⟩
        | some =>
          cases crypto.beaconKey key with
          | none =>
            intro failed
            obtain rfl := (mk.inj failed).2
            refine ⟨rfl, ?_⟩
            intro contrary
            cases contrary
          | some => simp

theorem netKeysCreate_fst (cfg : Config) (crypto : Crypto) (keys : SubnetKeys)
    (key : Key) :
    (netKeysCreate cfg crypto keys key).1 = (deriveKeys cfg crypto key).isSome := by
  unfold netKeysCreate msgCredCreate deriveKeys
  cases crypto.k2 key [0] with
  | none => rfl
  | some =>
    cases crypto.k3 key with
    | none => rfl
    | some =>
      cases cfg.gattProxy with
      | false => cases crypto.beaconKey key <;> rfl
      | true =>
        cases crypto.identityKey key with
        | none => rfl
        | some => cases crypto.beaconKey key <;> rfl

structure NetIdx where
  val : Nat
  bound : val ≤ 0xfff

theorem one_le_maxNetIdx : 1 ≤ 0xfff := by decide

theorem NetIdx.ne_unused (netIdx : NetIdx) : netIdx.val ≠ keyUnused := by
  have bound := netIdx.bound
  unfold keyUnused
  omega

inductive SubnetInput where
  | netCreate (netIdx : UInt16) (flags : UInt8) (key : Key)
  | add (netIdx : NetIdx) (key : Key)
  | update (netIdx : NetIdx) (key : Key)
  | del (netIdx : NetIdx)
  | krPhaseSet (netIdx : NetIdx) (phase : UInt8)
  | krUpdate (netIdx : NetIdx) (krFlag newKey : Bool)

def subnetStep (cfg : Config) (crypto : Crypto) (table : List Subnet) :
    SubnetInput → SubnetChange
  | .netCreate netIdx flags key =>
    .none (netCreateSubnet cfg crypto table netIdx.toNat flags.toNat key).2
  | .add netIdx key => (subnetAdd cfg crypto table netIdx.val key).2
  | .update netIdx key => (subnetUpdate cfg crypto table netIdx.val key).2
  | .del netIdx => (subnetDel table netIdx.val).2
  | .krPhaseSet netIdx phase => (subnetKrPhaseSet table netIdx.val phase.toNat).2.2
  | .krUpdate netIdx krFlag newKey =>
    match subnetGet table netIdx.val with
    | none => .none table
    | some slot => krUpdate table slot krFlag newKey

structure SubnetOk (cfg : Config) (crypto : Crypto) (sub : Subnet) : Prop where
  old : KeysOk cfg crypto sub.keys.old
  new : KeysOk cfg crypto sub.keys.new
  unused : sub.netIdx = keyUnused →
    sub.krPhase = .normal ∧ sub.keys.old.valid = false ∧ sub.keys.new.valid = false
  normal : sub.netIdx ≠ keyUnused → sub.krPhase = .normal →
    sub.keys.old.valid = true ∧ sub.keys.new.valid = false
  refresh : sub.krPhase ≠ .normal → sub.keys.new.valid = true
  phase1 : sub.krPhase = .phase1 → sub.keys.old.valid = true
  below3 : sub.krPhase ≠ .phase3

structure TableOk (cfg : Config) (crypto : Crypto) (table : List Subnet) :
    Prop where
  each : ∀ (slot : Nat) (sub : Subnet), table[slot]? = some sub →
    SubnetOk cfg crypto sub
  unique : ∀ (slot other : Nat) (sub twin : Subnet), table[slot]? = some sub →
    table[other]? = some twin → sub.netIdx = twin.netIdx →
    sub.netIdx ≠ keyUnused → slot = other

inductive SubnetEffect (cfg : Config) (crypto : Crypto) (table : List Subnet) :
    SubnetChange → Prop
  | unchanged : SubnetEffect cfg crypto table (.none table)
  | spoiled {slot : Nat} {sub : Subnet} (idx : Bool) (keys : SubnetKeys)
      (found : table[slot]? = some sub)
      (unset : (sub.keys.get idx).valid = false) (left : keys.valid = false)
      (identity : cfg.gattProxy = false →
        keys.identity = (sub.keys.get idx).identity) :
      SubnetEffect cfg crypto table
        (.none (table.set slot { sub with keys := sub.keys.set idx keys }))
  | created {slot : Nat} {sub : Subnet} (idx : Bool) (keys : SubnetKeys)
      (netIdx : Nat) (evt : Option (Nat × KeyEvt))
      (found : table[slot]? = some sub) (free : sub.netIdx = keyUnused)
      (named : netIdx ≠ keyUnused)
      (absent : ∀ (other : Nat) (twin : Subnet),
        table[other]? = some twin → twin.netIdx ≠ netIdx)
      (derived : deriveKeys cfg crypto keys.net = some keys)
      (raised : evt = none ∨ evt = some (slot, .added)) :
      SubnetEffect cfg crypto table ⟨table.set slot
            ⟨netIdx, if idx then .phase2 else .normal, sub.keys.set idx keys⟩,
          evt⟩
  | updated {slot : Nat} {sub : Subnet} (keys : SubnetKeys)
      (found : table[slot]? = some sub) (used : sub.netIdx ≠ keyUnused)
      (normal : sub.krPhase = .normal)
      (derived : deriveKeys cfg crypto keys.net = some keys) :
      SubnetEffect cfg crypto table ⟨table.set slot
            { sub with
              krPhase := .phase1, keys := { sub.keys with new := keys } },
          some (slot, .updated)⟩
  | swapped {slot : Nat} {sub : Subnet} (found : table[slot]? = some sub)
      (used : sub.netIdx ≠ keyUnused) (phase : sub.krPhase = .phase1) :
      SubnetEffect cfg crypto table
        ⟨table.set slot { sub with krPhase := .phase2 }, some (slot, .swapped)⟩
  | revoked {slot : Nat} {sub : Subnet} (found : table[slot]? = some sub)
      (used : sub.netIdx ≠ keyUnused)
      (phase : sub.krPhase = .phase1 ∨ sub.krPhase = .phase2) :
      SubnetEffect cfg crypto table ⟨table.set slot
            { sub with
              krPhase := .normal
              keys := ⟨sub.keys.new, { sub.keys.new with valid := false }⟩ },
          some (slot, .revoked)⟩
  | deleted {slot : Nat} {sub : Subnet} (found : table[slot]? = some sub)
      (used : sub.netIdx ≠ keyUnused) :
      SubnetEffect cfg crypto table
        ⟨table.set slot Subnet.unused, some (slot, .deleted)⟩

variable {table : List Subnet}

theorem subnetGet_some (found : subnetGet table netIdx = some slot) :
    ∃ sub, table[slot]? = some sub ∧ sub.netIdx = netIdx := by
  obtain ⟨bound, same, _⟩ := findIdx?_eq_some_iff_getElem.mp found
  exact ⟨table[slot], getElem?_eq_getElem bound, eq_of_beq same⟩

theorem subnetGet_none
    (missing : subnetGet table netIdx = none) (slot : Nat) (sub : Subnet)
    (stored : table[slot]? = some sub) : sub.netIdx ≠ netIdx := by
  have differs := findIdx?_eq_none_iff.mp missing sub (mem_of_getElem? stored)
  simpa using differs

variable {sub : Subnet}

theorem subnetAlloc_free (allocated : subnetAlloc table netIdx = some slot)
    (found : table[slot]? = some sub) (fresh : sub.netIdx ≠ netIdx) :
    sub.netIdx = keyUnused ∧ netIdx ≠ keyUnused ∧
      ∀ (other : Nat) (twin : Subnet), table[other]? = some twin →
        twin.netIdx ≠ netIdx := by
  unfold subnetAlloc at allocated
  cases present : subnetGet table netIdx with
  | some =>
    rw [present] at allocated
    cases allocated
    obtain ⟨stored, storedAt, same⟩ := subnetGet_some present
    rw [found] at storedAt
    cases storedAt
    exact absurd same fresh
  | none =>
    rw [present] at allocated
    obtain ⟨stored, storedAt, free⟩ := subnetGet_some allocated
    rw [found] at storedAt
    cases storedAt
    refine ⟨free, ?_, subnetGet_none present⟩
    intro reserved
    rw [reserved] at fresh
    exact fresh free

theorem set_found
    (found : table[slot]? = some sub) : table.set slot sub = table := by
  obtain ⟨bound, stored⟩ := List.getElem?_eq_some_iff.mp found
  rw [← stored]
  exact set_getElem_self bound

section Effects

variable {cfg : Config} {crypto : Crypto} {table : List Subnet}

section

variable (ok : TableOk cfg crypto table)
include ok

theorem subnetAdd_effect (netIdx : Nat) (key : Key) :
    SubnetEffect cfg crypto table (subnetAdd cfg crypto table netIdx key).2 := by
  unfold subnetAdd
  split
  · exact .unchanged
  next slot allocated =>
    split
    · exact .unchanged
    next sub found =>
      split
      · split <;> exact .unchanged
      next fresh =>
        obtain ⟨free, named, absent⟩ := subnetAlloc_free allocated found fresh
        have fine := ok.each slot sub found
        have unset := (fine.unused free).2.1
        cases outcome : netKeysCreate cfg crypto sub.keys.old key with
        | mk created keys =>
          cases created with
          | true =>
            obtain ⟨same, derived⟩ := netKeysCreate_created fine.old outcome
            rw [← same] at derived
            exact .created false keys netIdx (some (slot, .added)) found
              free named absent derived (.inr rfl)
          | false =>
            obtain ⟨valid, identity⟩ := netKeysCreate_failed outcome
            exact .spoiled false keys found unset (valid.trans unset) identity

theorem subnetUpdate_effect (named : netIdx ≠ keyUnused) (key : Key) :
    SubnetEffect cfg crypto table (subnetUpdate cfg crypto table netIdx key).2 := by
  unfold subnetUpdate
  split
  · exact .unchanged
  next slot got =>
    obtain ⟨sub, found, same⟩ := subnetGet_some got
    have used : sub.netIdx ≠ keyUnused := by
      rw [same]
      exact named
    have fine := ok.each slot sub found
    rw [found]
    simp only
    split
    next phase =>
      split
      · exact .unchanged
      have unset := (fine.normal used phase).2
      cases outcome : netKeysCreate cfg crypto sub.keys.new key with
      | mk created keys =>
        cases created with
        | true =>
          obtain ⟨netEq, derived⟩ := netKeysCreate_created fine.new outcome
          rw [← netEq] at derived
          have effect := SubnetEffect.updated keys found used phase derived
          simpa [refreshAt, keyRefresh] using effect
        | false =>
          obtain ⟨valid, identity⟩ := netKeysCreate_failed outcome
          exact .spoiled true keys found unset (valid.trans unset) identity
    next => split <;> exact .unchanged
    next => exact .unchanged
    next => exact .unchanged

theorem refreshAt_effect (found : table[slot]? = some sub) (newPhase : KrPhase)
    (valid : validTransition sub.krPhase newPhase = true) :
    SubnetEffect cfg crypto table (refreshAt table slot sub newPhase) := by
  have inUse : sub.krPhase ≠ .normal → sub.netIdx ≠ keyUnused := by
    intro refresh free
    exact refresh ((ok.each slot sub found).unused free).1
  cases phase : sub.krPhase with
  | normal =>
    cases newPhase <;> simp [phase, validTransition] at valid
    have same : refreshAt table slot sub .phase3 = .none table := by
      simp [refreshAt, keyRefresh, phase, set_found found, SubnetChange.none]
    rw [same]
    exact .unchanged
  | phase1 =>
    have used := inUse (by rw [phase]; decide)
    cases newPhase <;> simp [phase, validTransition] at valid
    · exact .swapped found used phase
    · have effect : SubnetEffect cfg crypto table _ :=
        .revoked found used (.inl phase)
      simpa [refreshAt, keyRefresh, phase] using effect
  | phase2 =>
    have used := inUse (by rw [phase]; decide)
    cases newPhase <;> simp [phase, validTransition] at valid
    have effect : SubnetEffect cfg crypto table _ :=
      .revoked found used (.inr phase)
    simpa [refreshAt, keyRefresh, phase] using effect
  | phase3 => cases newPhase <;> simp [phase, validTransition] at valid

theorem subnetKrPhaseSet_effect (netIdx phase : Nat) :
    SubnetEffect cfg crypto table (subnetKrPhaseSet table netIdx phase).2.2 := by
  unfold subnetKrPhaseSet
  split
  · exact .unchanged
  next slot got =>
    obtain ⟨_, found, _⟩ := subnetGet_some got
    rw [found]
    simp only
    split
    · exact .unchanged
    split
    · exact .unchanged
    next newPhase _ =>
      split
      next valid => exact refreshAt_effect ok found newPhase valid
      next => exact .unchanged

theorem krUpdate_effect (slot : Nat) (krFlag newKey : Bool) :
    SubnetEffect cfg crypto table (krUpdate table slot krFlag newKey) := by
  unfold krUpdate
  split
  · exact .unchanged
  next sub found =>
    split
    · exact .unchanged
    split
    next phase =>
      apply refreshAt_effect ok found
      rw [phase]
      cases krFlag <;> rfl
    next =>
      split
      next phase =>
        apply refreshAt_effect ok found
        rw [phase.1]
        rfl
      next => exact .unchanged

end

theorem subnetDel_effect (named : netIdx ≠ keyUnused) :
    SubnetEffect cfg crypto table (subnetDel table netIdx).2 := by
  unfold subnetDel
  split
  · exact .unchanged
  next slot got =>
    obtain ⟨sub, found, same⟩ := subnetGet_some got
    have used : sub.netIdx ≠ keyUnused := by
      rw [same]
      exact named
    exact .deleted found used

theorem subnetSet_effect (ok : TableOk cfg crypto table) (netIdx : Nat)
    (key : Key) (idx : Bool) :
    SubnetEffect cfg crypto table (.none
        (subnetSet cfg crypto table netIdx (if idx then .phase2 else .normal)
          (if idx then none else some key)
          (if idx then some key else none)).2) := by
  unfold subnetSet
  split
  · exact .unchanged
  next slot allocated =>
    split
    · exact .unchanged
    next sub found =>
      split
      · exact .unchanged
      next fresh =>
        obtain ⟨free, named, absent⟩ := subnetAlloc_free allocated found fresh
        have fine := ok.each slot sub found
        obtain ⟨_, unsetOld, unsetNew⟩ := fine.unused free
        cases idx with
        | false =>
          cases outcome : netKeysCreate cfg crypto sub.keys.old key with
          | mk created keys =>
            cases created with
            | true =>
              obtain ⟨netEq, derived⟩ := netKeysCreate_created fine.old outcome
              rw [← netEq] at derived
              have effect : SubnetEffect cfg crypto table _ :=
                .created false keys netIdx none found free named absent
                  derived (.inl rfl)
              simpa [setKey, outcome, Slots.set, SubnetChange.none] using effect
            | false =>
              obtain ⟨valid, identity⟩ := netKeysCreate_failed outcome
              have effect : SubnetEffect cfg crypto table _ :=
                .spoiled false keys found unsetOld (valid.trans unsetOld) identity
              simpa [setKey, outcome, Slots.set, SubnetChange.none] using effect
        | true =>
          cases outcome : netKeysCreate cfg crypto sub.keys.new key with
          | mk created keys =>
            cases created with
            | true =>
              obtain ⟨netEq, derived⟩ := netKeysCreate_created fine.new outcome
              rw [← netEq] at derived
              have effect : SubnetEffect cfg crypto table _ :=
                .created true keys netIdx none found free named absent
                  derived (.inl rfl)
              simpa [setKey, outcome, Slots.set, SubnetChange.none] using effect
            | false =>
              obtain ⟨valid, identity⟩ := netKeysCreate_failed outcome
              have effect : SubnetEffect cfg crypto table _ :=
                .spoiled true keys found unsetNew (valid.trans unsetNew) identity
              simpa [setKey, outcome, Slots.set, SubnetChange.none] using effect

theorem subnetStep_effect (ok : TableOk cfg crypto table) (input : SubnetInput) :
    SubnetEffect cfg crypto table (subnetStep cfg crypto table input) := by
  cases input with
  | netCreate netIdx flags key =>
    simp only [subnetStep, netCreateSubnet]
    split
    · exact subnetSet_effect ok netIdx.toNat key true
    · exact subnetSet_effect ok netIdx.toNat key false
  | add netIdx key => exact subnetAdd_effect ok netIdx.val key
  | update netIdx key => exact subnetUpdate_effect ok netIdx.ne_unused key
  | del netIdx => exact subnetDel_effect netIdx.ne_unused
  | krPhaseSet netIdx phase =>
    exact subnetKrPhaseSet_effect ok netIdx.val phase.toNat
  | krUpdate netIdx krFlag newKey =>
    simp only [subnetStep]
    split
    · exact .unchanged
    next slot got => exact krUpdate_effect ok slot krFlag newKey

def emptyTable (count : Nat) : List Subnet :=
  List.replicate count Subnet.unused

theorem TableOk.empty (cfg : Config) (crypto : Crypto) (count : Nat) :
    TableOk cfg crypto (emptyTable count) := by
  have every : ∀ (slot : Nat) (sub : Subnet),
      (emptyTable count)[slot]? = some sub → sub = Subnet.unused := by
    intro slot sub found
    exact eq_of_mem_replicate (mem_of_getElem? found)
  constructor
  · intro slot sub found
    rw [every slot sub found]
    refine ⟨.zero cfg crypto, .zero cfg crypto, fun _ => ⟨rfl, rfl, rfl⟩,
      fun used => absurd rfl used, fun refresh => absurd rfl refresh, ?_, ?_⟩
    · intro contrary
      cases contrary
    · intro contrary
      cases contrary
  · intro slot other sub twin found _ _ used
    rw [every slot sub found] at used
    exact absurd rfl used

theorem TableOk.set (ok : TableOk cfg crypto table) (fine : SubnetOk cfg crypto sub)
    (fresh : sub.netIdx ≠ keyUnused → ∀ (other : Nat) (twin : Subnet),
      table[other]? = some twin → twin.netIdx = sub.netIdx → other = slot) :
    TableOk cfg crypto (table.set slot sub) := by
  have cases : ∀ (other : Nat) (twin : Subnet),
      (table.set slot sub)[other]? = some twin →
        (other = slot ∧ twin = sub) ∨ table[other]? = some twin := by
    intro other twin found
    rw [getElem?_set] at found
    split at found
    next same =>
      split at found
      · exact .inl ⟨same.symm, (some.inj found).symm⟩
      · cases found
    next => exact .inr found
  constructor
  · intro other twin found
    rcases cases other twin found with ⟨_, rfl⟩ | stored
    · exact fine
    · exact ok.each other twin stored
  · intro first second left right foundLeft foundRight same used
    rcases cases first left foundLeft with ⟨rfl, rfl⟩ | storedLeft
    · rcases cases second right foundRight with ⟨rfl, _⟩ | storedRight
      · rfl
      · exact (fresh used second right storedRight same.symm).symm
    · rcases cases second right foundRight with ⟨rfl, rfl⟩ | storedRight
      · rw [same] at used
        exact fresh used first left storedLeft same
      · exact ok.unique first second left right storedLeft storedRight same used

theorem TableOk.rewrite (ok : TableOk cfg crypto table) {sub written : Subnet}
    (found : table[slot]? = some sub) (fine : SubnetOk cfg crypto written)
    (same : written.netIdx = sub.netIdx) :
    TableOk cfg crypto (table.set slot written) := by
  apply ok.set fine
  intro used other twin stored twinSame
  rw [same] at used twinSame
  exact (ok.unique slot other sub twin found stored twinSame.symm used).symm

theorem KeysOk.of_derived {keys : SubnetKeys}
    (derived : deriveKeys cfg crypto keys.net = some keys) :
    KeysOk cfg crypto keys ∧ keys.valid = true := by
  have unfolded := derived
  simp only [deriveKeys, bind_eq_some_iff, map_eq_some_iff] at unfolded
  obtain ⟨_, _, _, _, _, chosen, _, _, filled⟩ := unfolded
  refine ⟨⟨fun _ => derived, ?_⟩, ?_⟩
  · intro proxy
    rw [proxy] at chosen
    rw [← filled]
    exact (some.inj chosen).symm
  · rw [← filled]

theorem KeysOk.revoked {keys : SubnetKeys} (ok : KeysOk cfg crypto keys) :
    KeysOk cfg crypto { keys with valid := false } := by
  refine ⟨?_, ok.identity⟩
  intro contrary
  cases contrary

section

variable {sub : Subnet} (fine : SubnetOk cfg crypto sub)
include fine

theorem SubnetOk.keys (idx : Bool) : KeysOk cfg crypto (sub.keys.get idx) := by
  cases idx with
  | false => exact fine.old
  | true => exact fine.new

variable {keys : SubnetKeys}

theorem SubnetOk.spoiled {idx : Bool}
    (unset : (sub.keys.get idx).valid = false) (left : keys.valid = false)
    (identity : cfg.gattProxy = false → keys.identity = (sub.keys.get idx).identity) :
    SubnetOk cfg crypto { sub with keys := sub.keys.set idx keys } := by
  have keysOk : KeysOk cfg crypto keys := by
    constructor
    · intro valid
      rw [left] at valid
      cases valid
    · intro proxy
      exact (identity proxy).trans ((fine.keys idx).identity proxy)
  cases idx with
  | false =>
    have same : keys.valid = sub.keys.old.valid := left.trans unset.symm
    refine ⟨keysOk, fine.new, ?_, ?_, fine.refresh, ?_, fine.below3⟩
    · intro free
      exact ⟨(fine.unused free).1, left, (fine.unused free).2.2⟩
    · intro used normal
      exact ⟨same.trans (fine.normal used normal).1, (fine.normal used normal).2⟩
    · intro phase
      exact same.trans (fine.phase1 phase)
  | true =>
    have same : keys.valid = sub.keys.new.valid := left.trans unset.symm
    refine ⟨fine.old, keysOk, ?_, ?_, ?_, fine.phase1, fine.below3⟩
    · intro free
      exact ⟨(fine.unused free).1, (fine.unused free).2.1, left⟩
    · intro used normal
      exact ⟨(fine.normal used normal).1, left⟩
    · intro refresh
      exact same.trans (fine.refresh refresh)

theorem SubnetOk.created (free : sub.netIdx = keyUnused) {idx : Bool}
    {netIdx : Nat} (named : netIdx ≠ keyUnused)
    (derived : deriveKeys cfg crypto keys.net = some keys) :
    SubnetOk cfg crypto
      ⟨netIdx, if idx then .phase2 else .normal, sub.keys.set idx keys⟩ := by
  obtain ⟨keysOk, valid⟩ := KeysOk.of_derived derived
  obtain ⟨_, _, unsetNew⟩ := fine.unused free
  cases idx with
  | false =>
    refine ⟨keysOk, fine.new, fun contrary => absurd contrary named,
      fun _ _ => ⟨valid, unsetNew⟩, fun refresh => absurd rfl refresh, ?_, ?_⟩
    · intro contrary
      cases contrary
    · intro contrary
      cases contrary
  | true =>
    refine ⟨fine.old, keysOk, fun contrary => absurd contrary named, ?_,
      fun _ => valid, ?_, ?_⟩
    · intro _ contrary
      cases contrary
    · intro contrary
      cases contrary
    · intro contrary
      cases contrary

section

variable (used : sub.netIdx ≠ keyUnused)
include used

theorem SubnetOk.updated (normal : sub.krPhase = .normal)
    (derived : deriveKeys cfg crypto keys.net = some keys) :
    SubnetOk cfg crypto
      { sub with krPhase := .phase1, keys := { sub.keys with new := keys } } := by
  obtain ⟨keysOk, valid⟩ := KeysOk.of_derived derived
  refine ⟨fine.old, keysOk, fun free => absurd free used, ?_, fun _ => valid,
    fun _ => (fine.normal used normal).1, ?_⟩
  · intro _ contrary
    cases contrary
  · intro contrary
    cases contrary

theorem SubnetOk.swapped (phase : sub.krPhase = .phase1) :
    SubnetOk cfg crypto { sub with krPhase := .phase2 } := by
  have refresh : sub.krPhase ≠ .normal := by
    rw [phase]
    decide
  refine ⟨fine.old, fine.new, fun free => absurd free used, ?_,
    fun _ => fine.refresh refresh, ?_, ?_⟩
  · intro _ contrary
    cases contrary
  · intro contrary
    cases contrary
  · intro contrary
    cases contrary

theorem SubnetOk.revoked
    (phase : sub.krPhase = .phase1 ∨ sub.krPhase = .phase2) :
    SubnetOk cfg crypto
      { sub with
        krPhase := .normal
        keys := ⟨sub.keys.new, { sub.keys.new with valid := false }⟩ } := by
  have refresh : sub.krPhase ≠ .normal := by
    rcases phase with phase | phase <;> rw [phase] <;> decide
  refine ⟨fine.new, fine.new.revoked, fun free => absurd free used,
    fun _ _ => ⟨fine.refresh refresh, rfl⟩,
    fun contrary => absurd rfl contrary, ?_, ?_⟩
  · intro contrary
    cases contrary
  · intro contrary
    cases contrary

end

end

theorem SubnetOk.empty (cfg : Config) (crypto : Crypto) :
    SubnetOk cfg crypto .unused :=
  (TableOk.empty cfg crypto 1).each 0 .unused rfl

theorem SubnetEffect.tableOk {change : SubnetChange}
    (ok : TableOk cfg crypto table)
    (effect : SubnetEffect cfg crypto table change) :
    TableOk cfg crypto change.table := by
  cases effect with
  | unchanged => exact ok
  | spoiled idx keys found unset left identity =>
    have fine := ok.each _ _ found
    exact ok.rewrite found (fine.spoiled unset left identity) rfl
  | created idx keys netIdx evt found free named absent derived =>
    have fine := ok.each _ _ found
    refine ok.set (fine.created free named derived) ?_
    intro _ other twin stored same
    exact absurd same (absent other twin stored)
  | updated keys found used normal derived =>
    have fine := ok.each _ _ found
    exact ok.rewrite found (fine.updated used normal derived) rfl
  | swapped found used phase =>
    have fine := ok.each _ _ found
    exact ok.rewrite found (fine.swapped used phase) rfl
  | revoked found used phase =>
    have fine := ok.each _ _ found
    exact ok.rewrite found (fine.revoked used phase) rfl
  | deleted =>
    exact ok.set (.empty cfg crypto) (fun contrary => absurd rfl contrary)

inductive SlotEffect (slot : Nat) (sub : Subnet) (change : SubnetChange) : Prop
  | kept (after : Subnet) (stored : change.table[slot]? = some after)
      (used : after.netIdx ≠ keyUnused)
      (keys : ∀ idx, (after.keys.get idx).valid = true →
        after.keys.get idx = sub.keys.get idx)
      (quiet : ∀ other evt, change.evt = some (other, evt) →
        other ≠ slot ∨ evt = .swapped)
  | updated (keys : SubnetKeys) (raised : change.evt = some (slot, .updated))
      (stored : change.table[slot]? = some
          { sub with
            krPhase := .phase1, keys := { sub.keys with new := keys } })
  | revoked (raised : change.evt = some (slot, .revoked))
      (stored : change.table[slot]? = some
          { sub with
            krPhase := .normal
            keys := ⟨sub.keys.new, { sub.keys.new with valid := false }⟩ })
      (refreshed : sub.keys.new.valid = true)
  | deleted (raised : change.evt = some (slot, .deleted))

theorem SlotEffect.elsewhere {other : Nat} {sub written : Subnet}
    {evt : Option (Nat × KeyEvt)} (found : table[slot]? = some sub)
    (used : sub.netIdx ≠ keyUnused) (different : other ≠ slot)
    (raised : ∀ place raisedEvt, evt = some (place, raisedEvt) → place = other) :
    SlotEffect slot sub ⟨table.set other written, evt⟩ := by
  refine .kept sub ?_ used (fun _ _ => rfl) ?_
  · simp only [getElem?_set, if_neg different]
    exact found
  · intro place raisedEvt atPlace
    left
    rw [raised place raisedEvt atPlace]
    exact different

theorem getElem?_set_found (found : table[slot]? = some sub)
    (written : Subnet) : (table.set slot written)[slot]? = some written := by
  obtain ⟨bound, _⟩ := List.getElem?_eq_some_iff.mp found
  rw [getElem?_set_self bound]

theorem SubnetEffect.slotEffect {change : SubnetChange}
    (ok : TableOk cfg crypto table) (effect : SubnetEffect cfg crypto table change)
    (found : table[slot]? = some sub)
      (used : sub.netIdx ≠ keyUnused) : SlotEffect slot sub change := by
  have silent : ∀ place raisedEvt other,
      (none : Option (Nat × KeyEvt)) = some (place, raisedEvt) → place = other := by
    intro place raisedEvt other contrary
    cases contrary
  have raisedAt : ∀ (other : Nat) (evt : KeyEvt) place raisedEvt,
      some (other, evt) = some (place, raisedEvt) → place = other := by
    intro other evt place raisedEvt same
    exact (congrArg fst (some.inj same)).symm
  cases effect with
  | unchanged =>
    refine .kept sub found used (fun _ _ => rfl) ?_
    intro place raisedEvt contrary
    cases contrary
  | @spoiled other target idx keys foundOther unset left identity =>
    by_cases same : other = slot
    · subst same
      rw [found] at foundOther
      cases foundOther
      refine .kept _ (getElem?_set_found found _) used ?_ ?_
      · intro place valid
        cases idx <;> cases place <;> simp only [Slots.set, Slots.get] at valid ⊢
        all_goals
          rw [left] at valid
          cases valid
      · intro place raisedEvt contrary
        cases contrary
    · exact .elsewhere found used same fun place raisedEvt =>
        silent place raisedEvt other
  | @created other target idx keys netIdx evt foundOther free named absent
      derived raised =>
      by_cases same : other = slot
      · subst same
        rw [found] at foundOther
        cases foundOther
        exact absurd free used
      · refine .elsewhere found used same ?_
        rcases raised with rfl | rfl
        · exact fun place raisedEvt => silent place raisedEvt other
        · exact raisedAt other .added
  | @updated other target keys foundOther usedOther normal derived =>
    by_cases same : other = slot
    · subst same
      rw [found] at foundOther
      cases foundOther
      exact .updated keys rfl (getElem?_set_found found _)
    · exact .elsewhere found used same (raisedAt other .updated)
  | @swapped other target foundOther usedOther phase =>
    by_cases same : other = slot
    · subst same
      rw [found] at foundOther
      cases foundOther
      refine .kept _ (getElem?_set_found found _) used (fun _ _ => rfl) ?_
      intro place raisedEvt raised
      exact .inr (congrArg snd (some.inj raised)).symm
    · exact .elsewhere found used same (raisedAt other .swapped)
  | @revoked other target foundOther usedOther phase =>
    by_cases same : other = slot
    · subst same
      rw [found] at foundOther
      cases foundOther
      have refresh : sub.krPhase ≠ .normal := by
        rcases phase with phase | phase <;> rw [phase] <;> decide
      exact .revoked rfl (getElem?_set_found found _)
        ((ok.each _ _ found).refresh refresh)
    · exact .elsewhere found used same (raisedAt other .revoked)
  | @deleted other target foundOther usedOther =>
    by_cases same : other = slot
    · subst same
      exact .deleted rfl
    · exact .elsewhere found used same (raisedAt other .deleted)

end Effects

end ZephyrBluetooth.Mesh
