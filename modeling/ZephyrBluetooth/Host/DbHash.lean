import ZephyrBluetooth.Host.GattLongRead
import ZephyrBluetooth.Host.RspBytes

namespace ZephyrBluetooth.Host

open List Option

inductive ValueUuid where
  | uuid16 (val : BitVec 16)
  | uuid128 (val : BitVec 128)
  deriving DecidableEq

def ValueUuid.bytes : ValueUuid → List Byte
  | uuid16 val => le16 val.toNat
  | uuid128 val => BtUuid.littleEndian 16 val.toNat

/-- The read callback of an attribute with the data it reads; `custom` is one of
an application, with nothing where it fails.  `start` is the handle of the
attribute that an include points to. -/
inductive DeclData where
  | service (uuid : ValueUuid)
  | included (start : Nat) (uuid : ValueUuid)
  | chrc (properties : Byte) (valueHandle : Nat) (uuid : ValueUuid)
  | cep (properties : BitVec 16)
  | custom (value : Option (List Byte))
  deriving DecidableEq

def isService (uuid : BtUuid) : Bool :=
  uuid.same (.uuid16 0x2800) || uuid.same (.uuid16 0x2801)

def getServiceHandles : GattAttrFunc DeclData Nat := fun attr handle endHandle =>
  if isService attr.uuid then (endHandle, .stop) else (handle, .proceed)

/-- `pdu.end_handle` after the walk of `bt_gatt_attr_read_included`; `before` is
what it was. -/
def includedEnd (database : GattDb DeclData) (start before : Nat) : Nat :=
  btGattForeachAttr database ((start + 1) % 2 ^ 16) 0xffff getServiceHandles before

def declValue (endOf : Nat → Nat) (attr : GattAttr DeclData) (handle : Nat) :
    Option (List Byte) :=
  match attr.userData with
  | .service uuid => some uuid.bytes
  | .included start uuid =>
    some (le16 start ++ le16 (endOf start) ++ match uuid with
      | .uuid16 _ => uuid.bytes
      | .uuid128 _ => [])
  | .chrc properties valueHandle uuid =>
    let own := if attr.handle ≠ 0 then attr.handle else handle
    some (properties :: le16 (if valueHandle = 0 then own + 1 else valueHandle) ++
      uuid.bytes)
  | .cep properties => some (le16 properties.toNat)
  | .custom value => value

def hashedWithValue : List (BitVec 16) := [0x2800, 0x2801, 0x2802, 0x2803, 0x2900]

def hashedWithout : List (BitVec 16) := [0x2901, 0x2902, 0x2903, 0x2904, 0x2905]

-- One name for the law that decides whether a type is in one of the two lists.
local instance lawfulBEq_uuid16 : LawfulBEq (BitVec 16) := inferInstance

/-- The length of the value where the type tells it: a characteristic with a
16-bit UUID, extended properties, and the types without a value. -/
def ownLength (type : BitVec 16) : Option Nat :=
  if type = 0x2803 then some 5
  else if type = 0x2900 then some 2
  else if type ∈ hashedWithout then some 0
  else none

/-- What `tc_cmac_update` has been given, and `state->err`. -/
abbrev GenHashState := List Byte × Bool

def genHashM (endOf : Nat → Nat) : GattAttrFunc DeclData GenHashState :=
  fun attr handle (fed, err) =>
    match attr.uuid with
    | .uuid16 val =>
      let named := fed ++ le16 handle ++ le16 val.toNat
      if val ∈ hashedWithValue then
        match declValue endOf attr handle with
        | none => ((named, true), .stop)
        | some value =>
          match btGattAttrRead value 16 0 with
          | .error _ => ((named, true), .stop)
          | .ok data => ((named ++ data, err), .proceed)
      else if val ∈ hashedWithout then ((named, err), .proceed)
      else ((fed, err), .proceed)
    | _ => ((fed, err), .proceed)

/-- `db_hash_gen`, up to the end of the CMAC; `before` is what the memory of
`pdu.end_handle` holds. -/
def dbHashGen (database : GattDb DeclData) (before : Nat) : List Byte :=
  (btGattForeachAttr database 0x0001 0xffff
    (genHashM fun start => includedEnd database start before) ([], false)).1

structure HashRecord where
  handle : BitVec 16
  type : BitVec 16
  value : List Byte
  deriving DecidableEq

/-- The value has the length that its type tells. -/
def HashRecord.Formed (record : HashRecord) : Prop :=
  ∀ length, ownLength record.type = some length → record.value.length = length

def HashRecord.bytes (record : HashRecord) : List Byte :=
  le16 record.handle.toNat ++ le16 record.type.toNat ++ record.value

structure HashDb where
  database : GattDb DeclData
  sorted : database.Sorted

namespace HashDb

variable (db : HashDb)

def hashType (attr : GattAttr DeclData) : Option (BitVec 16) :=
  (hashedWithValue ++ hashedWithout).find? fun val => attr.uuid.same (.uuid16 val)

/-- The last handle of an included service is its first one when it has no other
attribute. -/
def value (attr : GattAttr DeclData) (handle : Nat) : Option (List Byte) :=
  declValue (fun start => includedEnd db.database start start) attr handle

def record (entry : GattAttr DeclData × Nat) : Option HashRecord :=
  (hashType entry.1).map fun val =>
    ⟨BitVec.ofNat 16 entry.2, val,
      if val ∈ hashedWithValue then (db.value entry.1 entry.2).getD [] else []⟩

def hashed : List HashRecord :=
  db.database.attributes.filterMap db.record

/-- The attribute has its type as a 16-bit UUID, and if its value is to be hashed
it has a value of at most 16 bytes, and of the length that the type tells; an
included service has a further attribute. -/
structure ShortAttr (attr : GattAttr DeclData) (handle : Nat) (val : BitVec 16) :
    Prop where
  type : attr.uuid = .uuid16 val
  value : val ∈ hashedWithValue → ∃ value, db.value attr handle = some value ∧
    value.length ≤ 16 ∧ ∀ length, ownLength val = some length → value.length = length
  included : ∀ start uuid, attr.userData = .included start uuid →
    ∀ before, includedEnd db.database start before =
      includedEnd db.database start start

def Short : Prop :=
  ∀ entry ∈ db.database.attributes, ∀ val, hashType entry.1 = some val →
    db.ShortAttr entry.1 entry.2 val

end HashDb

/-- At the same place the two lists do not have the same service or include with
values of different lengths. -/
def Alike : List HashRecord → List HashRecord → Prop
  | left :: lefts, right :: rights =>
    (left.handle = right.handle → left.type = right.type →
      ownLength left.type = none → left.value.length = right.value.length) ∧
      Alike lefts rights
  | _, _ => True

theorem declValue_congr {attr : GattAttr DeclData} {endOf other : Nat → Nat}
    (same : ∀ start uuid, attr.userData = .included start uuid →
      endOf start = other start) (handle : Nat) :
    declValue endOf attr handle = declValue other attr handle := by
  unfold declValue
  cases data : attr.userData with
  | included start uuid => simp only [same start uuid data]
  | _ => rfl

theorem same_uuid16 (left right : BitVec 16) :
    (BtUuid.uuid16 left).same (.uuid16 right) = decide (left = right) := rfl

namespace HashDb

variable {db : HashDb}

theorem hashType_uuid16 {attr : GattAttr DeclData} {val : BitVec 16}
    (type : attr.uuid = .uuid16 val) :
    hashType attr =
      if val ∈ hashedWithValue ∨ val ∈ hashedWithout then some val else none := by
  unfold hashType
  rw [type]
  simp only [same_uuid16]
  split
  · rename_i listed
    rw [← mem_append] at listed
    have some : ((hashedWithValue ++ hashedWithout).find?
        fun other => decide (val = other)).isSome :=
      find?_isSome.mpr ⟨val, listed, decide_eq_true rfl⟩
    obtain ⟨other, found⟩ := isSome_iff_exists.mp some
    have same := find?_some found
    rw [found, of_decide_eq_true same]
  · rename_i unlisted
    rw [← mem_append] at unlisted
    apply find?_eq_none.mpr
    intro other member same
    rw [of_decide_eq_true same] at unlisted
    exact unlisted member

theorem genHashM_record (attr : GattAttr DeclData) (handle before : Nat)
    (small : handle < 2 ^ 16)
    (short : ∀ val, hashType attr = some val → db.ShortAttr attr handle val)
    (fed : List Byte) (err : Bool) :
    genHashM (fun start => includedEnd db.database start before) attr handle
        (fed, err) =
      ((fed ++ (db.record (attr, handle)).toList.flatMap HashRecord.bytes, err),
        .proceed) := by
  have wide : (BitVec.ofNat 16 handle).toNat = handle :=
    (BitVec.toNat_ofNat ..).trans (Nat.mod_eq_of_lt small)
  unfold genHashM record
  cases type : attr.uuid with
  | uuid16 val =>
    have typed := hashType_uuid16 type
    simp only
    by_cases valued : val ∈ hashedWithValue
    · rw [if_pos (.inl valued)] at typed
      obtain ⟨-, reads, ends⟩ := short val typed
      obtain ⟨_, own, le, -⟩ := reads valued
      have same := @declValue_congr attr
        (fun start => includedEnd db.database start before) _
        (fun start uuid data => ends start uuid data before) handle
      unfold HashDb.value at own
      rw [if_pos valued, same, own]
      simp only
      rw [btGattAttrRead_eq (Nat.zero_le _), drop_zero, take_of_length_le le, typed]
      simp only [map_some, toList_some, flatMap_singleton,
        if_pos valued, HashDb.value, own, getD_some, HashRecord.bytes, wide,
        append_assoc]
    · rw [if_neg valued]
      by_cases named : val ∈ hashedWithout
      · rw [if_pos (.inr named)] at typed
        rw [if_pos named, typed]
        simp only [map_some, toList_some, flatMap_singleton,
          if_neg valued, HashRecord.bytes, wide, append_nil, append_assoc]
      · rw [if_neg (not_or.mpr ⟨valued, named⟩)] at typed
        rw [if_neg named, typed]
        simp
  | uuid32 val =>
    have none : hashType attr = none := by
      rw [eq_none_iff_forall_ne_some]
      intro val typed
      cases type.symm.trans (short val typed).type
    simp [none]
  | uuid128 val =>
    have none : hashType attr = none := by
      rw [eq_none_iff_forall_ne_some]
      intro val typed
      cases type.symm.trans (short val typed).type
    simp [none]

theorem dbHashGen_hashed (short : db.Short) (before : Nat) :
    dbHashGen db.database before = db.hashed.flatMap HashRecord.bytes := by
  have bounded : ∀ entry ∈ db.database.attributes, entry.2 < 2 ^ 16 := by
    intro entry member
    exact (Finset.mem_Ico.mp (db.sorted.bounded (mem_map_of_mem member))).2
  unfold dbHashGen hashed
  rw [db.sorted.foreachAttr]
  suffices folds : ∀ attrs : List (GattAttr DeclData × Nat),
      (∀ entry ∈ attrs, entry ∈ db.database.attributes) → ∀ fed err,
        foldAttrs (genHashM fun start => includedEnd db.database start before) attrs
            (fed, err) =
          (fed ++ (attrs.filterMap db.record).flatMap HashRecord.bytes, err) by
    rw [folds _ fun _ member => member]
    rfl
  intro attrs inside
  induction attrs with
  | nil => simp [foldAttrs]
  | cons entry rest ih =>
    intro fed err
    obtain ⟨attr, handle⟩ := entry
    have here := inside _ mem_cons_self
    have step := genHashM_record attr handle before (bounded _ here) (short _ here)
      fed err
    unfold foldAttrs
    rw [step]
    simp only
    rw [ih fun entry member => inside entry (mem_cons_of_mem _ member)]
    cases made : db.record (attr, handle) with
    | none => simp [made]
    | some => simp [made]

theorem hashed_formed (short : db.Short) : ∀ record ∈ db.hashed, record.Formed := by
  intro record member
  obtain ⟨⟨attr, handle⟩, inside, made⟩ := mem_filterMap.mp member
  obtain ⟨val, typed, rfl⟩ := map_eq_some_iff.mp made
  intro length told
  dsimp only at told ⊢
  by_cases valued : val ∈ hashedWithValue
  · obtain ⟨value, own, -, formed⟩ := (short _ inside val typed).value valued
    rw [if_pos valued, own]
    exact formed length told
  · rw [if_neg valued]
    unfold ownLength at told
    split at told
    · rename_i same
      exact absurd (same ▸ by decide) valued
    split at told
    · rename_i same
      exact absurd (same ▸ by decide) valued
    split at told
    · exact some.inj told
    · cases told

end HashDb

theorem le16_inj {left right : BitVec 16}
    (same : le16 left.toNat = le16 right.toNat) : left = right := by
  obtain ⟨low, high, -⟩ := cons.inj same |>.imp id cons.inj
  have low := congrArg BitVec.toNat low
  have high := congrArg BitVec.toNat high
  rw [BitVec.toNat_ofNat, BitVec.toNat_ofNat] at low high
  have least := left.isLt
  have most := right.isLt
  apply BitVec.eq_of_toNat_eq
  omega

theorem hashRecords_inj {left right : List HashRecord} (alike : Alike left right)
    (formed : ∀ record ∈ left, record.Formed)
    (otherFormed : ∀ record ∈ right, record.Formed)
    (same : left.flatMap HashRecord.bytes = right.flatMap HashRecord.bytes) :
    left = right := by
  induction left generalizing right with
  | nil =>
    cases right with
    | nil => rfl
    | cons => cases same
  | cons record rest ih =>
    cases right with
    | nil => cases same
    | cons other =>
      obtain ⟨lengths, alike⟩ := alike
      simp only [flatMap_cons, HashRecord.bytes, append_assoc] at same
      obtain ⟨handles, same⟩ := append_inj same rfl
      obtain ⟨types, same⟩ := append_inj same rfl
      have handle := le16_inj handles
      have type := le16_inj types
      have length : record.value.length = other.value.length := by
        cases told : ownLength record.type with
        | none => exact lengths handle type told
        | some =>
          rw [formed record mem_cons_self _ told]
          exact (otherFormed other mem_cons_self _ (type ▸ told)).symm
      obtain ⟨values, same⟩ := append_inj same length
      rw [ih alike (fun record member => formed record (mem_cons_of_mem _ member))
        (fun record member => otherFormed record (mem_cons_of_mem _ member)) same]
      cases record
      cases other
      cases handle
      cases type
      cases values
      rfl

/-- Where every hashed value has at most 16 bytes, the one of a characteristic 5
and of extended properties 2, the hash is computed over the records of the
database, and other records lead to other bytes unless a service or include
changes the size of its UUID. -/
theorem db_hash_covers (db other : HashDb) (short : db.Short)
    (otherShort : other.Short) (before after : Nat) :
    dbHashGen db.database before = db.hashed.flatMap HashRecord.bytes ∧
      (Alike db.hashed other.hashed → db.hashed ≠ other.hashed →
        dbHashGen db.database before ≠ dbHashGen other.database after) := by
  refine ⟨HashDb.dbHashGen_hashed short before, fun alike differ same => ?_⟩
  rw [HashDb.dbHashGen_hashed short, HashDb.dbHashGen_hashed otherShort] at same
  exact differ (hashRecords_inj alike (HashDb.hashed_formed short)
    (HashDb.hashed_formed otherShort) same)

def declAttr (val : BitVec 16) (userData : DeclData) : GattAttr DeclData :=
  ⟨.uuid16 val, userData, 0, by decide⟩

def oneService (attrs : List (GattAttr DeclData)) (fits : attrs.length < 2 ^ 16) :
    HashDb where
  database :=
    { static := ⟨[attrs], by simpa using fits⟩
      object := fun _ => ⟨[declAttr 0 (.custom none)], by simp⟩
      db := [] }
  sorted := ⟨nofun, nofun, List.Pairwise.nil⟩

def shortService : HashDb :=
  oneService [declAttr 0x2800 (.service (.uuid16 0x1234)),
    declAttr 0x2902 (.custom none), declAttr 0x2902 (.custom none),
    declAttr 0x2900 (.cep 1)] (by decide)

def longService : HashDb :=
  oneService [declAttr 0x2800 (.service (.uuid128
    0x0001290000042902000329020002_1234))] (by decide)

def characteristic (uuid : BitVec 128) : HashDb :=
  oneService [declAttr 0x2803 (.chrc 2 0 (.uuid128 uuid))]
    (show 1 < 2 ^ 16 by decide)

theorem oneService_attributes (attrs : List (GattAttr DeclData))
    (fits : attrs.length < 2 ^ 16) :
    (oneService attrs fits).database.attributes = numbered 1 attrs := by
  unfold oneService GattDb.attributes
  simp

/-- A service with an include, a characteristic and two descriptors, and the
included service; the last descriptor configures the server or the client. -/
def includingService (server : Bool) : HashDb :=
  oneService [declAttr 0x2800 (.service (.uuid16 0x180f)),
    declAttr 0x2802 (.included 7 (.uuid16 0x1804)),
    declAttr 0x2803 (.chrc 0x92 0 (.uuid16 0x2a19)), declAttr 0x2a19 (.custom none),
    declAttr 0x2900 (.cep 1),
    declAttr (if server then 0x2903 else 0x2902) (.custom none),
    declAttr 0x2801 (.service (.uuid16 0x1804)),
    declAttr 0x2803 (.chrc 2 0 (.uuid16 0x2a07)), declAttr 0x2a07 (.custom none)]
    (show 9 < 2 ^ 16 by decide)

theorem includingService_short (server : Bool) : (includingService server).Short := by
  unfold HashDb.Short
  rw [show (includingService server).database.attributes = numbered 1 _ from
    oneService_attributes ..]
  simp only [numbered, forall_mem_cons, not_mem_nil, false_implies, implies_true]
  refine ⟨?_, ?_, ?_, ?_, ?_, ?_, ?_, ?_, ?_, trivial⟩
  · rintro _ ⟨⟩
    exact ⟨rfl, fun _ => ⟨_, rfl, by decide, by rintro _ ⟨⟩⟩, by rintro _ _ ⟨⟩⟩
  · rintro _ ⟨⟩
    refine ⟨rfl, fun _ => ⟨_, rfl, ?_, by rintro _ ⟨⟩⟩, ?_⟩
    · exact (show 6 ≤ 16 by decide)
    · rintro _ _ ⟨⟩ _
      rfl
  · rintro _ ⟨⟩
    exact ⟨rfl, fun _ => ⟨_, rfl, by decide, fun _ => some.inj⟩, by rintro _ _ ⟨⟩⟩
  · rintro _ ⟨⟩
  · rintro _ ⟨⟩
    exact ⟨rfl, fun _ => ⟨_, rfl, by decide, fun _ => some.inj⟩, by rintro _ _ ⟨⟩⟩
  · cases server with
    | false =>
      rintro _ ⟨⟩
      exact ⟨rfl, fun valued => absurd valued (by decide), by rintro _ _ ⟨⟩⟩
    | true =>
      rintro _ ⟨⟩
      exact ⟨rfl, fun valued => absurd valued (by decide), by rintro _ _ ⟨⟩⟩
  · rintro _ ⟨⟩
    exact ⟨rfl, fun _ => ⟨_, rfl, by decide, by rintro _ ⟨⟩⟩, by rintro _ _ ⟨⟩⟩
  · rintro _ ⟨⟩
    exact ⟨rfl, fun _ => ⟨_, rfl, by decide, fun _ => some.inj⟩, by rintro _ _ ⟨⟩⟩
  · rintro _ ⟨⟩

theorem db_hash_covers_two :
    (includingService false).hashed.length = 7 ∧
      dbHashGen (includingService false).database 0 =
        (includingService false).hashed.flatMap HashRecord.bytes ∧
      dbHashGen (includingService false).database 0 ≠
        dbHashGen (includingService true).database 0 := by
  obtain ⟨fed, differs⟩ := db_hash_covers _ _ (includingService_short false)
    (includingService_short true) 0 0
  refine ⟨by decide, fed, differs ?_ (by decide)⟩
  exact ⟨fun _ _ _ => rfl, fun _ _ _ => rfl, fun _ _ _ => rfl, fun _ _ _ => rfl,
    fun _ type => absurd type (by decide), fun _ _ _ => rfl, fun _ _ _ => rfl,
    trivial⟩

/-- A 128-bit UUID of a service spells the records behind one of 16 bits, and the
last bytes of the one of a characteristic are left out. -/
theorem db_hash_collides : shortService.hashed ≠ longService.hashed ∧
      dbHashGen shortService.database 0 = dbHashGen longService.database 0 ∧
      (characteristic 0).hashed ≠ (characteristic (1 <<< 120)).hashed ∧
      dbHashGen (characteristic 0).database 0 =
        dbHashGen (characteristic (1 <<< 120)).database 0 := by
  decide

end ZephyrBluetooth.Host
