import ZephyrBluetooth.Host.CccStore
import ZephyrBluetooth.Host.ServiceChanged

namespace ZephyrBluetooth.Host

open Data List Function

variable {saved : Bool} {place : List Char}

/-! The records of a peer in `gatt.c`: what is kept in RAM for an identity and an
address, and what is stored under a path of the settings. -/

inductive GattSubsys where
  | ccc | sc | cf
  deriving DecidableEq

def GattSubsys.name : GattSubsys → List Char
  | ccc => ['c', 'c', 'c']
  | sc => ['s', 'c']
  | cf => ['c', 'f']

/-- The `%02x` of the bytes of a number, highest first. -/
def hexDigits : Nat → Nat → List Char
  | 0, _ => []
  | count + 1, value => hexDigits count (value / 16) ++ [Nat.digitChar (value % 16)]

/-- `bt_settings_encode_key`; the longest path fits in `BT_SETTINGS_KEY_MAX`. -/
def settingsPath (subsys : GattSubsys) (addr : BtAddrLe) (key : Option (List Char)) :
    List Char :=
  'b' :: 't' :: '/' :: (subsys.name ++ '/' :: (hexDigits 12 addr.val.toNat ++
    (Nat.toDigits 10 addr.type.toNat ++ (key.map ('/' :: ·)).getD [])))

/-- The path that every caller builds, with a special form for identity 0. -/
def peerPath (subsys : GattSubsys) (peer : AddrWithId) : List Char :=
  settingsPath subsys peer.addr
    (if peer.id ≠ 0 then some (Nat.toDigits 10 peer.id.toNat) else none)

inductive GattRecord where
  | ccc (entries : List CccStore)
  | sc (start stop : Nat)
  | cf (data : List (BitVec 8))
  deriving DecidableEq

variable {record : Option GattRecord}

structure CfCfg where
  id : BitVec 8
  peer : BtAddrLe
  data : List (BitVec 8)

def CfCfg.isFor (key : AddrWithId) (cfg : CfCfg) : Bool :=
  decide (cfg.id = key.id) && decide (cfg.peer = key.addr)

/-- `clear_cf_cfg`, which keeps the identity. -/
def CfCfg.clear (cfg : CfCfg) : CfCfg := { cfg with peer := .any, data := [0] }

structure GattRecords where
  stored : List Char → Option GattRecord
  ccc : CccTable
  sc : List GattScCfg
  cf : List CfCfg

/-- `saved` tells whether the settings backend takes the record, `deleted` whether
`settings_delete` succeeds. -/
inductive GattRecordOp where
  | storeCcc (peer : AddrWithId) (saved : Bool)
  | storeSc (peer : AddrWithId) (saved : Bool)
  | storeCf (conn : GattConn) (saved : Bool)
  | clear (peer : AddrWithId) (deleted : GattSubsys → Bool)
  | setCcc (peer : AddrWithId) (record : List CccStore)
  | setSc (peer : AddrWithId) (record : Option (Nat × Nat))
  | setCf (peer : AddrWithId) (record : List (BitVec 8))

def removePeerFromAttr (peer : AddrWithId) : GattAttrFunc GattAttrKind CccTable :=
  fun attr handle table =>
    match attr.userData with
    | .other => (table, .proceed)
    | .ccc => (update table handle (cccClear (table handle) peer), .proceed)

namespace GattRecords

variable (database : GattDb GattAttrKind) (state : GattRecords)

/-- `settings_save_one`; an empty record is deleted. -/
def saveOne (path : List Char) (record : Option GattRecord) (saved : Bool) :
    GattRecords :=
  if saved then { state with stored := update state.stored path record }
  else state

/-- `bt_gatt_store_ccc`; nothing is said of a record that overruns its array. -/
def storeCcc (peer : AddrWithId) (saved : Bool) : GattRecords :=
  match btGattStoreCcc database state.ccc peer with
  | none => state
  | some entries =>
    state.saveOne (peerPath .ccc peer)
      (if entries = [] then none else some (.ccc entries)) saved

def scStore (peer : AddrWithId) (saved : Bool) : GattRecords :=
  match findScCfg state.sc peer with
  | none => state
  | some cfg =>
    state.saveOne (peerPath .sc ⟨cfg.peer, cfg.id⟩) (some (.sc cfg.start cfg.stop)) saved

def findCfCfg (conn : GattConn) : Option CfCfg :=
  state.cf.find? fun cfg => conn.isPeerAddrLe cfg.id cfg.peer

/-- `bt_gatt_store_cf`: without an entry the path is that of identity 0. -/
def storeCf (conn : GattConn) (saved : Bool) : GattRecords :=
  let path := match state.findCfCfg conn with
    | none => settingsPath .cf conn.dst none
    | some _ => peerPath .cf ⟨conn.dst, conn.id⟩
  state.saveOne path ((state.findCfCfg conn).map fun cfg => .cf cfg.data) saved

def clearCcc (peer : AddrWithId) (deleted : Bool) : GattRecords :=
  { state with
    ccc := btGattForeachAttr database 0x0001 0xffff (removePeerFromAttr peer)
      state.ccc }.saveOne (peerPath .ccc peer) none deleted

def clearSc (peer : AddrWithId) (deleted : Bool) : GattRecords :=
  match findScCfg state.sc peer with
  | none => state
  | some cfg =>
    { state with sc := changeScCfg peer (fun _ => .cleared) state.sc }.saveOne
      (peerPath .sc ⟨cfg.peer, cfg.id⟩) none deleted

def clearCf (peer : AddrWithId) (deleted : Bool) : GattRecords :=
  { state with
    cf := (changeFirst (CfCfg.isFor peer) CfCfg.clear state.cf).getD
      state.cf }.saveOne (peerPath .cf peer) none deleted

/-- `bt_gatt_clear`, which stops when the CCC record cannot be deleted. -/
def clear (peer : AddrWithId) (deleted : GattSubsys → Bool) : GattRecords :=
  let first := state.clearCcc database peer (deleted .ccc)
  if deleted .ccc then (first.clearSc peer (deleted .sc)).clearCf peer (deleted .cf)
  else first

def setSc (peer : AddrWithId) (record : Option (Nat × Nat)) : GattRecords :=
  match record with
  | none => { state with sc := changeScCfg peer (fun _ => .cleared) state.sc }
  | some (start, stop) =>
    if (findScCfg state.sc peer).isSome then
      { state with sc := changeScCfg peer (fun cfg => { cfg with start, stop }) state.sc }
    else
      { state with
        sc := changeScCfg ⟨.any, 0⟩ (fun _ => ⟨peer.id, peer.addr, start, stop⟩)
          state.sc }

/-- What `cf_set` leaves of the entry that it finds or takes. -/
def cfRead (record : List (BitVec 8)) (cfg : CfCfg) : CfCfg :=
  if record = [] then cfg.clear else { cfg with data := record.take 1 }

def setCf (peer : AddrWithId) (record : List (BitVec 8)) : GattRecords :=
  match changeFirst (CfCfg.isFor peer) (cfRead record) state.cf with
  | some cf => { state with cf }
  | none =>
    { state with
      cf := (changeFirst (fun cfg => decide (cfg.peer = .any))
        (fun cfg => cfRead record { cfg with id := peer.id, peer := peer.addr })
        state.cf).getD state.cf }

def step : GattRecordOp → GattRecords
  | .storeCcc peer saved => state.storeCcc database peer saved
  | .storeSc peer saved => state.scStore peer saved
  | .storeCf conn saved => state.storeCf conn saved
  | .clear peer deleted => state.clear database peer deleted
  | .setCcc peer record => { state with ccc := cccSet database state.ccc peer record }
  | .setSc peer record => state.setSc peer record
  | .setCf peer record => state.setCf peer record

end GattRecords

def GattRecordOp.key : GattRecordOp → AddrWithId
  | .storeCcc peer _ | .storeSc peer _ | .clear peer _ | .setCcc peer _
  | .setSc peer _ | .setCf peer _ => peer
  | .storeCf conn _ => ⟨conn.dst, conn.id⟩

def GattRecordOp.ownsCf (op : GattRecordOp) (cfg : CfCfg) : Bool :=
  match op with
  | .storeCf conn _ => conn.isPeerAddrLe cfg.id cfg.peer
  | _ => cfg.isFor op.key

structure Untouched (other : AddrWithId) (state next : GattRecords) : Prop where
  stored : ∀ subsys, next.stored (peerPath subsys other) =
    state.stored (peerPath subsys other)
  ccc : ∀ handle, (next.ccc handle).filter (·.isFor other) =
    (state.ccc handle).filter (·.isFor other)
  sc : next.sc.filter (GattScCfg.isFor other) = state.sc.filter (GattScCfg.isFor other)
  cf : next.cf.filter (CfCfg.isFor other) = state.cf.filter (CfCfg.isFor other)

structure SameOwn (op : GattRecordOp) (state twin : GattRecords) : Prop where
  stored : ∀ subsys, twin.stored (peerPath subsys op.key) =
    state.stored (peerPath subsys op.key)
  ccc : ∀ handle, (twin.ccc handle).filter (·.isFor op.key) =
    (state.ccc handle).filter (·.isFor op.key)
  sc : twin.sc.filter (GattScCfg.isFor op.key) =
    state.sc.filter (GattScCfg.isFor op.key)
  cf : twin.cf.filter op.ownsCf = state.cf.filter op.ownsCf

/-- An operation leaves the record and the entries of every other peer alone, and
what it stores for its own depends on nothing else. -/
structure Isolated (database : GattDb GattAttrKind) (op : GattRecordOp)
    (state : GattRecords) : Prop where
  frame : ∀ other : AddrWithId, other.addr ≠ .any → other ≠ op.key →
    Untouched other state (state.step database op)
  reads : ∀ twin, SameOwn op state twin → ∀ subsys,
    (twin.step database op).stored (peerPath subsys op.key) =
      (state.step database op).stored (peerPath subsys op.key)

/-- Client features without an entry are stored for another identity than 0, and
the same address has a record for identity 0. -/
def Misdeletes (op : GattRecordOp) (state : GattRecords) : Prop :=
  match op with
  | .storeCf conn saved =>
    saved = true ∧ conn.id ≠ 0 ∧ state.findCfCfg conn = none ∧
      state.stored (peerPath .cf ⟨conn.dst, 0⟩) ≠ none
  | _ => False

theorem hexDigits_length (count value : Nat) :
    (hexDigits count value).length = count := by
  induction count generalizing value with
  | zero => rfl
  | succ count ih => simp [hexDigits, ih]

theorem digitChar_inj : ∀ low < 16, ∀ other < 16,
    Nat.digitChar low = Nat.digitChar other → low = other := by decide

theorem hexDigits_inj {count value other : Nat} (small : value < 16 ^ count)
    (less : other < 16 ^ count) (same : hexDigits count value = hexDigits count other) :
    value = other := by
  induction count generalizing value other with
  | zero => omega
  | succ count ih =>
    obtain ⟨high, low⟩ := append_inj' same rfl
    rw [pow_succ] at small less
    have highs := ih (Nat.div_lt_of_lt_mul (by rwa [mul_comm]))
      (Nat.div_lt_of_lt_mul (by rwa [mul_comm])) high
    have lows := digitChar_inj _ (Nat.mod_lt value (by decide)) _
      (Nat.mod_lt other (by decide)) (cons.inj low).1
    omega

theorem toDigits_inj {value other : Nat}
    (same : Nat.toDigits 10 value = Nat.toDigits 10 other) : value = other := by
  rw [← @Nat.ofDigitChars_ten_toDigits value, same, Nat.ofDigitChars_ten_toDigits]

theorem slash_split {front other back rest : List Char} (clean : '/' ∉ front)
    (tidy : '/' ∉ other) (starts : ∀ first ∈ back.head?, first = '/')
    (begins : ∀ first ∈ rest.head?, first = '/') (same : front ++ back = other ++ rest) :
    front = other ∧ back = rest := by
  induction front generalizing other with
  | nil =>
    cases other with
    | nil => exact ⟨rfl, same⟩
    | cons char =>
      have here : char = '/' := starts char (by rw [show back = _ from same]; rfl)
      exact absurd (here ▸ mem_cons_self) tidy
  | cons char more ih =>
    cases other with
    | nil =>
      have here : char = '/' := begins char (by rw [show rest = _ from same.symm]; rfl)
      exact absurd (here ▸ mem_cons_self) clean
    | cons =>
      obtain ⟨rfl, later⟩ := cons.inj same
      obtain ⟨rfl, backs⟩ := ih (fun member => clean (mem_cons_of_mem _ member))
        (fun member => tidy (mem_cons_of_mem _ member)) later
      exact ⟨rfl, backs⟩

theorem toDigits_clean (value : Nat) : '/' ∉ Nat.toDigits 10 value := fun member => by
  cases Nat.isDigit_of_mem_toDigits (by decide) (by decide) member

theorem peerPath_zero (subsys : GattSubsys) (addr : BtAddrLe) :
    peerPath subsys ⟨addr, 0⟩ = settingsPath subsys addr none := by
  unfold peerPath
  rw [if_neg (not_not.mpr rfl)]

theorem peerPath_inj {subsys kind : GattSubsys} {peer other : AddrWithId}
    (same : peerPath subsys peer = peerPath kind other) :
    subsys = kind ∧ peer = other := by
  have names : ∀ subsys : GattSubsys, '/' ∉ subsys.name := by
    intro subsys
    cases subsys <;> decide
  have slash : ∀ rest : List Char, ∀ first ∈ ('/' :: rest).head?, first = '/' :=
    fun rest first member => (Option.some.inj member).symm
  have starts : ∀ key : Option (List Char),
      ∀ first ∈ ((key.map ('/' :: ·)).getD []).head?, first = '/' := by
    intro key
    cases key with
    | none => exact nofun
    | some key => exact slash key
  obtain ⟨name, rest⟩ := slash_split (names subsys) (names kind) (slash _) (slash _)
    (cons.inj (cons.inj (cons.inj same).2).2).2
  obtain ⟨vals, rest⟩ := append_inj (cons.inj rest).2
    (by rw [hexDigits_length, hexDigits_length])
  obtain ⟨types, ids⟩ := slash_split (toDigits_clean _) (toDigits_clean _)
    (starts _) (starts _) rest
  have val := BitVec.eq_of_toNat_eq
    (hexDigits_inj peer.addr.val.isLt other.addr.val.isLt vals)
  have type := BitVec.eq_of_toNat_eq (toDigits_inj types)
  have id : peer.id = other.id := by
    by_cases zero : peer.id = 0
    · by_cases none : other.id = 0
      · rw [zero, none]
      · rw [if_neg (not_not.mpr zero), if_pos none] at ids
        cases ids
    · by_cases none : other.id = 0
      · rw [if_pos zero, if_neg (not_not.mpr none)] at ids
        cases ids
      · rw [if_pos zero, if_pos none] at ids
        exact BitVec.eq_of_toNat_eq (toDigits_inj (cons.inj ids).2)
  have same : peer = other := calc
    peer = ⟨⟨peer.addr.type, peer.addr.val⟩, peer.id⟩ := rfl
    _ = other := by rw [type, val, id]
  refine ⟨?_, same⟩
  revert name
  cases subsys <;> cases kind <;> decide

theorem filter_changeFirst {Entry : Type} {test keep : Entry → Bool}
    {change : Entry → Entry} (entries : List Entry)
    (out : ∀ entry, test entry = true →
      keep entry = false ∧ keep (change entry) = false) :
    ((changeFirst test change entries).getD entries).filter keep =
      entries.filter keep := by
  cases found : changeFirst test change entries with
  | none => rfl
  | some =>
    obtain ⟨_, entry, _, rfl, tests, -, rfl⟩ := changeFirst_split found
    obtain ⟨old, new⟩ := out entry tests
    simp [old, new]

section Foreach

variable {Carried : Type} {holds : Carried → Prop}
  {func : GattAttrFunc GattAttrKind Carried}
  (visit : ∀ attr handle carried, holds carried → holds (func attr handle carried).1)
include visit

variable {walk : GattWalk Carried}

section

variable (query : GattQuery GattAttrKind)
include query

theorem foreachAttrs_keeps
    (attrs : List (GattAttr GattAttrKind × Nat)) (start : holds walk.userData) :
    holds (foreachAttrs query func attrs walk).userData := by
  induction attrs generalizing walk with
  | nil => exact start
  | cons entry rest ih =>
    have next : holds (gattForeachIter query func entry.1 entry.2 walk).userData := by
      unfold gattForeachIter
      split
      · exact start
      split
      · exact start
      split
      · exact visit _ _ _ start
      · exact start
    unfold foreachAttrs
    split
    · exact next
    · exact ih next

theorem foreachStatic_keeps (handle : Nat)
    (services : List (List (GattAttr GattAttrKind))) (start : holds walk.userData) :
    holds (foreachStatic query func handle services walk).userData := by
  induction services generalizing handle walk with
  | nil => exact start
  | cons service rest ih =>
    unfold foreachStatic
    have next := foreachAttrs_keeps visit query (numbered handle service) start
    split
    · exact ih _ start
    split
    · exact next
    · exact ih _ next

theorem foreachDyndb_keeps
    (services : List (GattService GattAttrKind)) (start : holds walk.userData) :
    holds (foreachAttrTypeDyndb query func services walk).userData := by
  induction services generalizing walk with
  | nil => exact start
  | cons service rest ih =>
    unfold foreachAttrTypeDyndb
    have next := foreachAttrs_keeps visit query (ownHandles service.attrs) start
    split
    · exact ih start
    split
    · exact next
    · exact ih next

end

theorem foreachAttr_keeps (database : GattDb GattAttrKind) (first last : Nat)
    {carried : Carried} (start : holds carried) :
    holds (btGattForeachAttr database first last func carried) := by
  unfold btGattForeachAttr btGattForeachAttrType
  have static : ∀ {walk : GattWalk Carried}, holds walk.userData →
      holds (if first ≤ database.static.lastHandle then foreachStatic
        ⟨first, last, none, none⟩ func 1 database.static.services walk
        else walk).userData := by
    intro walk start
    split
    · exact foreachStatic_keeps visit _ 1 _ start
    · exact start
  dsimp only
  split
  · exact static start
  · exact foreachDyndb_keeps visit _ _ (static start)

end Foreach

section Frame

variable {key other : AddrWithId} {id : BitVec 8}

theorem key_apart {peer : BtAddrLe} (apart : other ≠ key)
    (own : (decide (id = key.id) && decide (peer = key.addr)) = true) :
    (decide (id = other.id) && decide (peer = other.addr)) = false := by
  rw [Bool.and_eq_true, decide_eq_true_eq, decide_eq_true_eq] at own
  obtain ⟨rfl, rfl⟩ := own
  rw [Bool.and_eq_false_iff, decide_eq_false_iff_not, decide_eq_false_iff_not]
  by_contra same
  rw [not_or, not_not, not_not] at same
  obtain ⟨id, addr⟩ := same
  apply apart
  cases other
  exact congrArg₂ AddrWithId.mk addr.symm id.symm

theorem key_free (real : other.addr ≠ .any) :
    (decide (id = other.id) && decide (BtAddrLe.any = other.addr)) = false := by
  simp [real.symm]

theorem cccClear_filter (apart : other ≠ key) (real : other.addr ≠ .any)
    (cfgs : List CccCfg) :
    (cccClear cfgs key).filter (·.isFor other) = cfgs.filter (·.isFor other) :=
  filter_changeFirst cfgs fun _ own => ⟨key_apart apart own, key_free real⟩

theorem cccRestore_filter (apart : other ≠ key) (real : other.addr ≠ .any)
    (cfgs : List CccCfg) (value : BitVec 16) :
    (cccRestore cfgs key value).filter (·.isFor other) =
      cfgs.filter (·.isFor other) := by
  unfold cccRestore
  cases found : changeFirst (·.isFor key) (fun cfg : CccCfg => { cfg with value })
    cfgs with
  | some restored =>
    have kept := @filter_changeFirst _ (·.isFor key) (·.isFor other)
      (fun cfg : CccCfg => { cfg with value }) cfgs
      fun cfg own => ⟨key_apart apart own, key_apart apart own⟩
    rw [found] at kept
    exact kept
  | none =>
    refine filter_changeFirst cfgs fun cfg free => ⟨key_apart ?_ free, key_apart apart ?_⟩
    · exact fun same => real (same ▸ rfl)
    · simp

theorem update_filter {table base : CccTable} {cfgs : List CccCfg} {handle : Nat}
    (same : ∀ handle, (table handle).filter (·.isFor other) =
      (base handle).filter (·.isFor other))
    (here : cfgs.filter (·.isFor other) = (table handle).filter (·.isFor other)) :
    ∀ at', (update table handle cfgs at').filter (·.isFor other) =
      (base at').filter (·.isFor other) := by
  intro at'
  by_cases there : at' = handle
  · rw [there, update_self, here, same]
  · rw [update_of_ne there, same]

theorem removePeer_filter (database : GattDb GattAttrKind) (table : CccTable)
    (apart : other ≠ key) (real : other.addr ≠ .any) (handle : Nat) :
    (btGattForeachAttr database 0x0001 0xffff (removePeerFromAttr key) table
      handle).filter (·.isFor other) = (table handle).filter (·.isFor other) := by
  refine @foreachAttr_keeps _ (fun carried : CccTable => ∀ handle,
    (carried handle).filter (·.isFor other) = (table handle).filter (·.isFor other))
    _ ?_ database _ _ _ (fun _ => rfl) handle
  intro attr handle carried same
  unfold removePeerFromAttr
  split
  · exact same
  · exact update_filter same (cccClear_filter apart real _)

theorem cccSet_filter (database : GattDb GattAttrKind) (table : CccTable)
    (record : List CccStore) (apart : other ≠ key) (real : other.addr ≠ .any)
    (handle : Nat) :
    (cccSet database table key record handle).filter (·.isFor other) =
      (table handle).filter (·.isFor other) := by
  refine @foreachAttr_keeps _ (fun load : CccLoad => ∀ handle,
    (load.table handle).filter (·.isFor other) =
      (table handle).filter (·.isFor other))
    _ ?_ database _ _ _ (fun _ => rfl) handle
  intro attr handle load same
  unfold cccLoad
  split
  · exact same
  split
  · exact update_filter same (cccClear_filter apart real _)
  · exact same
  dsimp only
  split
  · exact update_filter same (cccRestore_filter apart real _ _)
  split
  · exact same
  · exact same

theorem changeScCfg_filter {test : AddrWithId} {change : GattScCfg → GattScCfg}
    (cfgs : List GattScCfg) (apart : other ≠ test)
    (changed : ∀ cfg : GattScCfg, cfg.isFor test = true →
      (change cfg).isFor other = false) :
    (changeScCfg test change cfgs).filter (GattScCfg.isFor other) =
      cfgs.filter (GattScCfg.isFor other) :=
  filter_changeFirst cfgs fun cfg own => ⟨key_apart apart own, changed cfg own⟩

namespace Untouched

variable {state next last : GattRecords}

theorem refl : Untouched other state state :=
  ⟨fun _ => rfl, fun _ => rfl, rfl, rfl⟩

theorem trans (first : Untouched other state next) (second : Untouched other next last) :
    Untouched other state last :=
  ⟨fun subsys => (second.stored subsys).trans (first.stored subsys),
    fun handle => (second.ccc handle).trans (first.ccc handle),
    second.sc.trans first.sc, second.cf.trans first.cf⟩

theorem saveOne {path : List Char}
    (apart : ∀ subsys, peerPath subsys other = path → record = state.stored path)
    (saved : Bool) : Untouched other state (state.saveOne path record saved) := by
  unfold GattRecords.saveOne
  split
  · refine ⟨fun subsys => ?_, fun _ => rfl, rfl, rfl⟩
    by_cases same : peerPath subsys other = path
    · rw [same, ← apart subsys same]
      exact update_self ..
    · exact update_of_ne same ..
  · exact refl

theorem saveKey {subsys : GattSubsys} (apart : other ≠ key) (saved : Bool) :
    Untouched other state (state.saveOne (peerPath subsys key) record saved) :=
  saveOne (fun _ same => absurd (peerPath_inj same).2 apart) saved

end Untouched

namespace GattRecords

variable {state : GattRecords} {database : GattDb GattAttrKind}

theorem clearCcc_untouched (apart : other ≠ key) (real : other.addr ≠ .any)
    (deleted : Bool) :
    Untouched other state (state.clearCcc database key deleted) := by
  have cleared : Untouched other state
      { state with
        ccc := btGattForeachAttr database 0x0001 0xffff (removePeerFromAttr key)
          state.ccc } :=
    ⟨fun _ => rfl, removePeer_filter database _ apart real, rfl, rfl⟩
  exact cleared.trans (.saveKey apart deleted)

theorem changeSc_untouched {test : AddrWithId} {change : GattScCfg → GattScCfg}
    (apart : other ≠ test)
    (changed : ∀ cfg : GattScCfg, cfg.isFor test = true →
      (change cfg).isFor other = false) :
    Untouched other state { state with sc := changeScCfg test change state.sc } :=
  ⟨fun _ => rfl, fun _ => rfl, changeScCfg_filter _ apart changed, rfl⟩

theorem changeCf_untouched {test : CfCfg → Bool} {change : CfCfg → CfCfg}
    (changed : ∀ cfg, test cfg = true → cfg.isFor other = false ∧
      (change cfg).isFor other = false) :
    Untouched other state
      { state with cf := (changeFirst test change state.cf).getD state.cf } :=
  ⟨fun _ => rfl, fun _ => rfl, rfl, filter_changeFirst _ changed⟩

theorem scFound_key {cfg : GattScCfg} (found : findScCfg state.sc key = some cfg) :
    (⟨cfg.peer, cfg.id⟩ : AddrWithId) = key := by
  have own := find?_some found
  unfold GattScCfg.isFor at own
  rw [Bool.and_eq_true, decide_eq_true_eq, decide_eq_true_eq] at own
  rw [own.1, own.2]

section

variable (apart : other ≠ key)
include apart

theorem scStore_untouched (saved : Bool) :
    Untouched other state (state.scStore key saved) := by
  unfold scStore
  split
  · exact .refl
  · rename_i cfg found
    rw [scFound_key found]
    exact .saveKey apart saved

theorem clearSc_untouched (real : other.addr ≠ .any)
    (deleted : Bool) : Untouched other state (state.clearSc key deleted) := by
  unfold clearSc
  split
  · exact .refl
  · rename_i cfg found
    rw [scFound_key found]
    have cleared : Untouched other state
        { state with sc := changeScCfg key (fun _ => .cleared) state.sc } :=
      changeSc_untouched apart fun _ _ => key_free real
    exact cleared.trans (.saveKey apart deleted)

theorem clearCf_untouched (real : other.addr ≠ .any)
    (deleted : Bool) : Untouched other state (state.clearCf key deleted) := by
  have cleared : Untouched other state
      { state with
        cf := (changeFirst (CfCfg.isFor key) CfCfg.clear state.cf).getD
          state.cf } :=
    changeCf_untouched fun _ own => ⟨key_apart apart own, key_free real⟩
  exact cleared.trans (.saveKey apart deleted)

theorem storeCcc_untouched (saved : Bool) :
    Untouched other state (state.storeCcc database key saved) := by
  unfold storeCcc
  split
  · exact .refl
  · exact .saveKey apart saved

end

theorem setSc_untouched (record : Option (Nat × Nat)) (apart : other ≠ key)
    (real : other.addr ≠ .any) : Untouched other state (state.setSc key record) := by
  have free : other ≠ ⟨.any, 0⟩ := fun same => real (same ▸ rfl)
  have own : ∀ start stop,
      (⟨key.id, key.addr, start, stop⟩ : GattScCfg).isFor other = false :=
    fun _ _ => key_apart apart (by simp)
  unfold setSc
  split
  · exact changeSc_untouched apart fun _ _ => key_free real
  split
  · exact changeSc_untouched apart fun _ own => key_apart apart own
  · exact changeSc_untouched free fun _ _ => own _ _

theorem cfRead_isFor {record : List (BitVec 8)} {cfg : CfCfg}
    (real : other.addr ≠ .any) (apart : cfg.isFor other = false) :
    (cfRead record cfg).isFor other = false := by
  unfold cfRead
  split
  · exact key_free real
  · exact apart

theorem setCf_untouched (record : List (BitVec 8)) (apart : other ≠ key)
    (real : other.addr ≠ .any) : Untouched other state (state.setCf key record) := by
  have own : ∀ cfg : CfCfg, cfg.isFor key = true → cfg.isFor other = false ∧
      (cfRead record cfg).isFor other = false := fun cfg own =>
    ⟨key_apart apart own, cfRead_isFor real (key_apart apart own)⟩
  unfold setCf
  split
  · rename_i cf found
    have kept := filter_changeFirst state.cf own
    rw [found] at kept
    exact ⟨fun _ => rfl, fun _ => rfl, rfl, kept⟩
  · refine changeCf_untouched fun cfg free => ⟨?_, cfRead_isFor real ?_⟩
    · unfold CfCfg.isFor
      rw [of_decide_eq_true free]
      exact key_free real
    · exact key_apart apart (by simp)

theorem storeCf_untouched {conn : GattConn} (apart : other ≠ ⟨conn.dst, conn.id⟩)
    (fine : ¬ Misdeletes (.storeCf conn saved) state) :
    Untouched other state (state.storeCf conn saved) := by
  unfold storeCf
  rw [← peerPath_zero]
  cases found : state.findCfCfg conn with
  | some => exact .saveKey apart saved
  | none =>
    by_cases zero : conn.id = 0
    · rw [zero] at apart
      exact .saveKey apart saved
    cases saved with
    | false => exact .refl
    | true =>
      refine .saveOne (fun subsys same => ?_) true
      by_contra changed
      exact fine ⟨rfl, zero, found, fun none => changed none.symm⟩

theorem step_untouched {op : GattRecordOp} (apart : other ≠ op.key)
    (real : other.addr ≠ .any) (fine : ¬ Misdeletes op state) :
    Untouched other state (state.step database op) := by
  cases op with
  | storeCcc key saved => exact storeCcc_untouched apart saved
  | storeSc key saved => exact scStore_untouched apart saved
  | storeCf => exact storeCf_untouched apart fine
  | setCcc key record =>
    exact ⟨fun _ => rfl, cccSet_filter database _ record apart real, rfl, rfl⟩
  | setSc key record => exact setSc_untouched record apart real
  | setCf key record => exact setCf_untouched record apart real
  | clear key deleted =>
    have first : Untouched other state (state.clearCcc database key (deleted .ccc)) :=
      clearCcc_untouched apart real _
    unfold step clear
    dsimp only
    split
    · exact (first.trans (clearSc_untouched apart real _)).trans
        (clearCf_untouched apart real _)
    · exact first

end GattRecords

end Frame

section Stored

variable {database : GattDb GattAttrKind} {state twin : GattRecords} {key : AddrWithId}

theorem cccSave_congr {table other : CccTable}
    (same : ∀ handle, (other handle).filter (·.isFor key) =
      (table handle).filter (·.isFor key)) : cccSave other key = cccSave table key := by
  funext attr handle save
  unfold cccSave
  rw [← head?_filter, ← head?_filter, same handle]

theorem saveOne_stored {path : List Char}
    (same : twin.stored place = state.stored place) :
    (twin.saveOne path record saved).stored place =
      (state.saveOne path record saved).stored place := by
  unfold GattRecords.saveOne
  split
  · by_cases here : place = path
    · rw [here]
      simp only [update_self]
    · simp only [update_of_ne here, same]
  · exact same

namespace GattRecords

theorem saveOne_sc (path : List Char) (record : Option GattRecord) (saved : Bool) :
    (state.saveOne path record saved).sc = state.sc := by
  unfold saveOne
  split <;> rfl

theorem saveOne_self (path : List Char) (record : Option GattRecord) :
    (state.saveOne path record true).stored path = record :=
  update_self ..

theorem setSc_stored (record : Option (Nat × Nat)) :
    (state.setSc key record).stored = state.stored := by
  unfold setSc
  split
  · rfl
  split <;> rfl

theorem setCf_stored (record : List (BitVec 8)) :
    (state.setCf key record).stored = state.stored := by
  unfold setCf
  split <;> rfl

theorem findScCfg_congr (same : twin.sc.filter (GattScCfg.isFor key) =
    state.sc.filter (GattScCfg.isFor key)) :
    findScCfg twin.sc key = findScCfg state.sc key := by
  unfold findScCfg
  rw [← head?_filter, ← head?_filter, same]

section

variable (stored : twin.stored place = state.stored place)
include stored

section

variable (same : twin.sc.filter (GattScCfg.isFor key) = state.sc.filter
    (GattScCfg.isFor key))
include same

theorem clearSc_stored {deleted : Bool} :
    (twin.clearSc key deleted).stored place =
      (state.clearSc key deleted).stored place := by
  unfold clearSc
  rw [findScCfg_congr same]
  split
  · exact stored
  · exact saveOne_stored stored

theorem clear_stored {deleted : GattSubsys → Bool} :
    (twin.clear database key deleted).stored place =
      (state.clear database key deleted).stored place := by
  have first : (twin.clearCcc database key (deleted .ccc)).stored place =
      (state.clearCcc database key (deleted .ccc)).stored place := saveOne_stored stored
  unfold clear
  split
  · refine saveOne_stored (clearSc_stored first ?_)
    unfold clearCcc
    rw [saveOne_sc, saveOne_sc]
    exact same
  · exact first

end

theorem storeCcc_stored
    (same : ∀ handle, (twin.ccc handle).filter (·.isFor key) =
      (state.ccc handle).filter (·.isFor key)) :
    (twin.storeCcc database key saved).stored place =
      (state.storeCcc database key saved).stored place := by
  have record : btGattStoreCcc database twin.ccc key =
      btGattStoreCcc database state.ccc key := by
    unfold btGattStoreCcc
    rw [cccSave_congr same]
  unfold storeCcc
  rw [record]
  split
  · exact stored
  · exact saveOne_stored stored

theorem scStore_stored
    (same : twin.sc.filter (GattScCfg.isFor key) =
      state.sc.filter (GattScCfg.isFor key)) :
    (twin.scStore key saved).stored place = (state.scStore key saved).stored place := by
  unfold scStore
  rw [findScCfg_congr same]
  split
  · exact stored
  · exact saveOne_stored stored

theorem storeCf_stored {conn : GattConn}
    (same : twin.cf.filter (fun cfg => conn.isPeerAddrLe cfg.id cfg.peer) =
      state.cf.filter (fun cfg => conn.isPeerAddrLe cfg.id cfg.peer)) :
    (twin.storeCf conn saved).stored place =
      (state.storeCf conn saved).stored place := by
  have entry : twin.findCfCfg conn = state.findCfCfg conn := by
    unfold findCfCfg
    rw [← head?_filter, ← head?_filter, same]
  unfold storeCf
  rw [entry]
  exact saveOne_stored stored

end

theorem step_stored {op : GattRecordOp} (same : SameOwn op state twin)
    (subsys : GattSubsys) :
    (twin.step database op).stored (peerPath subsys op.key) =
      (state.step database op).stored (peerPath subsys op.key) := by
  have stored := same.stored subsys
  cases op with
  | storeCcc => exact storeCcc_stored stored same.ccc
  | storeSc => exact scStore_stored stored same.sc
  | storeCf => exact storeCf_stored stored same.cf
  | clear => exact clear_stored stored same.sc
  | setCcc => exact stored
  | setSc =>
    unfold step
    simp only [setSc_stored]
    exact stored
  | setCf =>
    unfold step
    simp only [setCf_stored]
    exact stored

theorem isolated_iff (database : GattDb GattAttrKind) (op : GattRecordOp)
    (state : GattRecords) : Isolated database op state ↔ ¬ Misdeletes op state := by
  constructor
  · intro isolated wrong
    cases op with
    | storeCf conn =>
      obtain ⟨rfl, other, missing, record⟩ := wrong
      have kept : (state.storeCf conn true).stored (peerPath .cf ⟨conn.dst, 0⟩) =
          state.stored (peerPath .cf ⟨conn.dst, 0⟩) :=
        (isolated.frame ⟨conn.dst, 0⟩ conn.dst_real fun same =>
          other (congrArg AddrWithId.id same).symm).stored .cf
      rw [peerPath_zero] at kept record
      unfold storeCf at kept
      rw [missing] at kept
      exact record (kept.symm.trans (saveOne_self _ _))
    | _ => exact wrong
  · intro fine
    exact ⟨fun other real apart => step_untouched apart real fine,
      fun twin same => step_stored same⟩

end GattRecords

end Stored

/-- A connection of identity 1 with a peer that has nothing in RAM, and a record of
the same address for identity 0. -/
theorem GattRecords.isolated_cf_deleted : ¬ Isolated (sampleCccs [])
      (.storeCf ⟨0, 1, ⟨0, 9⟩, ⟨0, 9⟩, BtAddrLe.nine_real, BtAddrLe.nine_real⟩ true)
      ⟨update (fun _ => none) (peerPath .cf ⟨⟨0, 9⟩, 0⟩) (some (.cf [1])),
        fun _ => [], [], []⟩ := by
  intro isolated
  have kept := (isolated.frame ⟨⟨0, 9⟩, 0⟩ BtAddrLe.nine_real (by decide)).stored .cf
  rw [show (_ : GattRecords).stored (peerPath .cf ⟨⟨0, 9⟩, 0⟩) = none from rfl] at kept
  cases kept

end ZephyrBluetooth.Host
