import ZephyrBluetooth.Data.Merge
import ZephyrBluetooth.Host.Ccc
import ZephyrBluetooth.Host.GattDbSorted

namespace ZephyrBluetooth.Host

open Data List Function Option

variable {handle : Nat} {cfgs : List CccCfg}

/-- `attr->write == bt_gatt_attr_write_ccc` tells the CCC descriptors from all
other attributes. -/
inductive GattAttrKind where
  | ccc
  | other
  deriving DecidableEq

variable {attr : GattAttr GattAttrKind}

variable {attrs : List (GattAttr GattAttrKind × Nat)}

structure CccStore where
  handle : Nat
  value : BitVec 16
  deriving DecidableEq

def cccStoreMax : Nat := 48

abbrev CccTable := Nat → List CccCfg

/-- `ccc_save`: the entries written so far, and nothing once the array has been
overrun. -/
def cccSave (table : CccTable) (peer : AddrWithId) :
    GattAttrFunc GattAttrKind (Option (List CccStore)) :=
  fun attr handle save =>
    match attr.userData with
    | .other => (save, .proceed)
    | .ccc =>
      match (table handle).find? (·.isFor peer) with
      | none => (save, .proceed)
      | some cfg =>
        (save.bind fun store =>
          if store.length < cccStoreMax then
            some (store ++ [⟨handle, cfg.value⟩])
          else none, .proceed)

def btGattStoreCcc (database : GattDb GattAttrKind) (table : CccTable)
    (peer : AddrWithId) : Option (List CccStore) :=
  btGattForeachAttr database 0x0001 0xffff (cccSave table peer) (some [])

/-- `entry` is nothing when the stored value is invalid, else the entries that
are left. -/
structure CccLoad where
  table : CccTable
  entry : Option (List CccStore)

def cccClear (cfgs : List CccCfg) (peer : AddrWithId) : List CccCfg :=
  (changeFirst (·.isFor peer) (fun _ => .cleared) cfgs).getD cfgs

def cccRestore (cfgs : List CccCfg) (peer : AddrWithId) (value : BitVec 16) :
    List CccCfg :=
  match changeFirst (·.isFor peer) (fun cfg => { cfg with value }) cfgs with
  | some restored => restored
  | none =>
    (changeFirst (·.isFor ⟨.any, 0⟩)
      (fun _ => ⟨peer.id, peer.addr, value⟩) cfgs).getD cfgs

def cccLoad (peer : AddrWithId) : GattAttrFunc GattAttrKind CccLoad :=
  fun attr handle load =>
    match attr.userData with
    | .other => (load, .proceed)
    | .ccc =>
      match load.entry with
      | none =>
        ({ load with
            table := update load.table handle
              (cccClear (load.table handle) peer) }, .proceed)
      | some [] => (load, .stop)
      | some (entry :: rest) =>
        let going := if rest = [] then GattIter.stop else .proceed
        if entry.handle = handle then
          ({ table := update load.table handle
                (cccRestore (load.table handle) peer entry.value)
             entry := some rest }, going)
        else if entry.handle < handle then
          ({ load with entry := some rest }, going)
        else (load, .proceed)

/-- `ccc_set`: the record is read into an array of `CCC_STORE_MAX` entries. -/
def cccSet (database : GattDb GattAttrKind) (table : CccTable)
    (peer : AddrWithId) (record : List CccStore) : CccTable :=
  (btGattForeachAttr database 0x0001 0xffff (cccLoad peer)
    { table
      entry := if record = [] then none
        else some (record.take cccStoreMax) }).table

structure OrderedDb where
  database : GattDb GattAttrKind
  sorted : database.Sorted

def cccHandles (attrs : List (GattAttr GattAttrKind × Nat)) : List Nat :=
  (attrs.filter fun entry => entry.1.userData = .ccc).map Prod.snd

namespace OrderedDb

def cccs (ordered : OrderedDb) : List Nat :=
  cccHandles ordered.database.attributes

def configured (ordered : OrderedDb) (table : CccTable) (peer : AddrWithId) :
    List Nat :=
  ordered.cccs.filter fun handle => (table handle).any (·.isFor peer)

end OrderedDb

/-- The configuration of the peer in the database `saved` is stored within the
array, and loaded into the database `loaded` it comes back at every CCC
descriptor that is still there, and at no other one. -/
def CccRoundTrip (saved : OrderedDb) (table : CccTable) (loaded : OrderedDb)
    (before : CccTable) (peer : AddrWithId) : Prop :=
  ∃ record, btGattStoreCcc saved.database table peer = some record ∧
    ∀ handle ∈ loaded.cccs, (handle ∈ saved.configured table peer →
        cccValue (cccSet loaded.database before peer record handle) peer =
          cccValue (table handle) peer) ∧
      (handle ∉ saved.configured table peer →
        ∀ cfg ∈ cccSet loaded.database before peer record handle,
          cfg.isFor peer = true → cfg.value ≠ 0 → cfg ∈ before handle)

/-- From no handle on are there more configured descriptors below this one than
descriptors in the database. -/
def InStep (configured cccs : List Nat) (handle : Nat) : Prop :=
  ∀ low, configured.countP (fun other => low ≤ other ∧ other < handle) ≤
    cccs.countP (fun other => low ≤ other ∧ other < handle)

/-- The configured descriptors fit in the array, and each one that is still
there, and does not hold the value already, is reached in step and has an entry
for the peer or a free one. -/
structure CccKept (saved : OrderedDb) (table : CccTable) (loaded : OrderedDb)
    (before : CccTable) (peer : AddrWithId) : Prop where
  fits : (saved.configured table peer).length ≤ cccStoreMax
  reached : ∀ handle ∈ saved.configured table peer, handle ∈ loaded.cccs →
    cccValue (before handle) peer ≠ cccValue (table handle) peer →
      InStep (saved.configured table peer) loaded.cccs handle ∧
        ((before handle).any (·.isFor peer) = true ∨
          (before handle).any (·.isFor ⟨.any, 0⟩) = true)

def cccRecord (table : CccTable) (peer : AddrWithId) (handles : List Nat) :
    List CccStore :=
  handles.map fun handle => ⟨handle, cccValue (table handle) peer⟩

theorem cccHandles_cons_ccc (kind : attr.userData = .ccc)
    (rest : List (GattAttr GattAttrKind × Nat)) :
    cccHandles ((attr, handle) :: rest) = handle :: cccHandles rest := by
  simp [cccHandles, kind]

theorem cccHandles_cons_other (kind : attr.userData = .other)
    (rest : List (GattAttr GattAttrKind × Nat)) :
    cccHandles ((attr, handle) :: rest) = cccHandles rest := by
  simp [cccHandles, kind]

theorem cccHandles_sublist (attrs : List (GattAttr GattAttrKind × Nat)) :
    List.Sublist (cccHandles attrs) (attrs.map Prod.snd) :=
  filter_sublist.map _

theorem foldAttrs_cccSave_none (table : CccTable) (peer : AddrWithId)
    (attrs : List (GattAttr GattAttrKind × Nat)) :
    foldAttrs (cccSave table peer) attrs none = none := by
  induction attrs with
  | nil => rfl
  | cons entry rest ih =>
    obtain ⟨attr, handle⟩ := entry
    have skipped : cccSave table peer attr handle none = (none, .proceed) := by
      unfold cccSave
      cases attr.userData with
      | other => rfl
      | ccc => cases (table handle).find? (·.isFor peer) <;> rfl
    simp only [foldAttrs, skipped]
    exact ih

theorem foldAttrs_cccSave (table : CccTable) (peer : AddrWithId)
    (attrs : List (GattAttr GattAttrKind × Nat)) {store : List CccStore}
    (within : store.length ≤ cccStoreMax) :
    foldAttrs (cccSave table peer) attrs (some store) =
      let configured := (cccHandles attrs).filter fun handle =>
        (table handle).any (·.isFor peer)
      if store.length + configured.length ≤ cccStoreMax then
        some (store ++ cccRecord table peer configured)
      else none := by
  induction attrs generalizing store with
  | nil => simp [foldAttrs, cccHandles, cccRecord, within]
  | cons entry rest ih =>
    obtain ⟨attr, handle⟩ := entry
    cases kind : attr.userData with
    | other =>
      have skipped : cccSave table peer attr handle (some store) =
          (some store, .proceed) := by
        simp only [cccSave, kind]
      rw [cccHandles_cons_other kind]
      simp only [foldAttrs, skipped]
      exact ih within
    | ccc =>
      rw [cccHandles_cons_ccc kind]
      cases found : (table handle).find? (·.isFor peer) with
      | none =>
        have absent : (table handle).any (·.isFor peer) = false := by
          rw [← isSome_find?, found]
          rfl
        have skipped : cccSave table peer attr handle (some store) =
            (some store, .proceed) := by
          simp only [cccSave, kind, found]
        simp only [foldAttrs, skipped, filter_cons, absent]
        exact ih within
      | some cfg =>
        have present : (table handle).any (·.isFor peer) = true := by
          rw [← isSome_find?, found]
          rfl
        have value : cccValue (table handle) peer = cfg.value := by
          simp [cccValue, found]
        simp only [filter_cons, present, if_true, length_cons]
        by_cases room : store.length < cccStoreMax
        · have written : cccSave table peer attr handle (some store) =
              (some (store ++ [⟨handle, cfg.value⟩]), .proceed) := by
            simp only [cccSave, kind, found, bind_some, if_pos room]
          have next := @ih (store ++ [⟨handle, cfg.value⟩])
            (by rw [length_append]; exact room)
          simp only [foldAttrs, written, next, length_append, length_singleton]
          have sum : store.length + 1 + ((cccHandles rest).filter
              fun handle => (table handle).any (·.isFor peer)).length =
                store.length + (((cccHandles rest).filter fun handle =>
                  (table handle).any (·.isFor peer)).length + 1) := by
            omega
          rw [sum]
          simp [cccRecord, value]
        · have overrun : cccSave table peer attr handle (some store) =
              (none, .proceed) := by
            simp only [cccSave, kind, found, bind_some, if_neg room]
          simp only [foldAttrs, overrun]
          rw [foldAttrs_cccSave_none, if_neg (by omega)]

theorem OrderedDb.store (saved : OrderedDb) (table : CccTable)
    (peer : AddrWithId) :
    btGattStoreCcc saved.database table peer =
      if (saved.configured table peer).length ≤ cccStoreMax then
        some (cccRecord table peer (saved.configured table peer))
      else none := by
  unfold btGattStoreCcc
  rw [saved.sorted.foreachAttr, foldAttrs_cccSave table peer _ (by simp)]
  simp only [length_nil, zero_add, nil_append]
  rfl

theorem OrderedDb.cccs_ascending (ordered : OrderedDb) :
    ordered.cccs.Pairwise (· < ·) :=
  ordered.sorted.handles.sublist (cccHandles_sublist _)

variable {peer : AddrWithId}

theorem cccRestore_value (value : BitVec 16)
    (room : cfgs.any (·.isFor peer) = true ∨ cfgs.any (·.isFor ⟨.any, 0⟩) = true) :
    cccValue (cccRestore cfgs peer value) peer = value := by
  unfold cccRestore
  cases own : changeFirst (·.isFor peer) (fun cfg => { cfg with value }) cfgs with
  | some =>
    obtain ⟨front, cfg, back, -, tests, before, rfl⟩ := changeFirst_split own
    rw [cccValue_append before]
    exact cccValue_cons tests
  | none =>
    have absent : cfgs.any (·.isFor peer) = false := by
      rw [← changeFirst_isSome _ (fun cfg => { cfg with value }), own]
      rfl
    have free : cfgs.any (·.isFor ⟨.any, 0⟩) = true := by
      rcases room with own | free
      · rw [absent] at own
        cases own
      · exact free
    rw [← changeFirst_isSome _
      (fun _ => ⟨peer.id, peer.addr, value⟩), isSome_iff_exists] at free
    obtain ⟨_, found⟩ := free
    obtain ⟨front, cfg, back, split, -, -, rfl⟩ := changeFirst_split found
    simp only [found, getD_some]
    have before : ∀ other ∈ front, other.isFor peer = false := by
      intro other member
      rw [List.any_eq_false] at absent
      have := absent other (by rw [split]; simp [member])
      simpa using this
    rw [cccValue_append before]
    apply cccValue_cons
    simp [CccCfg.isFor]

theorem cccRestore_full (value : BitVec 16)
    (full : ¬ (cfgs.any (·.isFor peer) = true ∨
      cfgs.any (·.isFor ⟨.any, 0⟩) = true)) :
    cccRestore cfgs peer value = cfgs := by
  rw [not_or, ← changeFirst_isSome _ (fun cfg => { cfg with value }),
    ← changeFirst_isSome _ (fun _ => ⟨peer.id, peer.addr, value⟩),
    not_isSome_iff_eq_none, not_isSome_iff_eq_none] at full
  unfold cccRestore
  simp only [full.1, full.2, getD_none]

variable {cfg : CccCfg}

theorem cccClear_mem (member : cfg ∈ cccClear cfgs peer) (active : cfg.value ≠ 0) :
    cfg ∈ cfgs := by
  unfold cccClear at member
  cases found : changeFirst (·.isFor peer) (fun _ => .cleared) cfgs with
  | none => simpa [found] using member
  | some =>
    obtain ⟨_, _, _, rfl, -, -, rfl⟩ := changeFirst_split found
    simp only [found, getD_some, mem_append, mem_cons] at member ⊢
    rcases member with first | rfl | last
    · exact .inl first
    · exact absurd rfl active
    · exact .inr (.inr last)

def cccVisit (peer : AddrWithId) (handle : Nat) (waiting : List CccStore)
    (cfgs : List CccCfg) : List CccCfg :=
  match waiting with
  | [] => cfgs
  | entry :: _ =>
    if entry.handle = handle then cccRestore cfgs peer entry.value else cfgs

theorem cccLoad_visit (peer : AddrWithId) (kind : attr.userData = .ccc)
    (handle : Nat) (table : CccTable) (waiting : List CccStore) :
    ∃ iter, cccLoad peer attr handle ⟨table, some waiting⟩ = (⟨update table handle
            (cccVisit peer handle waiting (table handle)),
          some (passed CccStore.handle handle waiting)⟩, iter) ∧
      (iter = .stop → passed CccStore.handle handle waiting = []) := by
  cases waiting with
  | nil =>
    refine ⟨.stop, ?_, fun _ => rfl⟩
    simp only [cccLoad, kind, cccVisit, update_eq_self, passed]
  | cons entry rest =>
    have stops : (if rest = [] then GattIter.stop else .proceed) = .stop →
        rest = [] := by
      intro stopped
      by_contra more
      rw [if_neg more] at stopped
      cases stopped
    by_cases same : entry.handle = handle
    · have reached : entry.handle ≤ handle := le_of_eq same
      refine ⟨if rest = [] then .stop else .proceed, ?_, ?_⟩
      · simp only [cccLoad, kind, cccVisit, passed, if_pos same, if_pos reached]
      · simpa only [passed, if_pos reached] using stops
    · by_cases lower : entry.handle < handle
      · have reached : entry.handle ≤ handle := le_of_lt lower
        refine ⟨if rest = [] then .stop else .proceed, ?_, ?_⟩
        · simp only [cccLoad, kind, cccVisit, passed, if_neg same,
            if_pos lower, if_pos reached, update_eq_self]
        · simpa only [passed, if_pos reached] using stops
      · have ahead : ¬ entry.handle ≤ handle := by omega
        refine ⟨.proceed, ?_, fun stopped => by cases stopped⟩
        simp only [cccLoad, kind, cccVisit, passed, if_neg same,
          if_neg lower, if_neg ahead, update_eq_self]

theorem cccLoad_other (peer : AddrWithId) (kind : attr.userData = .other)
    (handle : Nat) (load : CccLoad) :
    cccLoad peer attr handle load = (load, .proceed) := by
  simp only [cccLoad, kind]

theorem foldAttrs_cccLoad_of_notMem (peer : AddrWithId)
    (absent : handle ∉ cccHandles attrs) (table : CccTable)
    (waiting : List CccStore) :
    (foldAttrs (cccLoad peer) attrs ⟨table, some waiting⟩).table handle =
      table handle := by
  induction attrs generalizing table waiting with
  | nil => rfl
  | cons entry rest ih =>
    obtain ⟨attr, here⟩ := entry
    cases kind : attr.userData with
    | other =>
      rw [cccHandles_cons_other kind] at absent
      simp only [foldAttrs, cccLoad_other peer kind]
      exact ih absent table waiting
    | ccc =>
      rw [cccHandles_cons_ccc kind, mem_cons, not_or] at absent
      obtain ⟨iter, visited, -⟩ := cccLoad_visit peer kind here table waiting
      simp only [foldAttrs, visited]
      cases iter with
      | stop => exact update_of_ne absent.1 _ _
      | proceed =>
        rw [ih absent.2]
        exact update_of_ne absent.1 _ _

theorem foldAttrs_cccLoad (peer : AddrWithId)
    (ascending : (cccHandles attrs).Pairwise (· < ·))
    (member : handle ∈ cccHandles attrs) (table : CccTable)
    (waiting : List CccStore) :
    (foldAttrs (cccLoad peer) attrs ⟨table, some waiting⟩).table handle =
      cccVisit peer handle
        (passedAll CccStore.handle ((cccHandles attrs).filter (· < handle)) waiting)
        (table handle) := by
  induction attrs generalizing table waiting with
  | nil => cases member
  | cons entry rest ih =>
    obtain ⟨attr, here⟩ := entry
    cases kind : attr.userData with
    | other =>
      rw [cccHandles_cons_other kind] at ascending member ⊢
      simp only [foldAttrs, cccLoad_other peer kind]
      exact ih ascending member table waiting
    | ccc =>
      rw [cccHandles_cons_ccc kind] at ascending member ⊢
      obtain ⟨above, sorted⟩ := pairwise_cons.mp ascending
      obtain ⟨iter, visited, stops⟩ := cccLoad_visit peer kind here table waiting
      simp only [foldAttrs, visited]
      rcases mem_cons.mp member with rfl | later
      · have absent : handle ∉ cccHandles rest := fun again =>
          lt_irrefl _ (above handle again)
        have first : (handle :: cccHandles rest).filter (· < handle) = [] := by
          rw [filter_eq_nil_iff]
          intro other inside
          rcases mem_cons.mp inside with rfl | inside
          · simp
          have := above other inside
          simp only [decide_eq_true_eq]
          omega
        rw [first]
        cases iter with
        | stop => exact update_self _ _ _
        | proceed =>
          rw [foldAttrs_cccLoad_of_notMem peer absent]
          exact update_self _ _ _
      · have lower : here < handle := above handle later
        have kept : update table here
            (cccVisit peer here waiting (table here)) handle = table handle :=
          update_of_ne (ne_of_gt lower) _ _
        rw [filter_cons_of_pos (by simpa using lower)]
        cases iter with
        | stop =>
          simp only [passedAll, stops rfl, passedAll_nil, cccVisit]
          exact kept
        | proceed =>
          simp only [passedAll]
          rw [ih sorted later, kept]

theorem foldAttrs_cccLoad_invalid (peer : AddrWithId)
    (attrs : List (GattAttr GattAttrKind × Nat)) (table : CccTable)
    (member : cfg ∈ (foldAttrs (cccLoad peer) attrs ⟨table, none⟩).table handle)
    (active : cfg.value ≠ 0) : cfg ∈ table handle := by
  induction attrs generalizing table with
  | nil => exact member
  | cons entry rest ih =>
    obtain ⟨attr, here⟩ := entry
    cases kind : attr.userData with
    | other =>
      simp only [foldAttrs, cccLoad_other peer kind] at member
      exact ih table member
    | ccc =>
      simp only [foldAttrs, cccLoad, kind] at member
      have before := ih _ member
      by_cases same : handle = here
      · subst same
        rw [update_self] at before
        exact cccClear_mem before active
      · rwa [update_of_ne same] at before

theorem cccRecord_mem {table : CccTable} {handles : List Nat} {entry : CccStore}
    (member : entry ∈ cccRecord table peer handles) :
    entry.handle ∈ handles ∧ entry.value = cccValue (table entry.handle) peer := by
  obtain ⟨_, inside, rfl⟩ := mem_map.mp member
  exact ⟨inside, rfl⟩

theorem cccRecord_handles (table : CccTable) (peer : AddrWithId)
    (handles : List Nat) :
    (cccRecord table peer handles).map CccStore.handle = handles := by
  simp [cccRecord, List.map_map, comp_def]

namespace OrderedDb

theorem configured_ascending (saved : OrderedDb) (table : CccTable)
    (peer : AddrWithId) : (saved.configured table peer).Pairwise (· < ·) :=
  saved.cccs_ascending.sublist filter_sublist

variable {saved loaded : OrderedDb} {table before : CccTable}
  {peer : AddrWithId}

def waiting (loaded : OrderedDb) (record : List CccStore) (handle : Nat) :
    List CccStore :=
  passedAll CccStore.handle (loaded.cccs.filter (· < handle)) record

theorem set_visit (fits : (saved.configured table peer).length ≤ cccStoreMax)
    (some : saved.configured table peer ≠ []) (member : handle ∈ loaded.cccs) :
    cccSet loaded.database before peer
        (cccRecord table peer (saved.configured table peer)) handle =
      cccVisit peer handle
        (loaded.waiting (cccRecord table peer (saved.configured table peer)) handle)
        (before handle) := by
  have present : cccRecord table peer (saved.configured table peer) ≠ [] := by
    unfold cccRecord
    rwa [Ne, map_eq_nil_iff]
  have whole : (cccRecord table peer (saved.configured table peer)).take
      cccStoreMax = cccRecord table peer (saved.configured table peer) := by
    apply take_of_length_le
    unfold cccRecord
    rwa [length_map]
  unfold cccSet
  rw [if_neg present, whole, loaded.sorted.foreachAttr]
  exact foldAttrs_cccLoad peer loaded.cccs_ascending member before _

theorem waiting_head (member : handle ∈ saved.configured table peer) :
    (loaded.waiting
        (cccRecord table peer (saved.configured table peer)) handle).head? =
        some ⟨handle, cccValue (table handle) peer⟩ ↔
      InStep (saved.configured table peer) loaded.cccs handle := by
  have recorded : (⟨handle, cccValue (table handle) peer⟩ : CccStore) ∈
      cccRecord table peer (saved.configured table peer) :=
    mem_map_of_mem (f := fun handle =>
      (⟨handle, cccValue (table handle) peer⟩ : CccStore)) member
  have ascending : ((cccRecord table peer
      (saved.configured table peer)).map CccStore.handle).Pairwise (· < ·) := by
    rw [cccRecord_handles]
    exact saved.configured_ascending table peer
  have visiting : (loaded.cccs.filter (· < handle)).Pairwise (· < ·) :=
    loaded.cccs_ascending.sublist filter_sublist
  unfold waiting
  rw [passedAll_head visiting ascending recorded (by simp)]
  apply forall_congr'
  intro low
  unfold cccRecord
  rw [countP_map, countP_filter]
  simp only [comp_def, Bool.decide_and]

theorem visit_missed (missed : (loaded.waiting
      (cccRecord table peer (saved.configured table peer)) handle).head? ≠
        some ⟨handle, cccValue (table handle) peer⟩) : cccVisit peer handle
        (loaded.waiting (cccRecord table peer (saved.configured table peer)) handle)
        (before handle) = before handle := by
  cases waits : loaded.waiting
      (cccRecord table peer (saved.configured table peer)) handle with
  | nil => rfl
  | cons entry rest =>
    rw [waits] at missed
    have recorded : entry ∈ cccRecord table peer (saved.configured table peer) := by
      apply (passedAll_suffix _ _).subset
      unfold waiting at waits
      rw [waits]
      exact mem_cons_self
    have value := (cccRecord_mem recorded).2
    unfold cccVisit
    simp only
    rw [if_neg]
    intro same
    apply missed
    obtain ⟨_, _⟩ := entry
    simp only at same value
    rw [head?_cons, value, same]

theorem visit_unconfigured (absent : handle ∉ saved.configured table peer) :
    cccVisit peer handle
        (loaded.waiting (cccRecord table peer (saved.configured table peer)) handle)
        (before handle) = before handle := by
  apply visit_missed
  intro first
  apply absent
  have recorded : (⟨handle, cccValue (table handle) peer⟩ : CccStore) ∈
      cccRecord table peer (saved.configured table peer) :=
    (passedAll_suffix _ _).subset (mem_of_mem_head? first)
  exact (cccRecord_mem recorded).1

section

variable (fits : (saved.configured table peer).length ≤ cccStoreMax)
include fits

/-- The stored value comes back exactly when it was there already, or the
descriptor is reached in step and has an entry for the peer or a free one. -/
theorem set_restores
    (stored : handle ∈ saved.configured table peer) (member : handle ∈ loaded.cccs) :
    cccValue (cccSet loaded.database before peer
        (cccRecord table peer (saved.configured table peer)) handle) peer =
        cccValue (table handle) peer ↔
      (cccValue (before handle) peer ≠ cccValue (table handle) peer →
        InStep (saved.configured table peer) loaded.cccs handle ∧
          ((before handle).any (·.isFor peer) = true ∨
            (before handle).any (·.isFor ⟨.any, 0⟩) = true)) := by
  rw [set_visit fits (ne_nil_of_mem stored) member]
  by_cases first : (loaded.waiting
      (cccRecord table peer (saved.configured table peer)) handle).head? =
        some ⟨handle, cccValue (table handle) peer⟩
  · have step := (waiting_head stored).mp first
    obtain ⟨_, waits⟩ := head?_eq_some_iff.mp first
    rw [waits]
    simp only [cccVisit, if_true]
    by_cases room : (before handle).any (·.isFor peer) = true ∨
        (before handle).any (·.isFor ⟨.any, 0⟩) = true
    · constructor
      · exact fun _ _ => ⟨step, room⟩
      · exact fun _ => cccRestore_value _ room
    · rw [cccRestore_full _ room]
      constructor
      · exact fun same differs => absurd same differs
      · intro needed
        by_contra differs
        exact room (needed differs).2
  · have behind : ¬ InStep (saved.configured table peer) loaded.cccs handle :=
      fun step => first ((waiting_head stored).mpr step)
    rw [visit_missed first]
    constructor
    · exact fun same differs => absurd same differs
    · intro needed
      by_contra differs
      exact behind (needed differs).1

theorem set_adds_none
    (absent : handle ∉ saved.configured table peer) (member : handle ∈ loaded.cccs)
    (held : cfg ∈ cccSet loaded.database before peer
      (cccRecord table peer (saved.configured table peer)) handle)
    (active : cfg.value ≠ 0) : cfg ∈ before handle := by
  by_cases empty : saved.configured table peer = []
  · rw [empty] at held
    unfold cccSet at held
    rw [loaded.sorted.foreachAttr] at held
    exact foldAttrs_cccLoad_invalid peer _ before held active
  · rw [set_visit fits empty member, visit_unconfigured absent] at held
    exact held

end

end OrderedDb

/-- The configuration of a peer survives storing and loading exactly when it
fits in the array and each surviving descriptor is reached in step. -/
theorem ccc_round_trip_iff (saved : OrderedDb) (table : CccTable)
    (loaded : OrderedDb) (before : CccTable) (peer : AddrWithId) :
    CccRoundTrip saved table loaded before peer ↔
      CccKept saved table loaded before peer := by
  unfold CccRoundTrip
  rw [saved.store table peer]
  constructor
  · rintro ⟨_, stored, trip⟩
    by_cases fits : (saved.configured table peer).length ≤ cccStoreMax
    · rw [if_pos fits] at stored
      cases stored
      refine ⟨fits, ?_⟩
      intro handle configured member
      exact (OrderedDb.set_restores fits configured member).mp
        ((trip handle member).1 configured)
    · rw [if_neg fits] at stored
      cases stored
  · intro kept
    refine ⟨_, if_pos kept.fits, ?_⟩
    intro handle member
    constructor
    · intro configured
      exact (OrderedDb.set_restores kept.fits configured member).mpr
        (kept.reached handle configured member)
    · intro absent cfg held _ active
      exact OrderedDb.set_adds_none kept.fits absent member held active

def sampleCccs (addresses : List Nat) : GattDb GattAttrKind where
  static := ⟨[], by decide⟩
  object address :=
    { attrs := [⟨.uuid16 0x2902, .ccc, address % 2 ^ 16, handle_mod_lt address⟩]
      nonempty := by simp }
  db := addresses

def sampleSaved : OrderedDb :=
  ⟨sampleCccs [1, 2, 3], ⟨by decide, by decide, by decide⟩⟩

def sampleLoaded : OrderedDb :=
  ⟨sampleCccs [1, 3], ⟨by decide, by decide, by decide⟩⟩

theorem ccc_removed_between :
    ¬ ∀ (saved : OrderedDb) (table : CccTable) (loaded : OrderedDb)
      (before : CccTable) (peer : AddrWithId),
      CccRoundTrip saved table loaded before peer := by
  intro claimed
  obtain ⟨_, stored, trip⟩ := claimed sampleSaved
    (fun _ => [⟨0, ⟨0, 5⟩, 1⟩]) sampleLoaded (fun _ => [.cleared]) ⟨⟨0, 5⟩, 0⟩
  have kept : btGattStoreCcc sampleSaved.database
      (fun _ => [⟨0, ⟨0, 5⟩, 1⟩]) ⟨⟨0, 5⟩, 0⟩ = some [⟨1, 1⟩, ⟨2, 1⟩, ⟨3, 1⟩] := by
    decide
  rw [kept] at stored
  cases stored
  have lost := (trip 3 (by decide)).1 (by decide)
  revert lost
  decide

end ZephyrBluetooth.Host
