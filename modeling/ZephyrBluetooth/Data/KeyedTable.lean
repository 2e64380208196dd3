import Mathlib.Data.List.Induction
import Mathlib.Data.List.Nodup
import ZephyrBluetooth.Data.Slots

namespace ZephyrBluetooth.Data

open Function List Option Prod

/-! A table whose entries have keys, seen as the records of its keys, and how a
table is loaded again from records that come in any order. -/

universe u v w

section Search

variable {Entry : Type u}

def firstSlot (test : Entry → Bool) (entries : List Entry) :
    Option (Nat × Entry) :=
  (entries.findIdx? test).bind fun slot =>
    (entries[slot]?).map fun entry => (slot, entry)

variable {test : Entry → Bool} {entries : List Entry}

theorem firstSlot_some {slot : Nat} {entry : Entry}
    (found : firstSlot test entries = some (slot, entry)) :
    entries[slot]? = some entry ∧ test entry = true := by
  obtain ⟨_, search, here⟩ := bind_eq_some_iff.mp found
  obtain ⟨_, stored, same⟩ := map_eq_some_iff.mp here
  cases same
  obtain ⟨bound, passes, _⟩ := findIdx?_eq_some_iff_getElem.mp search
  rw [getElem?_eq_getElem bound, some.injEq] at stored
  subst stored
  exact ⟨getElem?_eq_getElem bound, passes⟩

theorem firstSlot_eq_none :
    firstSlot test entries = none ↔ ∀ entry ∈ entries, test entry = false := by
  constructor
  · intro missing
    cases search : entries.findIdx? test with
    | none => exact findIdx?_eq_none_iff.mp search
    | some =>
      obtain ⟨bound, _⟩ := findIdx?_eq_some_iff_getElem.mp search
      simp [firstSlot, search, getElem?_eq_getElem bound] at missing
  · intro never
    rw [firstSlot, findIdx?_eq_none_iff.mpr never]
    rfl

theorem firstSlot_find (test : Entry → Bool) (entries : List Entry) :
    (firstSlot test entries).map snd = entries.find? test := by
  rw [find?_eq_bind_findIdx?_getElem?]
  unfold firstSlot
  cases search : entries.findIdx? test with
  | none => rfl
  | some slot => cases stored : entries[slot]? <;> simp [stored]

theorem firstSlot_eq_some_iff {slot : Nat} {entry : Entry}
    (unique : ∀ (slot place : Nat) (entry twin : Entry), entries[slot]? = some entry →
      entries[place]? = some twin → test entry = true → test twin = true →
      slot = place) : firstSlot test entries = some (slot, entry) ↔
      entries[slot]? = some entry ∧ test entry = true := by
  refine ⟨firstSlot_some, ?_⟩
  rintro ⟨here, passes⟩
  cases search : firstSlot test entries with
  | none =>
    have never := firstSlot_eq_none.mp search entry (mem_of_getElem? here)
    rw [passes] at never
    cases never
  | some found =>
    obtain ⟨place, twin⟩ := found
    obtain ⟨there, tested⟩ := firstSlot_some search
    obtain rfl := unique slot place entry twin here there passes tested
    rw [here] at there
    cases there
    rfl

theorem firstSlot_cons (test : Entry → Bool) (entry : Entry) (rest : List Entry) :
    firstSlot test (entry :: rest) = if test entry then some (0, entry)
      else (firstSlot test rest).map fun found => (found.1 + 1, found.2) := by
  unfold firstSlot
  rw [findIdx?_cons]
  split
  · rfl
  · cases findIdx? test rest with
    | none => rfl
    | some slot => cases stored : rest[slot]? <;> simp [stored]

/-- A weaker search stops at the same entry exactly when it passes by all that
stand in front of it. -/
theorem firstSlot_eq_iff {other : Entry → Bool}
    (weaker : ∀ entry, other entry = true → test entry = true) :
    firstSlot test entries = firstSlot other entries ↔
      ∀ entry ∈ entries.takeWhile fun entry => !other entry,
        test entry = false := by
  induction entries with
  | nil => simp [firstSlot]
  | cons entry rest ih =>
    rw [firstSlot_cons, firstSlot_cons, takeWhile_cons]
    cases owned : other entry with
    | true => simp [weaker entry owned]
    | false =>
      cases tested : test entry with
      | true =>
        simp only [Bool.not_false, if_true, forall_mem_cons, tested]
        refine ⟨fun same => ?_, nofun⟩
        cases found : firstSlot other rest <;> simp [found] at same
      | false =>
        simp only [Bool.not_false, if_true, forall_mem_cons, tested,
          Bool.false_eq_true, if_false, true_and, ← ih]
        refine ⟨fun same => ?_, congrArg _⟩
        refine map_injective ?_ same
        rintro ⟨_, entry⟩ ⟨_, _⟩ equal
        simpa using equal

end Search

section Records

variable {Entry : Type u} {Idx : Type v} [DecidableEq Idx] {Record : Type w}

def keyedRecords (key : Entry → Option Idx) (save : Entry → Record)
    (entries : List Entry) (idx : Idx) : Option Record :=
  (slotByKey key entries idx).map save

variable {key : Entry → Option Idx} {save : Entry → Record}
variable {entries : List Entry} {slot : Nat} {entry updated : Entry} {idx : Idx}

theorem keyedRecords_eq_none : keyedRecords key save entries idx = none ↔
      ∀ entry ∈ entries, key entry ≠ some idx := by
  rw [keyedRecords, map_eq_none_iff, slotByKey_eq_none]

theorem keyedRecords_found (unique : KeysUnique key entries)
    (found : entries[slot]? = some entry) (named : key entry = some idx) :
    keyedRecords key save entries idx = some (save entry) := by
  rw [keyedRecords, slotByKey_found unique found named]
  rfl

theorem keyedRecords_eq_some (unique : KeysUnique key entries) {record : Record} :
    keyedRecords key save entries idx = some record ↔
      ∃ entry ∈ entries, key entry = some idx ∧ save entry = record := by
  constructor
  · intro recorded
    obtain ⟨entry, search, rfl⟩ := map_eq_some_iff.mp recorded
    refine ⟨entry, mem_of_find?_eq_some search, ?_, rfl⟩
    simpa using find?_some search
  · rintro ⟨entry, member, named, rfl⟩
    obtain ⟨_, found⟩ := mem_iff_getElem?.mp member
    exact keyedRecords_found unique found named

theorem keyedRecords_put (found : entries[slot]? = some entry)
    (own : ∀ other, key entry = some other → other = idx)
    (named : key updated = some idx)
    (unique : KeysUnique key (entries.set slot updated)) :
    keyedRecords key save (entries.set slot updated) =
      update (keyedRecords key save entries) idx (some (save updated)) := by
  obtain ⟨bound, _⟩ := List.getElem?_eq_some_iff.mp found
  funext other
  by_cases same : other = idx
  · rw [same, update_self]
    exact keyedRecords_found unique (getElem?_set_self bound) named
  rw [update_of_ne same, keyedRecords, slotByKey_set_other found]
  · rfl
  · exact fun mine => same (own other mine)
  · rw [named]
    exact fun mine => same (some.inj mine).symm

theorem keyedRecords_remove (unique : KeysUnique key entries)
    (found : entries[slot]? = some entry) (named : key entry = some idx)
    (gone : key updated = none) :
    keyedRecords key save (entries.set slot updated) =
      update (keyedRecords key save entries) idx none := by
  have absent : ∀ other, key updated ≠ some other := by
    intro other
    rw [gone]
    exact nofun
  funext other
  by_cases same : other = idx
  · rw [same, update_self, keyedRecords,
      slotByKey_set_gone unique found named (absent idx)]
    rfl
  · rw [update_of_ne same, keyedRecords, slotByKey_set_other found _ (absent other)]
    · rfl
    · rw [named]
      exact fun mine => same (some.inj mine).symm

def keyedList (key : Entry → Option Idx) (save : Entry → Record)
    (entries : List Entry) : List (Idx × Record) :=
  entries.filterMap fun entry => (key entry).map fun idx => (idx, save entry)

omit [DecidableEq Idx] in
theorem mem_keyedList {item : Idx × Record} : item ∈ keyedList key save entries ↔
      ∃ entry ∈ entries, key entry = some item.1 ∧ save entry = item.2 := by
  unfold keyedList
  rw [mem_filterMap]
  constructor
  · rintro ⟨entry, member, same⟩
    obtain ⟨_, named, rfl⟩ := map_eq_some_iff.mp same
    exact ⟨entry, member, named, rfl⟩
  · rintro ⟨entry, member, named, saved⟩
    refine ⟨entry, member, ?_⟩
    rw [named, map_some, saved]

section

variable (unique : KeysUnique key entries)
include unique

omit [DecidableEq Idx] in
theorem keyedList_nodup : (keyedList key save entries).Nodup := by
  unfold keyedList List.Nodup
  rw [pairwise_filterMap, pairwise_iff_getElem]
  intro slot other slotBound otherBound before item here twin there same
  obtain ⟨idx, named, rfl⟩ := map_eq_some_iff.mp here
  obtain ⟨idx', named', rfl⟩ := map_eq_some_iff.mp there
  have keys : idx = idx' := congrArg fst same
  subst keys
  have equal := unique slot other _ _ idx
    (getElem?_eq_getElem slotBound) (getElem?_eq_getElem otherBound)
    named named'
  omega

theorem keyedList_inj
    {item other : Idx × Record} (member : item ∈ keyedList key save entries)
    (twin : other ∈ keyedList key save entries) (same : item.1 = other.1) :
    item = other := by
  have first := (keyedRecords_eq_some unique).mpr (mem_keyedList.mp member)
  have second := (keyedRecords_eq_some unique).mpr (mem_keyedList.mp twin)
  rw [same, second] at first
  exact Prod.ext same (some.inj first).symm

theorem keyedList_perm {listed : List (Idx × Record)} (distinct : listed.Nodup)
    (complete : ∀ item, item ∈ listed ↔
      keyedRecords key save entries item.1 = some item.2) :
    listed.Perm (keyedList key save entries) := by
  apply (perm_ext_iff_of_nodup distinct (keyedList_nodup unique)).mpr
  intro item
  rw [complete item, keyedRecords_eq_some unique, mem_keyedList]

end

omit [DecidableEq Idx] in
theorem map_keyedList {load : Idx × Record → Entry}
    (loads : ∀ entry ∈ entries, ∀ idx, key entry = some idx →
      load (idx, save entry) = entry) : (keyedList key save entries).map load =
      entries.filter fun entry => (key entry).isSome := by
  unfold keyedList
  induction entries with
  | nil => rfl
  | cons entry rest ih =>
    have tail := ih fun later member =>
      loads later (mem_cons_of_mem _ member)
    cases named : key entry with
    | none => simpa [named] using tail
    | some idx =>
      have first := loads entry mem_cons_self idx named
      simpa [named, first] using tail

end Records

section Loading

variable {Entry : Type u} {Item : Type v} {empty : Entry}

theorem firstSlot_first_free {free : Entry → Bool} {loaded : List Entry}
    (used : ∀ entry ∈ loaded, free entry = false)
    (isFree : free empty = true) (room : Nat) :
    firstSlot free (loaded ++ replicate (room + 1) empty) =
      some (loaded.length, empty) := by
  have search : (loaded ++ replicate (room + 1) empty).findIdx? free =
      some loaded.length := by
    rw [findIdx?_append, findIdx?_eq_none_iff.mpr used,
      replicate_succ, findIdx?_cons, isFree]
    simp
  unfold firstSlot
  rw [search]
  simp

theorem set_first_free (loaded : List Entry) (entry empty : Entry) (room : Nat) :
    (loaded ++ replicate (room + 1) empty).set loaded.length entry =
      loaded ++ entry :: replicate room empty := by
  rw [set_append_right _ _ (Nat.le_refl _), Nat.sub_self,
    replicate_succ, set_cons_zero]

theorem foldl_load {load : List Entry → Item → List Entry} {made : Item → Entry}
    {fine : Item → Prop} {apart : Item → Item → Prop}
    (step : ∀ (loaded : List Item) (item : Item) (room : Nat),
      (∀ known ∈ loaded, fine known) → fine item →
      (∀ known ∈ loaded, apart known item) →
      load (loaded.map made ++ replicate (room + 1) empty) item =
        loaded.map made ++ made item :: replicate room empty)
    (items : List Item) (each : ∀ item ∈ items, fine item)
    (distinct : items.Pairwise apart) {count : Nat}
    (fits : items.length ≤ count) :
    items.foldl load (replicate count empty) =
      items.map made ++ replicate (count - items.length) empty := by
  induction items using reverseRecOn with
  | nil => simp
  | append_singleton loaded item ih =>
    rw [length_append, length_singleton] at fits
    obtain ⟨before, _, last⟩ := pairwise_append.mp distinct
    have earlier : ∀ known ∈ loaded, fine known := fun known member =>
      each known (mem_append_left _ member)
    have room : count - loaded.length = count - (loaded.length + 1) + 1 := by omega
    rw [foldl_append, ih earlier before (by omega), room,
      foldl_cons, foldl_nil, step loaded item _ earlier]
    · simp
    · exact each item (by simp)
    · exact fun known member => last known member item (by simp)

theorem foldl_load_perm {Idx : Type w} [DecidableEq Idx] {Record : Type w}
    {key : Entry → Option Idx} {save : Entry → Record} {entries : List Entry}
    {load : List Entry → Idx × Record → List Entry}
    {made : Idx × Record → Entry}
    {fine : Idx × Record → Prop} {apart : Idx × Record → Idx × Record → Prop}
    (step : ∀ (loaded : List (Idx × Record)) (item : Idx × Record) (room : Nat),
      (∀ known ∈ loaded, fine known) → fine item →
      (∀ known ∈ loaded, apart known item) →
      load (loaded.map made ++ replicate (room + 1) empty) item =
        loaded.map made ++ made item :: replicate room empty)
    (unique : KeysUnique key entries) (blank : key empty = none)
    (loads : ∀ entry ∈ entries, ∀ idx, key entry = some idx →
      made (idx, save entry) = entry)
    (each : ∀ entry ∈ entries, ∀ idx, key entry = some idx → fine (idx, save entry))
    (distinct : ∀ item ∈ keyedList key save entries,
      ∀ other ∈ keyedList key save entries, item ≠ other → apart item other)
    {listed : List (Idx × Record)} (nodup : listed.Nodup)
    (complete : ∀ item, item ∈ listed ↔
      keyedRecords key save entries item.1 = some item.2) :
    ((listed.foldl load (replicate entries.length empty)).filter
        fun entry => (key entry).isSome).Perm
      (entries.filter fun entry => (key entry).isSome) := by
  have perm := keyedList_perm unique nodup complete
  have known : ∀ item ∈ listed, ∃ entry ∈ entries, ∃ idx,
      key entry = some idx ∧ item = (idx, save entry) := by
    intro item member
    obtain ⟨entry, among, named, saved⟩ := mem_keyedList.mp (perm.mem_iff.mp member)
    exact ⟨entry, among, item.1, named, Prod.ext rfl saved.symm⟩
  have fits : listed.length ≤ entries.length := by
    rw [perm.length_eq]
    exact length_filterMap_le _ _
  have loaded := foldl_load step listed
    (by
      intro item member
      obtain ⟨entry, among, idx, named, rfl⟩ := known item member
      exact each entry among idx named)
    (nodup.pairwise_of_forall_ne fun item member other twin =>
      distinct item (perm.mem_iff.mp member) other (perm.mem_iff.mp twin)) fits
  rw [loaded, filter_append]
  have used : (listed.map made).filter (fun entry => (key entry).isSome) =
      listed.map made := by
    rw [filter_eq_self]
    intro entry member
    obtain ⟨item, among, rfl⟩ := mem_map.mp member
    obtain ⟨entry, there, idx, named, rfl⟩ := known item among
    rw [loads entry there idx named, named]
    rfl
  have free : (replicate (entries.length - listed.length) empty).filter
      (fun entry => (key entry).isSome) = [] := by
    rw [filter_eq_nil_iff]
    intro entry member
    rw [eq_of_mem_replicate member, blank]
    simp
  rw [used, free, append_nil, ← map_keyedList loads]
  exact perm.map made

end Loading

end ZephyrBluetooth.Data
