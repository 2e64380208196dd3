import ZephyrBluetooth.Data.Slots

namespace ZephyrBluetooth.Data

open Function List Option

/-! Records of a table that are written behind it.  A bounded array remembers for
an index whether its record is to be stored or cleared; what does not fit is
written at once. -/

universe u v w

structure PendingWrite (Idx : Type u) where
  idx : Idx
  clear : Bool

structure WriteBehind (Idx : Type u) (Record : Type v) where
  pending : List (Option (PendingWrite Idx))
  records : Idx → Option Record

structure PendingFound where
  matched : Option Nat
  free : Option Nat

variable {found : PendingFound}

section Operations

variable {Idx : Type u} [DecidableEq Idx] {Record : Type v} {Entry : Type w}

def findPending (idx : Idx) (slot : Nat) (found : PendingFound) :
    List (Option (PendingWrite Idx)) → PendingFound
  | [] => found
  | none :: rest => findPending idx (slot + 1) { found with free := some slot } rest
  | some write :: rest =>
    findPending idx (slot + 1)
      (if write.idx = idx then { found with matched := some slot } else found)
      rest

def writeRecord (lookup : Idx → Option Record) (write : PendingWrite Idx)
    (records : Idx → Option Record) : Idx → Option Record :=
  if write.clear then
    update records write.idx none
  else
    match lookup write.idx with
    | none => records
    | some record => update records write.idx (some record)

/-- `held` is what remains of an index in an array element. -/
def WriteBehind.note (held : Idx → Idx) (lookup : Idx → Option Record)
    (behind : WriteBehind Idx Record) (write : PendingWrite Idx) :
    WriteBehind Idx Record :=
  match findPending write.idx 0 ⟨none, none⟩ behind.pending with
  | ⟨some slot, _⟩ =>
    { behind with
      pending := behind.pending.modify slot
        (Option.map fun known => { known with clear := write.clear }) }
  | ⟨none, none⟩ =>
    { behind with records := writeRecord lookup write behind.records }
  | ⟨none, some slot⟩ =>
    { behind with
      pending := behind.pending.set slot
        (some { write with idx := held write.idx }) }

theorem WriteBehind.note_clear (held : Idx → Idx)
    (lookup other : Idx → Option Record) (behind : WriteBehind Idx Record)
    (idx : Idx) :
    behind.note held lookup ⟨idx, true⟩ = behind.note held other ⟨idx, true⟩ := by
  simp only [WriteBehind.note, writeRecord, if_true]

def flushPending (lookup : Idx → Option Record)
    (records : Idx → Option Record) :
    List (Option (PendingWrite Idx)) → Idx → Option Record
  | [] => records
  | none :: rest => flushPending lookup records rest
  | some write :: rest =>
    flushPending lookup (writeRecord lookup write records) rest

def WriteBehind.flush (lookup : Idx → Option Record)
    (behind : WriteBehind Idx Record) : WriteBehind Idx Record where
  pending := behind.pending.map fun _ => none
  records := flushPending lookup behind.records behind.pending

def WriteBehind.full (behind : WriteBehind Idx Record) (idx : Idx) : Bool :=
  match findPending idx 0 ⟨none, none⟩ behind.pending with
  | ⟨none, none⟩ => true
  | ⟨some _, _⟩ => false
  | ⟨none, some _⟩ => false

variable {write : PendingWrite Idx} {behind : WriteBehind Idx Record}

theorem WriteBehind.note_full {held : Idx → Idx} {lookup : Idx → Option Record}
    (full : behind.full write.idx = true) :
    (behind.note held lookup write).pending = behind.pending := by
  unfold WriteBehind.full at full
  unfold WriteBehind.note
  generalize findPending write.idx 0 ⟨none, none⟩ behind.pending = found at full
  obtain ⟨matched, free⟩ := found
  cases matched with
  | some slot => cases full
  | none =>
    cases free with
    | none => rfl
    | some => cases full

theorem WriteBehind.note_flagged {held : Idx → Idx} {lookup : Idx → Option Record}
    {flag : Bool}
    (flagged : ∀ known, some known ∈ behind.pending → flag = true)
    (known : PendingWrite Idx)
    (member : some known ∈ (behind.note held lookup write).pending) :
    (flag || !behind.full write.idx) = true := by
  cases full : behind.full write.idx with
  | false => simp
  | true =>
    rw [note_full full] at member
    rw [flagged known member]
    rfl

theorem WriteBehind.flush_pending (lookup : Idx → Option Record)
    (behind : WriteBehind Idx Record) (write : PendingWrite Idx) :
    some write ∉ (behind.flush lookup).pending := by
  simp [WriteBehind.flush]

end Operations

section Coherence

variable {Idx : Type u} {Record : Type v} {Entry : Type w}
variable (keeps : Entry → Record → Prop) (scope : Idx → Prop)

/-- A record is that of its entry unless the array still holds the index, and
then the array says which of the two writes is due. -/
structure WriteBehind.Coherent (entries : Idx → Option Entry)
    (behind : WriteBehind Idx Record) : Prop where
  within : ∀ write, some write ∈ behind.pending → scope write.idx
  single : ∀ (slot other : Nat) (write twin : PendingWrite Idx),
    behind.pending[slot]? = some (some write) →
    behind.pending[other]? = some (some twin) → write.idx = twin.idx →
    slot = other
  flagged : ∀ write, some write ∈ behind.pending →
    (write.clear = true ↔ entries write.idx = none)
  written : ∀ idx, (∀ write, some write ∈ behind.pending → write.idx ≠ idx) →
    Option.Rel keeps (entries idx) (behind.records idx)

structure Renewed (before after : Option Entry) : Prop where
  present : after = none ↔ before = none
  kept : ∀ record, Option.Rel keeps before record → Option.Rel keeps after record

variable {keeps scope}

theorem Renewed.refl (entry : Option Entry) : Renewed keeps entry entry :=
  ⟨Iff.rfl, fun _ same => same⟩

theorem Renewed.some {before after : Entry}
    (kept : ∀ record, keeps before record → keeps after record) :
    Renewed keeps (some before) (some after) := by
  refine ⟨by simp, ?_⟩
  intro record same
  cases same with
  | some same => exact .some (kept _ same)

variable {behind : WriteBehind Idx Record}

theorem WriteBehind.Coherent.of_rel {entries : Idx → Option Entry}
    (idle : ∀ write, some write ∉ behind.pending)
    (same : ∀ idx, Option.Rel keeps (entries idx) (behind.records idx)) :
    behind.Coherent keeps scope entries where
  within := fun write member => absurd member (idle write)
  single := by
    intro slot other write twin here
    exact absurd (mem_of_getElem? here) (idle write)
  flagged := fun write member => absurd member (idle write)
  written := fun idx _ => same idx

theorem WriteBehind.Coherent.renew {entries after : Idx → Option Entry}
    (coherent : behind.Coherent keeps scope entries)
    (renewed : ∀ idx, Renewed keeps (entries idx) (after idx)) :
    behind.Coherent keeps scope after where
  within := coherent.within
  single := coherent.single
  flagged := by
    intro write member
    rw [coherent.flagged write member, (renewed write.idx).present]
  written := by
    intro idx absent
    exact (renewed idx).kept _ (coherent.written idx absent)

theorem getElem?_set_pending {pending : List (Option (PendingWrite Idx))}
    {slot other : Nat} {write known : PendingWrite Idx}
    (here : (pending.set slot (some write))[other]? = some (some known)) :
    (other = slot ∧ known = write) ∨
      (other ≠ slot ∧ pending[other]? = some (some known)) := by
  rcases getElem?_set_cases here with ⟨same, new⟩ | old
  · exact .inl ⟨same, some.inj new⟩
  · exact .inr old

theorem WriteBehind.Coherent.put {entries after : Idx → Option Entry}
    {write : PendingWrite Idx}
    {slot : Nat} {replaced : Option (PendingWrite Idx)}
    (coherent : behind.Coherent keeps scope entries)
    (found : behind.pending[slot]? = some replaced)
    (mine : ∀ known, replaced = some known → known.idx = write.idx)
    (elsewhere : ∀ (other : Nat) (known : PendingWrite Idx), other ≠ slot →
      behind.pending[other]? = some (some known) → known.idx ≠ write.idx)
    (small : scope write.idx)
    (others : ∀ idx, idx ≠ write.idx → Renewed keeps (entries idx) (after idx))
    (due : write.clear = true ↔ after write.idx = none) :
    WriteBehind.Coherent keeps scope after
      { behind with pending := behind.pending.set slot (some write) } where
  within := by
    intro known member
    rcases mem_or_eq_of_mem_set member with before | new
    · exact coherent.within known before
    · cases new
      exact small
  single := by
    intro first second known twin firstHere secondHere same
    rcases getElem?_set_pending firstHere with ⟨rfl, rfl⟩ | ⟨firstApart, firstOld⟩
    · rcases getElem?_set_pending secondHere with
        ⟨rfl, rfl⟩ | ⟨secondApart, secondOld⟩
      · rfl
      · exact absurd same.symm (elsewhere second twin secondApart secondOld)
    · rcases getElem?_set_pending secondHere with
        ⟨rfl, rfl⟩ | ⟨secondApart, secondOld⟩
      · exact absurd same (elsewhere first known firstApart firstOld)
      · exact coherent.single first second known twin firstOld secondOld same
  flagged := by
    intro known member
    obtain ⟨other, here⟩ := mem_iff_getElem?.mp member
    rcases getElem?_set_pending here with ⟨_, rfl⟩ | ⟨apart, old⟩
    · exact due
    have distinct := elsewhere other known apart old
    rw [coherent.flagged known (mem_of_getElem? old),
      (others known.idx distinct).present]
  written := by
    intro idx absent
    obtain ⟨bound, _⟩ := List.getElem?_eq_some_iff.mp found
    have distinct : idx ≠ write.idx := by
      intro same
      exact absent write (mem_set bound (some write)) same.symm
    apply (others idx distinct).kept
    apply coherent.written
    intro known member
    obtain ⟨other, here⟩ := mem_iff_getElem?.mp member
    by_cases place : other = slot
    · subst place
      rw [found] at here
      rw [mine known (some.inj here)]
      exact Ne.symm distinct
    · apply absent known
      apply mem_of_getElem?
      rw [getElem?_set_ne (Ne.symm place)]
      exact here

end Coherence

section Search

variable {Idx : Type u} {seen : List (Option (PendingWrite Idx))}

structure FoundAmong (idx : Idx) (seen : List (Option (PendingWrite Idx)))
    (found : PendingFound) : Prop where
  matched : ∀ slot, found.matched = some slot →
    ∃ write, seen[slot]? = some (some write) ∧ write.idx = idx
  absent : found.matched = none → ∀ write, some write ∈ seen → write.idx ≠ idx
  free : ∀ slot, found.free = some slot → seen[slot]? = some none

theorem FoundAmong.nil (idx : Idx) : FoundAmong idx [] ⟨none, none⟩ where
  matched := by simp
  absent := by simp
  free := by simp

theorem getElem?_append_seen {Item : Type u} {seen : List Item} {slot : Nat}
    {item : Item} (found : seen[slot]? = some item) (later : List Item) :
    (seen ++ later)[slot]? = some item := by
  obtain ⟨bound, _⟩ := List.getElem?_eq_some_iff.mp found
  rw [getElem?_append_left bound]
  exact found

theorem FoundAmong.free_slot {idx : Idx} (before : FoundAmong idx seen found) :
    FoundAmong idx (seen ++ [none]) { found with free := some seen.length } where
  matched := by
    intro slot same
    obtain ⟨write, here, holds⟩ := before.matched slot same
    exact ⟨write, getElem?_append_seen here _, holds⟩
  absent := by
    intro missing write member
    rcases mem_append.mp member with earlier | last
    · exact before.absent missing write earlier
    · simp at last
  free := by
    intro slot same
    cases same
    simp

variable [DecidableEq Idx]

theorem FoundAmong.used_slot {idx : Idx} (before : FoundAmong idx seen found)
    (write : PendingWrite Idx) :
    FoundAmong idx (seen ++ [some write])
      (if write.idx = idx then { found with matched := some seen.length }
        else found) := by
  split
  next holds =>
    refine ⟨?_, by simp, ?_⟩
    · intro slot same
      cases same
      exact ⟨write, by simp, holds⟩
    · intro slot same
      exact getElem?_append_seen (before.free slot same) _
  next differs =>
    refine ⟨?_, ?_, ?_⟩
    · intro slot same
      obtain ⟨known, here, holds⟩ := before.matched slot same
      exact ⟨known, getElem?_append_seen here _, holds⟩
    · intro missing known member
      rcases mem_append.mp member with earlier | last
      · exact before.absent missing known earlier
      simp only [mem_singleton, some.injEq] at last
      rw [last]
      exact differs
    · intro slot same
      exact getElem?_append_seen (before.free slot same) _

theorem findPending_among (idx : Idx) {rest : List (Option (PendingWrite Idx))}
    (before : FoundAmong idx seen found) :
    FoundAmong idx (seen ++ rest) (findPending idx seen.length found rest) := by
  induction rest generalizing seen found with
  | nil => simpa [findPending] using before
  | cons element rest ih =>
    rw [append_cons]
    cases element with
    | none => simpa [findPending] using ih before.free_slot
    | some write => simpa [findPending] using ih (before.used_slot write)

theorem findPending_spec (idx : Idx) (pending : List (Option (PendingWrite Idx))) :
    FoundAmong idx pending (findPending idx 0 ⟨none, none⟩ pending) := by
  have found : FoundAmong idx ([] ++ pending) _ :=
    findPending_among idx (FoundAmong.nil idx)
  simpa using found

end Search

section Writes

variable {Idx : Type u} [DecidableEq Idx] {Record : Type v} {Entry : Type w}
variable {keeps : Entry → Record → Prop} {scope : Idx → Prop}
variable {save : Entry → Record} {lookup entries : Idx → Option Entry}

theorem writeRecord_other (lookup : Idx → Option Record)
    (write : PendingWrite Idx) (records : Idx → Option Record) {idx : Idx}
    (differs : idx ≠ write.idx) :
    writeRecord lookup write records idx = records idx := by
  unfold writeRecord
  split
  · exact update_of_ne differs _ _
  cases lookup write.idx with
  | none => rfl
  | some => exact update_of_ne differs _ _

theorem writeRecord_self (saves : ∀ entry, keeps entry (save entry))
    {write : PendingWrite Idx} (records : Idx → Option Record)
    (reads : write.clear = false → lookup write.idx = entries write.idx)
    (due : write.clear = true ↔ entries write.idx = none) :
    Option.Rel keeps (entries write.idx)
      (writeRecord (fun idx => (lookup idx).map save) write records write.idx) := by
  simp only [writeRecord]
  cases present : entries write.idx with
  | none =>
    rw [if_pos (due.mpr present), update_self]
    exact .none
  | some entry =>
    have stores : ¬ write.clear = true := by
      intro clears
      rw [due.mp clears] at present
      cases present
    rw [if_neg stores, reads (by simpa using stores), present]
    simp only [map_some, update_self]
    exact .some (saves entry)

theorem flushPending_rel (saves : ∀ entry, keeps entry (save entry))
    {pending : List (Option (PendingWrite Idx))}
    (reads : ∀ write, some write ∈ pending → write.clear = false →
      lookup write.idx = entries write.idx) (due : ∀ write, some write ∈ pending →
      (write.clear = true ↔ entries write.idx = none))
    {records : Idx → Option Record} {idx : Idx}
    (settled : (∀ write, some write ∈ pending → write.idx ≠ idx) →
      Option.Rel keeps (entries idx) (records idx)) :
    Option.Rel keeps (entries idx)
      (flushPending (fun idx => (lookup idx).map save) records pending idx) := by
  induction pending generalizing records with
  | nil => exact settled (by simp)
  | cons element rest ih =>
    have restReads := fun write member =>
      reads write (mem_cons_of_mem element member)
    have restDue := fun write member =>
      due write (mem_cons_of_mem element member)
    cases element with
    | none =>
      apply ih restReads restDue
      intro absent
      apply settled
      intro write member
      rcases mem_cons.mp member with contrary | later
      · cases contrary
      · exact absent write later
    | some write =>
      apply ih restReads restDue
      intro absent
      by_cases same : idx = write.idx
      · rw [same]
        exact writeRecord_self saves records
          (reads write mem_cons_self) (due write mem_cons_self)
      · rw [writeRecord_other _ write records same]
        apply settled
        intro other member
        rcases mem_cons.mp member with first | later
        · cases first
          exact Ne.symm same
        · exact absent other later

namespace WriteBehind

variable {behind : WriteBehind Idx Record}

section

variable (coherent : behind.Coherent keeps scope entries)
  (saves : ∀ entry, keeps entry (save entry))
  (reads : ∀ write, some write ∈ behind.pending → write.clear = false →
    lookup write.idx = entries write.idx)
include coherent saves reads

theorem Coherent.flush (idx : Idx) : Option.Rel keeps (entries idx)
      ((behind.flush fun idx => (lookup idx).map save).records idx) := by
  apply flushPending_rel saves reads coherent.flagged
  intro absent
  exact coherent.written idx absent

theorem Coherent.flush_coherent :
    (behind.flush fun idx => (lookup idx).map save).Coherent keeps scope
      entries := by
  apply Coherent.of_rel
  · intro write member
    simp [WriteBehind.flush] at member
  · exact coherent.flush saves reads

end

theorem Coherent.write {after : Idx → Option Entry} {write : PendingWrite Idx}
    (coherent : behind.Coherent keeps scope entries)
    (saves : ∀ entry, keeps entry (save entry))
    (absent : ∀ known, some known ∈ behind.pending → known.idx ≠ write.idx)
    (others : ∀ idx, idx ≠ write.idx → Renewed keeps (entries idx) (after idx))
    (reads : lookup write.idx = after write.idx)
    (due : write.clear = true ↔ after write.idx = none) :
    Coherent keeps scope after
      { behind with
        records := writeRecord (fun idx => (lookup idx).map save) write
          behind.records } where
  within := coherent.within
  single := coherent.single
  flagged := by
    intro known member
    rw [coherent.flagged known member,
      (others known.idx (absent known member)).present]
  written := by
    intro idx missing
    by_cases same : idx = write.idx
    · rw [same]
      exact writeRecord_self saves _ (fun _ => reads) due
    dsimp only
    rw [writeRecord_other _ write _ same]
    exact (others idx same).kept _ (coherent.written idx missing)

theorem Coherent.note {held : Idx → Idx} {after : Idx → Option Entry}
    {write : PendingWrite Idx} (coherent : behind.Coherent keeps scope entries)
    (saves : ∀ entry, keeps entry (save entry))
    (small : scope write.idx) (whole : held write.idx = write.idx)
    (others : ∀ idx, idx ≠ write.idx → Renewed keeps (entries idx) (after idx))
    (reads : lookup write.idx = after write.idx)
    (due : write.clear = true ↔ after write.idx = none) :
    (behind.note held (fun idx => (lookup idx).map save) write).Coherent keeps
      scope after := by
  have search := findPending_spec write.idx behind.pending
  unfold WriteBehind.note
  generalize findPending write.idx 0 ⟨none, none⟩ behind.pending = found at search
  obtain ⟨matched, free⟩ := found
  cases matched with
  | some slot =>
    obtain ⟨known, here, same⟩ := search.matched slot rfl
    have replaced :
        behind.pending.modify slot
            (Option.map fun known => { known with clear := write.clear }) =
          behind.pending.set slot (some write) := by
      rw [modify_eq_set_getElem?, here]
      simp [same]
    simp only [replaced]
    refine coherent.put here ?_ ?_ small others due
    · intro held same'
      obtain rfl := some.inj same'
      exact same
    · intro other twin apart there twinSame
      exact apart (coherent.single other slot twin known there here
        (twinSame.trans same.symm))
  | none =>
    have absent := search.absent rfl
    cases free with
    | none => exact coherent.write saves absent others reads due
    | some slot =>
      simp only [whole]
      refine coherent.put (search.free slot rfl) ?_ ?_ small others due
      · intro known contrary
        cases contrary
      · intro other known _ there
        exact absent known (mem_of_getElem? there)

variable {key : Entry → Option Idx} {table : List Entry} {slot : Nat}
variable {entry updated : Entry}

section

variable (coherent : behind.Coherent keeps scope (slotByKey key table))
include coherent

theorem Coherent.note_set {held : Idx → Idx} {write : PendingWrite Idx}
    (saves : ∀ entry, keeps entry (save entry))
    (unique : KeysUnique key table)
    (uniqueAfter : KeysUnique key (table.set slot updated))
    (found : table[slot]? = some entry)
    (small : scope write.idx) (whole : held write.idx = write.idx)
    (before : ∀ idx, key entry = some idx → idx = write.idx)
    (after : key updated = if write.clear then none else some write.idx)
    (named : write.clear = true → key entry = some write.idx)
    (reads : lookup write.idx = slotByKey key (table.set slot updated) write.idx) :
    (behind.note held (fun idx => (lookup idx).map save) write).Coherent keeps
      scope (slotByKey key (table.set slot updated)) := by
  apply coherent.note saves small whole _ reads
  · cases clears : write.clear with
    | true =>
      rw [clears, if_pos rfl] at after
      have gone : key updated ≠ some write.idx := by
        simp [after]
      simp [slotByKey_set_gone unique found (named clears) gone]
    | false =>
      rw [clears, if_neg Bool.false_ne_true] at after
      obtain ⟨bound, _⟩ := List.getElem?_eq_some_iff.mp found
      simp [slotByKey_found uniqueAfter (getElem?_set_self bound) after]
  · intro idx differs
    rw [slotByKey_set_other found]
    · exact .refl _
    · intro same
      exact differs (before idx same)
    · rw [after]
      split
      · simp
      · intro same
        exact differs (some.inj same).symm

theorem Coherent.renew_set (unique : KeysUnique key table)
    (uniqueAfter : KeysUnique key (table.set slot updated))
    (found : table[slot]? = some entry) (same : key updated = key entry)
    (kept : (key entry).isSome = true →
      ∀ record, keeps entry record → keeps updated record) :
    behind.Coherent keeps scope (slotByKey key (table.set slot updated)) := by
  apply coherent.renew
  intro idx
  by_cases mine : key entry = some idx
  · obtain ⟨bound, _⟩ := List.getElem?_eq_some_iff.mp found
    rw [slotByKey_found unique found mine,
      slotByKey_found uniqueAfter (getElem?_set_self bound) (same.trans mine)]
    apply Renewed.some
    apply kept
    rw [mine]
    rfl
  · rw [slotByKey_set_other found mine]
    · exact .refl _
    · rw [same]
      exact mine

end

end WriteBehind

end Writes

end ZephyrBluetooth.Data
