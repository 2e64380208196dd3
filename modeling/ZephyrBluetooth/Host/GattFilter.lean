import ZephyrBluetooth.Host.GattDbSorted

namespace ZephyrBluetooth.Host

open List Bool

/-! The iteration of the database is a filter: `func` is called on the attributes
of the range that pass both filters, in handle order, up to the limit. -/

section Filter

variable {Data Carried : Type} [DecidableEq Data]
variable {query : GattQuery Data} {func : GattAttrFunc Data Carried}

variable {database : GattDb Data}

def GattQuery.admits (query : GattQuery Data) (entry : GattAttr Data × Nat) :
    Bool :=
  decide (query.startHandle ≤ entry.2) && decide (entry.2 ≤ query.endHandle) &&
    query.matches entry.1

def GattDb.selected (database : GattDb Data) (query : GattQuery Data)
    (numMatches : Nat) : List (GattAttr Data × Nat) :=
  if numMatches = 0 then database.attributes.filter query.admits
  else (database.attributes.filter query.admits).take numMatches

theorem foreachAttrs_filter {attrs : List (GattAttr Data × Nat)}
    (ascending : (attrs.map Prod.snd).Pairwise (· < ·)) (left : Nat)
    (carried : Carried) :
    (foreachAttrs query func attrs ⟨left + 1, carried, .proceed⟩).userData =
      foldAttrs func ((attrs.filter query.admits).take (left + 1)) carried := by
  induction attrs generalizing left carried with
  | nil => rfl
  | cons entry rest ih =>
    obtain ⟨attr, handle⟩ := entry
    obtain ⟨above, sorted⟩ := pairwise_cons.mp ascending
    unfold foreachAttrs gattForeachIter
    by_cases beyond : query.endHandle < handle
    · -- nothing behind an attribute over the range is in the range
      have empty : ((attr, handle) :: rest).filter query.admits = [] := by
        rw [filter_eq_nil_iff]
        intro other member inside
        simp only [GattQuery.admits, and_eq_true, decide_eq_true_eq] at inside
        rcases mem_cons.mp member with rfl | later
        · omega
        have higher := above other.2 (mem_map_of_mem later)
        omega
      simp only [if_pos beyond, empty]
      rfl
    · simp only [if_neg beyond]
      by_cases below : handle < query.startHandle
      · have skipped : ¬ query.admits (attr, handle) = true := by
          simp only [GattQuery.admits, and_eq_true, decide_eq_true_eq]
          omega
        simp only [if_pos below]
        rw [filter_cons_of_neg skipped]
        exact ih sorted left carried
      · simp only [if_neg below]
        by_cases matching : query.matches attr = true
        · have admitted : query.admits (attr, handle) = true := by
            simp only [GattQuery.admits, matching, Bool.and_true,
              and_eq_true, decide_eq_true_eq]
            omega
          simp only [if_pos matching]
          rw [filter_cons_of_pos admitted, take_succ_cons]
          unfold foldAttrs
          cases called : func attr handle carried with
          | mk next iter =>
            cases left with
            | zero =>
              cases iter with
              | stop => rfl
              | proceed => rfl
            | succ more =>
              cases iter with
              | stop => rfl
              | proceed => exact ih sorted more next
        · have skipped : ¬ query.admits (attr, handle) = true := by
            intro inside
            rw [GattQuery.admits, and_eq_true] at inside
            exact matching inside.2
          simp only [if_neg matching]
          rw [filter_cons_of_neg skipped]
          exact ih sorted left carried

section

variable (reversed : query.endHandle < query.startHandle)
include reversed

theorem gattForeachIter_reversed (attr : GattAttr Data) (handle : Nat)
    (walk : GattWalk Carried) :
    (gattForeachIter query func attr handle walk).userData = walk.userData := by
  unfold gattForeachIter
  split
  · rfl
  · rw [if_pos (by omega)]

theorem foreachAttrs_reversed (attrs : List (GattAttr Data × Nat))
    (walk : GattWalk Carried) :
    (foreachAttrs query func attrs walk).userData = walk.userData := by
  induction attrs generalizing walk with
  | nil => rfl
  | cons entry rest ih =>
    have kept := @gattForeachIter_reversed _ _ _ _ func reversed entry.1 entry.2 walk
    unfold foreachAttrs
    split
    · exact kept
    · rw [ih]
      exact kept

theorem foreachStatic_reversed (handle : Nat)
    (services : List (List (GattAttr Data))) (walk : GattWalk Carried) :
    (foreachStatic query func handle services walk).userData = walk.userData := by
  induction services generalizing handle walk with
  | nil => rfl
  | cons service rest ih =>
    have kept := @foreachAttrs_reversed _ _ _ _ func reversed
      (numbered handle service) walk
    unfold foreachStatic
    split
    · exact ih _ _
    split
    · exact kept
    · rw [ih]
      exact kept

theorem foreachAttrTypeDyndb_reversed (services : List (GattService Data))
    (walk : GattWalk Carried) :
    (foreachAttrTypeDyndb query func services walk).userData = walk.userData := by
  induction services generalizing walk with
  | nil => rfl
  | cons service rest ih =>
    have kept := @foreachAttrs_reversed _ _ _ _ func reversed
      (ownHandles service.attrs) walk
    unfold foreachAttrTypeDyndb
    split
    · exact ih _
    split
    · exact kept
    · rw [ih]
      exact kept

theorem btGattForeachAttrType_reversed (database : GattDb Data) (numMatches : Nat)
    (userData : Carried) :
    btGattForeachAttrType database query numMatches func userData = userData := by
  unfold btGattForeachAttrType
  have static : (if query.startHandle ≤ database.static.lastHandle then
        foreachStatic query func 1 database.static.services
          ⟨if numMatches = 0 then 2 ^ 16 - 1 else numMatches, userData, .proceed⟩
      else ⟨if numMatches = 0 then 2 ^ 16 - 1 else numMatches, userData,
        .proceed⟩).userData = userData := by
    split
    · exact foreachStatic_reversed reversed _ _ _
    · rfl
  simp only
  split
  · exact static
  · rw [foreachAttrTypeDyndb_reversed reversed]
    exact static

theorem GattDb.selected_reversed (database : GattDb Data) (numMatches : Nat) :
    database.selected query numMatches = [] := by
  have empty : database.attributes.filter query.admits = [] := by
    rw [filter_eq_nil_iff]
    intro entry _ inside
    simp only [GattQuery.admits, and_eq_true, decide_eq_true_eq] at inside
    omega
  unfold GattDb.selected
  rw [empty, take_nil, ite_self]

end

section

variable (sorted : database.Sorted)
include sorted

theorem GattDb.Sorted.take_limit :
    (database.attributes.filter query.admits).take (2 ^ 16 - 1) =
      database.attributes.filter query.admits := by
  apply take_of_length_le
  have filtered := length_filter_le query.admits database.attributes
  have bounded := sorted.length_le
  omega

theorem GattDb.Sorted.foreach_range
    {startHandle endHandle : Nat} (order : startHandle ≤ endHandle)
    (func : GattAttrFunc Data Carried) (userData : Carried) :
    btGattForeachAttr database startHandle endHandle func userData =
      foldAttrs func (database.attributes.filter
        (GattQuery.admits ⟨startHandle, endHandle, none, none⟩)) userData := by
  unfold btGattForeachAttr
  rw [btGattForeachAttrType_eq sorted.handles order, ← sorted.take_limit]
  exact foreachAttrs_filter sorted.handles (2 ^ 16 - 2) userData

theorem GattDb.Sorted.foreach_handle {attr : GattAttr Data} {handle : Nat}
    (listed : (attr, handle) ∈ database.attributes)
    (func : GattAttrFunc Data Carried) (userData : Carried) :
    btGattForeachAttr database handle handle func userData =
      (func attr handle userData).1 := by
  obtain ⟨_, _, split⟩ := append_of_mem listed
  have admits : (GattQuery.admits ⟨handle, handle, none, none⟩ :
      GattAttr Data × Nat → Bool) = fun entry =>
        decide (handle ≤ entry.2 ∧ entry.2 ≤ handle) := by
    funext entry
    simp [GattQuery.admits, GattQuery.matches]
  have own : database.attributes.filter
      (GattQuery.admits ⟨handle, handle, none, none⟩) = [(attr, handle)] := by
    have handles := sorted.handles
    unfold GattDb.handles at handles
    rw [admits, split, ← singleton_append, ← append_assoc] at *
    apply filter_between handles
    · exact mem_singleton.mpr rfl
    · exact mem_singleton.mpr rfl
    · intro other same
      rw [mem_singleton.mp same]
      exact ⟨le_refl _, le_refl _⟩
  rw [sorted.foreach_range (le_refl _), own]
  unfold foldAttrs
  cases called : func attr handle userData with
  | mk next iter =>
    cases iter with
    | stop => rfl
    | proceed => rfl

end

/-- The iteration calls `func` on the attributes selected, one after the other,
until it asks to stop. -/
theorem gatt_foreach_filter {database : GattDb Data} (sorted : database.Sorted)
    (query : GattQuery Data) (numMatches : Nat)
    (func : GattAttrFunc Data Carried) (userData : Carried) :
    btGattForeachAttrType database query numMatches func userData =
      foldAttrs func (database.selected query numMatches) userData := by
  by_cases reversed : query.endHandle < query.startHandle
  · rw [btGattForeachAttrType_reversed reversed, GattDb.selected_reversed reversed]
    rfl
  · rw [btGattForeachAttrType_eq sorted.handles (by omega)]
    unfold GattDb.selected
    by_cases all : numMatches = 0
    · rw [if_pos all, if_pos all, ← sorted.take_limit]
      exact foreachAttrs_filter sorted.handles (2 ^ 16 - 2) userData
    rw [if_neg all, if_neg all]
    obtain ⟨left, rfl⟩ := Nat.exists_eq_succ_of_ne_zero all
    exact foreachAttrs_filter sorted.handles left userData

end Filter

def mixedDb : GattDb Nat where
  static := sampleStatic
  object := fun _ => sampleService 0x10 [0x11, 0x20]
  db := [1]

theorem mixedDb_sorted : mixedDb.Sorted where
  aboveStatic := by decide
  ascending := by decide
  apart := by decide

theorem gatt_foreach_filter_mixed : mixedDb.Sorted ∧
      btGattForeachAttrType mixedDb ⟨2, 0xffff, some (.uuid16 0x2800#16), some 0⟩
          3 (fun _ handle seen => (seen ++ [handle], .proceed)) [] =
        foldAttrs (fun _ handle seen => (seen ++ [handle], .proceed))
          (mixedDb.selected ⟨2, 0xffff, some (.uuid16 0x2800#16), some 0⟩ 3) [] :=
  ⟨mixedDb_sorted, gatt_foreach_filter mixedDb_sorted _ 3 _ []⟩

end ZephyrBluetooth.Host
