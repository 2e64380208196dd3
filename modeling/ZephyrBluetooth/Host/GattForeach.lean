import ZephyrBluetooth.Host.GattDb
import Mathlib.Data.List.Range

namespace ZephyrBluetooth.Host

open Data List Function

/-! On a database in handle order the services passed over by the iteration
hold no attribute of the range, so that the iteration is one walk over all
attributes. -/

section Numbered

variable {Data : Type}

theorem numbered_append (handle : Nat) (left right : List (GattAttr Data)) :
    numbered handle (left ++ right) =
      numbered handle left ++ numbered (handle + left.length) right := by
  induction left generalizing handle with
  | nil => simp [numbered]
  | cons attr rest ih =>
    simp only [cons_append, numbered, ih, length_cons]
    rw [add_assoc, add_comm 1]

theorem numbered_handles (handle : Nat) (attrs : List (GattAttr Data)) :
    (numbered handle attrs).map Prod.snd = range' handle attrs.length := by
  induction attrs generalizing handle with
  | nil => rfl
  | cons attr rest ih =>
    simp only [numbered, map_cons, ih, length_cons, range'_succ]

theorem ownHandles_handles (attrs : List (GattAttr Data)) :
    (ownHandles attrs).map Prod.snd = attrs.map GattAttr.handle := by
  simp [ownHandles, map_map, comp_def]

theorem ownHandles_attrs (attrs : List (GattAttr Data)) :
    (ownHandles attrs).map Prod.fst = attrs := by
  simp [ownHandles, map_map, comp_def]

theorem GattService.first_mem (service : GattService Data) :
    service.first ∈ service.attrs.map GattAttr.handle :=
  mem_map_of_mem (head_mem service.nonempty)

theorem GattService.last_mem (service : GattService Data) :
    service.last ∈ service.attrs.map GattAttr.handle :=
  mem_map_of_mem (getLast_mem service.nonempty)

section

variable {service : GattService Data}
  (ascending : (service.attrs.map GattAttr.handle).Pairwise (· < ·)) {handle : Nat}
  (member : handle ∈ service.attrs.map GattAttr.handle)
include ascending member

theorem GattService.first_le : service.first ≤ handle := by
  obtain ⟨attrs, nonempty⟩ := service
  cases attrs with
  | nil => exact absurd rfl nonempty
  | cons =>
    obtain ⟨above, -⟩ := pairwise_cons.mp ascending
    rcases mem_cons.mp member with rfl | later
    · exact le_refl _
    · exact le_of_lt (above handle later)

theorem GattService.le_last : handle ≤ service.last := by
  obtain ⟨attrs, nonempty⟩ := service
  obtain ⟨front, final, rfl⟩ := eq_nil_or_concat' attrs |>.resolve_left nonempty
  rw [map_append, pairwise_append] at ascending
  obtain ⟨-, -, below⟩ := ascending
  have last : GattService.last ⟨front ++ [final], nonempty⟩ = final.handle := by
    simp [GattService.last]
  rw [last]
  rcases mem_append.mp (map_append ▸ member) with earlier | same
  · exact le_of_lt (below handle earlier final.handle (by simp))
  · simp only [map_cons, map_nil, mem_singleton] at same
    exact le_of_eq same

end

end Numbered

variable {handle : Nat}

section Walk

variable {Data Carried : Type} [DecidableEq Data]
variable {query : GattQuery Data} {func : GattAttrFunc Data Carried}

variable {walk : GattWalk Carried} {attrs : List (GattAttr Data × Nat)}

theorem gattForeachIter_below (order : query.startHandle ≤ query.endHandle)
    {attr : GattAttr Data} (below : handle < query.startHandle)
    (going : walk.iter = .proceed) :
    gattForeachIter query func attr handle walk = walk := by
  have inside : ¬query.endHandle < handle := by omega
  unfold gattForeachIter
  rw [if_neg inside, if_pos below, ← going]

theorem foreachAttrs_below (order : query.startHandle ≤ query.endHandle)
    (below : ∀ handle ∈ attrs.map Prod.snd, handle < query.startHandle)
    (going : walk.iter = .proceed) :
    foreachAttrs query func attrs walk = walk := by
  induction attrs with
  | nil => rfl
  | cons entry rest ih =>
    obtain ⟨attr, handle⟩ := entry
    have same : gattForeachIter query func attr handle walk = walk :=
      gattForeachIter_below order (below handle (by simp)) going
    unfold foreachAttrs
    rw [same, going]
    apply ih
    intro later member
    exact below later (mem_cons_of_mem _ member)

theorem foreachAttrs_append {left right : List (GattAttr Data × Nat)}
    (going : walk.iter = .proceed) :
    foreachAttrs query func (left ++ right) walk =
      match (foreachAttrs query func left walk).iter with
      | .stop => foreachAttrs query func left walk
      | .proceed =>
        foreachAttrs query func right (foreachAttrs query func left walk) := by
  induction left generalizing walk with
  | nil => simp only [nil_append, foreachAttrs, going]
  | cons entry rest ih =>
    obtain ⟨attr, handle⟩ := entry
    simp only [cons_append, foreachAttrs]
    cases stepped : (gattForeachIter query func attr handle walk).iter with
    | stop => simp only [stepped]
    | proceed => simp only [ih stepped]

theorem foreachStatic_eq (order : query.startHandle ≤ query.endHandle)
    {services : List (List (GattAttr Data))} (going : walk.iter = .proceed) :
    foreachStatic query func handle services walk =
      foreachAttrs query func (numbered handle services.flatten) walk := by
  induction services generalizing handle walk with
  | nil => rfl
  | cons service rest ih =>
    rw [flatten_cons, numbered_append, foreachAttrs_append going]
    unfold foreachStatic
    split
    · rename_i skipped
      have below : ∀ number ∈ (numbered handle service).map Prod.snd,
          number < query.startHandle := by
        intro number member
        rw [numbered_handles, mem_range'_1] at member
        omega
      rw [foreachAttrs_below order below going, going]
      exact ih going
    · cases stepped :
          (foreachAttrs query func (numbered handle service) walk).iter with
      | stop => rfl
      | proceed => exact ih stepped

def InOrder (services : List (GattService Data)) : Prop :=
  (services.flatMap fun service =>
    service.attrs.map GattAttr.handle).Pairwise (· < ·)

omit [DecidableEq Data] in
theorem InOrder.head_below {service next : GattService Data}
    {rest : List (GattService Data)}
    (ordered : InOrder (service :: next :: rest))
    (member : handle ∈ service.attrs.map GattAttr.handle) :
    handle < next.first := by
  unfold InOrder at ordered
  rw [flatMap_cons, pairwise_append] at ordered
  apply ordered.2.2 handle member
  rw [flatMap_cons]
  exact mem_append_left _ next.first_mem

omit [DecidableEq Data] in
theorem InOrder.tail {service : GattService Data}
    {rest : List (GattService Data)} (ordered : InOrder (service :: rest)) :
    InOrder rest := by
  unfold InOrder at ordered
  rw [flatMap_cons, pairwise_append] at ordered
  exact ordered.2.1

theorem foreachAttrTypeDyndb_eq (order : query.startHandle ≤ query.endHandle)
    {services : List (GattService Data)} (ordered : InOrder services)
    (going : walk.iter = .proceed) :
    foreachAttrTypeDyndb query func services walk = foreachAttrs query func
        (services.flatMap fun service => ownHandles service.attrs) walk := by
  induction services generalizing walk with
  | nil => rfl
  | cons service rest ih =>
    rw [flatMap_cons, foreachAttrs_append going]
    unfold foreachAttrTypeDyndb
    split
    · rename_i skipped
      have below : ∀ handle ∈ (ownHandles service.attrs).map Prod.snd,
          handle < query.startHandle := by
        intro handle member
        rw [ownHandles_handles] at member
        cases rest with
        | nil => simp [skipsTo] at skipped
        | cons =>
          have close := ordered.head_below member
          simp only [skipsTo, decide_eq_true_eq] at skipped
          exact lt_of_lt_of_le close skipped
      rw [foreachAttrs_below order below going, going]
      exact ih ordered.tail going
    · cases stepped :
          (foreachAttrs query func (ownHandles service.attrs) walk).iter with
      | stop => rfl
      | proceed => exact ih ordered.tail stepped

def GattDb.handles (database : GattDb Data) : List Nat :=
  database.attributes.map Prod.snd

def GattDb.block (database : GattDb Data) (address : Nat) : List Nat :=
  (database.object address).attrs.map GattAttr.handle

omit [DecidableEq Data] in
theorem GattDb.handles_eq (database : GattDb Data) :
    database.handles = range' 1 database.static.lastHandle ++
        database.db.flatMap database.block := by
  simp only [GattDb.handles, GattDb.attributes, map_append,
    numbered_handles, map_flatMap, ownHandles_handles]
  rfl

variable {database : GattDb Data}

omit [DecidableEq Data] in
theorem GattDb.listed_inOrder (ascending : database.handles.Pairwise (· < ·)) :
    InOrder database.listed := by
  rw [database.handles_eq, pairwise_append] at ascending
  unfold InOrder GattDb.listed
  rw [flatMap_map]
  exact ascending.2.1

theorem btGattForeachAttrType_eq (ascending : database.handles.Pairwise (· < ·))
    (order : query.startHandle ≤ query.endHandle) (numMatches : Nat)
    (userData : Carried) :
    btGattForeachAttrType database query numMatches func userData =
      (foreachAttrs query func database.attributes
        ⟨if numMatches = 0 then 2 ^ 16 - 1 else numMatches, userData,
          .proceed⟩).userData := by
  have dynamic : (database.listed.flatMap fun service =>
      ownHandles service.attrs) = database.db.flatMap fun address =>
          ownHandles (database.object address).attrs := by
    unfold GattDb.listed
    rw [flatMap_map]
  have static : (if query.startHandle ≤ database.static.lastHandle then
        foreachStatic query func 1 database.static.services
          ⟨if numMatches = 0 then 2 ^ 16 - 1 else numMatches, userData, .proceed⟩
      else ⟨if numMatches = 0 then 2 ^ 16 - 1 else numMatches, userData, .proceed⟩) =
      foreachAttrs query func (numbered 1 database.static.services.flatten)
        ⟨if numMatches = 0 then 2 ^ 16 - 1 else numMatches, userData, .proceed⟩ := by
    split
    · exact foreachStatic_eq order rfl
    rename_i above
    symm
    apply foreachAttrs_below order _ rfl
    intro handle member
    rw [numbered_handles, mem_range'_1] at member
    unfold GattStatic.lastHandle at above
    omega
  unfold btGattForeachAttrType GattDb.attributes
  simp only [static]
  rw [foreachAttrs_append rfl]
  cases stepped : (foreachAttrs query func
      (numbered 1 database.static.services.flatten)
      ⟨if numMatches = 0 then 2 ^ 16 - 1 else numMatches, userData,
        .proceed⟩).iter with
  | stop => rfl
  | proceed =>
    rw [foreachAttrTypeDyndb_eq order (GattDb.listed_inOrder ascending)
      stepped, dynamic]

def foldAttrs (func : GattAttrFunc Data Carried) :
    List (GattAttr Data × Nat) → Carried → Carried
  | [], carried => carried
  | (attr, handle) :: rest, carried =>
    match func attr handle carried with
    | (next, .stop) => next
    | (next, .proceed) => foldAttrs func rest next

theorem foreachAttrs_fold {startHandle endHandle numMatches : Nat}
    (inside : ∀ handle ∈ attrs.map Prod.snd,
      startHandle ≤ handle ∧ handle ≤ endHandle) (room : attrs.length ≤ numMatches)
    (carried : Carried) :
    (foreachAttrs ⟨startHandle, endHandle, none, none⟩ func attrs
      ⟨numMatches, carried, .proceed⟩).userData = foldAttrs func attrs carried := by
  induction attrs generalizing numMatches carried with
  | nil => rfl
  | cons entry rest ih =>
    obtain ⟨attr, handle⟩ := entry
    obtain ⟨low, high⟩ := inside handle (by simp)
    have visited : gattForeachIter ⟨startHandle, endHandle, none, none⟩ func
        attr handle ⟨numMatches, carried, .proceed⟩ =
          ⟨numMatches - 1, (func attr handle carried).1,
            if numMatches - 1 = 0 then .stop
            else (func attr handle carried).2⟩ := by
      simp [gattForeachIter, GattQuery.matches, not_lt.mpr low, not_lt.mpr high]
    unfold foreachAttrs foldAttrs
    rw [visited]
    simp only [length_cons] at room
    cases called : func attr handle carried with
    | mk next iter =>
      by_cases last : numMatches - 1 = 0
      · have empty : rest = [] := eq_nil_of_length_eq_zero (by omega)
        subst empty
        simp only [if_pos last]
        cases iter with
        | stop => rfl
        | proceed => rfl
      · simp only [if_neg last]
        cases iter with
        | stop => rfl
        | proceed =>
          apply ih
          · intro other member
            exact inside other (mem_cons_of_mem _ member)
          · omega

end Walk

/-! Two callbacks: the lookup of one handle and the list of a range. -/

section Callbacks

variable {Data : Type} [DecidableEq Data] {attrs : List (GattAttr Data × Nat)}

def collectAttr : GattAttrFunc Data (List (GattAttr Data)) :=
  fun attr _ found => (found ++ [attr], .proceed)

theorem foreachAttrs_foundAttr
    (ascending : (attrs.map Prod.snd).Pairwise (· < ·)) (numMatches : Nat) :
    (foreachAttrs ⟨handle, handle, none, none⟩ foundAttr attrs
      ⟨numMatches, none, .proceed⟩).userData =
      (attrs.find? fun entry => entry.2 = handle).map Prod.fst := by
  induction attrs with
  | nil => rfl
  | cons entry rest ih =>
    obtain ⟨attr, number⟩ := entry
    obtain ⟨above, sorted⟩ := pairwise_cons.mp ascending
    unfold foreachAttrs
    rcases lt_trichotomy number handle with before | rfl | after
    · have same : gattForeachIter
          ⟨handle, handle, none, none⟩ foundAttr attr number
          ⟨numMatches, none, .proceed⟩ = ⟨numMatches, none, .proceed⟩ :=
        gattForeachIter_below (le_refl _) before rfl
      rw [same, find?_cons_of_neg (by simpa using ne_of_lt before)]
      exact ih sorted
    · have found : gattForeachIter
          ⟨number, number, none, none⟩ foundAttr attr number
          ⟨numMatches, none, .proceed⟩ = ⟨numMatches - 1, some attr, .stop⟩ := by
        simp [gattForeachIter, GattQuery.matches, foundAttr]
      rw [found, find?_cons_of_pos (by simp)]
      rfl
    · have stopped : gattForeachIter
          ⟨handle, handle, none, none⟩ foundAttr attr number
          ⟨numMatches, none, .proceed⟩ = ⟨numMatches, none, .stop⟩ := by
        simp [gattForeachIter, after]
      have missing : ((attr, number) :: rest).find?
          (fun entry => entry.2 = handle) = none := by
        rw [find?_eq_none]
        intro later member
        rcases mem_cons.mp member with rfl | member
        · simpa using ne_of_gt after
        have := above later.2 (mem_map_of_mem member)
        simp only [decide_eq_true_eq]
        omega
      rw [stopped, missing]
      rfl

variable {database : GattDb Data}

theorem findAttr_eq (ascending : database.handles.Pairwise (· < ·)) (handle : Nat) :
    findAttr database handle =
      (database.attributes.find? fun entry => entry.2 = handle).map Prod.fst := by
  unfold findAttr btGattForeachAttr
  rw [btGattForeachAttrType_eq ascending (le_refl _)]
  exact foreachAttrs_foundAttr ascending _

theorem findAttr_isSome
    (ascending : database.handles.Pairwise (· < ·)) (handle : Nat) :
    (findAttr database handle).isSome ↔ handle ∈ database.handles := by
  rw [findAttr_eq ascending, Option.isSome_map, find?_isSome]
  unfold GattDb.handles
  rw [mem_map]
  constructor
  · rintro ⟨entry, member, same⟩
    exact ⟨entry, member, by simpa using same⟩
  · rintro ⟨entry, member, same⟩
    exact ⟨entry, member, by simpa using same⟩

theorem foreachAttrs_collectAttr {startHandle endHandle : Nat}
    (ascending : (attrs.map Prod.snd).Pairwise (· < ·)) {numMatches : Nat}
    (room : attrs.length ≤ numMatches) (found : List (GattAttr Data)) :
    (foreachAttrs ⟨startHandle, endHandle, none, none⟩ collectAttr attrs
      ⟨numMatches, found, .proceed⟩).userData =
      found ++ (attrs.filter fun entry =>
        startHandle ≤ entry.2 ∧ entry.2 ≤ endHandle).map Prod.fst := by
  induction attrs generalizing numMatches found with
  | nil => simp [foreachAttrs]
  | cons entry rest ih =>
    obtain ⟨attr, number⟩ := entry
    obtain ⟨above, sorted⟩ := pairwise_cons.mp ascending
    have fewer : rest.length ≤ numMatches - 1 := by
      simp only [length_cons] at room
      omega
    unfold foreachAttrs
    by_cases beyond : endHandle < number
    · have stopped : gattForeachIter
          ⟨startHandle, endHandle, none, none⟩ collectAttr attr number
          ⟨numMatches, found, .proceed⟩ = ⟨numMatches, found, .stop⟩ := by
        simp [gattForeachIter, beyond]
      have missing : ((attr, number) :: rest).filter (fun entry =>
          startHandle ≤ entry.2 ∧ entry.2 ≤ endHandle) = [] := by
        rw [filter_eq_nil_iff]
        intro later member
        simp only [decide_eq_true_eq]
        rcases mem_cons.mp member with rfl | member
        · omega
        · have := above later.2 (mem_map_of_mem member)
          omega
      rw [stopped, missing]
      simp
    · by_cases under : number < startHandle
      · have same : gattForeachIter
            ⟨startHandle, endHandle, none, none⟩ collectAttr attr number
            ⟨numMatches, found, .proceed⟩ = ⟨numMatches, found, .proceed⟩ := by
          simp [gattForeachIter, beyond, under]
        rw [same, filter_cons_of_neg (by simp; omega)]
        apply ih sorted
        omega
      · rw [filter_cons_of_pos (by simp; omega)]
        cases rest with
        | nil =>
          have visited : (gattForeachIter
              ⟨startHandle, endHandle, none, none⟩ collectAttr attr number
              ⟨numMatches, found, .proceed⟩).userData = found ++ [attr] := by
            simp [gattForeachIter, beyond, under, GattQuery.matches, collectAttr]
          cases (gattForeachIter
              ⟨startHandle, endHandle, none, none⟩ collectAttr attr number
              ⟨numMatches, found, .proceed⟩).iter <;>
            simp [foreachAttrs, visited]
        | cons =>
          have remain : numMatches - 1 ≠ 0 := by
            simp only [length_cons] at fewer
            omega
          have visited : gattForeachIter
              ⟨startHandle, endHandle, none, none⟩ collectAttr attr number
              ⟨numMatches, found, .proceed⟩ =
                ⟨numMatches - 1, found ++ [attr], .proceed⟩ := by
            simp [gattForeachIter, beyond, under, GattQuery.matches,
              collectAttr, remain]
          rw [visited]
          rw [ih sorted fewer (found ++ [attr])]
          simp

end Callbacks

end ZephyrBluetooth.Host
