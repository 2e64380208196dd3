import ZephyrBluetooth.Host.GattForeach
import Mathlib.Order.Interval.Finset.Nat

namespace ZephyrBluetooth.Host

open Data Function List Prod

variable {address : Nat}

/-! The database stays in handle order along histories whose registrations fit. -/

section Sorted

variable {Data : Type} {taken : List (GattAttr Data) → Nat → Bool}

def Ascends : Nat → List Nat → Prop
  | _, [] => True
  | counter, 0 :: rest => counter + 1 < 2 ^ 16 ∧ Ascends (counter + 1) rest
  | counter, (handle + 1) :: rest =>
    counter < handle + 1 ∧ Ascends (handle + 1) rest

instance decidableAscends : ∀ counter handles, Decidable (Ascends counter handles)
  | _, [] => .isTrue trivial
  | counter, 0 :: rest =>
    have := decidableAscends (counter + 1) rest
    inferInstanceAs (Decidable (_ ∧ _))
  | _, (handle + 1) :: rest =>
    have := decidableAscends (handle + 1) rest
    inferInstanceAs (Decidable (_ ∧ _))

structure GattDb.Between (database : GattDb Data) (handles : List Nat) :
    Prop where
  ascending : handles.Pairwise (· < ·)
  aboveStatic : ∀ handle ∈ handles, database.static.lastHandle < handle
  apart : ∀ other ∈ database.db,
    (∀ taken ∈ database.block other, ∀ handle ∈ handles, taken < handle) ∨
      ∀ taken ∈ database.block other, ∀ handle ∈ handles, handle < taken

def GattDb.Refuses (database : GattDb Data) (handles : List Nat) : Prop :=
  ∃ before conflict after, handles = before ++ conflict :: after ∧
    (∀ handle ∈ before, handle ≠ 0) ∧ conflict ∈ database.handles

def GattDb.Fits (database : GattDb Data) (address : Nat) : Prop :=
  mandatory (database.object address) = true ∨
    Ascends database.counter (database.block address) ∨
    database.Between (database.block address) ∨
    database.Refuses (database.block address)

def GattHistory.Fits (history : GattHistory Data) : GattCall Data → Prop
  | .register address => history.database.Fits address
  | .layOut _ _ => True
  | .unregister _ => True

section

variable [DecidableEq Data]

structure GattHistory.Sound (history : GattHistory Data) : Prop where
  nonzero : ∀ handle ∈ history.database.handles, handle ≠ 0
  unique : history.database.handles.Nodup
  ascending : history.database.handles.Pairwise (· < ·)
  found : ∀ address ∈ history.accepted, btGattForeachAttr history.database
      (history.database.object address).first
      (history.database.object address).last collectAttr [] =
        (history.database.object address).attrs
  foundEach : ∀ address ∈ history.accepted,
    ∀ attr ∈ (history.database.object address).attrs,
      findAttr history.database attr.handle = some attr

def GattHistory.Clean (history : GattHistory Data) : GattCall Data → Prop
  | .register address =>
    ∀ error, (btGattServiceRegister history.database address).2 = .error error →
      (btGattServiceRegister history.database address).1 = history.database
  | .layOut _ _ => True
  | .unregister _ => True

end

structure GattDb.Sorted (database : GattDb Data) : Prop where
  aboveStatic : ∀ address ∈ database.db, ∀ handle ∈ database.block address,
    database.static.lastHandle < handle
  ascending : ∀ address ∈ database.db, (database.block address).Pairwise (· < ·)
  apart : database.db.Pairwise fun left right =>
    ∀ below ∈ database.block left, ∀ above ∈ database.block right, below < above

theorem GattDb.mem_block_first (database : GattDb Data) (address : Nat) :
    (database.object address).first ∈ database.block address :=
  GattService.first_mem _

theorem GattDb.mem_block_last (database : GattDb Data) (address : Nat) :
    (database.object address).last ∈ database.block address :=
  GattService.last_mem _

namespace GattDb.Sorted

variable {database : GattDb Data}

theorem handles (sorted : database.Sorted) :
    database.handles.Pairwise (· < ·) := by
  rw [database.handles_eq, pairwise_append, pairwise_flatMap]
  refine ⟨pairwise_lt_range', ⟨sorted.ascending, sorted.apart⟩, ?_⟩
  intro static inStatic handle inDb
  rw [mem_range'_1] at inStatic
  obtain ⟨address, listed, member⟩ := mem_flatMap.mp inDb
  have above := sorted.aboveStatic address listed handle member
  omega

theorem positive (sorted : database.Sorted) :
    ∀ handle ∈ database.handles, 0 < handle := by
  intro handle member
  rw [database.handles_eq, mem_append] at member
  rcases member with inStatic | inDb
  · rw [mem_range'_1] at inStatic
    omega
  obtain ⟨address, listed, member⟩ := mem_flatMap.mp inDb
  have above := sorted.aboveStatic address listed handle member
  omega

variable {handle : Nat}

theorem mem_handles (listed : address ∈ database.db)
    (member : handle ∈ database.block address) : handle ∈ database.handles := by
  rw [database.handles_eq, mem_append]
  exact .inr (mem_flatMap.mpr ⟨address, listed, member⟩)

section

variable (sorted : database.Sorted)
include sorted

theorem le_counter
    (member : handle ∈ database.handles) : handle ≤ database.counter := by
  rw [database.handles_eq, mem_append] at member
  unfold GattDb.counter
  rcases eq_nil_or_concat' database.db with none | ⟨_, last, split⟩
  · rw [none] at member ⊢
    simp only [flatMap_nil, not_mem_nil, or_false] at member
    rw [mem_range'_1] at member
    simp only [getLast?_nil]
    omega
  · have listedLast : last ∈ database.db := by
      rw [split]
      exact mem_append_right _ (mem_singleton_self _)
    have ascending := sorted.ascending last listedLast
    have apart := sorted.apart
    rw [split, pairwise_append] at apart
    rw [split, getLast?_concat]
    simp only
    rcases member with inStatic | inDb
    · rw [mem_range'_1] at inStatic
      have above := sorted.aboveStatic last listedLast _
        (database.mem_block_last last)
      omega
    · obtain ⟨address, listed, member⟩ := mem_flatMap.mp inDb
      rw [split, mem_append, mem_singleton] at listed
      rcases listed with earlier | rfl
      · exact le_of_lt (apart.2.2 address earlier last
          (mem_singleton_self _) handle member _
          (database.mem_block_last last))
      · exact GattService.le_last ascending member

theorem bounded
    (member : handle ∈ database.handles) : handle ∈ Finset.Ico 1 (2 ^ 16) := by
  have low := sorted.positive handle member
  rw [Finset.mem_Ico]
  refine ⟨low, ?_⟩
  rw [database.handles_eq, mem_append] at member
  rcases member with inStatic | inDb
  · rw [mem_range'_1] at inStatic
    have fits := database.static.fits
    unfold GattStatic.lastHandle at inStatic
    omega
  · obtain ⟨_, -, inBlock⟩ := mem_flatMap.mp inDb
    obtain ⟨attr, -, rfl⟩ := mem_map.mp inBlock
    exact attr.handle_lt

theorem length_le : database.attributes.length ≤ 2 ^ 16 - 1 := by
  have unique : database.handles.Nodup := sorted.handles.imp ne_of_lt
  have card := Finset.card_le_card (s := database.handles.toFinset)
    (t := Finset.Ico 1 (2 ^ 16)) (by
      intro handle member
      exact sorted.bounded (mem_toFinset.mp member))
  rw [toFinset_card_of_nodup unique, Nat.card_Ico] at card
  unfold GattDb.handles at card
  rwa [length_map] at card

end

end GattDb.Sorted

theorem GattDb.Sorted.foreachAttr {Carried : Type} [DecidableEq Data]
    {database : GattDb Data} (sorted : database.Sorted)
    (func : GattAttrFunc Data Carried) (carried : Carried) :
    btGattForeachAttr database 0x0001 0xffff func carried =
      foldAttrs func database.attributes carried := by
  unfold btGattForeachAttr
  rw [btGattForeachAttrType_eq sorted.handles (show 0x0001 ≤ 0xffff by decide)]
  apply foreachAttrs_fold
  · intro handle member
    have range := Finset.mem_Ico.mp (sorted.bounded member)
    constructor <;> omega
  · exact sorted.length_le

theorem populate_ascends {taken : List (GattAttr Data) → Nat → Bool}
    {visited : List (GattAttr Data)} {counter : Nat}
    {attrs : List (GattAttr Data)}
    (ascends : Ascends counter (attrs.map GattAttr.handle)) :
    ∃ assigned, populate taken visited counter attrs = (visited ++ assigned, true) ∧
      (assigned.map GattAttr.handle).Pairwise (· < ·) ∧
      ∀ handle ∈ assigned.map GattAttr.handle, counter < handle := by
  induction attrs generalizing visited counter with
  | nil => exact ⟨[], by simp [populate], .nil, by simp⟩
  | cons attr rest ih =>
    rw [map_cons] at ascends
    unfold populate
    cases preset : attr.handle with
    | zero =>
      rw [preset] at ascends
      obtain ⟨room, later⟩ := ascends
      have exact_next : (counter + 1) % 2 ^ 16 = counter + 1 :=
        Nat.mod_eq_of_lt room
      obtain ⟨assigned, loop, sorted, above⟩ :=
        @ih (visited ++ [attr.setHandle (counter + 1)]) _ later
      refine ⟨attr.setHandle (counter + 1) :: assigned, ?_, ?_, ?_⟩
      · rw [if_pos rfl, exact_next, loop]
        simp
      · rw [map_cons, pairwise_cons]
        refine ⟨?_, sorted⟩
        intro handle member
        simp only [GattAttr.setHandle, exact_next]
        exact above handle member
      · intro handle member
        rw [map_cons, mem_cons] at member
        rcases member with rfl | member
        · simp only [GattAttr.setHandle, exact_next]
          omega
        · exact Nat.lt_of_succ_lt (above handle member)
    | succ number =>
      rw [preset] at ascends
      obtain ⟨higher, later⟩ := ascends
      obtain ⟨assigned, loop, sorted, above⟩ := @ih (visited ++ [attr]) _ later
      refine ⟨attr :: assigned, ?_, ?_, ?_⟩
      · rw [if_neg (Nat.succ_ne_zero number), if_pos higher, loop]
        simp
      · rw [map_cons, pairwise_cons, preset]
        exact ⟨above, sorted⟩
      · intro handle member
        rw [map_cons, mem_cons, preset] at member
        rcases member with rfl | member
        · exact higher
        · exact lt_trans higher (above handle member)

theorem populate_free {visited : List (GattAttr Data)} {counter : Nat}
    {attrs : List (GattAttr Data)} (preset : ∀ attr ∈ attrs, attr.handle ≠ 0)
    (free : ∀ attr ∈ attrs, ∀ held, taken held attr.handle = false) :
    populate taken visited counter attrs = (visited ++ attrs, true) := by
  induction attrs generalizing visited counter with
  | nil => simp [populate]
  | cons attr rest ih =>
    have later : ∀ visited counter, populate taken visited counter rest =
        (visited ++ rest, true) := by
      intro visited counter
      apply ih
      · exact fun attr member => preset attr (mem_cons_of_mem _ member)
      · exact fun attr member => free attr (mem_cons_of_mem _ member)
    unfold populate
    rw [if_neg (preset attr (by simp)), later, later, free attr (by simp)]
    simp

theorem populate_refused {visited : List (GattAttr Data)} {counter : Nat}
    {before after : List (GattAttr Data)} {conflict : GattAttr Data}
    (preset : ∀ attr ∈ before, attr.handle ≠ 0) (nonzero : conflict.handle ≠ 0)
    (below : conflict.handle ≤ counter)
    (busy : taken (visited ++ (before ++ conflict :: after))
      conflict.handle = true) :
    populate taken visited counter (before ++ conflict :: after) =
      (visited ++ (before ++ conflict :: after), false) := by
  induction before generalizing visited counter with
  | nil =>
    simp only [nil_append] at busy ⊢
    unfold populate
    rw [if_neg nonzero, if_neg (not_lt.mpr below), if_pos busy]
  | cons attr rest ih =>
    have shifted : visited ++ [attr] ++ (rest ++ conflict :: after) =
        visited ++ (attr :: rest ++ conflict :: after) := by
      simp
    have later : ∀ counter, conflict.handle ≤ counter →
        populate taken (visited ++ [attr]) counter
            (rest ++ conflict :: after) =
          (visited ++ (attr :: rest ++ conflict :: after), false) := by
      intro counter below
      rw [← shifted]
      apply ih _ below
      · rw [shifted]
        exact busy
      · exact fun attr member => preset attr (mem_cons_of_mem _ member)
    rw [cons_append]
    unfold populate
    rw [if_neg (preset attr (by simp))]
    split
    · rename_i higher
      exact later _ (le_of_lt (lt_of_le_of_lt below higher))
    split
    · rfl
    · exact later _ below

theorem GattDb.setAttrs_object_self (database : GattDb Data) (address : Nat)
    (service : GattService Data) :
    (database.setAttrs address service).object address = service :=
  update_self _ _ _

theorem GattDb.setAttrs_object_ne (database : GattDb Data) {other : Nat}
    (service : GattService Data) (different : other ≠ address) :
    (database.setAttrs address service).object other = database.object other :=
  update_of_ne different _ _

theorem GattDb.setAttrs_same (database : GattDb Data) (address : Nat) :
    database.setAttrs address (database.object address) = database := by
  unfold GattDb.setAttrs
  rw [update_eq_self]

theorem GattDb.setAttrs_block_ne (database : GattDb Data) {other : Nat}
    (service : GattService Data) (different : other ≠ address) :
    (database.setAttrs address service).block other = database.block other := by
  unfold GattDb.block
  rw [database.setAttrs_object_ne service different]

namespace GattDb.Sorted

variable {database : GattDb Data}

section

variable (sorted : database.Sorted)
include sorted

theorem setAttrs (fresh : address ∉ database.db) (service : GattService Data) :
    (database.setAttrs address service).Sorted := by
  have same : ∀ other ∈ database.db,
      (database.setAttrs address service).block other = database.block other := by
    intro other listed
    apply database.setAttrs_block_ne
    exact fun equal => fresh (equal ▸ listed)
  constructor
  · intro other listed
    rw [same other listed]
    exact sorted.aboveStatic other listed
  · intro other listed
    rw [same other listed]
    exact sorted.ascending other listed
  · apply sorted.apart.imp_of_mem
    intro left right leftListed rightListed apart
    rw [same left leftListed, same right rightListed]
    exact apart

theorem erase (address : Nat) :
    GattDb.Sorted { database with db := database.db.erase address } := by
  have sublist : (database.db.erase address).Sublist database.db := erase_sublist
  constructor
  · exact fun other listed => sorted.aboveStatic other (sublist.subset listed)
  · exact fun other listed => sorted.ascending other (sublist.subset listed)
  · exact sorted.apart.sublist sublist

theorem place {below above : List Nat} (split : database.db = below ++ above)
    (ascending : (database.block address).Pairwise (· < ·))
    (aboveStatic : ∀ handle ∈ database.block address,
      database.static.lastHandle < handle)
    (isBelow : ∀ other ∈ below, ∀ taken ∈ database.block other,
      ∀ handle ∈ database.block address, taken < handle)
    (isAbove : ∀ other ∈ above, ∀ handle ∈ database.block address,
      ∀ taken ∈ database.block other, handle < taken) :
    GattDb.Sorted { database with db := below ++ address :: above } := by
  have apart := sorted.apart
  have static := sorted.aboveStatic
  have each := sorted.ascending
  rw [split] at apart static each
  have member : ∀ other ∈ below ++ address :: above,
      other = address ∨ other ∈ below ++ above := by
    intro other listed
    rw [mem_append, mem_cons] at listed
    rw [mem_append]
    tauto
  constructor
  · intro other listed
    rcases member other listed with rfl | old
    · exact aboveStatic
    · exact static other old
  · intro other listed
    rcases member other listed with rfl | old
    · exact ascending
    · exact each other old
  · obtain ⟨belowApart, aboveApart, across⟩ := pairwise_append.mp apart
    rw [pairwise_append, pairwise_cons]
    refine ⟨belowApart, ⟨isAbove, aboveApart⟩, ?_⟩
    intro left leftBelow right rightAbove
    rcases mem_cons.mp rightAbove with rfl | old
    · exact isBelow left leftBelow
    · exact across left leftBelow right old

end

end GattDb.Sorted

theorem insertBefore_split {first : Nat → Nat} {address : Nat}
    {services : List Nat}
    (found : ∃ other ∈ services, first address < first other) :
    ∃ below next above, services = below ++ next :: above ∧
      insertBefore first address services = below ++ address :: next :: above ∧
      (∀ other ∈ below, first other ≤ first address) ∧
      first address < first next := by
  induction services with
  | nil => simp at found
  | cons head rest ih =>
    unfold insertBefore
    split
    · rename_i here
      exact ⟨[], head, rest, rfl, rfl, by simp, here⟩
    rename_i notHere
    have later : ∃ other ∈ rest, first address < first other := by
      obtain ⟨other, listed, higher⟩ := found
      rcases mem_cons.mp listed with rfl | inRest
      · exact absurd higher notHere
      · exact ⟨other, inRest, higher⟩
    obtain ⟨below, next, above, split, inserted, low, high⟩ := ih later
    refine ⟨head :: below, next, above, ?_, ?_, ?_, high⟩
    · rw [split, cons_append]
    · rw [inserted, cons_append]
    · intro other listed
      rcases mem_cons.mp listed with rfl | inBelow
      · exact Nat.le_of_not_lt notHere
      · exact low other inBelow

namespace GattDb.Sorted

variable {database : GattDb Data}

theorem lastHandle_cases (sorted : database.Sorted) :
    (database.db = [] ∧ database.lastHandle = 0) ∨ (∃ last ∈ database.db,
        database.lastHandle = (database.object last).last ∧
          database.counter = database.lastHandle ∧ 0 < database.lastHandle) := by
  unfold GattDb.lastHandle GattDb.counter
  rcases eq_nil_or_concat' database.db with none | ⟨_, last, split⟩
  · exact .inl ⟨none, by rw [none]; rfl⟩
  have listed : last ∈ database.db := by
    rw [split]
    exact mem_append_right _ (mem_singleton_self _)
  have above := sorted.aboveStatic last listed _ (database.mem_block_last last)
  refine .inr ⟨last, listed, ?_⟩
  rw [split, getLast?_concat]
  exact ⟨rfl, rfl, Nat.lt_of_le_of_lt (Nat.zero_le _) above⟩

section

variable (sorted : database.Sorted)
include sorted

theorem static_le_counter : database.static.lastHandle ≤ database.counter := by
  unfold GattDb.counter
  rcases eq_nil_or_concat' database.db with none | ⟨_, last, split⟩
  · rw [none]
    rfl
  have listed : last ∈ database.db := by
    rw [split]
    exact mem_append_right _ (mem_singleton_self _)
  rw [split, getLast?_concat]
  exact le_of_lt (sorted.aboveStatic last listed _ (database.mem_block_last last))

variable [DecidableEq Data]

theorem taken_iff (fresh : address ∉ database.db)
    {held : List (GattAttr Data)} (nonempty : held ≠ []) (handle : Nat) :
    database.taken address held handle = true ↔ handle ∈ database.handles := by
  have kept := sorted.setAttrs fresh ⟨held, nonempty⟩
  unfold GattDb.taken
  rw [dif_pos nonempty, findAttr_isSome kept.handles]
  rw [GattDb.handles_eq, GattDb.handles_eq]
  have same : (database.setAttrs address ⟨held, nonempty⟩).db.flatMap
      (database.setAttrs address ⟨held, nonempty⟩).block =
        database.db.flatMap database.block := by
    apply flatMap_congr
    intro other listed
    apply database.setAttrs_block_ne
    exact fun equal => fresh (equal ▸ listed)
  rw [same]
  rfl

theorem taken_same (address handle : Nat) :
    database.taken address (database.object address).attrs handle = true ↔
      handle ∈ database.handles := by
  unfold GattDb.taken
  rw [dif_pos (database.object address).nonempty]
  have same : database.setAttrs address ⟨(database.object address).attrs,
      (database.object address).nonempty⟩ = database :=
    database.setAttrs_same address
  rw [same, findAttr_isSome sorted.handles]

theorem register_ascends
    (ascends : Ascends database.counter (database.block address)) :
    address ∉ database.db ∧ ∃ service, gattRegister database address =
        ({ database.setAttrs address service with
            db := database.db ++ [address] }, .ok ()) ∧
      GattDb.Sorted { database.setAttrs address service with
        db := database.db ++ [address] } := by
  have fresh : address ∉ database.db := by
    intro listed
    have member := database.mem_block_first address
    have low := sorted.le_counter (mem_handles listed member)
    have high := sorted.positive _ (mem_handles listed member)
    obtain ⟨attr, _, split⟩ := exists_cons_of_ne_nil
      (database.object address).nonempty
    have isFirst : (database.object address).first = attr.handle := by
      unfold GattService.first
      simp only [split, head_cons]
    unfold GattDb.block at ascends
    rw [split, map_cons] at ascends
    rw [isFirst] at low high
    cases number : attr.handle with
    | zero => omega
    | succ =>
      rw [number] at ascends low
      exact absurd ascends.1 (not_lt.mpr low)
  obtain ⟨assigned, loop, ascending, above⟩ :=
    @populate_ascends Data (database.taken address) [] _ _ ascends
  have populated : database.populated address = (assigned, true) := by
    unfold GattDb.populated
    rw [loop, nil_append]
  have nonempty : assigned ≠ [] := by
    have := database.populated_nonempty address
    rwa [populated] at this
  have self : (database.setAttrs address ⟨assigned, nonempty⟩).object address =
      ⟨assigned, nonempty⟩ := database.setAttrs_object_self address _
  have ownBlock : (database.setAttrs address ⟨assigned, nonempty⟩).block
      address = assigned.map GattAttr.handle := by
    unfold GattDb.block
    rw [self]
  refine ⟨fresh, ⟨assigned, nonempty⟩, ?_, ?_⟩
  · have first : database.lastHandle = 0 ∨ database.lastHandle <
        ((database.setAttrs address ⟨assigned, nonempty⟩).object address).first := by
      rcases sorted.lastHandle_cases with ⟨-, none⟩ | ⟨_, -, -, counter, -⟩
      · exact .inl none
      refine .inr ?_
      rw [self, ← counter]
      exact above _ (GattService.first_mem ⟨assigned, nonempty⟩)
    unfold gattRegister gattInsert
    simp only [populated]
    rw [if_pos trivial, if_pos first]
    rfl
  · have kept := sorted.setAttrs fresh ⟨assigned, nonempty⟩
    apply kept.place (append_nil _).symm
    · rw [ownBlock]
      exact ascending
    · rw [ownBlock]
      intro handle member
      exact lt_of_le_of_lt sorted.static_le_counter (above handle member)
    · rw [ownBlock]
      intro other inDb taken member handle mine
      have listed : other ∈ database.db := inDb
      have different : other ≠ address := fun equal => fresh (equal ▸ listed)
      rw [database.setAttrs_block_ne _ different] at member
      have low := sorted.le_counter (mem_handles listed member)
      exact lt_of_le_of_lt low (above handle mine)
    · simp

theorem register_between (between : database.Between (database.block address)) :
    address ∉ database.db ∧ ∃ listed,
      gattRegister database address = ({ database with db := listed }, .ok ()) ∧
      address ∈ listed ∧ (∀ other ∈ database.db, other ∈ listed) ∧
      GattDb.Sorted { database with db := listed } := by
  have fresh : address ∉ database.db := by
    intro listed
    have member := database.mem_block_first address
    rcases between.apart address listed with below | above
    · exact lt_irrefl _ (below _ member _ member)
    · exact lt_irrefl _ (above _ member _ member)
  have free : ∀ attr ∈ (database.object address).attrs,
      attr.handle ∉ database.handles := by
    intro attr member inUse
    have mine : attr.handle ∈ database.block address := mem_map_of_mem member
    rw [database.handles_eq, mem_append] at inUse
    rcases inUse with inStatic | inDb
    · rw [mem_range'_1] at inStatic
      have higher := between.aboveStatic _ mine
      omega
    · obtain ⟨other, listed, theirs⟩ := mem_flatMap.mp inDb
      rcases between.apart other listed with below | above
      · exact lt_irrefl _ (below _ theirs _ mine)
      · exact lt_irrefl _ (above _ theirs _ mine)
  have populated : database.populated address =
      ((database.object address).attrs, true) := by
    unfold GattDb.populated
    rw [populate_free, nil_append]
    · intro attr member
      have higher := between.aboveStatic _ (mem_map_of_mem member)
      omega
    · intro attr member held
      by_cases nonempty : held ≠ []
      · rw [Bool.eq_false_iff, Ne, sorted.taken_iff fresh nonempty]
        exact free attr member
      · unfold GattDb.taken
        rw [dif_neg nonempty]
  have registered : gattRegister database address =
      (gattInsert database address database.lastHandle, .ok ()) := by
    unfold gattRegister
    simp only [populated]
    rw [if_pos trivial, database.setAttrs_same]
  rw [registered]
  refine ⟨fresh, ?_⟩
  unfold gattInsert
  by_cases atEnd : database.lastHandle = 0 ∨
      database.lastHandle < (database.object address).first
  · refine ⟨database.db ++ [address], ?_, by simp,
      fun other listed => mem_append_left _ listed, ?_⟩
    · simp only [if_pos atEnd]
    · apply sorted.place (append_nil _).symm between.ascending between.aboveStatic
      · intro other listed
        rcases between.apart other listed with below | above
        · exact below
        exfalso
        rcases sorted.lastHandle_cases with ⟨none, -⟩ |
          ⟨last, -, -, counter, positive⟩
        · rw [none] at listed
          simp at listed
        have member := database.mem_block_first other
        have low := sorted.le_counter (mem_handles listed member)
        have high := above _ member _ (database.mem_block_first address)
        omega
      · simp
  · have found : ∃ other ∈ database.db,
        (database.object address).first < (database.object other).first := by
      rcases sorted.lastHandle_cases with ⟨-, none⟩ | ⟨last, listed, isLast, -⟩
      · exact absurd (.inl none) atEnd
      refine ⟨last, listed, ?_⟩
      rcases between.apart last listed with below | above
      · have low := below _ (database.mem_block_last last) _
          (database.mem_block_first address)
        rw [← isLast] at low
        exact absurd (.inr low) atEnd
      · exact above _ (database.mem_block_first last) _
          (database.mem_block_first address)
    obtain ⟨below, next, above, split, inserted, low, high⟩ :=
      @insertBefore_split (fun address => (database.object address).first)
        address database.db found
    have isBelow : ∀ other ∈ below, ∀ taken ∈ database.block other,
        ∀ handle ∈ database.block address, taken < handle := by
      intro other inBelow
      have listed : other ∈ database.db := by
        rw [split]
        exact mem_append_left _ inBelow
      rcases between.apart other listed with isBelow | isAbove
      · exact isBelow
      have := isAbove _ (database.mem_block_first other) _
        (database.mem_block_first address)
      exact absurd (low other inBelow) (not_le.mpr this)
    have nextListed : next ∈ database.db := by
      rw [split]
      simp
    have nextAbove : ∀ handle ∈ database.block address,
        ∀ taken ∈ database.block next, handle < taken := by
      rcases between.apart next nextListed with isBelow | isAbove
      · have := isBelow _ (database.mem_block_first next) _
          (database.mem_block_first address)
        exact absurd high (lt_asymm this)
      · exact fun handle mine taken theirs => isAbove taken theirs handle mine
    have apart := sorted.apart
    rw [split, pairwise_append, pairwise_cons] at apart
    have isAbove : ∀ other ∈ next :: above, ∀ handle ∈ database.block address,
        ∀ taken ∈ database.block other, handle < taken := by
      intro other inAbove handle mine taken theirs
      rcases mem_cons.mp inAbove with rfl | later
      · exact nextAbove handle mine taken theirs
      exact lt_trans
        (nextAbove handle mine _ (database.mem_block_first next))
        (apart.2.1.1 other later _ (database.mem_block_first next) taken theirs)
    refine ⟨below ++ address :: next :: above, ?_, by simp, ?_,
      sorted.place split between.ascending between.aboveStatic isBelow isAbove⟩
    · simp only [if_neg atEnd, inserted]
    · intro other listed
      rw [split, mem_append] at listed
      rw [mem_append, mem_cons]
      tauto

theorem register_refuses (refuses : database.Refuses (database.block address)) :
    gattRegister database address = (database, .error .einval) := by
  obtain ⟨_, _, _, split, preset, inUse⟩ := refuses
  obtain ⟨_, _, attrs, frontHandles, backHandles⟩ := map_eq_append_iff.mp split
  obtain ⟨attr, _, backSplit, rfl, -⟩ := map_eq_cons_iff.mp backHandles
  have populated : database.populated address =
      ((database.object address).attrs, false) := by
    unfold GattDb.populated
    have busy := (sorted.taken_same address attr.handle).mpr inUse
    rw [attrs, backSplit] at busy ⊢
    apply populate_refused _ (ne_of_gt (sorted.positive _ inUse))
      (sorted.le_counter inUse) busy
    intro earlier member
    apply preset
    rw [← frontHandles]
    exact mem_map_of_mem member
  unfold gattRegister
  simp only [populated]
  rw [if_neg Bool.false_ne_true, database.setAttrs_same]

end

end GattDb.Sorted

theorem find_of_ascending {entries : List (GattAttr Data × Nat)}
    (ascending : (entries.map snd).Pairwise (· < ·))
    {entry : GattAttr Data × Nat} (member : entry ∈ entries) :
    entries.find? (fun other => other.2 = entry.2) = some entry := by
  induction entries with
  | nil => simp at member
  | cons head rest ih =>
    obtain ⟨above, sorted⟩ := pairwise_cons.mp ascending
    rcases mem_cons.mp member with rfl | later
    · exact find?_cons_of_pos (by simp)
    have higher := above entry.2 (mem_map_of_mem later)
    rw [find?_cons_of_neg (by simpa using ne_of_lt higher)]
    exact ih sorted later

theorem filter_between {before own after : List (GattAttr Data × Nat)}
    {first last : Nat}
    (ascending : ((before ++ own ++ after).map snd).Pairwise (· < ·))
    (firstOwn : first ∈ own.map snd) (lastOwn : last ∈ own.map snd)
    (within : ∀ handle ∈ own.map snd, first ≤ handle ∧ handle ≤ last) :
    (before ++ own ++ after).filter (fun entry =>
      first ≤ entry.2 ∧ entry.2 ≤ last) = own := by
  rw [map_append, map_append, pairwise_append, pairwise_append] at ascending
  obtain ⟨⟨-, -, lower⟩, -, upper⟩ := ascending
  have noneBefore : before.filter (fun entry =>
      first ≤ entry.2 ∧ entry.2 ≤ last) = [] := by
    rw [filter_eq_nil_iff]
    intro entry member
    have := lower entry.2 (mem_map_of_mem member) first firstOwn
    simp only [decide_eq_true_eq]
    omega
  have allOwn : own.filter (fun entry =>
      first ≤ entry.2 ∧ entry.2 ≤ last) = own := by
    rw [filter_eq_self]
    intro entry member
    simpa using within entry.2 (mem_map_of_mem member)
  have noneAfter : after.filter (fun entry =>
      first ≤ entry.2 ∧ entry.2 ≤ last) = [] := by
    rw [filter_eq_nil_iff]
    intro entry member
    have := upper last (mem_append_right _ lastOwn) entry.2 (mem_map_of_mem member)
    simp only [decide_eq_true_eq]
    omega
  rw [filter_append, filter_append, noneBefore, allOwn, noneAfter,
    nil_append, append_nil]

variable [DecidableEq Data]

namespace GattDb.Sorted

variable {database : GattDb Data}

theorem found (sorted : database.Sorted) (listed : address ∈ database.db) :
    btGattForeachAttr database (database.object address).first
      (database.object address).last collectAttr [] =
        (database.object address).attrs := by
  obtain ⟨below, above, split⟩ := append_of_mem listed
  have attributes : database.attributes =
      (numbered 1 database.static.services.flatten ++
        below.flatMap fun other => ownHandles (database.object other).attrs) ++
      ownHandles (database.object address).attrs ++
      above.flatMap fun other => ownHandles (database.object other).attrs := by
    unfold GattDb.attributes
    rw [split]
    simp
  have ascending := sorted.ascending address listed
  have handles := sorted.handles
  unfold GattDb.handles at handles
  have within : ∀ handle ∈ (ownHandles
      (database.object address).attrs).map snd,
      (database.object address).first ≤ handle ∧
        handle ≤ (database.object address).last := by
    intro handle member
    rw [ownHandles_handles] at member
    exact ⟨GattService.first_le ascending member,
      GattService.le_last ascending member⟩
  have order := (GattService.first_le ascending (database.mem_block_last address))
  unfold btGattForeachAttr
  rw [btGattForeachAttrType_eq sorted.handles order]
  rw [if_pos rfl, foreachAttrs_collectAttr handles sorted.length_le, nil_append]
  rw [attributes] at handles ⊢
  rw [filter_between handles _ _ within, ownHandles_attrs]
  · rw [ownHandles_handles]
    exact GattService.first_mem _
  · rw [ownHandles_handles]
    exact GattService.last_mem _

theorem foundEach (sorted : database.Sorted) (listed : address ∈ database.db)
    {attr : GattAttr Data} (member : attr ∈ (database.object address).attrs) :
    findAttr database attr.handle = some attr := by
  have inAttributes : (attr, attr.handle) ∈ database.attributes := by
    unfold GattDb.attributes
    rw [mem_append, mem_flatMap]
    refine .inr ⟨address, listed, ?_⟩
    exact mem_map_of_mem (f := fun attr => (attr, attr.handle)) member
  rw [findAttr_eq sorted.handles, find_of_ascending sorted.handles inAttributes]
  rfl

end GattDb.Sorted

structure GattHistory.Ordered (history : GattHistory Data) : Prop where
  sorted : history.database.Sorted
  listed : ∀ address ∈ history.accepted, address ∈ history.database.db

theorem GattHistory.Ordered.sound {history : GattHistory Data}
    (ordered : history.Ordered) : history.Sound where
  nonzero handle member :=
    ne_of_gt (ordered.sorted.positive handle member)
  unique := ordered.sorted.handles.imp ne_of_lt
  ascending := ordered.sorted.handles
  found address accepted :=
    ordered.sorted.found (ordered.listed address accepted)
  foundEach address accepted _ member :=
    ordered.sorted.foundEach (ordered.listed address accepted) member

theorem GattDb.Sorted.register {database : GattDb Data} (sorted : database.Sorted)
    (fits : database.Fits address) :
    (∃ error, btGattServiceRegister database address = (database, .error error)) ∨
      ∃ registered, btGattServiceRegister database address =
          (registered, .ok ()) ∧ registered.Sorted ∧ address ∈ registered.db ∧
        ∀ other ∈ database.db, other ∈ registered.db := by
  unfold btGattServiceRegister
  by_cases refused : mandatory (database.object address) = true
  · rw [if_pos refused]
    exact .inl ⟨_, rfl⟩
  rw [if_neg refused]
  rcases fits with mandatory | ascends | between | refuses
  · exact absurd mandatory refused
  · obtain ⟨-, _, registered, kept⟩ := sorted.register_ascends ascends
    refine .inr ⟨_, registered, kept, by simp, ?_⟩
    exact fun other listed => mem_append_left _ listed
  · obtain ⟨-, listed, registered, mine, others, kept⟩ :=
      sorted.register_between between
    exact .inr ⟨_, registered, kept, mine, others⟩
  · exact .inl ⟨_, sorted.register_refuses refuses⟩

theorem GattHistory.Ordered.step {history : GattHistory Data}
    (ordered : history.Ordered) {call : GattCall Data}
    (fits : history.Fits call) :
    history.Clean call ∧ ((gattMachine Data).next history call).Ordered := by
  cases call with
  | layOut address service =>
    refine ⟨trivial, ?_⟩
    unfold Machine.next gattMachine gattStep
    simp only
    split
    · exact ordered
    · rename_i fresh
      exact ⟨ordered.sorted.setAttrs fresh service, ordered.listed⟩
  | register address =>
    rcases ordered.sorted.register fits with ⟨error, refused⟩ |
      ⟨registered, accepted, sorted, mine, others⟩
    · refine ⟨fun _ _ => congrArg fst refused, ?_⟩
      unfold Machine.next gattMachine gattStep
      simp only [refused]
      exact ordered
    · constructor
      · intro error failed
        rw [accepted] at failed
        exact nomatch failed
      · unfold Machine.next gattMachine gattStep
        simp only [accepted]
        refine ⟨sorted, ?_⟩
        intro other member
        rcases mem_cons.mp member with rfl | old
        · exact mine
        · exact others other (ordered.listed other old)
  | unregister address =>
    refine ⟨trivial, ?_⟩
    unfold Machine.next gattMachine gattStep btGattServiceUnregister
    simp only
    split
    · refine ⟨ordered.sorted.erase address, ?_⟩
      intro other member
      simp only [mem_filter, decide_eq_true_eq] at member
      exact (mem_erase_of_ne member.2).mpr (ordered.listed other member.1)
    · refine ⟨ordered.sorted, ?_⟩
      intro other member
      exact ordered.listed other (mem_filter.mp member).1

omit [DecidableEq Data] in
theorem GattHistory.start_ordered (static : GattStatic Data)
    (object : Nat → GattService Data) :
    (GattHistory.start static object).Ordered where
  sorted := ⟨by simp [GattHistory.start], by simp [GattHistory.start], .nil⟩
  listed := by simp [GattHistory.start]

/-- Along histories whose registrations fit, the database is in handle order
and complete, and failed registrations change nothing. -/
theorem gatt_database_sorted (static : GattStatic Data)
    (object : Nat → GattService Data) (calls : List (GattCall Data))
    (fit : (gattMachine Data).Along GattHistory.Fits
      (GattHistory.start static object) calls) :
    (gattMachine Data).Always GattHistory.Sound
        (GattHistory.start static object) calls ∧
      (gattMachine Data).Along GattHistory.Clean
        (GattHistory.start static object) calls := by
  have ordered := GattHistory.start_ordered static object
  constructor
  · exact Machine.Always.mono (fun _ ordered => ordered.sound)
      (Machine.always_of_along
        (fun _ _ ordered fits => (ordered.step fits).2) ordered fit)
  · exact Machine.along_of_along
      (fun _ _ ordered fits => ordered.step fits) ordered fit

end Sorted

def sampleAttr (handle : Nat) : GattAttr Nat :=
  { uuid := .uuid16 0x2800#16
    userData := 0
    handle := handle % 2 ^ 16
    handle_lt := handle_mod_lt handle }

def sampleService (first : Nat) (rest : List Nat) : GattService Nat where
  attrs := sampleAttr first :: rest.map sampleAttr
  nonempty := cons_ne_nil _ _

def sampleStatic : GattStatic Nat where
  services := [[sampleAttr 0, sampleAttr 0], [sampleAttr 0]]
  fits := by decide

theorem gatt_database_sorted_kept : let calls : List (GattCall Nat) :=
      [.layOut 1 (sampleService 0 [0]), .register 1,
        .layOut 2 (sampleService 0x20 [0, 0x24]), .register 2,
        .unregister 1, .register 1, .register 1]
    (gattMachine Nat).Always GattHistory.Sound
        (.start sampleStatic fun _ => sampleService 0 []) calls ∧
      (gattMachine Nat).Along GattHistory.Clean
        (.start sampleStatic fun _ => sampleService 0 []) calls := by
  apply gatt_database_sorted
  refine ⟨trivial, .inr (.inl (by decide)), trivial,
    .inr (.inl (by decide)), trivial,
    .inr (.inr (.inl ⟨by decide, by decide, by decide⟩)),
    .inr (.inr (.inr ⟨[], 4, [5], by decide, by decide, by decide⟩)), trivial⟩

theorem gatt_database_wraps :
    ¬ ∀ (static : GattStatic Nat) (object : Nat → GattService Nat)
      (calls : List (GattCall Nat)), (gattMachine Nat).Always GattHistory.Sound
          (.start static object) calls ∧
        (gattMachine Nat).Along GattHistory.Clean (.start static object) calls := by
  intro claimed
  have sound := (claimed sampleStatic (fun _ => sampleService 0 [])
    [.layOut 1 (sampleService 0xffff []), .register 1, .register 2]).1.last
  exact sound.nonzero 0 (by decide) rfl

end ZephyrBluetooth.Host
