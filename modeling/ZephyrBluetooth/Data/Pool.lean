import ZephyrBluetooth.Data.Slots

namespace ZephyrBluetooth.Data

open List Option

/-! The blocks of a pool, that are free or held in the slots of contexts. -/

universe u v w

variable {Content : Type u} {Block : Type v} {Context : Type w}

def slotBlocks (block : Content → Block) (slots : List (Option Content)) :
    List Block :=
  slots.filterMap (Option.map block)

variable {block : Content → Block} {slots : List (Option Content)}

theorem slotBlocks_append (front back : List (Option Content)) :
    slotBlocks block (front ++ back) =
      slotBlocks block front ++ slotBlocks block back :=
  filterMap_append

theorem slotBlocks_empty (empty : ∀ slot ∈ slots, slot = none) :
    slotBlocks block slots = [] := by
  apply filterMap_eq_nil_iff.mpr
  intro slot member
  rw [empty slot member]
  rfl

theorem slotBlocks_length (slots : List (Option Content)) :
    (slotBlocks block slots).length = slots.countP isSome := by
  induction slots with
  | nil => rfl
  | cons slot rest ih =>
    cases slot with
    | none => exact ih
    | some =>
      rw [countP_cons_of_pos (by rfl), ← ih]
      rfl

theorem slotBlocks_fill :
    ∀ {slots : List (Option Content)} {index : Nat},
      slots[index]? = some none → ∀ content : Content,
      (slotBlocks block (slots.set index (some content))).Perm
        (block content :: slotBlocks block slots)
  | slot :: rest, 0, found, content => by
      rw [getElem?_cons_zero, some.injEq] at found
      subst found
      exact .refl _
  | none :: rest, index + 1, found, content => by
      rw [getElem?_cons_succ] at found
      exact slotBlocks_fill found content
  | some first :: rest, index + 1, found, content => by
      rw [getElem?_cons_succ] at found
      exact ((slotBlocks_fill found content).cons (block first)).trans (.swap _ _ _)

variable {index : Nat}

theorem slotBlocks_clear {content : Content}
    (found : slots[index]? = some (some content)) :
    (block content :: slotBlocks block (slots.set index none)).Perm
      (slotBlocks block slots) := by
  obtain ⟨bound, here⟩ := List.getElem?_eq_some_iff.mp found
  have cleared : (slots.set index none)[index]? = some none :=
    getElem?_set_self bound
  have filled := @slotBlocks_fill _ _ block _ _ cleared content
  rw [set_set, ← here, set_getElem_self] at filled
  exact filled.symm

def EmptyFrom (index : Nat) (slots : List (Option Content)) : Prop :=
  ∀ later, index ≤ later → (slots[later]?).join = none

theorem EmptyFrom.mono {low high : Nat} (empty : EmptyFrom low slots)
    (order : low ≤ high) : EmptyFrom high slots :=
  fun later above => empty later (Nat.le_trans order above)

theorem emptyFrom_zero : EmptyFrom 0 slots ↔ ∀ slot ∈ slots, slot = none := by
  constructor
  · intro empty slot member
    obtain ⟨index, found⟩ := getElem?_of_mem member
    have here := empty index (Nat.zero_le index)
    rw [found] at here
    exact here
  · intro empty index _
    cases found : slots[index]? with
    | none => rfl
    | some slot => exact empty slot (mem_of_getElem? found)

theorem EmptyFrom.set {index place : Nat} (empty : EmptyFrom index slots)
    (below : place < index) (slot : Option Content) :
    EmptyFrom index (slots.set place slot) := by
  intro later above
  rw [getElem?_set_ne (by omega)]
  exact empty later above

theorem EmptyFrom.clear (empty : EmptyFrom index slots)
    (place : Nat) : EmptyFrom index (slots.set place none) := by
  intro later above
  rw [getElem?_set]
  split
  · split <;> rfl
  · exact empty later above

theorem EmptyFrom.blocks (empty : EmptyFrom index slots) :
    slotBlocks block (slots.take index) = slotBlocks block slots := by
  have rest : slotBlocks block (slots.drop index) = [] := by
    apply slotBlocks_empty
    apply emptyFrom_zero.mp
    intro later _
    rw [getElem?_drop]
    exact empty _ (Nat.le_add_right index later)
  have parts := @slotBlocks_append _ _ block (slots.take index) (slots.drop index)
  rw [take_append_drop, rest, append_nil] at parts
  exact parts.symm

theorem emptyFrom_of_blocks (none_held : slotBlocks block slots = []) :
    EmptyFrom 0 slots := by
  apply emptyFrom_zero.mpr
  intro slot member
  have nothing := filterMap_eq_nil_iff.mp none_held slot member
  exact map_eq_none_iff.mp nothing

def pool (held : Context → List Block) (free : List Block)
    (contexts : List Context) : List Block :=
  free ++ contexts.flatMap held

variable {held : Context → List Block}

theorem pool_set {free left : List Block} :
    ∀ {contexts : List Context} {slot : Nat} {context : Context},
      contexts[slot]? = some context → ∀ updated : Context,
      (left ++ held updated).Perm (free ++ held context) →
      (pool held left (contexts.set slot updated)).Perm (pool held free contexts)
  | first :: rest, 0, context, found, updated, exchanged => by
      rw [getElem?_cons_zero, some.injEq] at found
      subst found
      rw [pool, pool, set_cons_zero, flatMap_cons, flatMap_cons,
        ← append_assoc, ← append_assoc]
      exact exchanged.append_right _
  | first :: rest, slot + 1, context, found, updated, exchanged => by
      rw [getElem?_cons_succ] at found
      have later := pool_set found updated exchanged
      have swap (blocks : List Block) (contexts : List Context) :
          (pool held blocks (first :: contexts)).Perm
            (held first ++ pool held blocks contexts) := by
        rw [pool, pool, flatMap_cons, ← append_assoc, ← append_assoc]
        exact perm_append_comm.append_right _
      exact (swap left (rest.set slot updated)).trans
        ((later.append_left _).trans (swap free rest).symm)

theorem pool_same {before after : List Context} (free : List Block)
    (same : List.Forall₂ (fun old new => held new = held old) before after) :
    pool held free after = pool held free before := by
  unfold pool
  congr 1
  induction same with
  | nil => rfl
  | cons here _ ih => rw [flatMap_cons, flatMap_cons, here, ih]

def SoundBut (sound : Context → Prop) (slot : Nat)
    (contexts : List Context) : Prop :=
  ∀ (other : Nat) (context : Context), other ≠ slot →
    contexts[other]? = some context → sound context

structure PoolKept (sound : Context → Prop) (held : Context → List Block)
    (free : List Block) (before : List Context) (left : List Block)
    (after : List Context) : Prop where
  sound : ∀ context ∈ after, sound context
  blocks : (pool held left after).Perm (pool held free before)

section Steps

variable {sound : Context → Prop} {free between left : List Block}
variable {before middle after : List Context} {slot : Nat}
variable {context updated : Context}

theorem soundBut (every : ∀ context ∈ before, sound context) (slot : Nat) :
    SoundBut sound slot before :=
  fun _ context _ found => every context (mem_of_getElem? found)

theorem SoundBut.ignore (but : SoundBut sound slot before)
    (updated : Context) : SoundBut sound slot (before.set slot updated) := by
  intro other context apart found
  rw [getElem?_set_ne (Ne.symm apart)] at found
  exact but other context apart found

theorem SoundBut.set (but : SoundBut sound slot before)
    (here : sound updated) : ∀ context ∈ before.set slot updated, sound context := by
  intro context member
  obtain ⟨other, there⟩ := getElem?_of_mem member
  rcases getElem?_set_cases there with ⟨_, rfl⟩ | ⟨apart, stored⟩
  · exact here
  · exact but other context apart stored

theorem PoolKept.refl (every : ∀ context ∈ before, sound context) :
    PoolKept sound held free before free before :=
  ⟨every, .refl _⟩

section

variable (later : PoolKept sound held between middle left after)
include later

theorem PoolKept.behind
    (blocks : (pool held between middle).Perm (pool held free before)) :
    PoolKept sound held free before left after :=
  ⟨later.sound, later.blocks.trans blocks⟩

theorem PoolKept.trans
    (earlier : PoolKept sound held free before between middle) :
    PoolKept sound held free before left after :=
  later.behind earlier.blocks

end

theorem PoolKept.put (but : SoundBut sound slot before)
    (found : before[slot]? = some context) (here : sound updated)
    (blocks : (left ++ held updated).Perm (free ++ held context)) :
    PoolKept sound held free before left (before.set slot updated) :=
  ⟨but.set here, pool_set found updated blocks⟩

theorem PoolKept.set (every : ∀ context ∈ before, sound context)
    (found : before[slot]? = some context) (here : sound updated)
    (blocks : (left ++ held updated).Perm (free ++ held context)) :
    PoolKept sound held free before left (before.set slot updated) :=
  .put (soundBut every slot) found here blocks

end Steps

end ZephyrBluetooth.Data
