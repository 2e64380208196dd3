import Mathlib.Tactic.Common

namespace ZephyrBluetooth.Data

open List Option

universe u

variable {Item : Type u} {items : List Item}

def changeFirst (test : Item → Bool) (change : Item → Item) :
    List Item → Option (List Item)
  | [] => none
  | item :: rest =>
    if test item then some (change item :: rest)
    else (changeFirst test change rest).map (item :: ·)

section ChangeFirst

variable {test : Item → Bool} {change : Item → Item}

theorem changeFirst_isSome (test : Item → Bool) (change : Item → Item)
    (items : List Item) :
    (changeFirst test change items).isSome = items.any test := by
  induction items with
  | nil => rfl
  | cons item rest ih =>
    unfold changeFirst
    cases found : test item with
    | true => simp [found]
    | false => simp [found, ih]

theorem changeFirst_split {changed : List Item}
    (found : changeFirst test change items = some changed) :
    ∃ front item back, items = front ++ item :: back ∧ test item = true ∧
      (∀ other ∈ front, test other = false) ∧
      changed = front ++ change item :: back := by
  induction items generalizing changed with
  | nil => cases found
  | cons item rest ih =>
    unfold changeFirst at found
    cases tested : test item with
    | true =>
      rw [tested, if_pos rfl] at found
      cases found
      exact ⟨[], item, rest, rfl, tested, by simp, rfl⟩
    | false =>
      rw [tested, if_neg (by simp), map_eq_some_iff] at found
      obtain ⟨_, found, rfl⟩ := found
      obtain ⟨front, here, back, rfl, tests, before, rfl⟩ := ih found
      refine ⟨item :: front, here, back, rfl, tests, ?_, rfl⟩
      intro other member
      rcases mem_cons.mp member with rfl | member
      · exact tested
      · exact before other member

variable {item : Item}

theorem changeFirst_found {front back : List Item}
    (tests : test item = true) (before : ∀ other ∈ front, test other = false) :
    changeFirst test change (front ++ item :: back) =
      some (front ++ change item :: back) := by
  induction front with
  | nil => simp [changeFirst, tests]
  | cons first rest ih =>
    have later := ih fun other member =>
      before other (mem_cons_of_mem _ member)
    simp [changeFirst, before first mem_cons_self, later]

theorem find_split (found : items.find? test = some item) :
    ∃ front back, items = front ++ item :: back ∧ test item = true ∧
      ∀ other ∈ front, test other = false := by
  obtain ⟨tests, front, back, split, before⟩ := find?_eq_some_iff_append.mp found
  refine ⟨front, back, split, tests, ?_⟩
  intro other member
  simpa using before other member

theorem find_first {front back : List Item}
    (tests : test item = true) (before : ∀ other ∈ front, test other = false) :
    (front ++ item :: back).find? test = some item := by
  rw [find?_eq_some_iff_append]
  refine ⟨tests, front, back, rfl, ?_⟩
  intro other member
  rw [before other member]
  rfl

theorem find_change_same
    (keeps : ∀ item, test item = true → test (change item) = true)
    (items : List Item) :
    ((changeFirst test change items).getD items).find? test =
      (items.find? test).map change := by
  cases changed : changeFirst test change items with
  | none =>
    have never : items.any test = false := by
      rw [← changeFirst_isSome test change, changed]
      rfl
    have missing : items.find? test = none := by
      simpa [find?_eq_none] using never
    simp [missing]
  | some =>
    obtain ⟨_, item, _, rfl, tests, before, rfl⟩ := changeFirst_split changed
    rw [getD_some, find_first tests before, find_first (keeps item tests) before]
    rfl

theorem find_change_other {probe : Item → Bool}
    (misses : ∀ item, items.find? test = some item →
      probe item = false ∧ probe (change item) = false) :
    ((changeFirst test change items).getD items).find? probe =
      items.find? probe := by
  cases changed : changeFirst test change items with
  | none => rfl
  | some =>
    obtain ⟨_, item, _, rfl, tests, before, rfl⟩ := changeFirst_split changed
    obtain ⟨old, fresh⟩ := misses item (find_first tests before)
    simp [find?_append, old, fresh]

end ChangeFirst

section Entries

variable [DecidableEq Item] {free value other : Item}

theorem count_fill (items : List Item) (set : other ≠ free) :
    (items.map fun item => if item = free then value else item).count other =
      items.count other + if other = value then items.count free else 0 := by
  induction items with
  | nil => simp
  | cons first rest ih =>
    simp only [map_cons, count_cons, ih, beq_iff_eq]
    by_cases empty : first = free <;> by_cases same : other = value
    · simp [empty, same]
      have differs : free ≠ value := same ▸ set.symm
      simp [differs]
      omega
    · simp [empty, same, Ne.symm same, set.symm]
    · subst same
      simp [empty]
      omega
    · simp [empty, same]

theorem count_changeFirst {changed : List Item} (set : other ≠ free)
    (found : changeFirst (fun item => decide (item = value)) (fun _ => free)
      items = some changed) :
    changed.count other + (if other = value then 1 else 0) = items.count other := by
  obtain ⟨_, item, _, rfl, tested, -, rfl⟩ := changeFirst_split found
  have own : item = value := of_decide_eq_true tested
  subst own
  simp only [count_append, count_cons, beq_iff_eq, set.symm, if_false]
  by_cases same : other = item
  · simp [same]
    omega
  · simp [same, Ne.symm same]

theorem changeFirst_missing
    (none : changeFirst (fun item => decide (item = value)) (fun _ => free)
      items = none) : items.count value = 0 := by
  rw [count_eq_zero]
  intro member
  have any : items.any (fun item => decide (item = value)) = true :=
    any_eq_true.mpr ⟨_, member, decide_eq_true rfl⟩
  rw [← changeFirst_isSome _ (fun _ => free), none] at any
  cases any

end Entries

end ZephyrBluetooth.Data
