import Mathlib.Algebra.GroupWithZero.Nat
import Mathlib.Data.List.Forall2

namespace ZephyrBluetooth.Data

open Function List Option

/-! An array of contexts seen slot by slot: what a context stands for, if it
stands for anything.  Contexts that stand for keys are also seen by their key. -/

universe u v

variable {Context : Type u} {Value : Type v}

variable {value : Context → Option Value} {before after : List Context}

def slotView (value : Context → Option Value) (contexts : List Context) :
    Nat → Option Value :=
  fun slot => (contexts[slot]?).bind value

variable {contexts : List Context} {context : Context} {slot : Nat}

theorem slotView_found (found : contexts[slot]? = some context) :
    slotView value contexts slot = value context := by
  simp [slotView, found]

theorem slotView_eq_some {seen : Value} : slotView value contexts slot = some seen ↔
      ∃ context, contexts[slot]? = some context ∧ value context = some seen := by
  simp only [slotView, bind_eq_some_iff]

theorem slotView_set (value : Context → Option Value)
    (found : contexts[slot]? = some context)
    (updated : Context) : slotView value (contexts.set slot updated) =
      update (slotView value contexts) slot (value updated) := by
  funext other
  obtain ⟨bound, _⟩ := List.getElem?_eq_some_iff.mp found
  by_cases same : other = slot
  · subst same
    simp [slotView, bound]
  · simp [slotView, update_of_ne same, getElem?_set_ne (Ne.symm same)]

theorem slotView_set_same
    {context updated : Context} (found : contexts[slot]? = some context)
    (same : value updated = value context) :
    slotView value (contexts.set slot updated) = slotView value contexts := by
  have here : slotView value contexts slot = value context := slotView_found found
  rw [slotView_set value found, same, ← here, update_eq_self]

section

variable {related second both : Context → Context → Prop}

theorem forall₂_set (same : ∀ context, related context context) :
    ∀ {contexts : List Context} {slot : Nat} {context updated : Context},
      contexts[slot]? = some context → related context updated →
      List.Forall₂ related contexts (contexts.set slot updated)
  | first :: rest, 0, _, _, found, step => by
      rw [getElem?_cons_zero, some.injEq] at found
      subst found
      exact .cons step (forall₂_same.mpr fun context _ => same context)
  | first :: rest, slot + 1, _, _, found, step => by
      rw [getElem?_cons_succ] at found
      exact .cons (same first) (forall₂_set same found step)

theorem forall₂_trans
    (compose : ∀ first middle last, related first middle → second middle last →
      both first last) {before middle after : List Context}
    (one : List.Forall₂ related before middle)
    (two : List.Forall₂ second middle after) :
    List.Forall₂ both before after := by
  induction one generalizing after with
  | nil =>
    cases two
    exact .nil
  | cons step _ ih =>
    cases two with
    | cons later rest => exact .cons (compose _ _ _ step later) (ih rest)

theorem forall₂_found (steps : List.Forall₂ related before after)
    (found : after[slot]? = some context) :
    ∃ old, before[slot]? = some old ∧ related old context := by
  induction steps generalizing slot with
  | nil => simp at found
  | cons step _ ih =>
    cases slot with
    | zero =>
      rw [getElem?_cons_zero, some.injEq] at found
      subst found
      exact ⟨_, rfl, step⟩
    | succ =>
      rw [getElem?_cons_succ] at found ⊢
      exact ih found

theorem forall₂_mem (steps : List.Forall₂ related before after)
    (member : context ∈ after) : ∃ old ∈ before, related old context := by
  induction steps with
  | nil => cases member
  | cons step _ ih =>
    rcases mem_cons.mp member with rfl | later
    · exact ⟨_, mem_cons_self, step⟩
    · obtain ⟨old, among, found⟩ := ih later
      exact ⟨old, mem_cons_of_mem _ among, found⟩

end

theorem sum_map_set (amount : Context → Nat)
    (found : contexts[slot]? = some context) (updated : Context) :
    ((contexts.set slot updated).map amount).sum + amount context =
      (contexts.map amount).sum + amount updated := by
  induction contexts generalizing slot with
  | nil => simp at found
  | cons first rest ih =>
    cases slot with
    | zero =>
      rw [getElem?_cons_zero, some.injEq] at found
      subst found
      simp only [set_cons_zero, map_cons, sum_cons]
      omega
    | succ =>
      rw [getElem?_cons_succ] at found
      have tail := ih found
      simp only [set_cons_succ, map_cons, sum_cons]
      omega

theorem sum_map_le {amount bound : Context → Nat} :
    ∀ {contexts : List Context},
      (∀ context ∈ contexts, amount context ≤ bound context) →
      (contexts.map amount).sum ≤ (contexts.map bound).sum
  | [], _ => Nat.le_refl 0
  | first :: rest, below => by
      rw [map_cons, map_cons, sum_cons, sum_cons]
      exact Nat.add_le_add (below first mem_cons_self)
        (sum_map_le fun context member =>
          below context (mem_cons_of_mem first member))

section Keys

variable {Idx : Type v} [DecidableEq Idx]

def slotByKey (key : Context → Option Idx) (contexts : List Context)
    (idx : Idx) : Option Context :=
  contexts.find? fun context => key context = some idx

def KeysUnique (key : Context → Option Idx) (contexts : List Context) : Prop :=
  ∀ (slot other : Nat) (context twin : Context) (idx : Idx),
    contexts[slot]? = some context → contexts[other]? = some twin →
    key context = some idx → key twin = some idx → slot = other

variable {key : Context → Option Idx} {contexts : List Context} {slot : Nat}
variable {context updated : Context} {idx : Idx}

omit [DecidableEq Idx] in
theorem KeysUnique.of_pairwise
    (apart : contexts.Pairwise fun left right => key left = none ∨ key left ≠ key right) :
    KeysUnique key contexts := by
  have ordered : ∀ (slot other : Nat) (context twin : Context) (idx : Idx),
      contexts[slot]? = some context → contexts[other]? = some twin →
      key context = some idx → key twin = some idx → ¬ slot < other := by
    intro slot other context twin idx here there named same before
    obtain ⟨slotBound, rfl⟩ := List.getElem?_eq_some_iff.mp here
    obtain ⟨otherBound, rfl⟩ := List.getElem?_eq_some_iff.mp there
    rcases pairwise_iff_getElem.mp apart slot other slotBound otherBound before
      with free | differs
    · rw [free] at named
      cases named
    · exact differs (named.trans same.symm)
  intro slot other context twin idx here there named same
  have left := ordered slot other context twin idx here there named same
  have right := ordered other slot twin context idx there here same named
  omega

theorem slotByKey_found (unique : KeysUnique key contexts)
    (found : contexts[slot]? = some context) (named : key context = some idx) :
    slotByKey key contexts idx = some context := by
  cases search : slotByKey key contexts idx with
  | none =>
    have absent := find?_eq_none.mp search context (mem_of_getElem? found)
    simp [named] at absent
  | some twin =>
    have twinNamed : key twin = some idx := by
      simpa using find?_some search
    obtain ⟨other, there⟩ := mem_iff_getElem?.mp (mem_of_find?_eq_some search)
    obtain rfl := unique slot other context twin idx found there named twinNamed
    rw [found] at there
    exact there.symm

theorem slotByKey_eq_none : slotByKey key contexts idx = none ↔
      ∀ context ∈ contexts, key context ≠ some idx := by
  simp [slotByKey]

theorem slotByKey_set_other (found : contexts[slot]? = some context)
    (before : key context ≠ some idx) (after : key updated ≠ some idx) :
    slotByKey key (contexts.set slot updated) idx = slotByKey key contexts idx := by
  induction contexts generalizing slot with
  | nil => simp at found
  | cons first rest ih =>
    cases slot with
    | zero =>
      simp only [getElem?_cons_zero, some.injEq] at found
      subst found
      simp [slotByKey, before, after]
    | succ =>
      rw [getElem?_cons_succ] at found
      have tail := ih found
      simp only [slotByKey] at tail
      simp only [slotByKey, set_cons_succ, find?_cons, tail]

omit [DecidableEq Idx] in
theorem getElem?_set_cases {other : Nat} {twin : Context}
    (there : (contexts.set slot updated)[other]? = some twin) :
    (other = slot ∧ twin = updated) ∨
      (other ≠ slot ∧ contexts[other]? = some twin) := by
  rw [getElem?_set] at there
  split at there
  next same =>
    split at there
    · exact .inl ⟨same.symm, (some.inj there).symm⟩
    · cases there
  next differs => exact .inr ⟨Ne.symm differs, there⟩

theorem slotByKey_set_gone (unique : KeysUnique key contexts)
    (found : contexts[slot]? = some context) (before : key context = some idx)
    (after : key updated ≠ some idx) :
    slotByKey key (contexts.set slot updated) idx = none := by
  rw [slotByKey_eq_none]
  intro twin member named
  obtain ⟨other, there⟩ := mem_iff_getElem?.mp member
  rcases getElem?_set_cases there with ⟨_, rfl⟩ | ⟨apart, stored⟩
  · exact after named
  · exact apart (unique other slot twin context idx stored found named before)

omit [DecidableEq Idx] in
theorem KeysUnique.set (unique : KeysUnique key contexts)
    (fresh : ∀ idx, key updated = some idx →
      ∀ (other : Nat) (twin : Context), contexts[other]? = some twin →
        key twin = some idx → other = slot) :
    KeysUnique key (contexts.set slot updated) := by
  intro first second left right idx leftHere rightHere leftKey rightKey
  rcases getElem?_set_cases leftHere with ⟨rfl, rfl⟩ | ⟨_, leftOld⟩
  · rcases getElem?_set_cases rightHere with ⟨rfl, _⟩ | ⟨_, rightOld⟩
    · rfl
    · exact (fresh idx leftKey second right rightOld rightKey).symm
  · rcases getElem?_set_cases rightHere with ⟨rfl, rfl⟩ | ⟨_, rightOld⟩
    · exact fresh idx rightKey first left leftOld leftKey
    · exact unique first second left right idx leftOld rightOld leftKey rightKey

end Keys

end ZephyrBluetooth.Data
