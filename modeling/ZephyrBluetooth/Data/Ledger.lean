import Mathlib.Algebra.BigOperators.Fin
import Mathlib.Algebra.Order.BigOperators.Group.Finset

namespace ZephyrBluetooth.Data

universe u

section Ledger

variable {Place : Type u} [Fintype Place]

def total (amount : Place → Nat) : Nat :=
  ∑ place, amount place

variable {amount : Place → Nat}

theorem le_total (amount : Place → Nat) (place : Place) :
    amount place ≤ total amount :=
  Finset.single_le_sum (fun _ _ => Nat.zero_le _) (Finset.mem_univ place)

theorem total_eq_zero : total amount = 0 ↔ ∀ place, amount place = 0 := by
  unfold total
  rw [Finset.sum_eq_zero_iff]
  simp

theorem total_single {place : Place}
    (elsewhere : ∀ other, other ≠ place → amount other = 0) :
    total amount = amount place :=
  Finset.sum_eq_single place (fun other _ apart => elsewhere other apart)
    fun absent => absurd (Finset.mem_univ place) absent

theorem total_congr {before after : Place → Nat}
    (same : ∀ place, after place = before place) : total after = total before :=
  Finset.sum_congr rfl fun place _ => same place

theorem total_add (first second : Place → Nat) :
    total (fun place => first place + second place) = total first + total second :=
  Finset.sum_add_distrib

variable [DecidableEq Place]

theorem total_touched (before after : Place → Nat) (touched : Finset Place)
    (elsewhere : ∀ place, place ∉ touched → after place = before place) :
    total after + ∑ place ∈ touched, before place =
      total before + ∑ place ∈ touched, after place := by
  unfold total
  rw [← Finset.sum_add_sum_compl touched after,
    ← Finset.sum_add_sum_compl touched before]
  have others : ∑ place ∈ touchedᶜ, after place =
      ∑ place ∈ touchedᶜ, before place :=
    Finset.sum_congr rfl fun place member =>
      elsewhere place (Finset.mem_compl.mp member)
  omega

theorem total_changed (before after : Place → Nat) (changed : Place)
    (elsewhere : ∀ place, place ≠ changed → after place = before place) :
    total after + before changed = total before + after changed := by
  have touched := total_touched before after {changed} fun place other =>
    elsewhere place (by simpa using other)
  rwa [Finset.sum_singleton, Finset.sum_singleton] at touched

theorem placed_once (once : total amount = 1) :
    ∃ place, amount place = 1 ∧ ∀ other, other ≠ place → amount other = 0 := by
  have some : ∃ place, amount place ≠ 0 := by
    by_contra none
    have zero : total amount = 0 :=
      total_eq_zero.mpr fun place => not_not.mp (not_exists.mp none place)
    omega
  obtain ⟨place, _⟩ := some
  let others : Place → Nat := fun other =>
    if other = place then 0 else amount other
  have split : total amount + others place = total others + amount place :=
    total_changed others amount place fun other apart => (if_neg apart).symm
  have removed : others place = 0 := if_pos rfl
  have none : total others = 0 := by omega
  refine ⟨place, by omega, ?_⟩
  intro other apart
  have zero : others other = 0 := total_eq_zero.mp none other
  rwa [show others other = amount other from if_neg apart] at zero

theorem apart_of_once (once : total amount ≤ 1) {place other : Place}
    (held : amount place ≠ 0) (apart : other ≠ place) : amount other = 0 := by
  have whole : total amount = 1 := by
    have some := le_total amount place
    omega
  obtain ⟨here, _, elsewhere⟩ := placed_once whole
  by_cases same : place = here
  · exact elsewhere other (same ▸ apart)
  · exact absurd (elsewhere place same) held

end Ledger

end ZephyrBluetooth.Data
