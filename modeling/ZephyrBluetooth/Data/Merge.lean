import Mathlib.Tactic.Common

namespace ZephyrBluetooth.Data

open List

variable {visits : List Nat}

/-! Two ascending sequences walked side by side, where a visit takes at most
one entry from the front of the waiting ones. -/

section Merge

variable {Entry : Type} (key : Entry → Nat) {entries : List Entry}

def passed (visited : Nat) : List Entry → List Entry
  | [] => []
  | entry :: rest => if key entry ≤ visited then rest else entry :: rest

def passedAll : List Nat → List Entry → List Entry
  | [], entries => entries
  | visited :: visits, entries => passedAll visits (passed key visited entries)

variable {key}

@[simp] theorem passedAll_nil (visits : List Nat) :
    passedAll key visits ([] : List Entry) = [] := by
  induction visits with
  | nil => rfl
  | cons visited visits ih => exact ih

theorem passed_suffix (visited : Nat) (entries : List Entry) :
    passed key visited entries <:+ entries := by
  cases entries with
  | nil => exact suffix_rfl
  | cons =>
    simp only [passed]
    split
    · exact suffix_cons _ _
    · exact suffix_rfl

theorem passedAll_suffix (visits : List Nat) (entries : List Entry) :
    passedAll key visits entries <:+ entries := by
  induction visits generalizing entries with
  | nil => exact suffix_rfl
  | cons visited visits ih => exact (ih _).trans (passed_suffix visited entries)

theorem passedAll_append {later : List Entry}
    (ahead : ∀ visited ∈ visits, ∀ entry ∈ later, visited < key entry)
    (entries : List Entry) : passedAll key visits (entries ++ later) =
      passedAll key visits entries ++ later := by
  induction visits generalizing entries with
  | nil => rfl
  | cons visited visits ih =>
    have ahead' : ∀ other ∈ visits, ∀ entry ∈ later, other < key entry :=
      fun other member => ahead other (mem_cons_of_mem _ member)
    have split : passed key visited (entries ++ later) =
        passed key visited entries ++ later := by
      cases entries with
      | nil =>
        cases later with
        | nil => rfl
        | cons entry =>
          have unreached : ¬ key entry ≤ visited :=
            Nat.not_le.mpr (ahead visited (by simp) entry (by simp))
          simp only [nil_append, passed, if_neg unreached]
      | cons =>
        simp only [cons_append, passed]
        split
        · rfl
        · rfl
    unfold passedAll
    rw [split]
    exact ih ahead' _

theorem countP_all_le {low : Nat} (above : ∀ entry ∈ entries, low ≤ key entry) :
    entries.countP (fun entry => low ≤ key entry) = entries.length := by
  rw [countP_eq_length]
  intro entry member
  simpa using above entry member

theorem passedAll_eq_nil (visiting : visits.Pairwise (· < ·))
    (ascending : (entries.map key).Pairwise (· < ·)) :
    passedAll key visits entries = [] ↔
      ∀ low, entries.countP (fun entry => low ≤ key entry) ≤
        visits.countP (fun visited => low ≤ visited) := by
  induction visits generalizing entries with
  | nil =>
    constructor
    · intro empty low
      simp only [passedAll] at empty
      simp [empty]
    · intro fewer
      have none := fewer 0
      simpa [passedAll] using none
  | cons visited visits ih =>
    obtain ⟨beyond, visiting⟩ := pairwise_cons.mp visiting
    cases entries with
    | nil => simp
    | cons entry rest =>
      obtain ⟨smallest, sorted⟩ := pairwise_cons.mp ascending
      have beyondAll : ∀ low, low ≤ visited →
          visits.countP (fun visited => low ≤ visited) = visits.length := by
        intro low below
        rw [countP_eq_length]
        intro other member
        have := beyond other member
        simp only [decide_eq_true_eq]
        omega
      have overAll : ∀ low, low ≤ key entry →
          rest.countP (fun entry => low ≤ key entry) = rest.length := by
        intro low below
        apply countP_all_le
        intro other member
        have := smallest (key other) (mem_map_of_mem member)
        omega
      have most : ∀ low, rest.countP (fun entry => low ≤ key entry) ≤ rest.length :=
        fun _ => countP_le_length
      unfold passedAll
      by_cases reached : key entry ≤ visited
      · simp only [passed, if_pos reached]
        rw [ih visiting sorted]
        simp only [countP_cons, decide_eq_true_eq]
        constructor
        · intro fewer low
          have := fewer low
          split <;> split <;> omega
        · intro fewer low
          by_cases below : low ≤ visited
          · have whole := fewer (key entry)
            rw [overAll _ (Nat.le_refl _), beyondAll _ reached,
              if_pos (Nat.le_refl _), if_pos reached] at whole
            have := most low
            rw [beyondAll low below]
            omega
          · have here := fewer low
            have : ¬ low ≤ key entry := by omega
            rw [if_neg this, if_neg below] at here
            exact here
      · simp only [passed, if_neg reached]
        rw [ih visiting ascending]
        simp only [countP_cons, decide_eq_true_eq]
        constructor
        · intro fewer low
          have := fewer low
          omega
        · intro fewer low
          by_cases below : low ≤ visited
          · have whole := fewer (visited + 1)
            have upper : visited + 1 ≤ key entry := by omega
            have lower : low ≤ key entry := by omega
            have every : visits.countP (fun other => visited + 1 ≤ other) =
                visits.length := by
              rw [countP_eq_length]
              intro other member
              have := beyond other member
              simp only [decide_eq_true_eq]
              omega
            rw [overAll _ upper, every, if_pos upper, if_neg (by omega)] at whole
            rw [overAll _ lower, beyondAll low below, if_pos lower]
            exact whole
          · have here := fewer low
            rw [if_neg below] at here
            exact here

theorem passedAll_head (visiting : visits.Pairwise (· < ·))
    (ascending : (entries.map key).Pairwise (· < ·)) {entry : Entry}
    (member : entry ∈ entries) (before : ∀ visited ∈ visits, visited < key entry) :
    (passedAll key visits entries).head? = some entry ↔
      ∀ low, entries.countP (fun other =>
          low ≤ key other ∧ key other < key entry) ≤
        visits.countP (fun visited => low ≤ visited) := by
  obtain ⟨front, back, rfl⟩ := append_of_mem member
  rw [map_append, map_cons, pairwise_append, pairwise_cons] at ascending
  obtain ⟨sorted, ⟨above, -⟩, apart⟩ := ascending
  have below : ∀ other ∈ front, key other < key entry := fun other first =>
    apart _ (mem_map_of_mem first) _ (by simp)
  have ahead : ∀ visited ∈ visits, ∀ other ∈ entry :: back,
      visited < key other := by
    intro visited visit other later
    have reached := before visited visit
    rcases mem_cons.mp later with rfl | later
    · exact reached
    · have := above _ (mem_map_of_mem later)
      omega
  have counted : ∀ low, (front ++ entry :: back).countP (fun other =>
      low ≤ key other ∧ key other < key entry) =
        front.countP (fun other => low ≤ key other) := by
    intro low
    rw [countP_append]
    have none : (entry :: back).countP (fun other =>
        low ≤ key other ∧ key other < key entry) = 0 := by
      rw [countP_eq_zero]
      intro other later
      simp only [decide_eq_true_eq]
      rcases mem_cons.mp later with rfl | later
      · omega
      · have := above _ (mem_map_of_mem later)
        omega
    rw [none, Nat.add_zero]
    apply countP_congr
    intro other first
    have := below other first
    simp only [decide_eq_true_eq]
    constructor
    · exact And.left
    · exact fun reached => ⟨reached, this⟩
  simp only [counted]
  rw [← passedAll_eq_nil visiting sorted, passedAll_append ahead]
  cases waiting : passedAll key visits front with
  | nil => simp
  | cons other =>
    constructor
    · intro same
      have first : other ∈ front := by
        apply (passedAll_suffix visits front).subset
        rw [waiting]
        simp
      simp only [cons_append, head?_cons, Option.some.injEq] at same
      have := below other first
      rw [same] at this
      omega
    · intro empty
      cases empty

end Merge

end ZephyrBluetooth.Data
