import Mathlib.Data.Nat.Bitwise

namespace ZephyrBluetooth.Data

open List

variable {count index mask : Nat} {seen : List Nat}

/-! A list cut into chunks of one size, and the bit mask of the chunks that have
arrived. -/

universe u

variable {Item : Type u}

def chunk (size index : Nat) (whole : List Item) : List Item :=
  (whole.drop (index * size)).take size

theorem length_chunk (size index : Nat) (whole : List Item) :
    (chunk size index whole).length = min size (whole.length - index * size) := by
  simp [chunk]

theorem flatMap_chunk (size count : Nat) (whole : List Item) :
    ((range count).flatMap fun index => chunk size index whole) =
      whole.take (count * size) := by
  induction count with
  | zero => simp
  | succ count ih =>
    rw [range_succ, flatMap_append, ih, Nat.succ_mul, take_add]
    simp [chunk]

theorem flatMap_chunk_of_le {size : Nat} {whole : List Item}
    (reaches : whole.length ≤ count * size) :
    ((range count).flatMap fun index => chunk size index whole) = whole := by
  rw [flatMap_chunk, take_of_length_le reaches]

def Marks (mask : Nat) (seen : List Nat) : Prop :=
  ∀ index, mask.testBit index = true ↔ index ∈ seen

theorem Marks.nil : Marks 0 [] := by
  intro index
  simp

theorem testBit_add_bit (mask index other : Nat) :
    (mask ||| 1 <<< index).testBit other =
      (mask.testBit other || decide (index = other)) := by
  rw [Nat.testBit_or, Nat.one_shiftLeft, Nat.testBit_two_pow]

theorem testBit_add_bit_ne {other : Nat} (mask : Nat) (different : index ≠ other) :
    (mask ||| 1 <<< index).testBit other = mask.testBit other := by
  rw [testBit_add_bit, decide_eq_false different, Bool.or_false]

section

variable (marks : Marks mask seen)
include marks

theorem Marks.add (index : Nat) :
    Marks (mask ||| 1 <<< index) (index :: seen) := by
  intro other
  rw [testBit_add_bit, Bool.or_eq_true, decide_eq_true_iff, marks other,
    mem_cons, or_comm, eq_comm]

theorem Marks.again (known : mask.testBit index = true) :
    Marks mask (index :: seen) := by
  intro other
  rw [marks other, mem_cons]
  constructor
  · exact .inr
  · rintro (rfl | member)
    · exact (marks other).mp known
    · exact member

theorem Marks.full_iff (bound : ∀ index ∈ seen, index < count) :
    mask = 2 ^ count - 1 ↔ ∀ index < count, index ∈ seen := by
  constructor
  · intro full index low
    rw [← marks index, full, Nat.testBit_two_pow_sub_one]
    exact decide_eq_true low
  · intro all
    apply Nat.eq_of_testBit_eq
    intro index
    rw [Nat.testBit_two_pow_sub_one, Bool.eq_iff_iff, marks index,
      decide_eq_true_iff]
    exact ⟨bound index, all index⟩

end

def lacking (count mask : Nat) : Nat :=
  (List.range count).countP fun index => !mask.testBit index

theorem lacking_zero (count : Nat) : lacking count 0 = count := by
  simp [lacking]

theorem lacking_add (low : index < count) (absent : mask.testBit index = false) :
    lacking count (mask ||| 1 <<< index) + 1 = lacking count mask := by
  unfold lacking
  induction count with
  | zero => cases low
  | succ count ih =>
    rw [range_succ, countP_append, countP_append]
    rcases Nat.lt_or_eq_of_le (Nat.le_of_lt_succ low) with lower | rfl
    · have last : ([count].countP fun other =>
          !(mask ||| 1 <<< index).testBit other) =
          [count].countP fun other => !mask.testBit other := by
        rw [countP_singleton, countP_singleton,
          testBit_add_bit_ne mask (ne_of_lt lower)]
      rw [last, ← ih lower]
      omega
    · have front : ((range index).countP fun other =>
          !(mask ||| 1 <<< index).testBit other) =
          (range index).countP fun other => !mask.testBit other := by
        apply countP_congr
        intro other member
        rw [testBit_add_bit_ne mask (ne_of_gt (mem_range.mp member))]
      have lastAdded : ([index].countP fun other =>
          !(mask ||| 1 <<< index).testBit other) = 0 := by
        simp
      have lastLacking : ([index].countP fun other =>
          !mask.testBit other) = 1 := by
        simp [absent]
      rw [front, lastAdded, lastLacking]

theorem lacking_pos (low : index < count) (absent : mask.testBit index = false) :
    0 < lacking count mask := by
  rw [← lacking_add low absent]
  exact Nat.succ_pos _

end ZephyrBluetooth.Data
