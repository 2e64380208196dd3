import Mathlib.Data.List.Basic

namespace ZephyrBluetooth.Data

/-! Units cut into frames.  The first frame of a unit tells its length, and a
unit is complete when that many items have arrived. -/

universe u

variable {Item : Type u}

structure Gathering (Item : Type u) where
  got : List Item
  total : Nat

namespace Gathering

def close (gathering : Gathering Item) :
    Option (List (List Item) × Option (Gathering Item)) :=
  if gathering.got.length < gathering.total then some ([], some gathering)
  else if gathering.got.length = gathering.total then
    some ([gathering.got], none)
  else none

def add (gathering : Gathering Item) (items : List Item) : Gathering Item :=
  ⟨gathering.got ++ items, gathering.total⟩

theorem close_open {gathering : Gathering Item}
    (short : gathering.got.length < gathering.total) :
    gathering.close = some ([], some gathering) :=
  if_pos short

theorem close_full {gathering : Gathering Item}
    (full : gathering.got.length = gathering.total) :
    gathering.close = some ([gathering.got], none) := by
  unfold close
  rw [if_neg (Nat.not_lt.mpr (Nat.le_of_eq full.symm)), if_pos full]

end Gathering

variable (read : List Item → Option (Nat × List Item))

def takeFrame :
    Option (Gathering Item) → List Item →
      Option (List (List Item) × Option (Gathering Item))
  | none, frame =>
    match read frame with
    | some (total, items) => (Gathering.mk items total).close
    | none => none
  | some gathering, frame => (gathering.add frame).close

theorem takeFrame_unfinished {state : Option (Gathering Item)} {frame : List Item}
    {units : List (List Item)} {unfinished : Gathering Item}
    (taken : takeFrame read state frame = some (units, some unfinished)) :
    units = [] := by
  have closed : ∀ gathering : Gathering Item,
      gathering.close = some (units, some unfinished) → units = [] := by
    intro gathering closes
    unfold Gathering.close at closes
    split at closes
    · cases closes
      rfl
    · split at closes <;> cases closes
  cases state with
  | some => exact closed _ taken
  | none =>
    simp only [takeFrame] at taken
    split at taken
    · exact closed _ taken
    · cases taken

inductive Gathers : Option (Gathering Item) → List (List Item) →
    List (List Item) → Option (Gathering Item) → Prop
  | nil (state : Option (Gathering Item)) : Gathers state [] [] state
  | cons {state next last : Option (Gathering Item)} {frame : List Item}
      {frames units later : List (List Item)}
      (first : takeFrame read state frame = some (units, next))
      (rest : Gathers next frames later last) :
      Gathers state (frame :: frames) (units ++ later) last

namespace Gathers

variable {read} {state next last : Option (Gathering Item)}
variable {frames more units later : List (List Item)}

theorem append (first : Gathers read state frames units next)
    (second : Gathers read next more later last) :
    Gathers read state (frames ++ more) (units ++ later) last := by
  induction first with
  | nil => exact second
  | cons taken rest ih =>
    rw [List.cons_append, List.append_assoc]
    exact .cons taken (ih second)

theorem single {frame : List Item}
    (taken : takeFrame read state frame = some (units, next)) :
    Gathers read state [frame] units next := by
  have one := Gathers.cons taken (.nil next)
  rwa [List.append_nil] at one

theorem split (whole : Gathers read state (frames ++ more) units last) :
    ∃ early between late, Gathers read state frames early between ∧
      Gathers read between more late last ∧ units = early ++ late := by
  induction frames generalizing state units with
  | nil => exact ⟨[], state, units, .nil state, whole, rfl⟩
  | cons frame rest ih =>
    cases whole with
    | cons taken others =>
      obtain ⟨early, between, late, first, second, rfl⟩ := ih others
      exact ⟨_, between, late, .cons taken first, second,
        (List.append_assoc _ _ _).symm⟩

end Gathers

end ZephyrBluetooth.Data
