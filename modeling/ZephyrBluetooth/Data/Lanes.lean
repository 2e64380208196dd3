import Mathlib.Logic.Function.Basic

namespace ZephyrBluetooth.Data

open Function

variable {blocked : Bool}

/-! Slots that take turns: of the slots with one key a single one runs and the
others wait until it hands over. -/

universe u v

structure Lane (Key : Type u) where
  key : Key
  blocked : Bool

abbrev Lanes (Slot : Type v) (Key : Type u) := Slot → Option (Lane Key)

namespace Lanes

variable {Slot : Type v} {Key : Type u}

variable {slot other : Slot} {old key new : Key} {after : Lanes Slot Key}

def Runs (lanes : Lanes Slot Key) (key : Key) (slot : Slot) : Prop :=
  lanes slot = some ⟨key, false⟩

def Waits (lanes : Lanes Slot Key) (key : Key) (slot : Slot) : Prop :=
  lanes slot = some ⟨key, true⟩

def RunsElsewhere (lanes : Lanes Slot Key) (slot : Slot) (key : Key) : Prop :=
  ∃ other, other ≠ slot ∧ Runs lanes key other

def WaitsElsewhere (lanes : Lanes Slot Key) (slot : Slot) (key : Key) : Prop :=
  ∃ other, other ≠ slot ∧ Waits lanes key other

structure Served (lanes : Lanes Slot Key) : Prop where
  server : ∀ {key slot}, Waits lanes key slot → ∃ other, Runs lanes key other
  unique : ∀ {key first second}, Runs lanes key first → Runs lanes key second →
    first = second

/-- One waiting slot with the key, other than the one that hands over, may go
on; if there is none, nothing changes. -/
inductive Released [DecidableEq Slot] (lanes : Lanes Slot Key) (key : Key)
    (slot : Slot) : Lanes Slot Key → Prop
  | none (idle : ¬ WaitsElsewhere lanes slot key) : Released lanes key slot lanes
  | some (next : Slot) (different : next ≠ slot) (waits : Waits lanes key next) :
      Released lanes key slot (update lanes next (Option.some ⟨key, false⟩))

variable {lanes : Lanes Slot Key}

theorem Runs.unique_key {first second : Key} (one : Runs lanes first slot)
    (other : Runs lanes second slot) : first = second := by
  have same : some (Lane.mk first false) = some ⟨second, false⟩ :=
    one.symm.trans other
  cases same
  rfl

theorem Runs.not_waits {first second : Key}
    (runs : Runs lanes first slot) : ¬ Waits lanes second slot := by
  intro waits
  have same : some (Lane.mk first false) = some ⟨second, true⟩ :=
    runs.symm.trans waits
  cases same

theorem runs_here (here : lanes slot = some ⟨old, blocked⟩)
    (runs : Runs lanes key slot) : key = old ∧ blocked = false := by
  rw [Runs, here] at runs
  cases runs
  exact ⟨rfl, rfl⟩

theorem Served.idle : Served (fun _ => none : Lanes Slot Key) where
  server waits := by cases waits
  unique runs := by cases runs

variable [DecidableEq Slot] {lanes : Lanes Slot Key}

theorem runs_update {value : Option (Lane Key)} :
    Runs (update lanes slot value) key other ↔
      (other = slot ∧ value = some ⟨key, false⟩) ∨
        (other ≠ slot ∧ Runs lanes key other) := by
  unfold Runs
  by_cases same : other = slot
  · subst same
    simp
  · simp [same]

theorem waits_update {value : Option (Lane Key)} :
    Waits (update lanes slot value) key other ↔
      (other = slot ∧ value = some ⟨key, true⟩) ∨
        (other ≠ slot ∧ Waits lanes key other) := by
  unfold Waits
  by_cases same : other = slot
  · subst same
    simp
  · simp [same]

theorem Served.join (served : Served lanes) (free : lanes slot = none)
    (taken : blocked = true ↔
      ∃ other, Runs lanes key other ∨ Waits lanes key other) :
    Served (update lanes slot (some ⟨key, blocked⟩)) where
  server := by
    intro other waiting waits
    have running : ∃ one, Runs lanes other one := by
      rcases waits_update.mp waits with ⟨rfl, value⟩ | ⟨_, before⟩
      · obtain ⟨rfl, rfl⟩ : key = other ∧ blocked = true := by simpa using value
        obtain ⟨one, runs | queued⟩ := taken.mp rfl
        · exact ⟨one, runs⟩
        · exact served.server queued
      · exact served.server before
    obtain ⟨one, runs⟩ := running
    refine ⟨one, runs_update.mpr (.inr ⟨?_, runs⟩)⟩
    rintro rfl
    rw [Runs, free] at runs
    cases runs
  unique := by
    intro other first second runsFirst runsSecond
    have clash : ∀ {one}, Runs lanes other one →
        some (Lane.mk key blocked) ≠ some ⟨other, false⟩ := by
      intro one runs value
      obtain ⟨rfl, rfl⟩ : key = other ∧ blocked = false := by simpa using value
      have busy := taken.mpr ⟨one, .inl runs⟩
      cases busy
    rcases runs_update.mp runsFirst with ⟨atFirst, value⟩ | ⟨_, beforeFirst⟩
    · rcases runs_update.mp runsSecond with ⟨atSecond, _⟩ | ⟨_, beforeSecond⟩
      · exact atFirst.trans atSecond.symm
      · exact absurd value (clash beforeSecond)
    · rcases runs_update.mp runsSecond with ⟨_, value⟩ | ⟨_, beforeSecond⟩
      · exact absurd value (clash beforeFirst)
      · exact served.unique beforeFirst beforeSecond

theorem Served.runner_moved_iff (served : Served lanes) (here : Runs lanes old slot)
    (moves : new ≠ old) :
    Served (update lanes slot (some ⟨new, false⟩)) ↔
      ¬ WaitsElsewhere lanes slot old ∧ ¬ RunsElsewhere lanes slot new := by
  constructor
  · intro moved
    constructor
    · rintro ⟨other, different, waits⟩
      obtain ⟨one, runs⟩ :=
        moved.server (waits_update.mpr (.inr ⟨different, waits⟩))
      rcases runs_update.mp runs with ⟨_, value⟩ | ⟨elsewhere, before⟩
      · exact moves (by simpa using value)
      · exact elsewhere (served.unique before here)
    · rintro ⟨other, different, runs⟩
      exact different (moved.unique (runs_update.mpr (.inr ⟨different, runs⟩))
        (runs_update.mpr (.inl ⟨rfl, rfl⟩)))
  · rintro ⟨nobodyWaits, nobodyRuns⟩
    constructor
    · intro key waiting waits
      rcases waits_update.mp waits with ⟨_, value⟩ | ⟨different, before⟩
      · simp at value
      obtain ⟨one, runs⟩ := served.server before
      refine ⟨one, runs_update.mpr (.inr ⟨?_, runs⟩)⟩
      rintro rfl
      rw [runs.unique_key here] at before
      exact nobodyWaits ⟨waiting, different, before⟩
    · intro key first second runsFirst runsSecond
      rcases runs_update.mp runsFirst with ⟨atFirst, value⟩ | ⟨apart, beforeFirst⟩
      · rcases runs_update.mp runsSecond with ⟨atSecond, _⟩ | ⟨apart, beforeSecond⟩
        · exact atFirst.trans atSecond.symm
        · obtain rfl : new = key := by simpa using value
          exact absurd ⟨second, apart, beforeSecond⟩ nobodyRuns
      · rcases runs_update.mp runsSecond with ⟨_, value⟩ | ⟨_, beforeSecond⟩
        · obtain rfl : new = key := by simpa using value
          exact absurd ⟨first, apart, beforeFirst⟩ nobodyRuns
        · exact served.unique beforeFirst beforeSecond

theorem Served.waiter_moved_iff (served : Served lanes)
    (here : Waits lanes old slot) :
    Served (update lanes slot (some ⟨new, true⟩)) ↔
      RunsElsewhere lanes slot new := by
  have apart : ∀ {key one}, Runs lanes key one → one ≠ slot := by
    rintro key one runs rfl
    exact runs.not_waits here
  have kept : ∀ {key one}, Runs lanes key one →
      Runs (update lanes slot (some ⟨new, true⟩)) key one := by
    intro key one runs
    exact runs_update.mpr (.inr ⟨apart runs, runs⟩)
  have came : ∀ {key one},
      Runs (update lanes slot (some ⟨new, true⟩)) key one → Runs lanes key one := by
    intro key one runs
    rcases runs_update.mp runs with ⟨_, value⟩ | ⟨_, before⟩
    · simp at value
    · exact before
  constructor
  · intro moved
    obtain ⟨one, runs⟩ := moved.server (waits_update.mpr (.inl ⟨rfl, rfl⟩))
    exact ⟨one, apart (came runs), came runs⟩
  · rintro ⟨runner, _, running⟩
    constructor
    · intro key waiting waits
      rcases waits_update.mp waits with ⟨_, value⟩ | ⟨_, before⟩
      · obtain rfl : new = key := by simpa using value
        exact ⟨runner, kept running⟩
      · obtain ⟨one, runs⟩ := served.server before
        exact ⟨one, kept runs⟩
    · intro key first second runsFirst runsSecond
      exact served.unique (came runsFirst) (came runsSecond)

theorem runs_emptied : Runs (update lanes slot none) key other ↔
      other ≠ slot ∧ Runs lanes key other := by
  simp [runs_update]

theorem waits_emptied : Waits (update lanes slot none) key other ↔
      other ≠ slot ∧ Waits lanes key other := by
  simp [waits_update]

theorem Served.left_iff (served : Served lanes)
    (here : lanes slot = some ⟨old, blocked⟩) :
    Served (update lanes slot none) ↔
      (blocked = false → ¬ WaitsElsewhere lanes slot old) := by
  constructor
  · rintro left rfl ⟨_, different, waits⟩
    obtain ⟨one, runs⟩ := left.server (waits_emptied.mpr ⟨different, waits⟩)
    obtain ⟨elsewhere, before⟩ := runs_emptied.mp runs
    exact elsewhere (served.unique before here)
  · intro nobodyBehind
    constructor
    · intro key waiting waits
      obtain ⟨different, before⟩ := waits_emptied.mp waits
      obtain ⟨one, runs⟩ := served.server before
      refine ⟨one, runs_emptied.mpr ⟨?_, runs⟩⟩
      rintro rfl
      obtain ⟨rfl, rfl⟩ := runs_here here runs
      exact nobodyBehind rfl ⟨waiting, different, before⟩
    · intro key first second runsFirst runsSecond
      exact served.unique (runs_emptied.mp runsFirst).2
        (runs_emptied.mp runsSecond).2

theorem Served.replaced_iff {next : Slot} (served : Served lanes)
    (here : lanes slot = some ⟨old, blocked⟩) (different : next ≠ slot)
    (waits : Waits lanes new next) : Served (update
        (update lanes next (some ⟨new, false⟩)) slot none) ↔
      blocked = false ∧ new = old := by
  have promoted : Runs (update
      (update lanes next (some ⟨new, false⟩)) slot none) new next :=
    runs_emptied.mpr ⟨different, runs_update.mpr (.inl ⟨rfl, rfl⟩)⟩
  have kept : ∀ {key one}, one ≠ slot → Runs lanes key one →
      Runs (update (update lanes next (some ⟨new, false⟩)) slot none) key one := by
    intro key one elsewhere runs
    refine runs_emptied.mpr ⟨elsewhere, runs_update.mpr (.inr ⟨?_, runs⟩)⟩
    rintro rfl
    exact runs.not_waits waits
  constructor
  · intro replaced
    obtain ⟨one, runs⟩ := served.server waits
    by_cases elsewhere : one = slot
    · subst elsewhere
      obtain ⟨keyEq, unblocked⟩ := runs_here here runs
      exact ⟨unblocked, keyEq⟩
    · have same := replaced.unique (kept elsewhere runs) promoted
      subst same
      exact absurd waits runs.not_waits
  · rintro ⟨rfl, rfl⟩
    have only : ∀ {key one}, Runs (update
        (update lanes next (some ⟨new, false⟩)) slot none) key one →
        one = next ∧ key = new ∨ key ≠ new ∧ Runs lanes key one := by
      intro key one runs
      obtain ⟨elsewhere, updated⟩ := runs_emptied.mp runs
      rcases runs_update.mp updated with ⟨rfl, value⟩ | ⟨_, before⟩
      · exact .inl ⟨rfl, by simpa using value.symm⟩
      refine .inr ⟨?_, before⟩
      rintro rfl
      exact elsewhere (served.unique before here)
    constructor
    · intro key waiting stillWaits
      have before := (waits_update.mp (waits_emptied.mp stillWaits).2)
      rcases before with ⟨_, value⟩ | ⟨_, before⟩
      · simp at value
      obtain ⟨one, runs⟩ := served.server before
      by_cases elsewhere : one = slot
      · subst elsewhere
        rw [runs.unique_key here]
        exact ⟨next, promoted⟩
      · exact ⟨one, kept elsewhere runs⟩
    · intro key first second runsFirst runsSecond
      rcases only runsFirst with ⟨atFirst, keyEq⟩ | ⟨keyNe, beforeFirst⟩
      · rcases only runsSecond with ⟨atSecond, _⟩ | ⟨keyNe, _⟩
        · exact atFirst.trans atSecond.symm
        · exact absurd keyEq keyNe
      · rcases only runsSecond with ⟨_, keyEq⟩ | ⟨_, beforeSecond⟩
        · exact absurd keyEq keyNe
        · exact served.unique beforeFirst beforeSecond

theorem Released.overwrite (value : Option (Lane Key))
    (released : Released lanes key slot after) :
    ∃ other, Released (update lanes slot value) key slot other ∧
      update other slot Option.none = update after slot Option.none := by
  cases released with
  | none idle =>
    refine ⟨_, .none ?_, update_idem ..⟩
    rintro ⟨other, different, waits⟩
    rcases waits_update.mp waits with ⟨same, _⟩ | ⟨_, before⟩
    · exact different same
    · exact idle ⟨other, different, before⟩
  | some next different waits =>
    refine ⟨_, .some next different (waits_update.mpr (.inr ⟨different, waits⟩)), ?_⟩
    rw [update_comm different, update_idem, update_comm different.symm]

theorem Served.finished_iff (served : Served lanes)
    (here : lanes slot = some ⟨old, blocked⟩)
    (released : Released (update lanes slot (some ⟨new, blocked⟩)) new slot after) :
    Served (update after slot none) ↔
      (new ≠ old → blocked = false → ¬ WaitsElsewhere lanes slot old) ∧
        (blocked = true ∨ new ≠ old → ¬ WaitsElsewhere lanes slot new) := by
  cases released with
  | none idle =>
    have alone : ¬ WaitsElsewhere lanes slot new := by
      rintro ⟨other, different, waits⟩
      exact idle ⟨other, different, waits_update.mpr (.inr ⟨different, waits⟩)⟩
    rw [update_idem, served.left_iff here]
    constructor
    · intro nobodyBehind
      exact ⟨fun _ => nobodyBehind, fun _ => alone⟩
    · rintro ⟨nobodyBehind, _⟩ unblocked
      by_cases stays : new = old
      · exact stays ▸ alone
      · exact nobodyBehind stays unblocked
  | some next different waits =>
    have before : Waits lanes new next := by
      rcases waits_update.mp waits with ⟨same, _⟩ | ⟨_, before⟩
      · exact absurd same different
      · exact before
    rw [update_comm different, update_idem,
      update_comm different.symm, served.replaced_iff here different before]
    constructor
    · rintro ⟨rfl, rfl⟩
      refine ⟨fun moves => absurd rfl moves, ?_⟩
      rintro (blocked | moves)
      · cases blocked
      · exact absurd rfl moves
    · rintro ⟨_, nobodyThere⟩
      have inPlace : ¬ (blocked = true ∨ new ≠ old) := fun disturbed =>
        nobodyThere disturbed ⟨next, different, before⟩
      rw [not_or, not_not] at inPlace
      exact ⟨by simpa using inPlace.1, inPlace.2⟩

theorem Served.finished_here_iff (served : Served lanes)
    (here : lanes slot = some ⟨key, blocked⟩)
    (released : Released lanes key slot after) :
    Served (update after slot none) ↔
      (blocked = true → ¬ WaitsElsewhere lanes slot key) := by
  have stays : update lanes slot (some ⟨key, blocked⟩) = lanes := by
    rw [← here, update_eq_self]
  rw [served.finished_iff here (stays.symm ▸ released)]
  simp

end Lanes

end ZephyrBluetooth.Data
