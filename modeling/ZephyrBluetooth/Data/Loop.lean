import Mathlib.Data.List.Basic

namespace ZephyrBluetooth.Data

universe u v w

inductive Round (State : Type u) (Result : Type v) where
  | next (state : State)
  | done (result : Result)

structure Loop (State : Type u) (Result : Type v) (Touch : Type w) where
  round : State → List Touch × Round State Result

namespace Loop

variable {State : Type u} {Result : Type v} {Touch : Type w}
variable (loop : Loop State Result Touch)

variable {state after : State} {touches : List Touch}

def run : Nat → State → Option (List Touch × Result)
  | 0, _ => none
  | rounds + 1, state =>
    match loop.round state with
    | (touches, .done result) => some (touches, result)
    | (touches, .next after) =>
      match run rounds after with
      | none => none
      | some (later, result) => some (touches ++ later, result)

def Ends (state : State) (touches : List Touch) (result : Result) : Prop :=
  ∃ rounds, loop.run rounds state = some (touches, result)

def Safe (good : Touch → Prop) (state : State) : Prop :=
  ∃ touches result, loop.Ends state touches result ∧ ∀ touch ∈ touches, good touch

variable {loop}

theorem ends_done {result : Result}
    (last : loop.round state = (touches, .done result)) :
    loop.Ends state touches result := by
  refine ⟨1, ?_⟩
  unfold run
  rw [last]

theorem ends_next {later : List Touch} {result : Result}
    (going : loop.round state = (touches, .next after))
    (ends : loop.Ends after later result) :
    loop.Ends state (touches ++ later) result := by
  obtain ⟨rounds, ran⟩ := ends
  refine ⟨rounds + 1, ?_⟩
  unfold run
  simp only [going, ran]

theorem ends_done_iff {result : Result}
    (last : loop.round state = (touches, .done result)) {seen : List Touch}
    {reached : Result} :
    loop.Ends state seen reached ↔ seen = touches ∧ reached = result := by
  constructor
  · rintro ⟨rounds, ran⟩
    cases rounds with
    | zero => cases ran
    | succ =>
      unfold run at ran
      rw [last] at ran
      cases ran
      exact ⟨rfl, rfl⟩
  · rintro ⟨rfl, rfl⟩
    exact ends_done last

theorem ends_next_iff (going : loop.round state = (touches, .next after))
    {seen : List Touch} {reached : Result} : loop.Ends state seen reached ↔
      ∃ later, seen = touches ++ later ∧ loop.Ends after later reached := by
  constructor
  · rintro ⟨rounds, ran⟩
    cases rounds with
    | zero => cases ran
    | succ rounds =>
      unfold run at ran
      simp only [going] at ran
      cases rest : loop.run rounds after with
      | none =>
        rw [rest] at ran
        cases ran
      | some ended =>
        rw [rest] at ran
        cases ran
        exact ⟨ended.1, rfl, rounds, rest⟩
  · rintro ⟨later, rfl, ends⟩
    exact ends_next going ends

variable {good : Touch → Prop}

theorem safe_done {result : Result}
    (last : loop.round state = (touches, .done result)) :
    loop.Safe good state ↔ ∀ touch ∈ touches, good touch := by
  constructor
  · rintro ⟨_, _, ends, fine⟩
    obtain ⟨rfl, -⟩ := (ends_done_iff last).mp ends
    exact fine
  · intro fine
    exact ⟨touches, result, ends_done last, fine⟩

theorem safe_next
    (going : loop.round state = (touches, .next after)) : loop.Safe good state ↔
      (∀ touch ∈ touches, good touch) ∧ loop.Safe good after := by
  constructor
  · rintro ⟨_, reached, ends, fine⟩
    obtain ⟨later, rfl, onward⟩ := (ends_next_iff going).mp ends
    rw [List.forall_mem_append] at fine
    exact ⟨fine.1, later, reached, onward, fine.2⟩
  · rintro ⟨here, later, reached, ends, fine⟩
    refine ⟨touches ++ later, reached, ends_next going ends, ?_⟩
    rw [List.forall_mem_append]
    exact ⟨here, fine⟩

theorem safe_of_measure {invariant : State → Prop}
    (measure : State → Nat) (rounds : ∀ state, invariant state →
      (∀ touch ∈ (loop.round state).1, good touch) ∧
        ∀ after, (loop.round state).2 = .next after →
          invariant after ∧ measure after < measure state)
    {state : State} (start : invariant state) : loop.Safe good state := by
  induction size : measure state using Nat.strongRecOn generalizing state with
  | _ size ih =>
    obtain ⟨here, onward⟩ := rounds state start
    cases going : loop.round state with
    | mk touches round =>
      rw [going] at here onward
      cases round with
      | done => exact (safe_done going).mpr here
      | next after =>
        obtain ⟨kept, smaller⟩ := onward after rfl
        rw [size] at smaller
        rw [safe_next going]
        exact ⟨here, ih _ smaller kept rfl⟩

theorem not_ends_of_kept {invariant : State → Prop}
    (rounds : ∀ state, invariant state →
      ∃ touches after, loop.round state = (touches, .next after) ∧ invariant after)
    {state : State} (start : invariant state) {touches : List Touch}
    {result : Result} : ¬ loop.Ends state touches result := by
  rintro ⟨count, ran⟩
  induction count generalizing state touches with
  | zero => cases ran
  | succ count ih =>
    obtain ⟨_, after, going, kept⟩ := rounds state start
    unfold run at ran
    simp only [going] at ran
    cases rest : loop.run count after with
    | none =>
      rw [rest] at ran
      cases ran
    | some ended =>
      obtain ⟨_, _⟩ := ended
      rw [rest] at ran
      cases ran
      exact ih kept rest

variable (loop) in
def result (rounds : Nat) (state : State) : Option Result :=
  (loop.run rounds state).map Prod.snd

theorem result_done {last : Result}
    (ended : loop.round state = (touches, .done last)) (rounds : Nat) :
    loop.result (rounds + 1) state = some last := by
  unfold result run
  rw [ended]
  rfl

theorem result_next (going : loop.round state = (touches, .next after))
    (rounds : Nat) :
    loop.result (rounds + 1) state = loop.result rounds after := by
  unfold result
  conv_lhs => unfold run
  simp only [going]
  cases rest : loop.run rounds after with
  | none => rfl
  | some => rfl

end Loop

end ZephyrBluetooth.Data
