import Mathlib.Data.Fintype.Card
import ZephyrBluetooth.Data.Machine
import ZephyrBluetooth.Data.Rings

namespace ZephyrBluetooth.Mesh

open Data List

variable {fuel : Nat}

/-! Model extension (`access.c`): the models that extend one another are linked
by their `next` pointers.  The loops over a list are bounded by the number of
models. -/

inductive Walk where
  | walkStop
  | walkContinue

section Walks

variable {Model Data : Type} [DecidableEq Model] {next : Model → Option Model}

/-- The loop of `bt_mesh_model_extensions_walk`; `none` when the fuel runs out. -/
def walkLoop (next : Model → Option Model) (cb : Model → Data → Data × Walk)
    (model : Model) : Nat → Option Model → Data → Option Data
  | 0, _, _ => none
  | _ + 1, none, data => some data
  | fuel + 1, some it, data =>
    if next it = some model then
      some data
    else
      match cb it data with
      | (after, .walkStop) => some after
      | (after, .walkContinue) => walkLoop next cb model fuel (next it) after

def extensionsWalk (next : Model → Option Model) (fuel : Nat) (model : Model)
    (cb : Model → Data → Data × Walk) (data : Data) : Option Data :=
  if next model = none then some (cb model data).1
  else walkLoop next cb model fuel (some model) data

/-- The loop of `bt_mesh_model_extend` that looks for the base model. -/
def listContains (next : Model → Option Model) (a b : Model) :
    Nat → Option Model → Option Bool
  | 0, _ => none
  | _ + 1, none => some false
  | fuel + 1, some it =>
    if next it = some a then some false
    else if it = b then some true
    else listContains next a b fuel (next it)

def visits (cb : Model → Data → Data × Walk) : List Model → Data → Data
  | [], data => data
  | model :: rest, data =>
    match cb model data with
    | (after, .walkStop) => after
    | (after, .walkContinue) => visits cb rest after

def walked (next : Model → Option Model) (model : Model) (others : List Model) :
    List Model :=
  if next model = none then [model] else (model :: others).dropLast

theorem walkLoop_leads (cb : Model → Data → Data × Walk) {model it : Model}
    {rest : List Model} (data : Data) (leads : Leads next (it :: rest) model)
    (notHome : model ∉ rest) (enough : rest.length < fuel) :
    walkLoop next cb model fuel (some it) data =
      some (visits cb (it :: rest).dropLast data) := by
  induction rest generalizing it fuel data with
  | nil =>
    cases fuel with
    | zero => cases enough
    | succ fuel =>
      have last : next it = some model := leads.1
      rw [walkLoop, if_pos last]
      rfl
  | cons second rest ih =>
    cases fuel with
    | zero => cases enough
    | succ fuel =>
      obtain ⟨here, away, later, restHome⟩ := leads.onward notHome
      have short : rest.length < fuel := by
        rw [length_cons] at enough
        omega
      rw [walkLoop, if_neg away, dropLast_cons_cons, visits]
      cases cb it data with
      | mk after walk =>
        cases walk with
        | walkStop => rfl
        | walkContinue =>
          rw [here]
          exact ih after later restHome short

variable {others : List Model}

theorem extensionsWalk_ring {model : Model}
    (ring : RingAt next model others) (enough : others.length < fuel)
    (cb : Model → Data → Data × Walk) (data : Data) :
    extensionsWalk next fuel model cb data =
      some (visits cb (walked next model others) data) := by
  unfold extensionsWalk walked
  split
  · rw [visits]
    cases cb model data with
    | mk after walk => cases walk <;> rfl
  · rename_i linked
    rcases ring.round with ⟨_, free⟩ | leads
    · exact absurd free linked
    · exact walkLoop_leads cb data leads (nodup_cons.mp ring.nodup).1 enough

theorem listContains_leads {a it : Model} (b : Model) {rest : List Model}
    (leads : Leads next (it :: rest) a) (notHome : a ∉ rest)
    (enough : rest.length < fuel) : listContains next a b fuel (some it) =
      some (decide (b ∈ (it :: rest).dropLast)) := by
  induction rest generalizing it fuel with
  | nil =>
    cases fuel with
    | zero => cases enough
    | succ fuel =>
      have last : next it = some a := leads.1
      rw [listContains, if_pos last]
      rfl
  | cons second rest ih =>
    cases fuel with
    | zero => cases enough
    | succ fuel =>
      obtain ⟨here, away, later, restHome⟩ := leads.onward notHome
      have short : rest.length < fuel := by
        rw [length_cons] at enough
        omega
      rw [listContains, if_neg away, here, dropLast_cons_cons,
        ih later restHome short]
      split
      · rename_i found
        simp [found]
      · rename_i other
        simp [Ne.symm other]

theorem listContains_ring {a b : Model}
    (ring : RingAt next a others) (different : a ≠ b)
    (enough : others.length + 1 < fuel) : listContains next a b fuel (some a) =
      some (decide (b ∈ (a :: others).dropLast)) := by
  rcases ring.round with ⟨alone, free⟩ | leads
  · subst alone
    obtain ⟨rest, rfl⟩ : ∃ rest, fuel = rest + 2 := ⟨fuel - 2, by simp at enough; omega⟩
    rw [listContains, if_neg (by simp [free]), if_neg different, free, listContains]
    rfl
  · exact listContains_leads b leads (nodup_cons.mp ring.nodup).1 (by omega)

omit [DecidableEq Model] in
theorem visits_collect (models seen : List Model) :
    visits (fun it seen => (seen ++ [it], Walk.walkContinue)) models seen =
      seen ++ models := by
  induction models generalizing seen with
  | nil => simp [visits]
  | cons model rest ih => exact (ih (seen ++ [model])).trans (by simp)

end Walks

section Extending

variable {Model : Type} [DecidableEq Model] [Fintype Model]

/-- The part of `struct bt_mesh_model` that extension reads and writes. -/
structure Extensions (Model : Type) where
  next : Model → Option Model
  extended : Model → Bool

variable {state : Extensions Model}

def walkFuel (Model : Type) [Fintype Model] : Nat := Fintype.card Model + 2

def modelExtend (state : Extensions Model) (extendingMod baseMod : Model) :
    Extensions Model :=
  let marked :=
    { state with
      extended := fun model => model = baseMod || state.extended model }
  if extendingMod = baseMod then
    marked
  else if listContains state.next extendingMod baseMod (walkFuel Model)
      (some extendingMod) = some true then
    marked
  else
    { marked with next := exchanged state.next extendingMod baseMod }

def bootExtensions (Model : Type) : Extensions Model :=
  ⟨fun _ => none, fun _ => false⟩

def extensionsMachine : Machine (Extensions Model) (Model × Model) Unit :=
  ⟨fun state call => (modelExtend state call.1 call.2, [])⟩

def visited (state : Extensions Model) (model : Model) : Option (List Model) :=
  extensionsWalk state.next (walkFuel Model) model
    (fun it seen => (seen ++ [it], .walkContinue)) []

def Component (calls : List (Model × Model)) : Model → Model → Prop :=
  Relation.EqvGen fun extending base => (extending, base) ∈ calls

theorem length_lt_walkFuel {Model : Type} [Fintype Model]
    {next : Model → Option Model} {model : Model} {others : List Model} (ring : RingAt next model others) :
    others.length + 1 < walkFuel Model := by
  have bound := ring.nodup.length_le_card
  rw [length_cons] at bound
  rw [walkFuel]
  omega

theorem visited_ring {model : Model} {others : List Model}
    (ring : RingAt state.next model others) :
    visited state model = some (walked state.next model others) := by
  have short := length_lt_walkFuel ring
  rw [visited, extensionsWalk_ring ring (by omega), visits_collect, nil_append]

/-- What one call does to the rings: nothing, or the exchange of the two
successors, between two rings or between the extending model and the one in
front of it. -/
inductive ExtendEffect (next : Model → Option Model) (a b : Model) :
    (Model → Option Model) → Prop
  | known (reaches : Reaches next a b) : ExtendEffect next a b next
  | merged (apart : ¬ Reaches next a b) : ExtendEffect next a b (exchanged next a b)
  | split (before : List Model) (ring : RingAt next a (before ++ [b]))
      (different : a ≠ b) (last : next b = some a) :
      ExtendEffect next a b (exchanged next a b)

theorem modelExtend_effect (rings : AllRings state.next) (a b : Model) :
    ExtendEffect state.next a b (modelExtend state a b).next := by
  obtain ⟨others, ring⟩ := rings a
  unfold modelExtend
  split
  · rename_i same
    exact .known (same ▸ .refl)
  rename_i different
  rw [listContains_ring ring different (length_lt_walkFuel ring)]
  by_cases early : b ∈ (a :: others).dropLast
  · rw [if_pos (by simpa using early)]
    exact .known ((ring.reaches_iff b).mpr (mem_of_mem_dropLast early))
  rw [if_neg (by simpa using early)]
  by_cases member : b ∈ a :: others
  · have inOthers : b ∈ others := by
      rcases mem_cons.mp member with same | inside
      · exact absurd same.symm different
      · exact inside
    obtain ⟨before, after, rfl⟩ := append_of_mem inOthers
    have atEnd : after = [] := by
      cases after with
      | nil => rfl
      | cons =>
        refine absurd ?_ early
        rw [← cons_append, dropLast_append_cons, dropLast_cons_cons]
        simp
    subst atEnd
    have leads := ring.leads_others
    rw [leads_append] at leads
    exact .split before ring different leads.2.1
  · exact .merged fun reaches => member ((ring.reaches_iff b).mp reaches)

omit [Fintype Model] in
theorem ExtendEffect.allRings {next after : Model → Option Model} {a b : Model}
    (effect : ExtendEffect next a b after) (rings : AllRings next) :
    AllRings after := by
  cases effect with
  | known => exact rings
  | merged apart => exact (rings.exchange_apart apart).1
  | split before ring => exact rings.exchange_last ring

omit [DecidableEq Model] [Fintype Model] in
theorem allRings_boot : AllRings (bootExtensions Model).next :=
  fun _ => ⟨[], by simp, .inl ⟨rfl, rfl⟩⟩

theorem allRings_run (calls : List (Model × Model)) (rings : AllRings state.next) :
    AllRings (extensionsMachine.run state calls).next := by
  induction calls generalizing state with
  | nil => exact rings
  | cons call rest ih =>
    exact ih ((modelExtend_effect rings call.1 call.2).allRings rings)

def RingsAreComponents (calls : List (Model × Model)) : Prop :=
  ∀ model other,
    Reaches (extensionsMachine.run (bootExtensions Model) calls).next model other ↔
      Component calls model other

def WalksComponents (calls : List (Model × Model)) : Prop :=
  ∀ model, ∃ models,
    visited (extensionsMachine.run (bootExtensions Model) calls) model =
        some models ∧
      models.Nodup ∧ ∀ other, other ∈ models ↔ Component calls model other

theorem visited_run (calls : List (Model × Model)) (model : Model) :
    ∃ models, visited (extensionsMachine.run (bootExtensions Model) calls) model =
        some models ∧ models.Nodup ∧ ∀ other, other ∈ models ↔
        Reaches (extensionsMachine.run (bootExtensions Model) calls).next model
            other ∧
          (extensionsMachine.run (bootExtensions Model) calls).next other ≠
            some model := by
  have rings := allRings_run calls (@allRings_boot Model)
  generalize extensionsMachine.run (bootExtensions Model) calls = state at rings ⊢
  obtain ⟨_, ring⟩ := rings model
  refine ⟨_, visited_ring ring, ?_, ?_⟩
  · unfold walked
    split
    · simp
    · exact ring.nodup.sublist (dropLast_sublist _)
  · intro other
    rw [ring.reaches_iff]
    unfold walked
    rcases ring.round with ⟨alone, free⟩ | leads
    · subst alone
      rw [if_pos free]
      constructor
      · intro member
        rw [mem_singleton] at member
        subst member
        exact ⟨mem_singleton_self _, by simp [free]⟩
      · exact And.left
    · rw [if_neg (by rw [leads.1]; simp)]
      exact leads.mem_dropLast_iff ring.nodup other

theorem modelExtend_self (state : Extensions Model) (model : Model) :
    (modelExtend state model model).next = state.next := by
  unfold modelExtend
  rw [if_pos rfl]

theorem run_self {calls : List (Model × Model)}
    (selves : ∀ call ∈ calls, call.1 = call.2) (state : Extensions Model) :
    (extensionsMachine.run state calls).next = state.next := by
  induction calls generalizing state with
  | nil => rfl
  | cons call rest ih =>
    obtain ⟨extending, base⟩ := call
    obtain rfl : extending = base := selves _ (mem_cons_self ..)
    rw [Machine.run_cons, ih fun other member =>
      selves other (mem_cons_of_mem _ member)]
    exact modelExtend_self state extending

omit [DecidableEq Model] [Fintype Model] in
theorem component_self {calls : List (Model × Model)}
    (selves : ∀ call ∈ calls, call.1 = call.2) (model other : Model) :
    Component calls model other ↔ model = other := by
  constructor
  · intro related
    induction related with
    | rel extending base member => exact selves _ member
    | refl => rfl
    | symm _ _ _ ih => exact ih.symm
    | trans _ _ _ _ _ first second => exact first.trans second
  · rintro rfl
    exact .refl _

/-- A walk over a ring of several models misses the last one, so the calls that
relate no model to another one are the only ones that walks get right. -/
theorem extensions_exact_iff (calls : List (Model × Model)) :
    RingsAreComponents calls ∧ WalksComponents calls ↔
      ∀ call ∈ calls, call.1 = call.2 := by
  constructor
  · rintro ⟨rings, walks⟩ ⟨extending, base⟩ member
    have related : Component calls extending base := .rel _ _ member
    obtain ⟨models, walk, _, missed⟩ := visited_run calls extending
    obtain ⟨models', walk', _, whole⟩ := walks extending
    obtain rfl : models = models' := Option.some.inj (walk.symm.trans walk')
    -- The model in front of the extending one is related to it and not visited.
    have allRings := allRings_run calls (@allRings_boot Model)
    obtain ⟨_, ring⟩ := allRings extending
    have inRing := (ring.reaches_iff base).mp ((rings _ _).mpr related)
    rcases ring.round with ⟨alone, _⟩ | leads
    · subst alone
      exact (mem_singleton.mp inRing).symm
    obtain ⟨last, inside, back⟩ := leads.exists_last
    have reached := (ring.reaches_iff last).mpr inside
    have seen := (whole last).mpr ((rings _ _).mp reached)
    exact absurd back ((missed last).mp seen).2
  · intro selves
    have same := run_self selves (bootExtensions Model)
    have ring : ∀ model, RingAt
        (extensionsMachine.run (bootExtensions Model) calls).next model [] := by
      intro model
      rw [same]
      exact ⟨by simp, .inl ⟨rfl, rfl⟩⟩
    constructor
    · intro model other
      rw [(ring model).reaches_iff, component_self selves, mem_singleton, eq_comm]
    · intro model
      refine ⟨[model], ?_, by simp, ?_⟩
      · rw [visited_ring (ring model), walked, same]
        rfl
      · intro other
        rw [component_self selves, mem_singleton, eq_comm]

end Extending

theorem extensions_two_models : ¬ WalksComponents [((0 : Fin 2), (1 : Fin 2))] ∧
      ¬ RingsAreComponents [((0 : Fin 2), (1 : Fin 2)), (0, 1)] := by
  constructor
  · intro walks
    obtain ⟨models, walk, _, whole⟩ := walks 0
    have onlyFirst : some [0] = some models := walk
    cases onlyFirst
    have second := (whole 1).mpr (.rel _ _ (by simp))
    simp at second
  · intro rings
    have alone : RingAt (extensionsMachine.run (bootExtensions (Fin 2))
        [((0 : Fin 2), (1 : Fin 2)), (0, 1)]).next 0 [] :=
      ⟨by simp, .inr ⟨rfl, trivial⟩⟩
    have reached := (rings 0 1).mpr (.rel _ _ (by simp))
    have second := (alone.reaches_iff 1).mp reached
    simp at second

end ZephyrBluetooth.Mesh
