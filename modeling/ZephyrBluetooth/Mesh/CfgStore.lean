import ZephyrBluetooth.Mesh.CfgRefs

namespace ZephyrBluetooth.Mesh

open Data List Function

/-! The settings records of the models, written for the flags that the
configuration messages leave, and the subscriptions that they restore. -/

structure ModPubVal where
  addr : Nat
  key : Nat
  ttl : Nat
  retransmit : Nat
  period : Nat
  cred : Bool

/-- The `bind`, `sub` and `pub` records of one model. -/
structure ModelRecords where
  bind : Option (List Nat)
  sub : Option (List Nat)
  pub : Option ModPubVal

def storeList (empty : Nat) (entries : List Nat) : Option (List Nat) :=
  match entries.filter (· ≠ empty) with
  | [] => none
  | stored => some stored

def storePendingModBind (model : Model) : Option (List Nat) :=
  storeList keyUnused model.keys

def storePendingModSub (model : Model) : Option (List Nat) :=
  storeList addrUnassigned model.groups

def storePendingModPub (model : Model) : Option ModPubVal :=
  match model.pub with
  | none => none
  | some pub =>
    if pub.addr = addrUnassigned then none
    else some ⟨pub.addr, pub.key, pub.ttl, pub.retransmit, pub.period, pub.cred⟩

def storePendingMod (model : Model) (records : ModelRecords) :
    Model × ModelRecords :=
  ({ model with bindPending := false, subPending := false, pubPending := false },
    { bind := if model.bindPending then storePendingModBind model else records.bind
      sub := if model.subPending then storePendingModSub model else records.sub
      pub := if model.pubPending then storePendingModPub model else records.pub })

/-- The groups of a model with `size` entries after `mod_set_sub`. -/
def modSetSub (size : Nat) (record : Option (List Nat)) : List Nat :=
  match record with
  | none => List.replicate size addrUnassigned
  | some groups =>
    groups.take size ++ List.replicate (size - groups.length) addrUnassigned

section Storing

variable {count : Nat}

structure CfgStore (count : Nat) where
  ram : CfgState count
  records : Fin count → ModelRecords

def modelPendingStore (store : CfgStore count) : CfgStore count where
  ram := { store.ram with
    models := fun mod =>
      (storePendingMod (store.ram.models mod) (store.records mod)).1 }
  records mod := (storePendingMod (store.ram.models mod) (store.records mod)).2

inductive StoreInput where
  | msg (msg : CfgMsg)
  | pendingStore

def cfgStoreMachine (cfg : Config) (mac : LabelMac) (comp : Comp count) :
    Machine (CfgStore count) StoreInput Answer where
  step store input :=
    match input with
    | .msg msg =>
      let (ram, answers) := cfgMsg cfg mac comp store.ram msg
      ({ store with ram := ram }, answers)
    | .pendingStore => (modelPendingStore store, [])

def SameSubs (groups others : List Nat) : Prop :=
  ∀ addr, addr ≠ addrUnassigned → (addr ∈ groups ↔ addr ∈ others)

theorem mem_modSetSub (size : Nat) (record : Option (List Nat)) {addr : Nat}
    (assigned : addr ≠ addrUnassigned) :
    addr ∈ modSetSub size record ↔ addr ∈ (record.getD []).take size := by
  cases record with
  | none => simp [modSetSub, assigned]
  | some => simp [modSetSub, assigned]

theorem storeList_getD (empty : Nat) (entries : List Nat) :
    (storeList empty entries).getD [] = entries.filter (· ≠ empty) := by
  unfold storeList
  split
  · rename_i none
    rw [none]
    rfl
  · rfl

theorem modSetSub_stored (model : Model) :
    SameSubs (modSetSub model.groups.length (storePendingModSub model))
      model.groups := by
  intro addr assigned
  have fits : (model.groups.filter (· ≠ addrUnassigned)).length ≤
      model.groups.length := length_filter_le ..
  rw [mem_modSetSub _ _ assigned, storePendingModSub, storeList_getD,
    take_of_length_le fits, mem_filter]
  simp [assigned]

def Restores (model : Model) (record : Option (List Nat)) : Prop :=
  SameSubs (modSetSub model.groups.length record) model.groups

def SubRecorded (model : Model) (record : Option (List Nat)) : Prop :=
  model.subPending = true ∨ Restores model record

structure Tracked (before after : Model) : Prop where
  size : after.groups.length = before.groups.length
  marked : after.subPending = true ∨
    after.subPending = before.subPending ∧ SameSubs before.groups after.groups

theorem Tracked.recorded {before after : Model} {record : Option (List Nat)}
    (tracked : Tracked before after) (recorded : SubRecorded before record) :
    SubRecorded after record := by
  rcases tracked.marked with marked | ⟨same, subs⟩
  · exact .inl marked
  rcases recorded with pending | restores
  · exact .inl (same.trans pending)
  right
  intro addr assigned
  rw [tracked.size]
  exact (restores addr assigned).trans (subs addr assigned)

theorem Tracked.of_eq {before after : Model}
    (groups : after.groups = before.groups)
    (pending : after.subPending = before.subPending) : Tracked before after :=
  ⟨by rw [groups], .inr ⟨pending, fun _ _ => by rw [groups]⟩⟩

theorem Tracked.refl (model : Model) : Tracked model model :=
  .of_eq rfl rfl

variable {model : Model}

theorem Tracked.update {models : Fin count → Model} {mod : Fin count}
    (changed : Tracked (models mod) model) (other : Fin count) :
    Tracked (models other) (update models mod model other) := by
  by_cases same : other = mod
  · subst same
    rw [update_self]
    exact changed
  · rw [update_of_ne same]
    exact .refl _

/-- A clearing finds no other model on the list of its model that has a
subscription and is not marked already. -/
def storeAdmitted (mac : LabelMac) (comp : Comp count) (mod : Fin count)
    (state : CfgState count) (msg : CfgMsg) : Prop :=
  msg.clears mac (state.models mod) state.vas = true →
    ∀ other ∈ visitedModels comp mod, other ≠ mod →
      (state.models other).subPending = true ∨
        ∀ addr ∈ (state.models other).groups, addr = addrUnassigned

theorem groupsCleared_tracked
    (admitted : model.subPending = true ∨
      ∀ addr ∈ model.groups, addr = addrUnassigned) :
    Tracked model model.groupsCleared := by
  refine ⟨length_map .., ?_⟩
  rcases admitted with pending | unsubscribed
  · exact .inl pending
  right
  refine ⟨rfl, ?_⟩
  intro addr assigned
  constructor
  · intro member
    exact absurd (unsubscribed addr member) assigned
  · intro member
    obtain ⟨_, _, rfl⟩ := mem_map.mp member
    exact absurd rfl assigned

theorem cleared_tracked {comp : Comp count} {mod : Fin count}
    {models : Fin count → Model}
    (admitted : ∀ other ∈ visitedModels comp mod, other ≠ mod →
      (models other).subPending = true ∨
        ∀ addr ∈ (models other).groups, addr = addrUnassigned)
    (size : model.groups.length = (clearedModels comp mod models mod).groups.length)
    (marked : model.subPending = true) (other : Fin count) :
    Tracked (models other)
      (update (clearedModels comp mod models) mod model other) := by
  by_cases same : other = mod
  · subst same
    rw [update_self]
    refine ⟨?_, .inl marked⟩
    rw [size, clearedModels]
    split
    · exact length_map ..
    · rfl
  · rw [update_of_ne same, clearedModels]
    split
    · rename_i isVisited
      exact groupsCleared_tracked (admitted other isVisited same)
    · exact .refl _

theorem cfgModelMsg_tracked {cfg : Config} (settings : cfg.settings = true)
    (mac : LabelMac) (comp : Comp count) (mod : Fin count)
    (state : CfgState count) (msg : CfgMsg)
    (admitted : storeAdmitted mac comp mod state msg) (other : Fin count) :
    Tracked (state.models other)
      ((cfgModelMsg cfg mac comp mod state msg).2.models other) := by
  have effect := cfgModelMsg_effect cfg mac comp mod state msg
  generalize (cfgModelMsg cfg mac comp mod state msg).2.models = after at effect ⊢
  cases effect with
  | kept => exact .refl _
  | stored =>
    apply Tracked.update
    exact ⟨length_set, .inl (by simp [Model.subStore, settings])⟩
  | overwritten addr clears =>
    apply cleared_tracked (admitted clears)
    · exact length_set
    · simp [Model.subStore, settings]
  | emptied clears =>
    apply cleared_tracked (admitted clears)
    · rfl
    · simp [Model.subStore, settings]
  | pubCleared =>
    apply Tracked.update
    exact .of_eq rfl rfl
  | pubAssigned =>
    apply Tracked.update
    exact .of_eq rfl rfl

def AllRecorded (store : CfgStore count) : Prop :=
  ∀ mod, SubRecorded (store.ram.models mod) (store.records mod).sub

def storeKeeping (mac : LabelMac) (comp : Comp count) (store : CfgStore count) :
    StoreInput → Prop
  | .msg msg =>
    ∀ mod, msg.wellFormed = true →
      modelLookup comp msg.target.1 msg.target.2 = .ok mod →
        storeAdmitted mac comp mod store.ram msg
  | .pendingStore => True

theorem modelPendingStore_restores {store : CfgStore count}
    (recorded : AllRecorded store) (mod : Fin count) :
    Restores ((modelPendingStore store).ram.models mod)
      ((modelPendingStore store).records mod).sub := by
  simp only [modelPendingStore, storePendingMod]
  split
  · exact modSetSub_stored (store.ram.models mod)
  rename_i notPending
  rcases recorded mod with pending | restores
  · exact absurd pending notPending
  · exact restores

theorem storeStep_recorded {cfg : Config} (settings : cfg.settings = true)
    (mac : LabelMac) (comp : Comp count) {store : CfgStore count}
    {input : StoreInput} (recorded : AllRecorded store)
    (keeping : storeKeeping mac comp store input) :
    AllRecorded ((cfgStoreMachine cfg mac comp).next store input) := by
  cases input with
  | pendingStore =>
    intro mod
    exact .inr (modelPendingStore_restores recorded mod)
  | msg msg =>
    intro mod
    simp only [Machine.next, cfgStoreMachine]
    rcases cfgMsg_cases cfg mac comp store.ram msg with
      ⟨answer, result⟩ | ⟨target, wellFormed, lookup, result⟩
    · rw [result]
      exact recorded mod
    rw [result]
    exact (cfgModelMsg_tracked settings mac comp target store.ram msg
      (keeping target wellFormed lookup) mod).recorded (recorded mod)

/-- Every model has its subscriptions back after the pending flags are stored. -/
theorem cfg_subs_restored {cfg : Config} (settings : cfg.settings = true)
    (mac : LabelMac) (comp : Comp count) {store : CfgStore count}
    (start : AllRecorded store) (inputs : List StoreInput)
    (along : (cfgStoreMachine cfg mac comp).Along (storeKeeping mac comp)
      store inputs) (mod : Fin count) : Restores
      ((modelPendingStore ((cfgStoreMachine cfg mac comp).run store inputs)).ram.models mod)
      ((modelPendingStore
        ((cfgStoreMachine cfg mac comp).run store inputs)).records mod).sub := by
  have always := Machine.always_of_along
    (fun _ _ recorded keeping => storeStep_recorded settings mac comp recorded keeping)
    start along
  exact modelPendingStore_restores always.last mod

end Storing

def ringComp : Comp 3 where
  primary := 1
  elemCount := 1
  elemIdx _ := 0
  modelId ix := .sig ix.val
  ext := extensionsMachine.run (bootExtensions (Fin 3)) [(0, 1), (1, 2)]
  rings := allRings_run _ allRings_boot

def ringStore : CfgStore 3 :=
  ⟨⟨fun _ => sampleModel, List.replicate 2 ⟨0, false, 0, 0⟩⟩,
    fun _ => ⟨some [0], none, none⟩⟩

theorem ringStore_recorded : AllRecorded ringStore := by
  intro mod
  right
  intro addr assigned
  simp [modSetSub, ringStore, sampleModel, addrUnassigned]

theorem cfg_subs_restored_overwrite : Restores
      ((modelPendingStore ((cfgStoreMachine sampleCfgConfig sampleMac ringComp).run
        ringStore [.msg (.subAdd 1 (.sig 0) 0xc000),
          .msg (.subOverwrite 1 (.sig 0) 0xc001)])).ram.models 1)
      ((modelPendingStore ((cfgStoreMachine sampleCfgConfig sampleMac ringComp).run
        ringStore [.msg (.subAdd 1 (.sig 0) 0xc000),
          .msg (.subOverwrite 1 (.sig 0) 0xc001)])).records 1).sub := by
  apply cfg_subs_restored rfl sampleMac ringComp ringStore_recorded
  refine ⟨?_, ?_, trivial⟩
  · rintro target _ _ clears
    cases clears
  · rintro target _ lookup
    cases lookup
    unfold storeAdmitted
    decide +kernel

theorem cfg_subs_lost : AllRecorded ringStore ∧ ¬ ∀ mod, Restores
        ((modelPendingStore ((cfgStoreMachine sampleCfgConfig sampleMac ringComp).run
          ringStore [.msg (.subAdd 1 (.sig 1) 0xc000), .pendingStore,
            .msg (.subOverwrite 1 (.sig 0) 0xc001)])).ram.models mod)
        ((modelPendingStore ((cfgStoreMachine sampleCfgConfig sampleMac ringComp).run
          ringStore [.msg (.subAdd 1 (.sig 1) 0xc000), .pendingStore,
            .msg (.subOverwrite 1 (.sig 0) 0xc001)])).records mod).sub := by
  refine ⟨ringStore_recorded, ?_⟩
  intro restores
  have same := restores 1 0xc000 (by decide)
  revert same
  decide +kernel

end ZephyrBluetooth.Mesh
