import ZephyrBluetooth.Mesh.Replay

namespace ZephyrBluetooth.Mesh

open Bool Data Function List Option

variable {rpl : Rpl} {ivIndex : Nat} {ivUpdate : Bool}

/-- The network state with, for each slot, the IV index of the message that was
recorded there last. -/
structure TaggedNet where
  net : Net
  recorded : Nat → Nat

variable {state : TaggedNet}

inductive TagInput where
  | recv (rx : NetRx)
  | update (slot : Nat) (rx : NetRx)
  | ivUpdate (ivIndex : UInt32) (ivUpdate txInProgress : Bool)
  | ivuRefresh (txInProgress : Bool)
  | ivUpdateTest (enable : Bool)
  | pendingStore (addr : Nat)

def TaggedNet.record (state : TaggedNet) (slot : Nat) (rx : NetRx)
    (rpl : ReplayList) : TaggedNet where
  net := { state.net with rpl := rpl }
  recorded :=
    update state.recorded slot (netIviRx state.net.ivIndex rx)

def tagStep (cfg : Config) (state : TaggedNet) : TagInput → TaggedNet
  | .recv rx =>
    let rpl := (rplCheck cfg state.net.rpl rx false).2
    match checked rx, rplScan rx state.net.rpl.list with
    | true, some slot => state.record slot rx rpl
    | _, _ => { state with net := { state.net with rpl := rpl } }
  | .update slot rx => state.record slot rx (rplUpdate cfg state.net.rpl slot rx)
  | .ivUpdate ivIndex ivUpdate txInProgress =>
    { state with
      net :=
        (netIvUpdate cfg state.net ivIndex.toNat ivUpdate txInProgress).2 }
  | .ivuRefresh txInProgress =>
    { state with net := ivuRefresh cfg state.net txInProgress }
  | .ivUpdateTest enable => { state with net := ivUpdateTest state.net enable }
  | .pendingStore addr =>
    { state with
      net :=
        { state.net with
          rpl := rplPendingStore cfg state.net.valid state.net.rpl addr } }

def tagMachine (cfg : Config) : Machine TaggedNet TagInput Empty where
  step state input := (tagStep cfg state input, [])

def RightIv (state : TaggedNet) : Prop :=
  ∀ slot rpl, state.net.rpl.list[slot]? = some rpl → rpl.src ≠ 0 →
    ivBefore state.net.ivIndex rpl.oldIv = state.recorded slot

def ComparedWithin (state : TaggedNet) : Prop :=
  ∀ slot rpl (rx : NetRx), state.net.rpl.list[slot]? = some rpl →
    rpl.src = rx.addr → rpl.oldIv = rx.oldIv →
    state.recorded slot = netIviRx state.net.ivIndex rx

/-- What `bt_mesh_rpl_clear` and `bt_mesh_rpl_reset` leave behind in an IV
Index Recovery when the clear is deferred to the settings work. -/
def survives (ivUpdate : Bool) (rpl : Rpl) : Bool :=
  rpl.src != 0 && !(ivUpdate && rpl.oldIv)

def ClearedInTime (cfg : Config) (state : TaggedNet) : TagInput → Prop
  | .ivUpdate ivIndex ivUpdate _ =>
    recovers state.net ivIndex.toNat → cfg.settings = true →
      state.net.rpl.list.any (survives ivUpdate) = false
  | _ => True

instance (cfg : Config) (state : TaggedNet) :
    DecidablePred (ClearedInTime cfg state)
  | .recv _ => inferInstanceAs (Decidable True)
  | .update _ _ => inferInstanceAs (Decidable True)
  | .ivUpdate _ _ _ => inferInstanceAs (Decidable (_ → _ → _))
  | .ivuRefresh _ => inferInstanceAs (Decidable True)
  | .ivUpdateTest _ => inferInstanceAs (Decidable True)
  | .pendingStore _ => inferInstanceAs (Decidable True)

theorem storePendingRpl_list (rl : ReplayList) (slot : Nat) :
    (storePendingRpl rl slot).list = rl.list := by
  unfold storePendingRpl
  split
  · unfold storeRpl
    split <;> rfl
  · rfl

theorem rplPendingStore_list (cfg : Config) (rl : ReplayList) (addr : Nat) :
    (rplPendingStore cfg true rl addr).list = rl.list := by
  have folded : ∀ (slots : List Nat) (start : ReplayList),
      (slots.foldl storePendingRpl start).list = start.list := by
    intro slots
    induction slots with
    | nil => intro start; rfl
    | cons slot rest ih =>
      intro start
      rw [foldl_cons, ih, storePendingRpl_list]
  unfold rplPendingStore
  split
  · rfl
  simp only [if_true]
  rw [folded]
  split <;> rfl

theorem RightIv.record (right : RightIv state) {slot : Nat} {rx : NetRx}
    {updated : ReplayList}
    (stored : updated.list = state.net.rpl.list.set slot (rpl.update rx)) :
    RightIv (state.record slot rx updated) := by
  intro other entry found used
  simp only [TaggedNet.record, stored, getElem?_set] at found
  by_cases same : slot = other
  · subst same
    rw [if_pos rfl] at found
    split at found
    · cases found
      simp only [TaggedNet.record, update_self]
      rfl
    · cases found
  · rw [if_neg same] at found
    simp only [TaggedNet.record]
    rw [update_of_ne (Ne.symm same)]
    exact right other entry found used

theorem RightIv.update (right : RightIv state) (cfg : Config) (slot : Nat)
    (rx : NetRx) :
    RightIv (state.record slot rx (rplUpdate cfg state.net.rpl slot rx)) := by
  cases stored : state.net.rpl.list[slot]? with
  | some => exact right.record (rplUpdate_list cfg _ slot rx stored)
  | none =>
    -- A slot outside the list records nothing.
    have unchanged : rplUpdate cfg state.net.rpl slot rx = state.net.rpl := by
      unfold rplUpdate
      rw [stored]
    rw [unchanged]
    intro other entry found used
    have inside : other ≠ slot := by
      intro same
      subst same
      have absent : state.net.rpl.list[other]? = some entry := found
      rw [stored] at absent
      cases absent
    simp only [TaggedNet.record]
    rw [update_of_ne inside]
    exact right other entry found used

theorem RightIv.recv (right : RightIv state) (cfg : Config) (rx : NetRx) :
    RightIv (tagStep cfg state (.recv rx)) := by
  cases consulted : checked rx with
  | false =>
    simp only [tagStep, consulted, rplCheck_unchecked consulted]
    exact right
  | true =>
    rcases rplCheck_checked cfg state.net.rpl consulted with
      ⟨outcome, scan⟩ | ⟨slot, scan, outcome⟩
    · simp only [tagStep, consulted, scan, outcome]
      exact right
    · simp only [tagStep, consulted, scan, outcome]
      exact right.update cfg slot rx

theorem ivBefore_succ (bound : ivIndex + 1 < 2 ^ 32) :
    ivBefore (ivIndex + 1) true = ivBefore ivIndex false := by
  simp only [ivBefore, toNat_true, toNat_false]
  omega

theorem age_of_used (used : rpl.age.src ≠ 0) :
    rpl.src ≠ 0 ∧ rpl.oldIv = false ∧ rpl.age.oldIv = true := by
  unfold Rpl.age at used ⊢
  by_cases unused : rpl.src = 0
  · rw [if_pos unused] at used
    exact absurd unused used
  rw [if_neg unused] at used ⊢
  cases old : rpl.oldIv with
  | true =>
    rw [old, if_pos rfl] at used
    exact absurd rfl used
  | false => exact ⟨unused, rfl, rfl⟩

theorem RightIv.enter (right : RightIv state) (cfg : Config)
    (successor : ivIndex = state.net.ivIndex + 1) (bound : ivIndex < 2 ^ 32) :
    RightIv { state with net := doUpdate cfg state.net ivIndex true } := by
  intro slot entry found used
  simp only [doUpdate_rpl, if_true, rplReset_list, getElem?_map,
    map_eq_some_iff] at found
  obtain ⟨rpl, stored, rfl⟩ := found
  obtain ⟨wasUsed, fresh, old⟩ := age_of_used used
  simp only [doUpdate_ivIndex, if_true]
  rw [old, successor, ivBefore_succ (by omega), ← fresh]
  exact right slot rpl stored wasUsed

/-! A recovery without settings empties the list, and one with settings
mislabels every entry that survives. -/

def recoveredSlot (cfg : Config) (ivUpdate : Bool) (rpl : Rpl) : Rpl :=
  let cleared := if cfg.settings then rpl else Rpl.empty
  if ivUpdate then cleared.age else cleared

theorem recovered_list (cfg : Config) (net : Net) (ivIndex : Nat)
    (ivUpdate : Bool) :
    (doUpdate cfg (recovered cfg net ivIndex) ivIndex ivUpdate).rpl.list =
      net.rpl.list.map (recoveredSlot cfg ivUpdate) := by
  rw [doUpdate_rpl]
  unfold recoveredSlot
  cases ivUpdate with
  | false =>
    simp only [recovered, false_eq_true, if_false, rplClear_list]
    cases cfg.settings with
    | false => rfl
    | true => exact (map_id _).symm
  | true =>
    simp only [recovered, if_true, rplReset_list, rplClear_list]
    cases cfg.settings with
    | false => exact map_map
    | true => rfl

variable {cfg : Config}

theorem recoveredSlot_used (used : (recoveredSlot cfg ivUpdate rpl).src ≠ 0) :
    cfg.settings = true ∧ survives ivUpdate rpl = true := by
  cases settings : cfg.settings with
  | false =>
    simp only [recoveredSlot, settings] at used
    cases ivUpdate <;> exact absurd rfl used
  | true =>
    refine ⟨rfl, ?_⟩
    simp only [recoveredSlot, settings, if_true] at used
    cases ivUpdate with
    | false => simpa [survives] using used
    | true =>
      obtain ⟨wasUsed, fresh, _⟩ := age_of_used used
      simp [survives, wasUsed, fresh]

theorem recoveredSlot_survivor (settings : cfg.settings = true)
    (alive : survives ivUpdate rpl = true) :
    rpl.src ≠ 0 ∧
      recoveredSlot cfg ivUpdate rpl = { rpl with oldIv := ivUpdate || rpl.oldIv } ∧
      (ivUpdate = true → rpl.oldIv = false) := by
  simp only [survives, and_eq_true, bne_iff_ne, ne_eq,
    not_eq_true', and_eq_false_iff] at alive
  refine ⟨alive.1, ?_, ?_⟩
  · simp only [recoveredSlot, settings, if_true]
    cases ivUpdate with
    | false => rfl
    | true =>
      have fresh : rpl.oldIv = false := by simpa using alive.2
      simp [Rpl.age, alive.1, fresh]
  · intro flag
    simpa [flag] using alive.2

theorem ivBefore_jump {old new : Nat} (flag : Bool) (ahead : old + 1 < new)
    (bound : new < 2 ^ 32) : ivBefore new flag ≠ ivBefore old flag ∧
      ivBefore new true ≠ ivBefore old false := by
  cases flag <;> simp only [ivBefore, toNat_true, toNat_false] <;> omega

theorem rightIv_recover_iff (right : RightIv state) (cfg : Config) (ivUpdate : Bool)
    (recovery : recovers state.net ivIndex) (bound : ivIndex < 2 ^ 32) :
    RightIv
        { state with
          net := doUpdate cfg (recovered cfg state.net ivIndex) ivIndex
            ivUpdate } ↔
      (cfg.settings = true →
        state.net.rpl.list.any (survives ivUpdate) = false) := by
  have ivIndexEq :
      (doUpdate cfg (recovered cfg state.net ivIndex) ivIndex ivUpdate).ivIndex =
        ivIndex := by
    rw [doUpdate_ivIndex]
    exact ite_self _
  constructor
  · intro after settings
    rw [List.any_eq_false]
    intro rpl member alive
    obtain ⟨slot, stored⟩ := getElem?_of_mem member
    obtain ⟨used, slotEq, fresh⟩ := recoveredSlot_survivor settings alive
    have before := right slot rpl stored used
    have kept :
        (doUpdate cfg (recovered cfg state.net ivIndex) ivIndex
          ivUpdate).rpl.list[slot]? =
            some { rpl with oldIv := ivUpdate || rpl.oldIv } := by
      rw [recovered_list, getElem?_map, stored, map_some, slotEq]
    have label := after slot _ kept used
    have jump := ivBefore_jump rpl.oldIv recovery.2.1 bound
    rw [ivIndexEq, ← before] at label
    cases ivUpdate with
    | false => exact jump.1 label
    | true =>
      rw [fresh rfl] at label
      exact jump.2 label
  · intro cleared slot entry found used
    rw [recovered_list, getElem?_map] at found
    obtain ⟨rpl, stored, rfl⟩ := map_eq_some_iff.mp found
    obtain ⟨settings, alive⟩ := recoveredSlot_used used
    have dead := any_eq_false.mp (cleared settings) rpl
      (mem_of_getElem? stored)
    exact absurd alive dead

theorem rightIv_effect (right : RightIv state) {updated : Net}
    (effect : IvUpdateEffect cfg state.net ivIndex ivUpdate updated)
    (usual : ¬ recovers state.net ivIndex) :
    RightIv { state with net := updated } := by
  cases effect with
  | unchanged => exact right
  | deferred => exact right
  | leave =>
    intro slot entry found used
    simp only [doUpdate_rpl, false_eq_true, if_false] at found
    simp only [doUpdate_ivIndex, ite_self]
    exact right slot entry found used
  | enter normal flag successor bound => exact right.enter cfg successor bound
  | recover recovery => exact absurd recovery usual

structure Provisioned (state : TaggedNet) : Prop where
  valid : state.net.valid = true
  bound : state.net.ivIndex < 2 ^ 32

theorem Provisioned.step (cfg : Config) (state : TaggedNet) (input : TagInput)
    (provisioned : Provisioned state) :
    Provisioned ((tagMachine cfg).next state input) := by
  obtain ⟨valid, bound⟩ := provisioned
  cases input with
  | recv rx =>
    simp only [tagMachine, Machine.next, tagStep]
    split <;> exact ⟨valid, bound⟩
  | update => exact ⟨valid, bound⟩
  | ivUpdate ivIndex ivUpdate txInProgress =>
    have effect := netIvUpdate_effect cfg state.net ivIndex.toNat ivUpdate
      txInProgress bound ivIndex.toNat_lt
    exact ⟨effect.valid.trans valid, effect.ivIndex_lt bound⟩
  | ivuRefresh txInProgress =>
    obtain ⟨duration, pending, effect⟩ :=
      ivuRefresh_effect cfg state.net txInProgress bound
    let aged : Net :=
      { state.net with ivuDuration := duration, ivPending := pending }
    have agedBound : aged.ivIndex < 2 ^ 32 := bound
    exact ⟨effect.valid.trans valid, effect.ivIndex_lt agedBound⟩
  | ivUpdateTest => exact ⟨valid, bound⟩
  | pendingStore => exact ⟨valid, bound⟩

theorem rightIv_step_iff (cfg : Config) (state : TaggedNet) (input : TagInput)
    (provisioned : Provisioned state) (right : RightIv state) :
    RightIv ((tagMachine cfg).next state input) ↔ ClearedInTime cfg state input := by
  cases input with
  | recv rx => exact iff_of_true (right.recv cfg rx) trivial
  | update slot rx => exact iff_of_true (right.update cfg slot rx) trivial
  | ivUpdate ivIndex ivUpdate txInProgress =>
    have bound := ivIndex.toNat_lt
    simp only [tagMachine, Machine.next, tagStep, ClearedInTime]
    by_cases recovery : recovers state.net ivIndex.toNat
    · rw [netIvUpdate_recovers cfg ivUpdate txInProgress bound recovery,
        rightIv_recover_iff right cfg ivUpdate recovery bound]
      exact ⟨fun cleared _ => cleared, fun cleared => cleared recovery⟩
    · have effect := netIvUpdate_effect cfg state.net ivIndex.toNat ivUpdate
        txInProgress provisioned.bound bound
      exact iff_of_true (rightIv_effect right effect recovery)
        (fun contrary => absurd contrary recovery)
  | ivuRefresh txInProgress =>
    obtain ⟨duration, pending, effect⟩ :=
      ivuRefresh_effect cfg state.net txInProgress provisioned.bound
    let aged : Net :=
      { state.net with ivuDuration := duration, ivPending := pending }
    have agedRight : RightIv { state with net := aged } := right
    exact iff_of_true
      (rightIv_effect agedRight effect (not_recovers_self aged)) trivial
  | ivUpdateTest => exact iff_of_true right trivial
  | pendingStore addr =>
    refine iff_of_true ?_ trivial
    intro slot entry found used
    simp only [tagMachine, Machine.next, tagStep, provisioned.valid,
      rplPendingStore_list] at found
    exact right slot entry found used

theorem RightIv.comparedWithin (right : RightIv state) :
    ComparedWithin state := by
  intro slot rpl rx stored same flags
  have used : rpl.src ≠ 0 := by
    rw [same]
    exact rx.addr_ne_zero
  rw [← right slot rpl stored used, flags]
  rfl

/-- Every entry carries the right IV index in every state of a run exactly when
each IV Index Recovery with settings enabled starts from a list without
surviving entries. -/
theorem rightIv_always_iff (cfg : Config) (state : TaggedNet)
    (inputs : List TagInput) (provisioned : Provisioned state)
    (right : RightIv state) : ((tagMachine cfg).Always RightIv state inputs ↔
      (tagMachine cfg).Along (ClearedInTime cfg) state inputs) ∧
    ((tagMachine cfg).Along (ClearedInTime cfg) state inputs →
      (tagMachine cfg).Always ComparedWithin state inputs) := by
  have exactly : (tagMachine cfg).Always RightIv state inputs ↔
      (tagMachine cfg).Along (ClearedInTime cfg) state inputs :=
    Machine.always_iff_along (Provisioned.step cfg) (rightIv_step_iff cfg)
      inputs provisioned right
  refine ⟨exactly, ?_⟩
  intro cleared
  exact (exactly.mpr cleared).mono fun _ kept => kept.comparedWithin

def storedConfig : Config :=
  { ivTestConfig with settings := true }

def taggedBoot : TaggedNet where
  net := twoSlotNet
  recorded := fun _ => 0

theorem taggedBoot_rightIv : RightIv taggedBoot := by
  intro slot rpl stored used
  have empty : rpl = Rpl.empty := eq_of_mem_replicate (mem_of_getElem? stored)
  rw [empty] at used
  exact absurd rfl used

def recoveryFirst : List TagInput :=
  [.ivUpdate 10 true false,
    .recv (unicastRx 1 7 true firstAddr_unicast seventhSeq_lt),
    .pendingStore 0xffff]

def recoveryAfterMessage : List TagInput :=
  [.recv (unicastRx 1 7 false firstAddr_unicast seventhSeq_lt),
    .ivUpdate 10 false false,
    .pendingStore 0xffff]

theorem rightIv_always_recoveryFirst :
    (tagMachine storedConfig).Along (ClearedInTime storedConfig) taggedBoot
      recoveryFirst ∧
    (tagMachine storedConfig).Always RightIv taggedBoot recoveryFirst := by
  have cleared : (tagMachine storedConfig).Along (ClearedInTime storedConfig)
      taggedBoot recoveryFirst := by decide
  exact ⟨cleared, (rightIv_always_iff storedConfig taggedBoot recoveryFirst
    ⟨rfl, by decide⟩ taggedBoot_rightIv).1.mpr cleared⟩

theorem rightIv_broken_by_recovery :
    ¬ (tagMachine storedConfig).Always RightIv taggedBoot recoveryAfterMessage ∧
    rplScan (unicastRx 1 3 false) ((tagMachine storedConfig).run taggedBoot
          recoveryAfterMessage).net.rpl.list = none := by
  refine ⟨?_, by decide⟩
  intro always
  have right := always.2.2.2
  have label := right 0 ⟨1, false, 7, 0⟩ (by decide) (by decide)
  revert label
  decide

end ZephyrBluetooth.Mesh
