import ZephyrBluetooth.Data.Machine
import ZephyrBluetooth.Mesh.Net

namespace ZephyrBluetooth.Mesh

open Data Bool List

variable {seq : Nat} {net : Net} {cfg : Config}

/-! The pair of IV index and sequence number that secures a network PDU, over
IV updates and power cycles. -/

structure IvVal where
  ivIndex : Nat
  ivUpdate : Bool
  ivDuration : Nat

/-- The records `bt/mesh/IV` and `bt/mesh/Seq`. -/
structure Saved where
  iv : Option IvVal
  seq : Option Nat

def ivSet (record : Option IvVal) (net : Net) : Net :=
  match record with
  | none => { net with ivIndex := 0, ivuInProgress := false }
  | some iv =>
    { net with
      ivIndex := iv.ivIndex
      ivuInProgress := iv.ivUpdate
      ivuDuration := iv.ivDuration }

/-- The sequence number that `seq_set` resumes from. -/
def resumedSeq (cfg : Config) : Option Nat → Nat
  | none => 0
  | some seq =>
    if 0 < cfg.seqStoreRate then
      (seq + (cfg.seqStoreRate - seq % cfg.seqStoreRate) - 1) % 2 ^ 32
    else
      seq

def seqSet (cfg : Config) (record : Option Nat) (net : Net) : Net :=
  { net with seq := resumedSeq cfg record }

/-- `bt_mesh_net_pending_iv_store`; the duration has seven bits. -/
def netPendingIvStore (net : Net) : Option IvVal :=
  if net.valid then
    some ⟨net.ivIndex, net.ivuInProgress, net.ivuDuration % 2 ^ 7⟩
  else
    none

def netPendingSeqStore (net : Net) : Option Nat :=
  if net.valid then some (net.seq % 2 ^ 24) else none

def Net.reset (net : Net) (rpl : ReplayList) : Net where
  ivIndex := 0
  seq := 0
  valid := net.valid
  ivuInProgress := false
  ivuTest := false
  ivuPending := false
  ivuDuration := 0
  ivPending := false
  seqPending := false
  rpl := rpl

structure Nonce where
  iv : Nat
  seq : Nat
  deriving DecidableEq

variable {nonce : Nonce}

/-- A node with its records; `owed` says that a store scheduled by a sent PDU
has not run yet. -/
structure NonceState where
  net : Net
  saved : Saved
  owed : Bool

variable {state : NonceState}

inductive NonceInput where
  | nextSeq (primary txInProgress : Bool)
  | ivUpdate (ivIndex : UInt32) (ivUpdate txInProgress : Bool)
  | ivuRefresh (txInProgress : Bool)
  | ivUpdateTest (enable : Bool)
  | pendingIvStore
  | pendingSeqStore
  | powerCycle (rpl : ReplayList)

def nonceStep (cfg : Config) (state : NonceState) :
    NonceInput → NonceState × List Nonce
  | .nextSeq primary txInProgress =>
    let (seq, net) := nextSeq cfg state.net primary txInProgress
    ({ state with net := net, owed := state.owed || net.seqPending },
      [⟨netIviTx net, seq % 2 ^ 24⟩])
  | .ivUpdate ivIndex ivUpdate txInProgress =>
    ({ state with
        net :=
          (netIvUpdate cfg state.net ivIndex.toNat ivUpdate txInProgress).2 },
      [])
  | .ivuRefresh txInProgress =>
    ({ state with net := ivuRefresh cfg state.net txInProgress }, [])
  | .ivUpdateTest enable =>
    ({ state with net := ivUpdateTest state.net enable }, [])
  | .pendingIvStore =>
    if state.net.ivPending then
      ({ state with
          net := { state.net with ivPending := false }
          saved :=
            { state.saved with iv := netPendingIvStore state.net } },
        [])
    else
      (state, [])
  | .pendingSeqStore =>
    if state.net.seqPending then
      (⟨{ state.net with seqPending := false },
        { state.saved with seq := netPendingSeqStore state.net }, false⟩, [])
    else
      (state, [])
  | .powerCycle rpl =>
    ({ state with
        net :=
          seqSet cfg state.saved.seq (ivSet state.saved.iv (state.net.reset rpl))
        owed := false },
      [])

def nonceMachine (cfg : Config) : Machine NonceState NonceInput Nonce where
  step := nonceStep cfg

def NonceState.stored (net : Net) : NonceState where
  net := { net with ivPending := false, seqPending := false }
  saved := ⟨netPendingIvStore net, netPendingSeqStore net⟩
  owed := false

/-- Scheduled stores run before the next PDU, IV before Seq, and only a node
with settings comes back from a power cycle. -/
def Scheduled (cfg : Config) (state : NonceState) : NonceInput → Prop
  | .nextSeq _ _ => state.net.ivPending = false ∧ state.net.seqPending = false
  | .pendingSeqStore => state.net.ivPending = false
  | .powerCycle _ => cfg.settings = true ∧ state.owed = false
  | _ => True

/-- The sequence number fits the 24-bit fields it is written to, and the
transmit IV index does not wrap below zero. -/
def InRange (state : NonceState) : NonceInput → Prop
  | .nextSeq _ _ =>
    state.net.seq < 2 ^ 24 ∧ (state.net.ivuInProgress = true → state.net.ivIndex ≠ 0)
  | .pendingSeqStore => state.net.seq < 2 ^ 24
  | _ => True

def Disciplined (cfg : Config) (state : NonceState) (input : NonceInput) :
    Prop :=
  Scheduled cfg state input ∧ InRange state input

instance (cfg : Config) (state : NonceState) : DecidablePred (Scheduled cfg state)
  | .nextSeq _ _ | .powerCycle _ => inferInstanceAs (Decidable (_ ∧ _))
  | .pendingSeqStore => inferInstanceAs (Decidable (_ = _))
  | .ivUpdate _ _ _ | .ivuRefresh _ | .ivUpdateTest _ | .pendingIvStore =>
    .isTrue trivial

instance (state : NonceState) : DecidablePred (InRange state)
  | .nextSeq _ _ => inferInstanceAs (Decidable (_ ∧ _))
  | .pendingSeqStore => inferInstanceAs (Decidable (_ < _))
  | .ivUpdate _ _ _ | .ivuRefresh _ | .ivUpdateTest _ | .pendingIvStore
  | .powerCycle _ => .isTrue trivial

instance (cfg : Config) (state : NonceState) (input : NonceInput) :
    Decidable (Disciplined cfg state input) :=
  inferInstanceAs (Decidable (_ ∧ _))

theorem resumedSeq_eq (cfg : Config) (bound : seq < 2 ^ 24)
    (positive : 0 < cfg.seqStoreRate) : resumedSeq cfg (some seq) + 1 =
      cfg.seqStoreRate * (seq / cfg.seqStoreRate + 1) := by
  have rate := cfg.seqStoreRate_le
  have remainder := Nat.mod_lt seq positive
  have division := Nat.div_add_mod seq cfg.seqStoreRate
  have small :
      seq + (cfg.seqStoreRate - seq % cfg.seqStoreRate) - 1 < 2 ^ 32 := by
    omega
  simp only [resumedSeq, if_pos positive, Nat.mod_eq_of_lt small]
  rw [Nat.mul_add, Nat.mul_one]
  omega

theorem le_resumedSeq (cfg : Config) (bound : seq < 2 ^ 24) :
    seq ≤ resumedSeq cfg (some seq) := by
  by_cases positive : 0 < cfg.seqStoreRate
  · have rounded := resumedSeq_eq cfg bound positive
    have division := Nat.div_add_mod seq cfg.seqStoreRate
    have remainder := Nat.mod_lt seq positive
    rw [Nat.mul_add, Nat.mul_one] at rounded
    omega
  · simp only [resumedSeq, if_neg positive]
    exact Nat.le_refl seq

theorem succ_le_resumedSeq (cfg : Config) {value : Nat} (recorded : value < 2 ^ 24)
    (ahead : seq ≤ resumedSeq cfg (some value)) (rate : 1 < cfg.seqStoreRate)
    (skipped : (seq + 1) % cfg.seqStoreRate ≠ 0) :
    seq + 1 ≤ resumedSeq cfg (some value) := by
  have rounded := resumedSeq_eq cfg recorded (by omega)
  have different : seq ≠ resumedSeq cfg (some value) := by
    intro same
    apply skipped
    rw [same, rounded]
    exact Nat.mul_mod_right _ _
  omega

def txPosition (ivIndex : Nat) (inProgress : Bool) : Int :=
  ivIndex - inProgress.toNat

def Net.position (net : Net) : Int :=
  txPosition net.ivIndex net.ivuInProgress

theorem netIviTx_position (bound : net.ivIndex < 2 ^ 32)
    (noWrap : net.ivuInProgress = true → net.ivIndex ≠ 0) :
    (netIviTx net : Int) = net.position := by
  have sum := ivBefore_add bound noWrap
  unfold netIviTx Net.position txPosition
  omega

def Below (position : Int) (seq : Nat) (nonce : Nonce) : Prop :=
  (nonce.iv : Int) < position ∨ (nonce.iv = position ∧ nonce.seq < seq)

theorem Below.mono {position later : Int} {laterSeq : Nat}
    (below : Below position seq nonce)
    (order : position < later ∨ (position = later ∧ seq ≤ laterSeq)) :
    Below later laterSeq nonce := by
  unfold Below at below ⊢
  omega

structure Moves (cfg : Config) (before after : Net) : Prop where
  bound : after.ivIndex < 2 ^ 32
  valid : after.valid = before.valid
  order : before.position < after.position ∨
    (before.position = after.position ∧ before.seq ≤ after.seq)
  stores : cfg.settings = true → (after.ivIndex = before.ivIndex ∧
      after.ivuInProgress = before.ivuInProgress ∧
      after.seq = before.seq ∧ after.seqPending = before.seqPending ∧
      (after.ivPending = false → before.ivPending = false)) ∨
    (after.ivPending = true ∧ after.seqPending = true)

theorem doUpdate_pending (settings : cfg.settings = true) (net : Net)
    (ivIndex : Nat) (ivUpdate : Bool) :
    (doUpdate cfg net ivIndex ivUpdate).ivPending = true ∧
      (doUpdate cfg net ivIndex ivUpdate).seqPending = true := by
  simp [doUpdate, settings, storeIv]

theorem IvUpdateEffect.moves {updated : Net} {ivIndex : Nat} {ivUpdate : Bool}
    (effect : IvUpdateEffect cfg net ivIndex ivUpdate updated)
    (current : net.ivIndex < 2 ^ 32) : Moves cfg net updated := by
  refine ⟨effect.ivIndex_lt current, effect.valid, ?_, ?_⟩
  · cases effect with
    | unchanged => exact .inr ⟨rfl, Nat.le_refl _⟩
    | deferred => exact .inr ⟨rfl, Nat.le_refl _⟩
    | leave inProgress =>
      left
      simp only [Net.position, txPosition, doUpdate_ivIndex,
        doUpdate_ivuInProgress, inProgress, ite_self, toNat_true,
        toNat_false]
      omega
    | enter normal =>
      right
      simp only [Net.position, txPosition, doUpdate_ivIndex, doUpdate_seq,
        doUpdate_ivuInProgress, normal, if_true, toNat_true,
        toNat_false]
      omega
    | recover recovery =>
      left
      have ahead := recovery.2.1
      have flag := toNat_le ivUpdate
      simp only [Net.position, txPosition, doUpdate_ivIndex,
        doUpdate_ivuInProgress, recovered, recovery.1, ite_self,
        toNat_false]
      omega
  · intro settings
    cases effect with
    | unchanged => exact .inl ⟨rfl, rfl, rfl, rfl, id⟩
    | deferred => exact .inl ⟨rfl, rfl, rfl, rfl, id⟩
    | leave => exact .inr (doUpdate_pending settings ..)
    | enter => exact .inr (doUpdate_pending settings ..)
    | recover => exact .inr (doUpdate_pending settings ..)

theorem ivuRefresh_moves (cfg : Config) (net : Net) (txInProgress : Bool)
    (current : net.ivIndex < 2 ^ 32) :
    Moves cfg net (ivuRefresh cfg net txInProgress) := by
  rcases ivuRefresh_cases cfg net txInProgress with
    ⟨duration, pending, same, kept⟩ | ⟨duration, _, updated⟩
  · rw [same]
    refine ⟨current, rfl, .inr ⟨rfl, Nat.le_refl _⟩, ?_⟩
    intro settings
    exact .inl ⟨rfl, rfl, rfl, rfl, kept⟩
  · rw [updated]
    let aged : Net := { net with ivuDuration := duration }
    have moves : Moves cfg aged _ :=
      (netIvUpdate_effect cfg aged net.ivIndex false txInProgress current
        current).moves current
    exact ⟨moves.bound, moves.valid, moves.order, moves.stores⟩

def Saved.position (saved : Saved) : Int :=
  match saved.iv with
  | none => 0
  | some iv => txPosition iv.ivIndex iv.ivUpdate

structure Guarded (cfg : Config) (state : NonceState) : Prop where
  valid : state.net.valid = true
  bound : state.net.ivIndex < 2 ^ 32
  savedIv : ∃ iv, state.saved.iv = some iv ∧ iv.ivIndex < 2 ^ 32 ∧
    (cfg.settings = true → state.net.ivPending = false →
      iv.ivIndex = state.net.ivIndex ∧ iv.ivUpdate = state.net.ivuInProgress)
  savedSeq : ∃ seq, state.saved.seq = some seq ∧ seq < 2 ^ 24 ∧
    (cfg.settings = true → state.net.seqPending = false →
      state.net.seq ≤ resumedSeq cfg (some seq))
  behind : cfg.settings = true → state.saved.position ≤ state.net.position

structure Covered (cfg : Config) (state : NonceState) (nonce : Nonce) :
    Prop where
  sent : Below state.net.position state.net.seq nonce
  kept : cfg.settings = true → state.owed = false →
    Below state.saved.position (resumedSeq cfg state.saved.seq) nonce

theorem Guarded.synced (guarded : Guarded cfg state)
    (settings : cfg.settings = true) (flushed : state.net.ivPending = false) :
    state.saved.position = state.net.position := by
  obtain ⟨_, stored, _, same⟩ := guarded.savedIv
  obtain ⟨sameIndex, sameFlag⟩ := same settings flushed
  simp only [Saved.position, stored, Net.position, sameIndex, sameFlag]

theorem Moves.guarded {after : Net} (moves : Moves cfg state.net after)
    (owed : Bool) (guarded : Guarded cfg state) :
    Guarded cfg { state with net := after, owed := owed } := by
  obtain ⟨iv, storedIv, ivBound, ivSame⟩ := guarded.savedIv
  obtain ⟨seq, storedSeq, seqBound, seqAhead⟩ := guarded.savedSeq
  refine ⟨moves.valid.trans guarded.valid, moves.bound,
    ⟨iv, storedIv, ivBound, ?_⟩, ⟨seq, storedSeq, seqBound, ?_⟩, ?_⟩
  · intro settings flushed
    rcases moves.stores settings with
      ⟨sameIndex, sameFlag, _, _, earlier⟩ | ⟨pending, _⟩
    · obtain ⟨index, flag⟩ := ivSame settings (earlier flushed)
      exact ⟨index.trans sameIndex.symm, flag.trans sameFlag.symm⟩
    · rw [pending] at flushed
      cases flushed
  · intro settings flushed
    rcases moves.stores settings with
      ⟨_, _, sameSeq, samePending, _⟩ | ⟨_, pending⟩
    · have ahead := seqAhead settings (samePending.symm.trans flushed)
      simpa only [sameSeq] using ahead
    · rw [pending] at flushed
      cases flushed
  · intro settings
    have behind := guarded.behind settings
    have order := moves.order
    simp only
    omega

theorem Moves.covered {after : Net} (moves : Moves cfg state.net after)
    (covered : Covered cfg state nonce) :
    Covered cfg { state with net := after } nonce :=
  ⟨covered.sent.mono moves.order, covered.kept⟩

/-! One sent PDU: the counter moves first, then possibly the IV index. -/

def countSeq (cfg : Config) (net : Net) : Net :=
  let advanced := { net with seq := (net.seq + 1) % 2 ^ 32 }
  if cfg.settings then storeSeq cfg advanced else advanced

theorem countSeq_eq (cfg : Config) (net : Net) :
    ∃ pending, countSeq cfg net =
        { net with seq := (net.seq + 1) % 2 ^ 32, seqPending := pending } ∧
      (cfg.settings = true → pending = false → 1 < cfg.seqStoreRate ∧
          (net.seq + 1) % 2 ^ 32 % cfg.seqStoreRate ≠ 0) := by
  unfold countSeq
  cases settings : cfg.settings with
  | false =>
    refine ⟨net.seqPending, rfl, ?_⟩
    intro contrary
    cases contrary
  | true =>
    simp only [if_true, storeSeq]
    split
    next skipped =>
      refine ⟨net.seqPending, rfl, ?_⟩
      intro _ _
      simpa using skipped
    next =>
      refine ⟨true, rfl, ?_⟩
      intro _ contrary
      cases contrary

theorem nextSeq_eq (cfg : Config) (net : Net) (primary txInProgress : Bool) :
    (nextSeq cfg net primary txInProgress).2 =
      if !(countSeq cfg net).ivuInProgress &&
          decide (cfg.ivUpdateSeqLimit < (countSeq cfg net).seq) && primary then
        (netIvUpdate cfg (countSeq cfg net)
          (((countSeq cfg net).ivIndex + 1) % 2 ^ 32) true txInProgress).2
      else
        countSeq cfg net := rfl

theorem nextSeq_effect (cfg : Config) (net : Net) (primary txInProgress : Bool)
    (current : net.ivIndex < 2 ^ 32) :
    IvUpdateEffect cfg (countSeq cfg net) ((net.ivIndex + 1) % 2 ^ 32) true
      (nextSeq cfg net primary txInProgress).2 := by
  obtain ⟨_, counted, _⟩ := countSeq_eq cfg net
  have sameIndex : (countSeq cfg net).ivIndex = net.ivIndex := by rw [counted]
  rw [nextSeq_eq]
  split
  · rw [sameIndex]
    exact netIvUpdate_effect cfg _ _ _ _ (by rw [sameIndex]; exact current)
      (Nat.mod_lt _ (by omega))
  · exact .unchanged

theorem IvUpdateEffect.start {updated : Net}
    (effect : IvUpdateEffect cfg net ((net.ivIndex + 1) % 2 ^ 32) true updated) :
    updated.position = net.position ∧ updated.seq = net.seq ∧
      ((net.ivuInProgress = true → net.ivIndex ≠ 0) →
        updated.ivuInProgress = true → updated.ivIndex ≠ 0) := by
  cases effect with
  | unchanged => exact ⟨rfl, rfl, id⟩
  | deferred => exact ⟨rfl, rfl, id⟩
  | leave inProgress flag => cases flag
  | enter normal =>
    simp only [Net.position, txPosition, doUpdate_ivIndex, doUpdate_seq,
      doUpdate_ivuInProgress, normal, if_true, toNat_true,
      toNat_false]
    refine ⟨by omega, trivial, ?_⟩
    intro _ _
    omega
  | recover recovery =>
    have ahead := recovery.2.1
    have wrapped := Nat.mod_le (net.ivIndex + 1) (2 ^ 32)
    omega

theorem countSeq_guarded (guarded : Guarded cfg state)
    (flushed : state.net.seqPending = false) (range : state.net.seq < 2 ^ 24)
    (owed : Bool) :
    Guarded cfg { state with net := countSeq cfg state.net, owed := owed } := by
  obtain ⟨_, counted, skipped⟩ := countSeq_eq cfg state.net
  obtain ⟨seq, storedSeq, seqBound, seqAhead⟩ := guarded.savedSeq
  have noWrap : (state.net.seq + 1) % 2 ^ 32 = state.net.seq + 1 :=
    Nat.mod_eq_of_lt (by omega)
  rw [noWrap] at counted skipped
  rw [counted]
  refine ⟨guarded.valid, guarded.bound, guarded.savedIv,
    ⟨seq, storedSeq, seqBound, ?_⟩, guarded.behind⟩
  intro settings quiet
  obtain ⟨rate, remainder⟩ := skipped settings quiet
  exact succ_le_resumedSeq cfg seqBound (seqAhead settings flushed) rate remainder

theorem countSeq_covered (guarded : Guarded cfg state)
    (flushedIv : state.net.ivPending = false)
    (flushedSeq : state.net.seqPending = false) (range : state.net.seq < 2 ^ 24)
    (owed : Bool)
    (owes : cfg.settings = true → owed = false →
      (countSeq cfg state.net).seqPending = false)
    (at_most : Below state.net.position (state.net.seq + 1) nonce) :
    Covered cfg { state with net := countSeq cfg state.net, owed := owed }
      nonce := by
  have after := countSeq_guarded guarded flushedSeq range owed
  obtain ⟨_, counted, _⟩ := countSeq_eq cfg state.net
  obtain ⟨seq, stored, _, seqAhead⟩ := after.savedSeq
  have storedSeq : state.saved.seq = some seq := stored
  have position : (countSeq cfg state.net).position = state.net.position := by
    rw [counted]
    rfl
  have counter : (countSeq cfg state.net).seq = state.net.seq + 1 := by
    rw [counted]
    exact Nat.mod_eq_of_lt (by omega)
  constructor
  · simpa only [position, counter] using at_most
  · intro settings quiet
    have ahead := seqAhead settings (owes settings quiet)
    simp only [counter] at ahead
    have synced := guarded.synced settings flushedIv
    rw [storedSeq, synced]
    exact at_most.mono (.inr ⟨rfl, ahead⟩)

theorem nextSeq_fresh (cfg : Config) (state : NonceState)
    (primary txInProgress : Bool) (guarded : Guarded cfg state)
    (disciplined : Disciplined cfg state (.nextSeq primary txInProgress)) :
    (nonceMachine cfg).Fresh (Guarded cfg) (Covered cfg) state
      (.nextSeq primary txInProgress) := by
  obtain ⟨⟨flushedIv, flushedSeq⟩, range, noWrap⟩ := disciplined
  let counted := countSeq cfg state.net
  let after := (nextSeq cfg state.net primary txInProgress).2
  let owed := state.owed || after.seqPending
  obtain ⟨_, countedEq, _⟩ := countSeq_eq cfg state.net
  have countedIndex : counted.ivIndex = state.net.ivIndex := by
    simp only [counted, countedEq]
  have countedFlag : counted.ivuInProgress = state.net.ivuInProgress := by
    simp only [counted, countedEq]
  have countedPosition : counted.position = state.net.position := by
    simp only [Net.position, countedIndex, countedFlag]
  have countedBound : counted.ivIndex < 2 ^ 32 := by
    rw [countedIndex]
    exact guarded.bound
  have effect : IvUpdateEffect cfg counted ((counted.ivIndex + 1) % 2 ^ 32) true
      after := by
    rw [countedIndex]
    exact nextSeq_effect cfg state.net primary txInProgress guarded.bound
  have moves := effect.moves countedBound
  obtain ⟨samePosition, _, keepsWrap⟩ := effect.start
  have afterWrap : after.ivuInProgress = true → after.ivIndex ≠ 0 := by
    apply keepsWrap
    rw [countedIndex, countedFlag]
    exact noWrap
  have owes : cfg.settings = true → owed = false → counted.seqPending = false := by
    intro settings quiet
    have afterQuiet : after.seqPending = false := (or_eq_false_iff.mp quiet).2
    rcases moves.stores settings with ⟨_, _, _, same, _⟩ | ⟨_, contrary⟩
    · exact same.symm.trans afterQuiet
    · rw [contrary] at afterQuiet
      cases afterQuiet
  let nonce : Nonce := ⟨netIviTx after, state.net.seq % 2 ^ 24⟩
  have nonceIv : (nonce.iv : Int) = state.net.position := by
    rw [netIviTx_position moves.bound afterWrap, samePosition, countedPosition]
  have nonceSeq : nonce.seq = state.net.seq := Nat.mod_eq_of_lt range
  have emits : (nonceMachine cfg).emit state (.nextSeq primary txInProgress) =
      [nonce] := rfl
  have covers : ∀ other, Below state.net.position (state.net.seq + 1) other →
      Covered cfg { state with net := after, owed := owed } other := by
    intro other at_most
    exact moves.covered
      (countSeq_covered guarded flushedIv flushedSeq range owed owes at_most)
  let middle : NonceState := { state with net := counted, owed := owed }
  have middleGuarded : Guarded cfg middle :=
    countSeq_guarded guarded flushedSeq range owed
  have middleMoves : Moves cfg middle.net after := moves
  refine ⟨middleMoves.guarded owed middleGuarded, ?_, ?_, ?_, ?_⟩
  · rw [emits]
    exact nodup_singleton nonce
  · rw [emits]
    intro sent member covered
    obtain rfl := mem_singleton.mp member
    have below := covered.sent
    unfold Below at below
    omega
  · rw [emits]
    intro sent member
    obtain rfl := mem_singleton.mp member
    apply covers
    exact .inr ⟨nonceIv, by omega⟩
  · intro old covered
    apply covers
    exact covered.sent.mono (.inr ⟨rfl, Nat.le_succ _⟩)

section

variable (guarded : Guarded cfg state)
include guarded

theorem Guarded.pendingIvStore :
    Guarded cfg (nonceStep cfg state .pendingIvStore).1 := by
  simp only [nonceStep]
  split
  next pending =>
    have stored : netPendingIvStore state.net =
        some ⟨state.net.ivIndex, state.net.ivuInProgress,
          state.net.ivuDuration % 2 ^ 7⟩ := by
      unfold netPendingIvStore
      rw [if_pos guarded.valid]
    refine ⟨guarded.valid, guarded.bound,
      ⟨_, stored, guarded.bound, fun _ _ => ⟨rfl, rfl⟩⟩, guarded.savedSeq, ?_⟩
    intro settings
    simp only [Saved.position, stored]
    exact Int.le_refl _
  next => exact guarded

theorem Covered.pendingIvStore (covered : Covered cfg state nonce) :
    Covered cfg (nonceStep cfg state .pendingIvStore).1 nonce := by
  simp only [nonceStep]
  split
  next pending =>
    refine ⟨covered.sent, ?_⟩
    intro settings quiet
    have sent := covered.sent
    have kept := covered.kept settings quiet
    have behind := guarded.behind settings
    have position : ({ state.saved with
        iv := netPendingIvStore state.net } : Saved).position =
          state.net.position := by
      simp only [Saved.position, netPendingIvStore, guarded.valid, if_true]
      rfl
    rw [position]
    unfold Below at sent kept ⊢
    simp only
    omega
  next => exact covered

theorem Guarded.pendingSeqStore (range : state.net.seq < 2 ^ 24) :
    Guarded cfg (nonceStep cfg state .pendingSeqStore).1 := by
  simp only [nonceStep]
  split
  next pending =>
    have stored : netPendingSeqStore state.net = some (state.net.seq % 2 ^ 24) := by
      unfold netPendingSeqStore
      rw [if_pos guarded.valid]
    rw [Nat.mod_eq_of_lt range] at stored
    exact ⟨guarded.valid, guarded.bound, guarded.savedIv,
      ⟨state.net.seq, stored, range, fun _ _ => le_resumedSeq cfg range⟩,
      guarded.behind⟩
  next => exact guarded

theorem Covered.pendingSeqStore (flushed : state.net.ivPending = false)
    (range : state.net.seq < 2 ^ 24) (covered : Covered cfg state nonce) :
    Covered cfg (nonceStep cfg state .pendingSeqStore).1 nonce := by
  simp only [nonceStep]
  split
  next pending =>
    refine ⟨covered.sent, ?_⟩
    intro settings _
    have synced := guarded.synced settings flushed
    have stored : netPendingSeqStore state.net = some state.net.seq := by
      unfold netPendingSeqStore
      rw [if_pos guarded.valid, Nat.mod_eq_of_lt range]
    apply covered.sent.mono
    right
    rw [stored]
    exact ⟨synced.symm, le_resumedSeq cfg range⟩
  next => exact covered

end

theorem powerCycle_fresh (cfg : Config) (state : NonceState)
    (rpl : ReplayList) (guarded : Guarded cfg state)
    (scheduled : Scheduled cfg state (.powerCycle rpl)) :
    (nonceMachine cfg).Fresh (Guarded cfg) (Covered cfg) state
      (.powerCycle rpl) := by
  obtain ⟨iv, storedIv, ivBound, _⟩ := guarded.savedIv
  obtain ⟨seq, storedSeq, seqBound, _⟩ := guarded.savedSeq
  obtain ⟨settings, paid⟩ := scheduled
  let restored : Net :=
    { state.net.reset rpl with
      ivIndex := iv.ivIndex
      ivuInProgress := iv.ivUpdate
      ivuDuration := iv.ivDuration
      seq := resumedSeq cfg (some seq) }
  have next : (nonceMachine cfg).next state (.powerCycle rpl) =
      ⟨restored, state.saved, false⟩ := by
    simp only [Machine.next, nonceMachine, nonceStep, storedIv, storedSeq]
    rfl
  have position : state.saved.position = restored.position := by
    simp only [Saved.position, storedIv]
    rfl
  have silent : (nonceMachine cfg).emit state (.powerCycle rpl) = [] := rfl
  apply Machine.Fresh.silent silent
  · rw [next]
    exact ⟨guarded.valid, ivBound, ⟨iv, storedIv, ivBound, fun _ _ => ⟨rfl, rfl⟩⟩,
      ⟨seq, storedSeq, seqBound, fun _ _ => Nat.le_refl _⟩,
      fun _ => Int.le_of_eq position⟩
  · intro old covered
    have kept := covered.kept settings paid
    rw [next]
    refine ⟨?_, fun _ _ => kept⟩
    rw [position, storedSeq] at kept
    exact kept

theorem nonce_fresh (cfg : Config) (state : NonceState) (input : NonceInput)
    (guarded : Guarded cfg state) (disciplined : Disciplined cfg state input) :
    (nonceMachine cfg).Fresh (Guarded cfg) (Covered cfg) state input := by
  cases input with
  | nextSeq primary txInProgress =>
    exact nextSeq_fresh cfg state primary txInProgress guarded disciplined
  | ivUpdate ivIndex ivUpdate txInProgress =>
    have moves := (netIvUpdate_effect cfg state.net ivIndex.toNat ivUpdate
      txInProgress guarded.bound ivIndex.toNat_lt).moves guarded.bound
    exact .silent rfl (moves.guarded state.owed guarded)
      fun _ covered => moves.covered covered
  | ivuRefresh txInProgress =>
    have moves := ivuRefresh_moves cfg state.net txInProgress guarded.bound
    exact .silent rfl (moves.guarded state.owed guarded)
      fun _ covered => moves.covered covered
  | ivUpdateTest enable =>
    have moves : Moves cfg state.net (ivUpdateTest state.net enable) :=
      ⟨guarded.bound, rfl, .inr ⟨rfl, Nat.le_refl _⟩,
        fun _ => .inl ⟨rfl, rfl, rfl, rfl, id⟩⟩
    exact .silent rfl (moves.guarded state.owed guarded)
      fun _ covered => moves.covered covered
  | pendingIvStore =>
    have silent : (nonceMachine cfg).emit state .pendingIvStore = [] := by
      simp only [Machine.emit, nonceMachine, nonceStep]
      split <;> rfl
    exact .silent silent guarded.pendingIvStore
      fun _ covered => covered.pendingIvStore guarded
  | pendingSeqStore =>
    have silent : (nonceMachine cfg).emit state .pendingSeqStore = [] := by
      simp only [Machine.emit, nonceMachine, nonceStep]
      split <;> rfl
    obtain ⟨flushed, range⟩ := disciplined
    exact .silent silent (guarded.pendingSeqStore range)
      fun _ covered => covered.pendingSeqStore guarded flushed range
  | powerCycle rpl => exact powerCycle_fresh cfg state rpl guarded disciplined.1

theorem guarded_stored (cfg : Config) (valid : net.valid = true)
    (bound : net.ivIndex < 2 ^ 32) (range : net.seq < 2 ^ 24) :
    Guarded cfg (.stored net) := by
  have savedIv : netPendingIvStore net =
      some ⟨net.ivIndex, net.ivuInProgress, net.ivuDuration % 2 ^ 7⟩ := by
    unfold netPendingIvStore
    rw [if_pos valid]
  have savedSeq : netPendingSeqStore net = some net.seq := by
    unfold netPendingSeqStore
    rw [if_pos valid, Nat.mod_eq_of_lt range]
  refine ⟨valid, bound, ⟨_, savedIv, bound, fun _ _ => ⟨rfl, rfl⟩⟩,
    ⟨_, savedSeq, range, fun _ _ => le_resumedSeq cfg range⟩, ?_⟩
  intro settings
  apply Int.le_of_eq
  simp only [Saved.position, NonceState.stored, savedIv]
  rfl

/-- No network PDU repeats the transmit IV index and sequence number of another
one while the counter stays below 2^24 and the transmit IV index does not wrap
below zero. -/
theorem nonce_nodup (cfg : Config) (net : Net) (inputs : List NonceInput)
    (valid : net.valid = true) (bound : net.ivIndex < 2 ^ 32)
    (range : net.seq < 2 ^ 24)
    (disciplined : (nonceMachine cfg).Along (Disciplined cfg) (.stored net) inputs) :
    ((nonceMachine cfg).trace (.stored net) inputs).Nodup :=
  (Machine.trace_nodup (nonce_fresh cfg) (guarded_stored cfg valid bound range)
    disciplined).1

/-! A store rate of 2^19 and one PDU after each power cycle: the 33rd PDU
repeats the first. -/

def sparseConfig : Config :=
  { plainConfig with seqStoreRate := 524288, seqStoreRate_le := by decide }

def provisionedNet : Net where
  ivIndex := 5
  seq := 0
  valid := true
  ivuInProgress := false
  ivuTest := false
  ivuPending := false
  ivuDuration := 0
  ivPending := false
  seqPending := false
  rpl := .boot 1

def pduAfterPowerCycle : List NonceInput :=
  [.powerCycle (.boot 1), .nextSeq true false, .pendingSeqStore]

theorem nonce_nodup_four :
    (nonceMachine sparseConfig).Along (Disciplined sparseConfig)
      (.stored provisionedNet) (replicate 4 pduAfterPowerCycle).flatten ∧
    ((nonceMachine sparseConfig).trace (.stored provisionedNet)
      (replicate 4 pduAfterPowerCycle).flatten).Nodup := by
  have disciplined : (nonceMachine sparseConfig).Along
      (Disciplined sparseConfig) (.stored provisionedNet)
      (replicate 4 pduAfterPowerCycle).flatten := by decide
  exact ⟨disciplined, nonce_nodup sparseConfig provisionedNet _ rfl (by decide)
    (by decide) disciplined⟩

theorem nonce_repeated_after_wrap :
    (nonceMachine sparseConfig).Along (Scheduled sparseConfig)
      (.stored provisionedNet) (replicate 33 pduAfterPowerCycle).flatten ∧
    ¬ ((nonceMachine sparseConfig).trace (.stored provisionedNet)
      (replicate 33 pduAfterPowerCycle).flatten).Nodup := by
  constructor
  · decide +kernel
  · decide +kernel

/-! The pace of the IV update procedure: outside the test mode and IV Index
Recovery every change of the IV index or of the flag uses up 96 hours. -/

def Net.ivState (net : Net) : Nat × Bool := (net.ivIndex, net.ivuInProgress)

def Net.tested (cfg : Config) (net : Net) : Bool :=
  cfg.ivUpdateTest && net.ivuTest

/-- What a step of `hours` hours does to the IV state. -/
structure Paced (cfg : Config) (hours : Nat) (before after : Net) : Prop where
  tested : after.tested cfg = before.tested cfg
  pace : (after.ivState = before.ivState ∧
      after.ivuDuration ≤ before.ivuDuration + hours) ∨
    (after.ivuDuration = 0 ∧ ivuMinHours ≤ before.ivuDuration + hours)

theorem Paced.refl (net : Net) (hours : Nat) : Paced cfg hours net net :=
  ⟨rfl, .inl ⟨rfl, Nat.le_add_right ..⟩⟩

theorem ivUpdateGuarded_paced (ivIndex : Nat) (ivUpdate txInProgress : Bool)
    (real : net.tested cfg = false) :
    Paced cfg 0 net (ivUpdateGuarded cfg net ivIndex ivUpdate txInProgress).2 := by
  unfold ivUpdateGuarded
  rw [show (cfg.ivUpdateTest && net.ivuTest) = false from real]
  split
  · exact .refl net 0
  rename_i aged
  split
  · exact ⟨rfl, .inl ⟨rfl, Nat.le_refl _⟩⟩
  have due : ivuMinHours ≤ net.ivuDuration := by simpa using aged
  unfold doUpdate storeIv
  cases ivUpdate <;> cases cfg.settings <;> exact ⟨rfl, .inr ⟨rfl, due⟩⟩

theorem netIvUpdate_paced (net : Net) {ivIndex : Nat} (ivUpdate txInProgress : Bool)
    (current : net.ivIndex < 2 ^ 32) (real : net.tested cfg = false)
    (ordinary : ¬ recovers net ivIndex) :
    Paced cfg 0 net (netIvUpdate cfg net ivIndex ivUpdate txInProgress).2 := by
  have guarded := ivUpdateGuarded_paced ivIndex ivUpdate txInProgress real
  have same : Paced cfg 0 net net := .refl net 0
  unfold netIvUpdate
  split
  · split
    · exact same
    split
    · exact same
    · exact guarded
  rename_i normal
  split
  · exact same
  split
  · exact same
  rename_i outside
  split
  · rename_i ahead
    refine absurd ⟨by simpa using normal, ?_, by omega⟩ ordinary
    omega
  split
  · exact same
  split
  · exact same
  · exact guarded

theorem Paced.from_aged {hours : Nat} {aged before after : Net}
    (paced : Paced cfg 0 aged after) (tested : aged.tested cfg = before.tested cfg)
    (ivState : aged.ivState = before.ivState)
    (older : aged.ivuDuration ≤ before.ivuDuration + hours) :
    Paced cfg hours before after := by
  refine ⟨paced.tested.trans tested, ?_⟩
  rcases paced.pace with ⟨same, kept⟩ | ⟨fresh, due⟩
  · exact .inl ⟨same.trans ivState, Nat.le_trans kept older⟩
  · exact .inr ⟨fresh, Nat.le_trans due older⟩

theorem ivuRefresh_paced (txInProgress : Bool) (current : net.ivIndex < 2 ^ 32)
    (real : net.tested cfg = false) :
    Paced cfg (ivuHours cfg) net (ivuRefresh cfg net txInProgress) := by
  let aged : Net :=
    { net with ivuDuration := min 255 (net.ivuDuration + ivuHours cfg) }
  have older : aged.ivuDuration ≤ net.ivuDuration + ivuHours cfg :=
    Nat.min_le_right ..
  have stored : Paced cfg (ivuHours cfg) net
      (if cfg.settings then storeIv true aged else aged) := by
    cases cfg.settings <;> exact ⟨rfl, .inl ⟨rfl, older⟩⟩
  unfold ivuRefresh
  by_cases valid : (!net.valid) = true
  · rw [if_pos valid]
    exact .refl net _
  rw [if_neg valid]
  by_cases early : aged.ivuDuration < ivuMinHours
  · simpa only [aged, if_pos early] using stored
  cases inProgress : net.ivuInProgress with
  | false =>
    simpa only [aged, if_neg early, inProgress, false_eq_true, if_false] using stored
  | true =>
    have ordinary : ¬ recovers aged net.ivIndex := fun recovery => by
      have ahead : net.ivIndex + 1 < net.ivIndex := recovery.2.1
      omega
    have updated : Paced cfg (ivuHours cfg) net _ :=
      (netIvUpdate_paced aged false txInProgress current real ordinary).from_aged
        rfl rfl older
    simpa only [aged, if_neg early, inProgress, if_true] using updated

theorem nextSeq_paced (primary txInProgress : Bool)
    (current : net.ivIndex < 2 ^ 32) (real : net.tested cfg = false) :
    Paced cfg 0 net (nextSeq cfg net primary txInProgress).2 := by
  obtain ⟨_, counted, -⟩ := countSeq_eq cfg net
  have same : Paced cfg 0 net (countSeq cfg net) := by
    rw [counted]
    exact ⟨rfl, .inl ⟨rfl, Nat.le_refl _⟩⟩
  rw [nextSeq_eq]
  split
  · rw [counted] at same ⊢
    refine Paced.from_aged (netIvUpdate_paced _ true txInProgress ?_ ?_ ?_)
      same.tested rfl (Nat.le_add_right ..)
    · exact current
    · exact real
    intro recovery
    have ahead : net.ivIndex + 1 < (net.ivIndex + 1) % 2 ^ 32 := recovery.2.1
    have small := Nat.mod_le (net.ivIndex + 1) (2 ^ 32)
    omega
  · exact same

/-- The steps of a node that stays up, outside the test mode and IV Index
Recovery. -/
def Ordinary (state : NonceState) : NonceInput → Prop
  | .ivUpdate ivIndex _ _ => ¬ recovers state.net ivIndex.toNat
  | .ivUpdateTest _ => False
  | .powerCycle _ => False
  | _ => True

def NonceInput.hours (cfg : Config) : NonceInput → Nat
  | .ivuRefresh _ => ivuHours cfg
  | _ => 0

def ivChanges (cfg : Config) : NonceState → List NonceInput → Nat
  | _, [] => 0
  | state, input :: rest =>
    (if ((nonceMachine cfg).next state input).net.ivState = state.net.ivState then 0
      else 1) + ivChanges cfg ((nonceMachine cfg).next state input) rest

theorem nonceStep_paced {input : NonceInput} (current : state.net.ivIndex < 2 ^ 32)
    (real : state.net.tested cfg = false) (ordinary : Ordinary state input) :
    Paced cfg (input.hours cfg) state.net ((nonceMachine cfg).next state input).net ∧
      ((nonceMachine cfg).next state input).net.ivIndex < 2 ^ 32 := by
  cases input with
  | nextSeq primary txInProgress =>
    refine ⟨nextSeq_paced primary txInProgress current real, ?_⟩
    obtain ⟨_, counted, -⟩ := countSeq_eq cfg state.net
    exact (nextSeq_effect cfg state.net primary txInProgress current).ivIndex_lt
      (by rw [counted]; exact current)
  | ivUpdate ivIndex ivUpdate txInProgress =>
    exact ⟨netIvUpdate_paced _ ivUpdate txInProgress current real ordinary,
      (netIvUpdate_effect cfg state.net _ ivUpdate txInProgress current
        ivIndex.toNat_lt).ivIndex_lt current⟩
  | ivuRefresh txInProgress =>
    exact ⟨ivuRefresh_paced txInProgress current real,
      (ivuRefresh_moves cfg state.net txInProgress current).bound⟩
  | ivUpdateTest => exact ordinary.elim
  | pendingIvStore =>
    unfold Machine.next nonceMachine nonceStep
    simp only
    split <;> exact ⟨⟨rfl, .inl ⟨rfl, Nat.le_refl _⟩⟩, current⟩
  | pendingSeqStore =>
    unfold Machine.next nonceMachine nonceStep
    simp only
    split <;> exact ⟨⟨rfl, .inl ⟨rfl, Nat.le_refl _⟩⟩, current⟩
  | powerCycle => exact ordinary.elim

/-- Each change of the IV state of a node that stays up takes 96 hours. -/
theorem iv_updates_paced (cfg : Config) {state : NonceState}
    {inputs : List NonceInput} (current : state.net.ivIndex < 2 ^ 32)
    (real : state.net.tested cfg = false)
    (ordinary : (nonceMachine cfg).Along Ordinary state inputs) :
    ivuMinHours * ivChanges cfg state inputs +
        ((nonceMachine cfg).run state inputs).net.ivuDuration ≤
      state.net.ivuDuration + (inputs.map (·.hours cfg)).sum := by
  induction inputs generalizing state with
  | nil => simp [ivChanges]
  | cons input rest ih =>
    obtain ⟨paced, bound⟩ := nonceStep_paced current real ordinary.1
    have later := ih bound (paced.tested.trans real) ordinary.2
    rw [Machine.run_cons, map_cons, sum_cons]
    unfold ivChanges
    unfold ivuMinHours at later ⊢
    rcases paced.pace with ⟨same, _⟩ | ⟨_, due⟩
    · rw [if_pos same]
      omega
    · unfold ivuMinHours at due
      split <;> omega

def fourDays : List NonceInput :=
  List.replicate 4 (.ivuRefresh false) ++ [.ivUpdate 6 true false]

theorem iv_updates_paced_four :
    ivChanges sparseConfig (.stored provisionedNet) fourDays = 1 ∧
    ivuMinHours * ivChanges sparseConfig (.stored provisionedNet) fourDays +
        ((nonceMachine sparseConfig).run (.stored provisionedNet)
          fourDays).net.ivuDuration ≤
      0 + (fourDays.map (·.hours sparseConfig)).sum :=
  ⟨by decide, iv_updates_paced sparseConfig (by decide) rfl
    ⟨trivial, trivial, trivial, trivial, by unfold Ordinary; decide, trivial⟩⟩

end ZephyrBluetooth.Mesh
