import ZephyrBluetooth.Data.Lanes
import ZephyrBluetooth.Data.Machine
import ZephyrBluetooth.Data.Slots
import ZephyrBluetooth.Mesh.SegTx

namespace ZephyrBluetooth.Mesh

open Data List Function
open Lanes

variable {tx updated : SegTx} {key : Nat × Nat} {txs : List SegTx} {slot dst : Nat}
  {state : SegTxs} {cfg : Config}

inductive SegTxInput where
  | send (env : SegEnv) (netTx : NetTx) (sdu : List Byte) (cb : Option SendCb)
      (ctlOp : Option Nat)
  | retransmit (env : SegEnv) (slot : Nat)
  | ack (friendMatch : Bool) (iviRx addr : Nat) (buf : List Byte)
  | segSendStart (slot : Nat) (failed : Bool)
  | segSent (slot : Nat)
  | reset

/-- The SDU has a place in the array of the context for each of its segments.
`send_seg` does not check this, and what it writes behind the array is left out. -/
def SegTxInput.Fits (cfg : Config) : SegTxInput → Prop
  | .send _ _ sdu _ ctlOp => sdu.length ≤ cfg.txSegMax * segLen ctlOp.isSome
  | _ => True

instance (cfg : Config) : ∀ input : SegTxInput, Decidable (input.Fits cfg)
  | .send _ _ sdu _ ctlOp =>
    inferInstanceAs (Decidable (sdu.length ≤ cfg.txSegMax * segLen ctlOp.isSome))
  | .retransmit _ _ | .ack _ _ _ _ | .segSendStart _ _ | .segSent _ | .reset =>
    .isTrue trivial

def segTxStep (cfg : Config) (state : SegTxs) :
    SegTxInput → SegTxs × List SegTxEvt
  | .send env netTx sdu cb ctlOp => (sendSeg cfg env netTx sdu cb ctlOp state).2
  | .retransmit env slot => segRetransmit env state slot
  | .ack friendMatch iviRx addr buf =>
    (transAck cfg friendMatch iviRx addr buf state).2
  | .segSendStart slot failed =>
    match state.txs[slot]? with
    | none => (state, [])
    | some tx =>
      let (called, evts) := segSendStart failed tx
      ({ state with txs := state.txs.set slot called }, evts)
  | .segSent slot =>
    match state.txs[slot]? with
    | none => (state, [])
    | some tx => ({ state with txs := state.txs.set slot (segSent tx) }, [])
  | .reset => transResetTx state

def segTxMachine (cfg : Config) : Machine SegTxs SegTxInput SegTxEvt where
  step := segTxStep cfg

def SegTxs.boot (cfg : Config) (msgCount segBufs : Nat) : SegTxs where
  txs := List.replicate msgCount (.boot cfg.txSegMax)
  slab := List.range segBufs

/-- Every blocked transmission waits for one that is not blocked, and for each
pair of addresses there is at most one of those. -/
structure Unblockable (state : SegTxs) : Prop where
  unblocker : ∀ (slot : Nat) (tx : SegTx), state.txs[slot]? = some tx → tx.blocked →
    0 < tx.nackCount →
    ∃ (other : Nat) (otherTx : SegTx), other ≠ slot ∧ state.txs[other]? = some otherTx ∧
      otherTx.src = tx.src ∧ otherTx.dst = tx.dst ∧ 0 < otherTx.nackCount ∧
      otherTx.blocked = false
  single : ∀ (first second : Nat) (firstTx secondTx : SegTx),
    state.txs[first]? = some firstTx → state.txs[second]? = some secondTx →
    firstTx.src = secondTx.src → firstTx.dst = secondTx.dst →
    0 < firstTx.nackCount → 0 < secondTx.nackCount →
    firstTx.blocked = false → secondTx.blocked = false → first = second

/-- A transmission other than the one of `slot` is active between the
addresses and waits, or does not wait. -/
def elsewhere (txs : List SegTx) (slot : Nat) (blocked : Bool) (src dst : Nat) :
    Bool :=
  txs.zipIdx.any fun other =>
    other.2 != slot && other.1.nackCount != 0 && other.1.blocked == blocked &&
      segTxBlocks other.1 src dst

def covers (ack : Nat) (tx : SegTx) (bit : Nat) : Bool :=
  ack.testBit bit && (tx.seg[bit]?).join.isSome

def ackedCount (ack : Nat) (tx : SegTx) : Nat :=
  (List.range 32).countP (covers ack tx)

/-- A block acknowledgment that ends the transmission: zero cancels it, and
otherwise it covers all that is not acknowledged. -/
def ackCompletes (ack : Nat) (tx : SegTx) : Bool :=
  ack == 0 || (decide (Nat.log2 ack ≤ tx.segN) && ackedCount ack tx == tx.nackCount)

/-- The transmission of `slot` ends with destination `dst`. -/
def finishAdmitted (txs : List SegTx) (slot : Nat) (tx : SegTx) (dst : Nat) :
    Bool :=
  (dst == tx.dst || tx.blocked || !elsewhere txs slot true tx.src tx.dst) &&
    (!(tx.blocked || dst != tx.dst) || !elsewhere txs slot true tx.src dst)

/-- The transmission of `slot` goes on with destination `dst`. -/
def moveAdmitted (txs : List SegTx) (slot : Nat) (tx : SegTx) (dst : Nat) :
    Bool :=
  dst == tx.dst || if tx.blocked then elsewhere txs slot false tx.src dst
    else !elsewhere txs slot true tx.src tx.dst &&
      !elsewhere txs slot false tx.src dst

def ackAdmits (txs : List SegTx) (slot ack dst : Nat) : Bool :=
  match txs[slot]? with
  | none => true
  | some tx =>
    if addrIsUnicast dst && ackCompletes ack tx then
      finishAdmitted txs slot tx dst
    else
      moveAdmitted txs slot tx dst

def retransmitAdmits (txs : List SegTx) (slot : Nat) : Bool :=
  match txs[slot]? with
  | none => true
  | some tx =>
    !(tx.retransmit && tx.nackCount != 0 && tx.attempts == 0) ||
      finishAdmitted txs slot tx tx.dst

def transAckAdmits (txs : List SegTx) (addr : Nat) : List Byte → Bool
  | z0 :: z1 :: b0 :: b1 :: b2 :: b3 :: _ =>
    match segTxLookup (be16Of z0 z1 / 2 ^ 2 % 2 ^ 13)
      (decide (2 ^ 15 ≤ be16Of z0 z1)) addr txs with
    | none => true
    | some (slot, _) => ackAdmits txs slot (be32Of b0 b1 b2 b3) addr
  | _ => true

def segTxAdmitted (cfg : Config) (state : SegTxs) : SegTxInput → Bool
  | .retransmit _ slot => retransmitAdmits state.txs slot
  | .ack friendMatch _ addr buf =>
    (cfg.friend && friendMatch) || transAckAdmits state.txs addr buf
  | _ => true

def SegTx.lane (tx : SegTx) : Option (Lane (Nat × Nat)) :=
  if tx.nackCount = 0 then none else some ⟨(tx.src, tx.dst), tx.blocked⟩

def lanesOf (txs : List SegTx) : Lanes Nat (Nat × Nat) :=
  slotView SegTx.lane txs

variable {blocked : Bool}

theorem SegTx.lane_eq_some : tx.lane = some ⟨key, blocked⟩ ↔
      0 < tx.nackCount ∧ tx.src = key.1 ∧ tx.dst = key.2 ∧ tx.blocked = blocked := by
  obtain ⟨_, _⟩ := key
  unfold SegTx.lane
  split
  · simp_all
  · simp_all [Nat.pos_iff_ne_zero, and_assoc]

theorem lanesOf_eq_some : lanesOf txs slot = some ⟨key, blocked⟩ ↔
      ∃ tx, txs[slot]? = some tx ∧ 0 < tx.nackCount ∧ tx.src = key.1 ∧
        tx.dst = key.2 ∧ tx.blocked = blocked := by
  simp only [lanesOf, slotView_eq_some, SegTx.lane_eq_some]

theorem unblockable_iff (state : SegTxs) :
    Unblockable state ↔ Served (lanesOf state.txs) := by
  constructor
  · rintro ⟨unblocker, single⟩
    constructor
    · intro key slot waits
      obtain ⟨tx, found, active, src, dst, blocked⟩ := lanesOf_eq_some.mp waits
      obtain ⟨other, otherTx, _, foundOther, sameSrc, sameDst, activeOther,
        runs⟩ := unblocker slot tx found blocked active
      exact ⟨other, lanesOf_eq_some.mpr ⟨otherTx, foundOther, activeOther,
        sameSrc.trans src, sameDst.trans dst, runs⟩⟩
    · intro key first second runsFirst runsSecond
      obtain ⟨firstTx, foundFirst, activeFirst, srcFirst, dstFirst,
        unblockedFirst⟩ := lanesOf_eq_some.mp runsFirst
      obtain ⟨secondTx, foundSecond, activeSecond, srcSecond, dstSecond,
        unblockedSecond⟩ := lanesOf_eq_some.mp runsSecond
      exact single first second firstTx secondTx foundFirst foundSecond
        (srcFirst.trans srcSecond.symm) (dstFirst.trans dstSecond.symm)
        activeFirst activeSecond unblockedFirst unblockedSecond
  · rintro ⟨server, unique⟩
    constructor
    · intro slot tx found blocked active
      have waits : Waits (lanesOf state.txs) (tx.src, tx.dst) slot :=
        lanesOf_eq_some.mpr ⟨tx, found, active, rfl, rfl, blocked⟩
      obtain ⟨other, runs⟩ := server waits
      obtain ⟨otherTx, foundOther, activeOther, src, dst, unblocked⟩ :=
        lanesOf_eq_some.mp runs
      refine ⟨other, otherTx, ?_, foundOther, src, dst, activeOther, unblocked⟩
      rintro rfl
      exact runs.not_waits waits
    · intro first second firstTx secondTx foundFirst foundSecond src dst
        activeFirst activeSecond unblockedFirst unblockedSecond
      have runsFirst : Runs (lanesOf state.txs) (secondTx.src, secondTx.dst)
          first :=
        lanesOf_eq_some.mpr ⟨firstTx, foundFirst, activeFirst, src, dst,
          unblockedFirst⟩
      have runsSecond : Runs (lanesOf state.txs) (secondTx.src, secondTx.dst)
          second :=
        lanesOf_eq_some.mpr ⟨secondTx, foundSecond, activeSecond, rfl, rfl,
          unblockedSecond⟩
      exact unique runsFirst runsSecond

theorem lanesOf_set (txs : List SegTx) (found : txs[slot]? = some tx)
    (updated : SegTx) :
    lanesOf (txs.set slot updated) = update (lanesOf txs) slot updated.lane :=
  slotView_set SegTx.lane found updated

theorem lanesOf_set_same (found : txs[slot]? = some tx)
    (same : updated.lane = tx.lane) :
    lanesOf (txs.set slot updated) = lanesOf txs :=
  slotView_set_same found same

variable {src : Nat}

theorem elsewhere_iff :
    elsewhere txs slot blocked src dst = true ↔ ∃ other, other ≠ slot ∧
        lanesOf txs other = some ⟨(src, dst), blocked⟩ := by
  simp only [elsewhere, any_eq_true, Prod.exists, mem_zipIdx_iff_getElem?,
    Bool.and_eq_true, bne_iff_ne, ne_eq, beq_iff_eq, segTxBlocks,
    lanesOf_eq_some, Nat.pos_iff_ne_zero]
  constructor
  · rintro ⟨tx, other, found, ⟨⟨different, active⟩, waits⟩, sameSrc, sameDst⟩
    exact ⟨other, different, tx, found, active, sameSrc, sameDst, waits⟩
  · rintro ⟨other, different, tx, found, active, sameSrc, sameDst, waits⟩
    exact ⟨tx, other, found, ⟨⟨different, active⟩, waits⟩, sameSrc, sameDst⟩

structure SegTx.Tidy (tx : SegTx) : Prop where
  small : tx.nackCount < 2 ^ 8
  unblocked : tx.nackCount = 0 → tx.blocked = false
  unassigned : tx.nackCount = 0 → tx.dst = addrUnassigned

def TidyTxs (txs : List SegTx) : Prop :=
  ∀ (slot : Nat) (tx : SegTx), txs[slot]? = some tx → tx.Tidy

/-- The context of `slot` is about to be reset and does not count. -/
def TidyBut (slot : Nat) (txs : List SegTx) : Prop :=
  ∀ (other : Nat) (tx : SegTx), other ≠ slot → txs[other]? = some tx → tx.Tidy

theorem TidyTxs.but (tidy : TidyTxs txs) (slot : Nat) : TidyBut slot txs :=
  fun other tx _ found => tidy other tx found

theorem TidyBut.set (tidy : TidyBut slot txs) (tidyUpdated : updated.Tidy) :
    TidyTxs (txs.set slot updated) := by
  intro other tx found
  rw [getElem?_set] at found
  split at found
  · split at found
    · cases found
      exact tidyUpdated
    · cases found
  · rename_i different
    exact tidy other tx (Ne.symm different) found

theorem TidyBut.ignore (tidy : TidyBut slot txs) (updated : SegTx) :
    TidyBut slot (txs.set slot updated) := by
  intro other tx different found
  rw [getElem?_set_ne (Ne.symm different)] at found
  exact tidy other tx different found

theorem TidyTxs.set (tidy : TidyTxs txs) (slot : Nat) (tidyUpdated : updated.Tidy) :
    TidyTxs (txs.set slot updated) :=
  (tidy.but slot).set tidyUpdated

theorem unblockScan_some :
    ∀ {txs : List SegTx} {i : Nat} {best : Option (Nat × SegTx)} {next : Nat}
      {blocked : SegTx},
      unblockScan slot tx i best txs = some (next, blocked) →
      best = some (next, blocked) ∨
        ∃ k, next = i + k ∧ txs[k]? = some blocked ∧ next ≠ slot ∧
          blocked.blocked ∧ segTxBlocks tx blocked.src blocked.dst
  | [], i, best, next, blocked, scan => .inl scan
  | other :: rest, i, best, next, blocked, scan => by
      rw [unblockScan] at scan
      rcases unblockScan_some scan with taken | ⟨k, _, found, fits⟩
      · split at taken
        · rename_i fits
          cases taken
          exact .inr ⟨0, rfl, rfl, fits.1, fits.2.1, fits.2.2.1⟩
        · exact .inl taken
      · exact .inr ⟨k + 1, by omega, found, fits⟩

theorem unblockScan_none :
    ∀ {txs : List SegTx} {i : Nat} {best : Option (Nat × SegTx)},
      unblockScan slot tx i best txs = none →
      best = none ∧ ∀ k other, txs[k]? = some other → i + k ≠ slot → other.blocked →
          segTxBlocks tx other.src other.dst = false
  | [], i, best, scan => ⟨scan, by simp⟩
  | first :: rest, i, best, scan => by
      rw [unblockScan] at scan
      obtain ⟨untaken, behind⟩ := unblockScan_none scan
      split at untaken
      · cases untaken
      rename_i unfit
      subst untaken
      refine ⟨rfl, ?_⟩
      intro k other found different blocked
      cases k with
      | zero =>
        obtain rfl : first = other := by simpa using found
        by_contra blocks
        exact unfit ⟨different, blocked, by simpa using blocks, by simp⟩
      | succ k => exact behind k other (by simpa using found) (by omega) blocked

theorem segTxBlocks_iff :
    segTxBlocks tx src dst = true ↔ tx.src = src ∧ tx.dst = dst := by
  simp [segTxBlocks]

theorem segTxUnblockCheck_released (tidy : TidyBut slot txs) (tx : SegTx) :
    Released (lanesOf txs) (tx.src, tx.dst) slot
      (lanesOf (segTxUnblockCheck slot tx txs)) := by
  unfold segTxUnblockCheck
  cases scan : unblockScan slot tx 0 none txs with
  | none =>
    apply Released.none
    rintro ⟨other, different, waits⟩
    obtain ⟨otherTx, found, _, src, dst, blocked⟩ := lanesOf_eq_some.mp waits
    have apart := (unblockScan_none scan).2 other otherTx found
      (by simpa using different) blocked
    rw [src, dst] at apart
    simp [segTxBlocks] at apart
  | some best =>
    obtain ⟨next, blocked⟩ := best
    rcases unblockScan_some scan with empty | ⟨k, _, found, different,
      waits, blocks⟩
    · cases empty
    obtain rfl : next = k := by omega
    obtain ⟨src, dst⟩ := segTxBlocks_iff.mp blocks
    have active : 0 < blocked.nackCount := by
      by_contra idle
      have unblocked := (tidy next blocked different found).unblocked (by omega)
      rw [unblocked] at waits
      cases waits
    rw [lanesOf_set txs found]
    have promoted : SegTx.lane
        { blocked with blocked := false, retransmit := true } =
          some ⟨(tx.src, tx.dst), false⟩ :=
      SegTx.lane_eq_some.mpr ⟨active, src.symm, dst.symm, rfl⟩
    rw [promoted]
    exact .some next different (lanesOf_eq_some.mpr
      ⟨blocked, found, active, src.symm, dst.symm, waits⟩)

structure SameRoute (before after : SegTx) : Prop where
  src : after.src = before.src
  dst : after.dst = before.dst
  blocked : after.blocked = before.blocked

theorem SameRoute.refl (tx : SegTx) : SameRoute tx tx := ⟨rfl, rfl, rfl⟩

theorem SameRoute.trans {first second third : SegTx}
    (one : SameRoute first second) (two : SameRoute second third) :
    SameRoute first third :=
  ⟨two.src.trans one.src, two.dst.trans one.dst, two.blocked.trans one.blocked⟩

theorem SameRoute.lane {before after : SegTx} (route : SameRoute before after)
    (nack : after.nackCount = before.nackCount) : after.lane = before.lane := by
  simp only [SegTx.lane, route.src, route.dst, route.blocked, nack]

theorem SameRoute.tidy {before after : SegTx} (route : SameRoute before after)
    (nack : after.nackCount = before.nackCount) (tidy : before.Tidy) :
    after.Tidy where
  small := by rw [nack]; exact tidy.small
  unblocked idle := route.blocked.trans (tidy.unblocked (nack ▸ idle))
  unassigned idle := route.dst.trans (tidy.unassigned (nack ▸ idle))

theorem segTxDone_route (tx : SegTx) (slab : List Nat) (idx : Nat) :
    SameRoute tx (segTxDone tx slab idx).1 := by
  unfold segTxDone
  split
  · exact ⟨rfl, rfl, rfl⟩
  · exact .refl tx

theorem freeSegments_route (tx : SegTx) (slab : List Nat) :
    SameRoute tx (freeSegments tx slab).1 := by
  apply foldlRecOn
    (motive := fun current : SegTx × List Nat => SameRoute tx current.1)
  · exact .refl tx
  · intro current route idx _
    split
    · exact route
    · exact route.trans (segTxDone_route current.1 current.2 idx)

theorem segTxReset_spec (state : SegTxs) (slot : Nat) :
    lanesOf (segTxReset state slot).1.txs = update (lanesOf state.txs) slot none ∧
      (TidyBut slot state.txs → TidyTxs (segTxReset state slot).1.txs) := by
  unfold segTxReset
  cases found : state.txs[slot]? with
  | none =>
    have absent : lanesOf state.txs slot = none := by simp [lanesOf, slotView, found]
    constructor
    · rw [← absent, update_eq_self]
    · intro tidy other tx present
      refine tidy other tx ?_ present
      rintro rfl
      rw [found] at present
      cases present
  | some tx =>
    have route := freeSegments_route
      { tx with
        cb := none
        seqAuth := 0
        sub := none
        src := addrUnassigned
        dst := addrUnassigned
        blocked := false
        retransmit := false }
      state.slab
    refine ⟨?_, fun tidy => tidy.set ⟨?_, ?_, ?_⟩⟩
    · dsimp only
      rw [lanesOf_set state.txs found]
      rfl
    · exact Nat.two_pow_pos 8
    · intro _
      exact route.blocked
    · intro _
      exact route.dst

theorem TidyBut.unblockCheck (tidy : TidyBut slot txs) (tx : SegTx) :
    TidyBut slot (segTxUnblockCheck slot tx txs) := by
  unfold segTxUnblockCheck
  cases scan : unblockScan slot tx 0 none txs with
  | none => exact tidy
  | some best =>
    obtain ⟨next, blocked⟩ := best
    rcases unblockScan_some scan with empty | ⟨k, _, found, different, _⟩
    · cases empty
    obtain rfl : next = k := by omega
    have before := tidy next blocked different found
    intro other tx elsewhere present
    rw [getElem?_set] at present
    split at present
    · split at present
      · cases present
        exact ⟨before.small, fun _ => rfl, before.unassigned⟩
      · cases present
    · exact tidy other tx elsewhere present

/-- The transmission of `slot` hands over to one that waits for the same
addresses, and leaves. -/
def Leaves (before : Lanes Nat (Nat × Nat)) (key : Nat × Nat) (slot : Nat)
    (after : Lanes Nat (Nat × Nat)) : Prop :=
  ∃ released, Released before key slot released ∧ after = update released slot none

theorem Leaves.emptied {before after : Lanes Nat (Nat × Nat)}
    (leaves : Leaves (update before slot none) key slot after) :
    Leaves before key slot after := by
  obtain ⟨_, taken, rfl⟩ := leaves
  obtain ⟨other, takenHere, same⟩ := taken.overwrite (before slot)
  rw [update_idem, update_eq_self] at takenHere
  exact ⟨other, takenHere, same.symm⟩

variable {state : SegTxs}

theorem segTxComplete_spec {slot : Nat} (tidy : TidyBut slot state.txs) {tx : SegTx}
    (found : state.txs[slot]? = some tx) (err : Option Errno) :
    TidyTxs (segTxComplete state slot err).1.txs ∧
      Leaves (lanesOf state.txs) (tx.src, tx.dst) slot
        (lanesOf (segTxComplete state slot err).1.txs) := by
  unfold segTxComplete
  rw [found]
  obtain ⟨lanes, tidyReset⟩ := segTxReset_spec
    { state with txs := segTxUnblockCheck slot tx state.txs } slot
  exact ⟨tidyReset (tidy.unblockCheck tx), _,
    segTxUnblockCheck_released tidy tx, lanes⟩

theorem scheduleRetransmit_spec (tx : SegTx) :
    SameRoute tx (scheduleRetransmit tx) ∧
      (scheduleRetransmit tx).nackCount = tx.nackCount := by
  unfold scheduleRetransmit
  split
  · exact ⟨.refl tx, rfl⟩
  dsimp only
  split
  · exact ⟨⟨rfl, rfl, rfl⟩, rfl⟩
  · exact ⟨⟨rfl, rfl, rfl⟩, rfl⟩

theorem callStart_spec (failed : Bool) (tx : SegTx) :
    SameRoute tx (tx.callStart failed).1 ∧
      (tx.callStart failed).1.nackCount = tx.nackCount := by
  unfold SegTx.callStart
  split
  · split
    · exact ⟨⟨rfl, rfl, rfl⟩, rfl⟩
    · exact ⟨.refl tx, rfl⟩
  · exact ⟨.refl tx, rfl⟩

theorem segSendStart_spec (failed : Bool) (tx : SegTx) :
    SameRoute tx (segSendStart failed tx).1 ∧
      (segSendStart failed tx).1.nackCount = tx.nackCount := by
  obtain ⟨called, calledNack⟩ := callStart_spec failed tx
  cases failed with
  | false => exact ⟨called, calledNack⟩
  | true =>
    obtain ⟨scheduled, kept⟩ := scheduleRetransmit_spec (tx.callStart true).1
    exact ⟨called.trans scheduled, kept.trans calledNack⟩

theorem sendSegments_spec (slot : Nat) (outcome : Nat → SegOutcome)
    (left : Nat) (tx : SegTx) :
    SameRoute tx (sendSegments slot outcome left tx).1 ∧
      (sendSegments slot outcome left tx).1.nackCount = tx.nackCount := by
  induction left generalizing tx with
  | zero => exact ⟨.refl tx, rfl⟩
  | succ left ih =>
    have go : ∀ next : SegTx, SameRoute tx next → next.nackCount = tx.nackCount →
        SameRoute tx (sendSegments slot outcome left next).1 ∧
          (sendSegments slot outcome left next).1.nackCount = tx.nackCount := by
      intro next route nack
      obtain ⟨later, kept⟩ := ih next
      exact ⟨route.trans later, kept.trans nack⟩
    rw [sendSegments]
    split
    · exact go _ ⟨rfl, rfl, rfl⟩ rfl
    split
    · exact ⟨.refl tx, rfl⟩
    · exact ⟨.refl tx, rfl⟩
    · exact go _ ⟨rfl, rfl, rfl⟩ rfl
    · obtain ⟨started, startedNack⟩ := segSendStart_spec false
        { tx with segPending := (tx.segPending + 1) % 2 ^ 8 }
      obtain ⟨sent, sentNack⟩ := scheduleRetransmit_spec (segSendStart false
          { tx with segPending := (tx.segPending + 1) % 2 ^ 8 }).1
      have route := started.trans sent
      exact go _ ⟨route.src, route.dst, route.blocked⟩ (sentNack.trans startedNack)

theorem segTxAttempt_spec (slot : Nat) (outcome : Nat → SegOutcome) (tx : SegTx) :
    SameRoute tx (segTxAttempt slot outcome tx).1 ∧
      (segTxAttempt slot outcome tx).1.nackCount = tx.nackCount := by
  obtain ⟨route, nack⟩ := sendSegments_spec slot outcome
    (tx.segN + 1 - tx.segO) { tx with sending := true }
  unfold segTxAttempt
  dsimp only
  split
  · exact ⟨⟨route.src, route.dst, route.blocked⟩, nack⟩
  · exact ⟨⟨route.src, route.dst, route.blocked⟩, nack⟩

theorem sameLanes_set (tidy : TidyTxs state.txs) {after : SegTx}
    (found : state.txs[slot]? = some tx) (route : SameRoute tx after)
    (nack : after.nackCount = tx.nackCount) : TidyTxs (state.txs.set slot after) ∧
      lanesOf (state.txs.set slot after) = lanesOf state.txs :=
  ⟨tidy.set slot (route.tidy nack (tidy slot tx found)),
    lanesOf_set_same found (route.lane nack)⟩

theorem segTxSendUnacked_ends (found : state.txs[slot]? = some tx)
    (active : tx.nackCount ≠ 0) (last : tx.attempts = 0) (env : SegEnv) :
    segTxSendUnacked env state slot = segTxComplete state slot
        (if addrIsUnicast tx.dst then some .timedOut else none) := by
  simp [segTxSendUnacked, found, active, last]

theorem segTxSendUnacked_goesOn (tidy : TidyTxs state.txs)
    (found : state.txs[slot]? = some tx) (more : tx.nackCount = 0 ∨ tx.attempts ≠ 0)
    (env : SegEnv) : TidyTxs (segTxSendUnacked env state slot).1.txs ∧
      lanesOf (segTxSendUnacked env state slot).1.txs = lanesOf state.txs := by
  unfold segTxSendUnacked
  rw [found]
  by_cases idle : tx.nackCount = 0
  · exact ⟨by simpa only [idle, if_true] using tidy, by simp only [idle, if_true]⟩
  have left := more.resolve_left idle
  simp only [idle, left, if_false]
  obtain ⟨route, nack⟩ := segTxAttempt_spec slot env.outcome tx
  exact sameLanes_set tidy found route nack

theorem fillSegments_spec (cfg : Config) (env : SegEnv) (unicast : Bool)
    (segments : List (List Byte)) : ∀ (segO : Nat) (tx : SegTx) (slab : List Nat),
      SameRoute tx (fillSegments cfg env unicast segO segments (tx, slab)).2.1 ∧
        (fillSegments cfg env unicast segO segments (tx, slab)).2.1.nackCount =
          tx.nackCount := by
  induction segments with
  | nil =>
    intro segO tx slab
    exact ⟨.refl tx, rfl⟩
  | cons data rest ih =>
    intro segO tx slab
    cases slab with
    | nil => exact ⟨.refl tx, rfl⟩
    | cons block free =>
      rw [fillSegments]
      dsimp only
      split
      · obtain ⟨route, nack⟩ := ih (segO + 1)
          { tx with seg := tx.seg.set segO none } (block :: free)
        exact ⟨⟨route.src, route.dst, route.blocked⟩, nack⟩
      · obtain ⟨route, nack⟩ := ih (segO + 1)
          { tx with seg := tx.seg.set segO (some ⟨block, data⟩) } free
        exact ⟨⟨route.src, route.dst, route.blocked⟩, nack⟩

theorem segCount_pos {ctlOp : Option Nat} {len : Nat}
    (fits : len ≤ cfg.txSegMax * segLen ctlOp.isSome) :
    0 < ((len - 1) / segLen ctlOp.isSome % 2 ^ 8 + 1) % 2 ^ 8 := by
  have limit := cfg.txSegMax_le
  have long : len ≤ 32 * segLen ctlOp.isSome :=
    Nat.le_trans fits (Nat.mul_le_mul_right _ limit)
  have few : (len - 1) / segLen ctlOp.isSome ≤ 32 := by
    apply Nat.div_le_of_le_mul
    rw [Nat.mul_comm]
    omega
  generalize (len - 1) / segLen ctlOp.isSome = last at few
  omega

theorem blocked_iff :
    (txs.any fun tx => tx.nackCount != 0 && segTxBlocks tx src dst) = true ↔
      ∃ other, Runs (lanesOf txs) (src, dst) other ∨
        Waits (lanesOf txs) (src, dst) other := by
  simp only [any_eq_true, Bool.and_eq_true, bne_iff_ne, segTxBlocks_iff]
  constructor
  · rintro ⟨tx, member, active, sameSrc, sameDst⟩
    obtain ⟨other, found⟩ := getElem?_of_mem member
    have here : lanesOf txs other = some ⟨(src, dst), tx.blocked⟩ :=
      lanesOf_eq_some.mpr ⟨tx, found, Nat.pos_of_ne_zero active, sameSrc,
        sameDst, rfl⟩
    cases blocked : tx.blocked with
    | false =>
      rw [blocked] at here
      exact ⟨other, .inl here⟩
    | true =>
      rw [blocked] at here
      exact ⟨other, .inr here⟩
  · rintro ⟨other, runs | waits⟩
    · obtain ⟨tx, found, active, sameSrc, sameDst, _⟩ := lanesOf_eq_some.mp runs
      exact ⟨tx, mem_of_getElem? found, Nat.ne_of_gt active, sameSrc, sameDst⟩
    · obtain ⟨tx, found, active, sameSrc, sameDst, _⟩ := lanesOf_eq_some.mp waits
      exact ⟨tx, mem_of_getElem? found, Nat.ne_of_gt active, sameSrc, sameDst⟩

structure Keeps (before after : SegTxs) : Prop where
  tidy : TidyTxs after.txs
  served : Served (lanesOf before.txs) → Served (lanesOf after.txs)

theorem Keeps.sameLanes {before after : SegTxs} (tidy : TidyTxs after.txs)
    (lanes : lanesOf after.txs = lanesOf before.txs) : Keeps before after :=
  ⟨tidy, fun served => lanes ▸ served⟩

theorem Keeps.givenUp (tidy : TidyTxs state.txs) {filled : SegTx} {slab : List Nat}
    (found : state.txs[slot]? = some tx) (free : tx.nackCount = 0) :
    Keeps state (segTxReset ⟨state.txs.set slot filled, slab⟩ slot).1 := by
  obtain ⟨lanes, tidyReset⟩ :=
    segTxReset_spec ⟨state.txs.set slot filled, slab⟩ slot
  refine .sameLanes (tidyReset ((tidy.but slot).ignore filled)) ?_
  have absent : lanesOf state.txs slot = none := by
    simp [lanesOf, slotView, found, SegTx.lane, free]
  rw [lanes, lanesOf_set state.txs found, update_idem, ← absent, update_eq_self]

theorem Keeps.sent {state filled : SegTxs} {slot : Nat} {tx : SegTx}
    (tidy : TidyTxs filled.txs)
    (served : Served (lanesOf state.txs) → Served (lanesOf filled.txs))
    (found : filled.txs[slot]? = some tx) (active : tx.nackCount ≠ 0)
    (unblocked : tx.blocked = false) (env : SegEnv) :
    Keeps state (segTxSendUnacked env filled slot).1 := by
  by_cases last : tx.attempts = 0
  · rw [segTxSendUnacked_ends found active last]
    obtain ⟨tidyDone, _, taken, lanes⟩ :=
      segTxComplete_spec (tidy.but slot) found
        (if addrIsUnicast tx.dst then some .timedOut else none)
    refine ⟨tidyDone, fun before => ?_⟩
    have here : lanesOf filled.txs slot = some ⟨(tx.src, tx.dst), false⟩ :=
      lanesOf_eq_some.mpr ⟨tx, found, Nat.pos_of_ne_zero active, rfl, rfl, unblocked⟩
    rw [lanes]
    refine ((served before).finished_here_iff here taken).mpr ?_
    intro blocked
    cases blocked
  · obtain ⟨tidyOn, lanes⟩ :=
      segTxSendUnacked_goesOn tidy found (.inr last) env
    exact ⟨tidyOn, fun before => lanes ▸ served before⟩

theorem idle_slot {txs : List SegTx} {slot : Nat} (unused : SegTx)
    (search : (txs.findIdx? fun tx => tx.nackCount == 0) = some slot) :
    ∃ tx, txs[slot]? = some tx ∧ tx.nackCount = 0 ∧ txs.getD slot unused = tx := by
  obtain ⟨bound, idle, _⟩ := findIdx?_eq_some_iff_getElem.mp search
  have found := getElem?_eq_getElem bound
  refine ⟨txs[slot], found, eq_of_beq idle, ?_⟩
  rw [getD_eq_getElem?_getD, found]
  rfl

theorem sendSeg_keeps (tidy : TidyTxs state.txs) (env : SegEnv) (netTx : NetTx)
    (sdu : List Byte) (cb : Option SendCb) (ctlOp : Option Nat)
    (fits : sdu.length ≤ cfg.txSegMax * segLen ctlOp.isSome) :
    Keeps state (sendSeg cfg env netTx sdu cb ctlOp state).2.1 := by
  unfold sendSeg
  generalize blockedEq : (state.txs.any fun tx =>
    tx.nackCount != 0 && segTxBlocks tx netTx.src netTx.addr) = blocked
  cases scan : state.txs.findIdx? fun tx => tx.nackCount == 0 with
  | none => exact .sameLanes tidy rfl
  | some slot =>
    obtain ⟨tx, found, free, given⟩ := idle_slot (.boot cfg.txSegMax) scan
    have bound := (List.getElem?_eq_some_iff.mp found).1
    dsimp only
    rw [given]
    generalize openedEq : segTxOpen cfg env netTx ctlOp cb sdu.length blocked tx
      = opened
    have active : 0 < opened.nackCount := by
      rw [← openedEq]
      exact segCount_pos fits
    have tidyOpened : opened.Tidy := by
      refine ⟨?_, fun idle => by omega, fun idle => by omega⟩
      rw [← openedEq]
      exact Nat.mod_lt _ (Nat.two_pow_pos 8)
    split
    · exact .givenUp tidy found free
    obtain ⟨route, nack⟩ := fillSegments_spec cfg env
      (addrIsUnicast netTx.addr)
      (sduSegments (segLen ctlOp.isSome) sdu.length sdu) 0 opened state.slab
    generalize fillSegments cfg env (addrIsUnicast netTx.addr) 0
      (sduSegments (segLen ctlOp.isSome) sdu.length sdu)
      (opened, state.slab) = filling at route nack
    obtain ⟨_, filled, _, _⟩ := filling
    dsimp only at route nack ⊢
    have tidyFilled := route.tidy nack tidyOpened
    split
    · exact .givenUp tidy found free
    split
    · exact .givenUp tidy found free
    have joined : Served (lanesOf state.txs) →
        Served (lanesOf (state.txs.set slot filled)) := by
      intro served
      have absent : lanesOf state.txs slot = none := by
        simp [lanesOf, slotView, found, SegTx.lane, free]
      have lane : filled.lane = some ⟨(netTx.src, netTx.addr), blocked⟩ := by
        rw [route.lane nack, ← openedEq]
        rw [← openedEq] at active
        exact SegTx.lane_eq_some.mpr ⟨active, rfl, rfl, rfl⟩
      rw [lanesOf_set state.txs found, lane]
      refine served.join absent ?_
      rw [← blockedEq]
      exact blocked_iff
    have tidySet := tidy.set slot tidyFilled
    cases blocked with
    | true => exact ⟨tidySet, joined⟩
    | false =>
      refine Keeps.sent tidySet joined (getElem?_set_self bound) ?_ ?_ env
      · omega
      · rw [route.blocked, ← openedEq]
        rfl

theorem segTxLookup_spec {seqZero addr : Nat} {obo : Bool} :
    ∀ {txs : List SegTx} {slot : Nat} {after : List SegTx},
      segTxLookup seqZero obo addr txs = some (slot, after) →
      ∃ tx, txs[slot]? = some tx ∧ after = txs.set slot { tx with dst := addr } ∧
        (tx.dst = addr ∨ 0 < tx.nackCount)
  | [], slot, after, lookup => by cases lookup
  | tx :: rest, slot, after, lookup => by
      rw [segTxLookup] at lookup
      split at lookup
      · rename_i direct
        cases lookup
        obtain ⟨_, rfl⟩ := direct
        exact ⟨tx, rfl, rfl, .inl rfl⟩
      · split at lookup
        · rename_i friend
          cases lookup
          exact ⟨tx, rfl, rfl, .inr (by omega)⟩
        · obtain ⟨⟨_, _⟩, behind, pair⟩ :=
            Option.map_eq_some_iff.mp lookup
          cases pair
          obtain ⟨other, found, afterEq, known⟩ := segTxLookup_spec behind
          subst afterEq
          exact ⟨other, found, rfl, known⟩

/-- An idle context has no destination that an acknowledgment comes from. -/
theorem segTxLookup_active {txs after : List SegTx} {seqZero addr slot : Nat}
    {obo : Bool} (tidy : TidyTxs txs)
    (lookup : segTxLookup seqZero obo addr txs = some (slot, after)) :
    ∃ tx, txs[slot]? = some tx ∧ after = txs.set slot { tx with dst := addr } ∧
      (addrIsUnicast addr = true → tx.nackCount ≠ 0) := by
  obtain ⟨tx, found, moved, here⟩ := segTxLookup_spec lookup
  refine ⟨tx, found, moved, fun unicast idle => ?_⟩
  rcases here with same | active
  · rw [← same, (tidy slot tx found).unassigned idle] at unicast
    cases unicast
  · exact absurd idle (Nat.ne_of_gt active)

theorem segTxDone_spec (tx : SegTx) (slab : List Nat) (idx : Nat) :
    (segTxDone tx slab idx).1.segN = tx.segN ∧ (∀ other, other ≠ idx →
        (segTxDone tx slab idx).1.seg[other]? = tx.seg[other]?) ∧
      (segTxDone tx slab idx).1.nackCount =
        if (tx.seg[idx]?).join.isSome then (tx.nackCount + 2 ^ 8 - 1) % 2 ^ 8
        else tx.nackCount := by
  unfold segTxDone
  split
  · rename_i buf found
    refine ⟨rfl, ?_, ?_⟩
    · intro other different
      exact getElem?_set_ne (Ne.symm different)
    · simp [found]
  · rename_i absent
    refine ⟨rfl, fun _ _ => rfl, ?_⟩
    have empty : (tx.seg[idx]?).join = none := by
      cases found : tx.seg[idx]? with
      | none => rfl
      | some held =>
        cases held with
        | none => rfl
        | some buf => exact absurd found (absent buf)
    simp [empty]

theorem ackFold_spec (ack : Nat) :
    ∀ (bits : List Nat) (start : SegTx × List Nat), bits.Nodup →
      start.1.nackCount < 2 ^ 8 →
      let acked := (bits.foldl
        (fun current bit =>
          if ack.testBit bit then segTxDone current.1 current.2 bit
          else current)
        start).1
      SameRoute start.1 acked ∧ acked.nackCount < 2 ^ 8 ∧
        (acked.nackCount + bits.countP (covers ack start.1)) % 2 ^ 8 =
          start.1.nackCount
  | [], start, _, small => ⟨.refl _, small, Nat.mod_eq_of_lt small⟩
  | bit :: rest, start, nodup, small => by
      obtain ⟨fresh, nodupRest⟩ := nodup_cons.mp nodup
      rw [foldl_cons, countP_cons]
      by_cases set : ack.testBit bit
      · rw [if_pos set]
        have route := segTxDone_route start.1 start.2 bit
        obtain ⟨_, others, nack⟩ := segTxDone_spec start.1 start.2 bit
        have smallDone : (segTxDone start.1 start.2 bit).1.nackCount < 2 ^ 8 := by
          rw [nack]
          split
          · exact Nat.mod_lt _ (Nat.two_pow_pos 8)
          · exact small
        obtain ⟨routeRest, smallRest, counted⟩ :=
          ackFold_spec ack rest (segTxDone start.1 start.2 bit) nodupRest smallDone
        have sameRest :
            rest.countP (covers ack (segTxDone start.1 start.2 bit).1) =
              rest.countP (covers ack start.1) := by
          apply countP_congr
          intro other member
          have different : other ≠ bit := by
            rintro rfl
            exact fresh member
          rw [covers, covers, others other different]
        refine ⟨route.trans routeRest, smallRest, ?_⟩
        have covered : covers ack start.1 bit = (start.1.seg[bit]?).join.isSome := by
          simp [covers, set]
        rw [sameRest, nack] at counted
        rw [covered]
        split at counted
        · rename_i held
          rw [if_pos held]
          omega
        · rename_i missing
          rw [if_neg missing]
          exact counted
      · rw [if_neg set]
        obtain ⟨routeRest, smallRest, counted⟩ :=
          ackFold_spec ack rest start nodupRest small
        refine ⟨routeRest, smallRest, ?_⟩
        have uncovered : covers ack start.1 bit = false := by simp [covers, set]
        simpa [uncovered] using counted

theorem ackSegments_spec (ack : Nat) (slab : List Nat)
    (small : tx.nackCount < 2 ^ 8) : SameRoute tx (ackSegments ack tx slab).1 ∧
      (ackSegments ack tx slab).1.nackCount < 2 ^ 8 ∧
      ((ackSegments ack tx slab).1.nackCount = 0 ↔
        ackedCount ack tx = tx.nackCount) := by
  obtain ⟨route, smallAcked, counted⟩ :=
    ackFold_spec ack (range 32) (tx, slab) nodup_range small
  refine ⟨route, smallAcked, ?_⟩
  have few : ackedCount ack tx ≤ 32 := by
    have bound := countP_le_length (p := covers ack tx) (l := range 32)
    simpa [ackedCount] using bound
  change ((ackSegments ack tx slab).1.nackCount + ackedCount ack tx) % 2 ^ 8 =
    tx.nackCount at counted
  change (ackSegments ack tx slab).1.nackCount < 2 ^ 8 at smallAcked
  omega

theorem ackContext_error {slot : Nat} {tx : SegTx} {ack : Nat}
    (found : state.txs[slot]? = some tx)
    (rejected : addrIsUnicast tx.dst = false ∨ ack ≠ 0 ∧ tx.segN < Nat.log2 ack) :
    (ackContext ack slot state).2.1 = state := by
  unfold ackContext
  rw [found]
  rcases rejected with group | ⟨nonzero, large⟩
  · simp [group]
  · cases unicast : addrIsUnicast tx.dst <;> simp [nonzero, large]

theorem ackContext_spec {slot : Nat} {tx : SegTx} (tidy : TidyTxs state.txs)
    (found : state.txs[slot]? = some tx) (unicast : addrIsUnicast tx.dst = true)
    {ack : Nat} (inRange : ack = 0 ∨ Nat.log2 ack ≤ tx.segN) :
    TidyTxs (ackContext ack slot state).2.1.txs ∧ if ackCompletes ack tx then
        Leaves (lanesOf state.txs) (tx.src, tx.dst) slot
          (lanesOf (ackContext ack slot state).2.1.txs)
      else
        lanesOf (ackContext ack slot state).2.1.txs = lanesOf state.txs := by
  unfold ackContext
  rw [found]
  simp only [unicast, Bool.not_true, Bool.false_eq_true, if_false]
  by_cases canceled : ack = 0
  · have completes : ackCompletes ack tx = true := by simp [ackCompletes, canceled]
    rw [if_pos canceled, if_pos completes]
    exact segTxComplete_spec (tidy.but slot) found (some .canceled)
  · have known : Nat.log2 ack ≤ tx.segN := inRange.resolve_left canceled
    have completes_iff : ackCompletes ack tx = true ↔
        ackedCount ack tx = tx.nackCount := by
      simp [ackCompletes, canceled, known]
    have tidyTx := tidy slot tx found
    obtain ⟨route, small, zero_iff⟩ := ackSegments_spec ack state.slab tidyTx.small
    rw [if_neg canceled, if_neg (Nat.not_lt.mpr known)]
    rw [← completes_iff] at zero_iff
    generalize ackSegments ack tx state.slab = acking at route small zero_iff
    obtain ⟨acked, slab⟩ := acking
    dsimp only at route small zero_iff ⊢
    have bound := (List.getElem?_eq_some_iff.mp found).1
    by_cases done : acked.nackCount = 0
    · rw [if_neg (not_not.mpr done), if_pos (zero_iff.mp done)]
      obtain ⟨tidyDone, leaves⟩ :=
        @segTxComplete_spec ⟨state.txs.set slot acked, slab⟩ slot
          ((tidy.but slot).ignore acked) acked (getElem?_set_self bound) none
      have empty : acked.lane = none := by simp [SegTx.lane, done]
      rw [lanesOf_set state.txs found, empty, route.src, route.dst] at leaves
      exact ⟨tidyDone, leaves.emptied⟩
    · rw [if_pos done, if_neg (fun completes => done (zero_iff.mpr completes))]
      have active : tx.nackCount ≠ 0 := by
        intro idle
        rw [tidyTx.unassigned idle] at unicast
        cases unicast
      have tidyAcked : SegTx.Tidy { acked with retransmit := true } :=
        ⟨small, fun idle => absurd idle done, fun idle => absurd idle done⟩
      refine ⟨tidy.set slot tidyAcked, lanesOf_set_same found ?_⟩
      simp only [SegTx.lane, done, active, if_false, route.src, route.dst,
        route.blocked]

theorem laneAt (found : txs[slot]? = some tx) (active : tx.nackCount ≠ 0) :
    lanesOf txs slot = some ⟨(tx.src, tx.dst), tx.blocked⟩ :=
  lanesOf_eq_some.mpr ⟨tx, found, Nat.pos_of_ne_zero active, rfl, rfl, rfl⟩

theorem finishAdmitted_iff (served : Served (lanesOf txs))
    (found : txs[slot]? = some tx) (active : tx.nackCount ≠ 0)
    {after : Lanes Nat (Nat × Nat)} (leaves : Leaves (update (lanesOf txs) slot
      (some ⟨(tx.src, dst), tx.blocked⟩)) (tx.src, dst) slot after) :
    Served after ↔ finishAdmitted txs slot tx dst = true := by
  obtain ⟨_, taken, rfl⟩ := leaves
  have here := laneAt found active
  rw [served.finished_iff here taken]
  have old : elsewhere txs slot true tx.src tx.dst = true ↔
      WaitsElsewhere (lanesOf txs) slot (tx.src, tx.dst) := elsewhere_iff
  have new : elsewhere txs slot true tx.src dst = true ↔
      WaitsElsewhere (lanesOf txs) slot (tx.src, dst) := elsewhere_iff
  rw [← old, ← new]
  simp only [finishAdmitted, ne_eq, Prod.mk.injEq, true_and]
  cases tx.blocked <;> by_cases stays : dst = tx.dst <;> simp [stays]

theorem moveAdmitted_iff (served : Served (lanesOf txs))
    (found : txs[slot]? = some tx) (active : tx.nackCount ≠ 0) (dst : Nat) :
    Served (update (lanesOf txs) slot (some ⟨(tx.src, dst), tx.blocked⟩)) ↔
      moveAdmitted txs slot tx dst = true := by
  have here := laneAt found active
  unfold moveAdmitted
  by_cases stays : dst = tx.dst
  · rw [stays, ← here, update_eq_self]
    simpa using served
  have moves : (tx.src, dst) ≠ (tx.src, tx.dst) := by simpa using stays
  have runsThere : elsewhere txs slot false tx.src dst = true ↔
      RunsElsewhere (lanesOf txs) slot (tx.src, dst) := elsewhere_iff
  have waitsHere : elsewhere txs slot true tx.src tx.dst = true ↔
      WaitsElsewhere (lanesOf txs) slot (tx.src, tx.dst) := elsewhere_iff
  cases blocked : tx.blocked with
  | false =>
    rw [blocked] at here
    rw [served.runner_moved_iff here moves, ← runsThere, ← waitsHere]
    simp [stays]
  | true =>
    rw [blocked] at here
    rw [served.waiter_moved_iff here, ← runsThere]
    simp [stays]

/-- What has to be known of each step: it keeps the contexts tidy, and it keeps
them served exactly when it is admitted. -/
structure ExactStep (before after : SegTxs) (admitted : Bool) : Prop where
  tidy : TidyTxs after.txs
  served_iff : Served (lanesOf before.txs) →
    (Served (lanesOf after.txs) ↔ admitted = true)

theorem Keeps.exact {before after : SegTxs} (keeps : Keeps before after) :
    ExactStep before after true :=
  ⟨keeps.tidy, fun served => iff_of_true (keeps.served served) rfl⟩

section

variable (tidy : TidyTxs state.txs)
include tidy

theorem Keeps.refl : Keeps state state :=
  .sameLanes tidy rfl

theorem expired_exact
    (found : state.txs[slot]? = some tx) (active : tx.nackCount ≠ 0)
    (err : Option Errno) : ExactStep state (segTxComplete state slot err).1
      (finishAdmitted state.txs slot tx tx.dst) := by
  obtain ⟨tidyDone, leaves⟩ := segTxComplete_spec (tidy.but slot) found err
  refine ⟨tidyDone, fun served => finishAdmitted_iff served found active ?_⟩
  rw [← laneAt found active, update_eq_self]
  exact leaves

theorem segTxSendUnacked_exact
    {slot : Nat} {tx : SegTx} (found : state.txs[slot]? = some tx)
    (env : SegEnv) : ExactStep state (segTxSendUnacked env state slot).1
      (!(tx.nackCount != 0 && tx.attempts == 0) ||
        finishAdmitted state.txs slot tx tx.dst) := by
  by_cases last : tx.nackCount ≠ 0 ∧ tx.attempts = 0
  · rw [segTxSendUnacked_ends found last.1 last.2]
    have expired : (tx.nackCount != 0 && tx.attempts == 0) = true := by
      simpa using last
    rw [expired]
    exact expired_exact tidy found last.1 _
  · have more : tx.nackCount = 0 ∨ tx.attempts ≠ 0 := by
      by_contra neither
      rw [not_or] at neither
      exact last ⟨neither.1, not_not.mp neither.2⟩
    obtain ⟨tidyOn, lanes⟩ := segTxSendUnacked_goesOn tidy found more env
    have admitted : (!(tx.nackCount != 0 && tx.attempts == 0)) = true := by
      simpa [or_iff_not_imp_left] using more
    rw [admitted]
    exact (Keeps.sameLanes tidyOn lanes).exact

end

theorem elsewhere_set (found : txs[slot]? = some tx) (same : updated.lane = tx.lane)
    (blocked : Bool) (src dst : Nat) :
    elsewhere (txs.set slot updated) slot blocked src dst =
      elsewhere txs slot blocked src dst := by
  rw [Bool.eq_iff_iff, elsewhere_iff, elsewhere_iff, lanesOf_set_same found same]

theorem segRetransmit_exact (tidy : TidyTxs state.txs) (env : SegEnv) (slot : Nat) :
    ExactStep state (segRetransmit env state slot).1
      (retransmitAdmits state.txs slot) := by
  unfold segRetransmit retransmitAdmits
  cases found : state.txs[slot]? with
  | none => exact (Keeps.refl tidy).exact
  | some tx =>
    cases pending : tx.retransmit with
    | false => simpa [pending] using (Keeps.refl tidy).exact
    | true =>
      generalize firedEq : ({ tx with retransmit := false } : SegTx) = fired
      have route : SameRoute tx fired := by
        rw [← firedEq]
        exact ⟨rfl, rfl, rfl⟩
      have counts : fired.nackCount = tx.nackCount ∧
          fired.attempts = tx.attempts := by
        rw [← firedEq]
        exact ⟨rfl, rfl⟩
      have bound := (List.getElem?_eq_some_iff.mp found).1
      obtain ⟨tidyFired, lanes⟩ := sameLanes_set tidy found route counts.1
      obtain ⟨tidyAfter, served_iff⟩ :=
        @segTxSendUnacked_exact ⟨state.txs.set slot fired, state.slab⟩
          tidyFired slot fired (getElem?_set_self bound) env
      have sameCondition :
          finishAdmitted (state.txs.set slot fired) slot fired fired.dst =
            finishAdmitted state.txs slot tx tx.dst := by
        simp only [finishAdmitted, route.src, route.dst, route.blocked,
          elsewhere_set found (route.lane counts.1)]
      refine ⟨by simpa [pending, firedEq] using tidyAfter, ?_⟩
      rw [sameCondition, counts.1, counts.2, lanes] at served_iff
      simpa [pending, firedEq] using served_iff

theorem resetFold_spec (slots : List Nat) :
    ∀ start : SegTxs × List SegTxEvt, TidyTxs start.1.txs →
      let after := (slots.foldl
        (fun current slot =>
          let (reset, evts) := segTxReset current.1 slot
          (reset, current.2 ++ evts))
        start).1
      TidyTxs after.txs ∧ ∀ slot, lanesOf after.txs slot =
          if slot ∈ slots then none else lanesOf start.1.txs slot := by
  induction slots with
  | nil =>
    intro start tidy
    exact ⟨tidy, by simp⟩
  | cons first rest ih =>
    intro start tidy
    obtain ⟨lanes, tidyReset⟩ := segTxReset_spec start.1 first
    obtain ⟨tidyRest, lanesRest⟩ := ih
      ((segTxReset start.1 first).1, start.2 ++ (segTxReset start.1 first).2)
      (tidyReset (tidy.but first))
    refine ⟨tidyRest, ?_⟩
    intro slot
    rw [foldl_cons, lanesRest slot]
    by_cases later : slot ∈ rest
    · simp [later]
    by_cases here : slot = first
    · subst here
      simp [later, lanes]
    · simp [later, here, lanes]

section

variable (tidy : TidyTxs state.txs)
include tidy

theorem transResetTx_keeps : Keeps state (transResetTx state).1 := by
  obtain ⟨tidyReset, lanes⟩ :=
    resetFold_spec (range state.txs.length) (state, []) tidy
  refine ⟨tidyReset, fun _ => ?_⟩
  have empty : lanesOf (transResetTx state).1.txs = fun _ => none := by
    funext slot
    refine (lanes slot).trans ?_
    split
    · rfl
    rename_i outside
    have beyond : state.txs.length ≤ slot := by simpa using outside
    simp [lanesOf, slotView, getElem?_eq_none beyond]
  rw [empty]
  exact Served.idle

theorem ackContext_exact (found : state.txs[slot]? = some tx)
    (active : tx.nackCount ≠ 0) (ack addr : Nat) :
    ExactStep state
      (ackContext ack slot
        { state with txs := state.txs.set slot { tx with dst := addr } }).2.1
      (ackAdmits state.txs slot ack addr) := by
  generalize movedEq : ({ tx with dst := addr } : SegTx) = moved
  have fields : moved.dst = addr ∧ moved.src = tx.src ∧
      moved.segN = tx.segN ∧ ackCompletes ack moved = ackCompletes ack tx := by
    rw [← movedEq]
    exact ⟨rfl, rfl, rfl, rfl⟩
  obtain ⟨dst, src, segN, completes⟩ := fields
  have tidyTx := tidy slot tx found
  have tidyMoved : moved.Tidy := by
    rw [← movedEq]
    exact ⟨tidyTx.small, tidyTx.unblocked, fun idle => absurd idle active⟩
  have lane : moved.lane = some ⟨(tx.src, addr), tx.blocked⟩ := by
    rw [← movedEq]
    exact SegTx.lane_eq_some.mpr ⟨Nat.pos_of_ne_zero active, rfl, rfl, rfl⟩
  have lanes : lanesOf (state.txs.set slot moved) =
      update (lanesOf state.txs) slot (some ⟨(tx.src, addr), tx.blocked⟩) := by
    rw [lanesOf_set state.txs found, lane]
  have bound := (List.getElem?_eq_some_iff.mp found).1
  have foundMoved : (state.txs.set slot moved)[slot]? = some moved :=
    getElem?_set_self bound
  have tidySet := tidy.set slot tidyMoved
  have stays : (addrIsUnicast addr && ackCompletes ack tx) = false →
      ExactStep state ⟨state.txs.set slot moved, state.slab⟩
        (ackAdmits state.txs slot ack addr) := by
    intro unfinished
    refine ⟨tidySet, fun served => ?_⟩
    simp only [lanes, ackAdmits, found, unfinished, Bool.false_eq_true, if_false]
    exact moveAdmitted_iff served found active addr
  by_cases rejected : addrIsUnicast moved.dst = false ∨
      ack ≠ 0 ∧ moved.segN < Nat.log2 ack
  · rw [@ackContext_error ⟨state.txs.set slot moved, state.slab⟩ slot moved ack
      foundMoved rejected]
    apply stays
    rcases rejected with group | ⟨nonzero, large⟩
    · rw [← dst, group]
      rfl
    · rw [segN] at large
      simp [ackCompletes, nonzero, Nat.not_le.mpr large]
  · obtain ⟨unicast, small⟩ := not_or.mp rejected
    have unicast : addrIsUnicast moved.dst = true := by simpa using unicast
    have inRange : ack = 0 ∨ Nat.log2 ack ≤ moved.segN := by
      by_cases zero : ack = 0
      · exact .inl zero
      · exact .inr (Nat.not_lt.mp fun large => small ⟨zero, large⟩)
    obtain ⟨tidyAfter, after⟩ :=
      @ackContext_spec ⟨state.txs.set slot moved, state.slab⟩ slot moved tidySet
        foundMoved unicast ack inRange
    rw [completes, src, dst] at after
    rw [dst] at unicast
    refine ⟨tidyAfter, fun served => ?_⟩
    cases finished : ackCompletes ack tx with
    | true =>
      simp only [finished, if_true, lanes] at after
      simp only [ackAdmits, found, unicast, finished, Bool.and_self, if_true]
      exact finishAdmitted_iff served found active after
    | false =>
      simp only [finished, Bool.false_eq_true, if_false] at after
      rw [after]
      exact (stays (by simp [finished])).served_iff served

theorem ackContext_idle
    (found : state.txs[slot]? = some tx) (idle : tx.nackCount = 0) (ack : Nat) :
    ExactStep state
      (ackContext ack slot
        { state with txs := state.txs.set slot { tx with dst := tx.dst } }).2.1
      (ackAdmits state.txs slot ack tx.dst) := by
  have unassigned := (tidy slot tx found).unassigned idle
  have group : addrIsUnicast tx.dst = false := by rw [unassigned]; rfl
  have same : state.txs.set slot tx = state.txs := by
    obtain ⟨bound, rfl⟩ := List.getElem?_eq_some_iff.mp found
    exact set_getElem_self bound
  have admitted : ackAdmits state.txs slot ack tx.dst = true := by
    simp [ackAdmits, found, group, moveAdmitted]
  rw [admitted]
  change ExactStep state
    (ackContext ack slot { state with txs := state.txs.set slot tx }).2.1 true
  rw [same, ackContext_error found (.inl group)]
  exact (Keeps.refl tidy).exact

theorem transAck_exact (friendMatch : Bool)
    (iviRx addr : Nat) (buf : List Byte) :
    ExactStep state (transAck cfg friendMatch iviRx addr buf state).2.1
      ((cfg.friend && friendMatch) || transAckAdmits state.txs addr buf) := by
  have unchanged := (Keeps.refl tidy).exact
  unfold transAck transAckAdmits
  split
  · rename_i z0 z1 b0 b1 b2 b3 rest
    cases forLpn : cfg.friend && friendMatch with
    | true => exact unchanged
    | false =>
      simp only [Bool.false_eq_true, if_false, Bool.false_or]
      cases lookup : segTxLookup (be16Of z0 z1 / 2 ^ 2 % 2 ^ 13)
        (decide (2 ^ 15 ≤ be16Of z0 z1)) addr state.txs with
      | none => exact unchanged
      | some pair =>
        obtain ⟨_, _⟩ := pair
        obtain ⟨tx, found, rfl, known⟩ := segTxLookup_spec lookup
        by_cases idle : tx.nackCount = 0
        · obtain rfl := known.resolve_right (by omega)
          exact ackContext_idle tidy found idle _
        · exact ackContext_exact tidy found idle _ addr
  · simpa using unchanged

theorem segTxStep_exact (input : SegTxInput) (fits : input.Fits cfg) :
    ExactStep state (segTxStep cfg state input).1
      (segTxAdmitted cfg state input) := by
  cases input with
  | send env netTx sdu cb ctlOp =>
    exact (sendSeg_keeps tidy env netTx sdu cb ctlOp fits).exact
  | retransmit env slot => exact segRetransmit_exact tidy env slot
  | ack friendMatch iviRx addr buf =>
    exact transAck_exact tidy friendMatch iviRx addr buf
  | segSendStart slot failed =>
    refine Keeps.exact ?_
    simp only [segTxStep]
    split
    · exact .refl tidy
    rename_i tx found
    obtain ⟨route, nack⟩ := segSendStart_spec failed tx
    obtain ⟨tidyCalled, lanes⟩ := sameLanes_set tidy found route nack
    exact .sameLanes tidyCalled lanes
  | segSent slot =>
    refine Keeps.exact ?_
    simp only [segTxStep]
    split
    · exact .refl tidy
    rename_i tx found
    obtain ⟨route, nack⟩ := scheduleRetransmit_spec tx
    obtain ⟨tidySent, lanes⟩ := sameLanes_set tidy found route nack
    exact .sameLanes tidySent lanes
  | reset => exact (transResetTx_keeps tidy).exact

end

theorem TidyTxs.boot (cfg : Config) (msgCount segBufs : Nat) :
    TidyTxs (SegTxs.boot cfg msgCount segBufs).txs := by
  intro slot tx found
  have booted : tx = .boot cfg.txSegMax :=
    eq_of_mem_replicate (mem_of_getElem? found)
  subst booted
  exact ⟨Nat.two_pow_pos 8, fun _ => rfl, fun _ => rfl⟩

theorem Unblockable.boot (cfg : Config) (msgCount segBufs : Nat) :
    Unblockable (SegTxs.boot cfg msgCount segBufs) := by
  have idle : ∀ (slot : Nat) (tx : SegTx),
      (SegTxs.boot cfg msgCount segBufs).txs[slot]? = some tx →
        tx.nackCount = 0 := by
    intro slot tx found
    rw [eq_of_mem_replicate (mem_of_getElem? found)]
    rfl
  constructor
  · intro slot tx found _ active
    have free := idle slot tx found
    omega
  · intro first _ firstTx _ found _ _ _ active
    have free := idle first firstTx found
    omega

/-- Every blocked transmission has one that will unblock it in every state of a
run exactly when every step of the run is admitted. -/
theorem unblockable_always_iff (cfg : Config) (msgCount segBufs : Nat)
    (inputs : List SegTxInput)
    (fit : (segTxMachine cfg).Along (fun _ input => input.Fits cfg)
      (.boot cfg msgCount segBufs) inputs) :
    (segTxMachine cfg).Always Unblockable (.boot cfg msgCount segBufs) inputs ↔
      (segTxMachine cfg).Along
        (fun state input => segTxAdmitted cfg state input = true)
        (.boot cfg msgCount segBufs) inputs := by
  refine @Machine.always_iff_along_of _ _ _ _ (fun state => TidyTxs state.txs) _ _ _
    ?_ ?_ _ inputs fit (TidyTxs.boot cfg msgCount segBufs)
    (Unblockable.boot cfg msgCount segBufs)
  · intro state input tidy fits
    exact (segTxStep_exact tidy input fits).tidy
  · intro state input tidy unblockable fits
    rw [unblockable_iff] at unblockable ⊢
    exact (segTxStep_exact tidy input fits).served_iff unblockable

def sampleConfig : Config := { plainConfig with settings := false, friend := false }

def sampleSend (seq : Nat) : SegTxInput :=
  .send ⟨0, seq, true, fun _ => false, fun _ => .sent, false⟩
    ⟨0, 0, 5, 7, 1, 0, 0, false, false⟩ (List.replicate 20 0) none none

theorem unblockable_always_two :
    (segTxMachine sampleConfig).Always Unblockable (.boot sampleConfig 2 64)
      [sampleSend 0x100, sampleSend 0x110] :=
  (unblockable_always_iff sampleConfig 2 64 _ (by decide)).mpr (by decide)

def sampleOboAck : SegTxInput :=
  .ack false 0 9 [0x84, 0x00, 0x00, 0x00, 0x00, 0x01]

theorem unblockable_broken_by_obo :
    ¬ (segTxMachine sampleConfig).Always Unblockable (.boot sampleConfig 2 64)
      [sampleSend 0x100, sampleSend 0x110, sampleOboAck] := by
  intro always
  obtain ⟨other, _, different, found, _, dst, _, _⟩ :=
    always.last.unblocker 1 _ rfl rfl (by decide)
  match other with
  | 0 =>
    cases found
    revert dst
    decide
  | 1 => exact different rfl
  | _ + 2 => cases found

end ZephyrBluetooth.Mesh
