import ZephyrBluetooth.Data.Pool
import ZephyrBluetooth.Mesh.SegReassembly
import ZephyrBluetooth.Mesh.SegRxTimer

namespace ZephyrBluetooth.Mesh

open Data List Bool Option

structure SegBufs where
  txs : List SegTx
  rx : SegRxs

def SegBufs.tx (state : SegBufs) : SegTxs :=
  ⟨state.txs, state.rx.slab⟩

inductive SegBufsInput where
  | tx (input : SegTxInput)
  | rx (input : SegRxInput)

/-- `send_seg` is called for SDUs that have some bytes, and a place in the array
for each segment. -/
def Placed (cfg : Config) : SegBufsInput → Prop
  | .tx (.send _ _ sdu _ ctlOp) =>
    sdu ≠ [] ∧ sdu.length ≤ cfg.txSegMax * segLen ctlOp.isSome
  | _ => True

def segBufsStep (cfg : Config) (state : SegBufs) :
    SegBufsInput → SegBufs × List (SegTxEvt ⊕ SegRxEvt)
  | .tx input =>
    let (after, evts) := segTxStep cfg state.tx input
    (⟨after.txs, { state.rx with slab := after.slab }⟩, evts.map .inl)
  | .rx input =>
    let (after, evts) := segRxStep cfg state.rx input
    ({ state with rx := after }, evts.map .inr)

def segBufsMachine (cfg : Config) :
    Machine SegBufs SegBufsInput (SegTxEvt ⊕ SegRxEvt) where
  step := segBufsStep cfg

def SegBufs.boot (cfg : Config) (ivIndex crpl txCount rxCount segBufs : Nat) :
    SegBufs where
  txs := (SegTxs.boot cfg txCount segBufs).txs
  rx := .boot cfg ivIndex crpl rxCount segBufs

def SegTx.blocks (tx : SegTx) : List Nat :=
  slotBlocks SegBuf.block tx.seg

def SegRx.blocks (rx : SegRx) : List Nat :=
  slotBlocks SegBuf.block rx.seg

def SegBufs.allBlocks (state : SegBufs) : List Nat :=
  state.rx.slab ++ state.txs.flatMap SegTx.blocks ++
    state.rx.rxs.flatMap SegRx.blocks

/-- Each block of the slab is free or in one slot of one context, and the
contexts tell which of their slots are filled. -/
structure Owned (segBufs : Nat) (state : SegBufs) : Prop where
  once : state.allBlocks.Perm (List.range segBufs)
  nackCount : ∀ tx ∈ state.txs, tx.nackCount ≠ 0 →
    tx.nackCount = (tx.seg.take (tx.segN + 1)).countP Option.isSome
  block : ∀ rx ∈ state.rx.rxs, rx.inUse = true →
    ∀ i, (rx.seg[i]?).join.isSome = rx.block.testBit i

structure SegTx.Sound (segMax : Nat) (tx : SegTx) : Prop where
  length : tx.seg.length = segMax
  above : EmptyFrom (tx.segN + 1) tx.seg
  nackCount : tx.nackCount = tx.blocks.length

structure SegTx.Freeable (segMax : Nat) (tx : SegTx) : Prop where
  length : tx.seg.length = segMax
  above : EmptyFrom (tx.segN + 1) tx.seg
  enough : tx.blocks.length ≤ tx.nackCount
  small : tx.nackCount < 2 ^ 8

section Transmit

variable {cfg : Config} {segMax : Nat} {tx : SegTx}

theorem SegTx.blocks_length (tx : SegTx) :
    tx.blocks.length = tx.seg.countP isSome :=
  slotBlocks_length tx.seg

section

variable (sound : tx.Sound segMax)
include sound

theorem SegTx.Sound.freeable (few : segMax ≤ 32) : tx.Freeable segMax where
  length := sound.length
  above := sound.above
  enough := le_of_eq sound.nackCount.symm
  small := by
    have bound := @countP_le_length _ isSome tx.seg
    rw [sound.nackCount, tx.blocks_length]
    have length := sound.length
    omega

theorem SegTx.Sound.nackCount_eq :
    tx.nackCount = (tx.seg.take (tx.segN + 1)).countP isSome := by
  rw [sound.nackCount, SegTx.blocks, ← sound.above.blocks, slotBlocks_length]

theorem SegTx.Sound.of_same {other : SegTx}
    (same : SameTransfer tx other) : other.Sound segMax where
  length := by rw [same.seg, sound.length]
  above := by
    rw [same.seg, same.segN]
    exact sound.above
  nackCount := by
    rw [same.nackCount, SegTx.blocks, same.seg]
    exact sound.nackCount

end

theorem SegTx.Sound.of_empty (length : tx.seg.length = segMax)
    (empty : EmptyFrom 0 tx.seg) (idle : tx.nackCount = 0) :
    tx.Sound segMax where
  length := length
  above := empty.mono (Nat.zero_le _)
  nackCount := by
    rw [idle, SegTx.blocks, slotBlocks_empty (emptyFrom_zero.mp empty)]
    rfl

theorem SegTx.Sound.idle_empty (sound : tx.Sound segMax)
    (idle : tx.nackCount = 0) : EmptyFrom 0 tx.seg := by
  have count := sound.nackCount
  rw [idle] at count
  exact emptyFrom_of_blocks (length_eq_zero_iff.mp count.symm)

theorem segTxDone_cases (tx : SegTx) (slab : List Nat) (idx : Nat) :
    (tx.seg[idx]?).join = none ∧ segTxDone tx slab idx = (tx, slab) ∨
      ∃ buf, tx.seg[idx]? = some (some buf) ∧ segTxDone tx slab idx =
          ({ tx with
              seg := tx.seg.set idx none
              nackCount := (tx.nackCount + 2 ^ 8 - 1) % 2 ^ 8 },
            buf.block :: slab) := by
  unfold segTxDone
  split
  · rename_i buf found
    exact .inr ⟨buf, found, rfl⟩
  rename_i absent
  refine .inl ⟨?_, rfl⟩
  cases found : tx.seg[idx]? with
  | none => rfl
  | some slot =>
    cases slot with
    | none => rfl
    | some buf => exact absurd found (absent buf)

theorem segTxDone_blocks (tx : SegTx) (slab : List Nat) (idx : Nat) :
    ((segTxDone tx slab idx).2 ++ (segTxDone tx slab idx).1.blocks).Perm
      (slab ++ tx.blocks) := by
  rcases segTxDone_cases tx slab idx with ⟨_, same⟩ | ⟨_, found, done⟩
  · rw [same]
  rw [done]
  have cleared := @slotBlocks_clear _ _ SegBuf.block _ _ _ found
  exact perm_middle.symm.trans (cleared.append_left slab)

theorem segTxDone_freeable (freeable : tx.Freeable segMax) (slab : List Nat)
    (idx : Nat) : (segTxDone tx slab idx).1.Freeable segMax := by
  rcases segTxDone_cases tx slab idx with ⟨_, same⟩ | ⟨_, found, done⟩
  · rw [same]
    exact freeable
  rw [done]
  have cleared := (@slotBlocks_clear _ _ SegBuf.block _ _ _ found).length_eq
  rw [length_cons] at cleared
  have enough : (slotBlocks SegBuf.block tx.seg).length ≤ tx.nackCount :=
    freeable.enough
  have small := freeable.small
  refine ⟨(length_set ..).trans freeable.length,
    freeable.above.clear idx, ?_, Nat.mod_lt _ (Nat.two_pow_pos 8)⟩
  change (slotBlocks SegBuf.block (tx.seg.set idx none)).length ≤
    (tx.nackCount + 2 ^ 8 - 1) % 2 ^ 8
  omega

theorem segTxDone_sound (sound : tx.Sound segMax) (few : segMax ≤ 32)
    (slab : List Nat) (idx : Nat) : (segTxDone tx slab idx).1.Sound segMax := by
  have small := (sound.freeable few).small
  rcases segTxDone_cases tx slab idx with ⟨_, same⟩ | ⟨_, found, done⟩
  · rw [same]
    exact sound
  rw [done]
  have cleared := (@slotBlocks_clear _ _ SegBuf.block _ _ _ found).length_eq
  rw [length_cons] at cleared
  have count : tx.nackCount = (slotBlocks SegBuf.block tx.seg).length :=
    sound.nackCount
  refine ⟨(length_set ..).trans sound.length, sound.above.clear idx, ?_⟩
  change (tx.nackCount + 2 ^ 8 - 1) % 2 ^ 8 =
    (slotBlocks SegBuf.block (tx.seg.set idx none)).length
  omega

theorem segTxDone_slot (tx : SegTx) (slab : List Nat) (idx other : Nat)
    (gone : other = idx ∨ (tx.seg[other]?).join = none) :
    ((segTxDone tx slab idx).1.seg[other]?).join = none := by
  rcases segTxDone_cases tx slab idx with ⟨absent, same⟩ | ⟨_, _, done⟩
  · rw [same]
    rcases gone with rfl | gone
    · exact absent
    · exact gone
  · rw [done]
    rw [getElem?_set]
    split
    · split <;> rfl
    · rename_i different
      exact gone.resolve_left (Ne.symm different)

theorem segTxDone_segN (tx : SegTx) (slab : List Nat) (idx : Nat) :
    (segTxDone tx slab idx).1.segN = tx.segN := by
  rcases segTxDone_cases tx slab idx with ⟨_, same⟩ | ⟨_, _, done⟩
  · rw [same]
  · rw [done]

structure FreedBelow (segMax count : Nat) (tx : SegTx) (slab : List Nat)
    (result : SegTx × List Nat) : Prop where
  freeable : result.1.Freeable segMax
  segN : result.1.segN = tx.segN
  blocks : (result.2 ++ result.1.blocks).Perm (slab ++ tx.blocks)
  freed : result.1.nackCount = 0 ∨
    ∀ idx, idx < count → (result.1.seg[idx]?).join = none

theorem freeLoop_freed (freeable : tx.Freeable segMax) (slab : List Nat)
    (count : Nat) :
    FreedBelow segMax count tx slab ((range count).foldl (fun current idx =>
          if current.1.nackCount = 0 then current
          else segTxDone current.1 current.2 idx)
        (tx, slab)) := by
  induction count with
  | zero => exact ⟨freeable, rfl, .refl _, .inr nofun⟩
  | succ count ih =>
    rw [range_succ, foldl_append, foldl_cons, foldl_nil]
    generalize (range count).foldl _ (tx, slab) = current at ih ⊢
    split
    · rename_i done
      exact { ih with freed := .inl done }
    rename_i more
    refine ⟨segTxDone_freeable ih.freeable _ _, (segTxDone_segN ..).trans ih.segN,
      (segTxDone_blocks ..).trans ih.blocks, .inr ?_⟩
    intro idx below
    refine segTxDone_slot _ _ _ _ ?_
    rcases Nat.lt_succ_iff_lt_or_eq.mp below with lower | rfl
    · exact .inr (ih.freed.resolve_left more idx lower)
    · exact .inl rfl

theorem freeSegments_empties (freeable : tx.Freeable segMax) (slab : List Nat) :
    (freeSegments tx slab).1.seg.length = segMax ∧
      EmptyFrom 0 (freeSegments tx slab).1.seg ∧
      (freeSegments tx slab).2.Perm (slab ++ tx.blocks) := by
  have freed := freeLoop_freed freeable slab (tx.segN + 1)
  unfold freeSegments
  generalize (range (tx.segN + 1)).foldl _ (tx, slab) = result at freed ⊢
  have empty : EmptyFrom 0 result.1.seg := by
    rcases freed.freed with idle | below
    · have none_held := freed.freeable.enough
      rw [idle] at none_held
      exact emptyFrom_of_blocks
        (length_eq_zero_iff.mp (Nat.le_zero.mp none_held))
    · intro idx _
      rcases lt_or_ge idx (tx.segN + 1) with lower | upper
      · exact below idx lower
      · exact freed.freeable.above idx (by rw [freed.segN]; exact upper)
  refine ⟨freed.freeable.length, empty, ?_⟩
  have blocks := freed.blocks
  rw [SegTx.blocks, slotBlocks_empty (emptyFrom_zero.mp empty), append_nil] at blocks
  exact blocks

end Transmit

abbrev SoundTxs (segMax : Nat) (txs : List SegTx) : Prop :=
  ∀ tx ∈ txs, tx.Sound segMax

abbrev SegTxKept (segMax : Nat) (before after : SegTxs) : Prop :=
  PoolKept (SegTx.Sound segMax) SegTx.blocks before.slab before.txs
    after.slab after.txs

section Transmit

variable {cfg : Config} {segMax slot : Nat} {tx : SegTx} {state : SegTxs}

theorem segTxs_kept {txs : List SegTx} (sound : SoundTxs segMax state.txs)
    (same : List.Forall₂ SameTransfer state.txs txs) :
    SegTxKept segMax state { state with txs := txs } where
  sound := by
    intro tx member
    obtain ⟨old, among, alike⟩ := forall₂_mem same member
    exact (sound old among).of_same alike
  blocks := by
    have held := @pool_same _ _ SegTx.blocks _ _ state.slab
      (same.imp fun old new alike => by rw [SegTx.blocks, alike.seg]; rfl)
    exact .of_eq held

theorem segTxReset_kept (but : SoundBut (SegTx.Sound segMax) slot state.txs)
    (found : state.txs[slot]? = some tx) (freeable : tx.Freeable segMax) :
    SegTxKept segMax state (segTxReset state slot).1 := by
  have cleared : ({ tx with
      cb := none
      seqAuth := 0
      sub := none
      src := addrUnassigned
      dst := addrUnassigned
      blocked := false
      retransmit := false } : SegTx).Freeable segMax :=
    ⟨freeable.length, freeable.above, freeable.enough, freeable.small⟩
  obtain ⟨length, empty, blocks⟩ := freeSegments_empties cleared state.slab
  unfold segTxReset
  rw [found]
  dsimp only
  refine .put but found (.of_empty length empty rfl) ?_
  rw [show SegTx.blocks { (freeSegments _ state.slab).1 with nackCount := 0 } =
    [] from slotBlocks_empty (emptyFrom_zero.mp empty), append_nil]
  exact blocks

section

variable (few : segMax ≤ 32) (sound : SoundTxs segMax state.txs)
include few sound

theorem segTxReset_sound (slot : Nat) :
    SegTxKept segMax state (segTxReset state slot).1 := by
  cases found : state.txs[slot]? with
  | none =>
    unfold segTxReset
    rw [found]
    exact .refl sound
  | some tx =>
    exact segTxReset_kept (soundBut sound slot) found
      ((sound tx (mem_of_getElem? found)).freeable few)

theorem segTxComplete_kept (slot : Nat) (err : Option Errno) :
    SegTxKept segMax state (segTxComplete state slot err).1 := by
  unfold segTxComplete
  cases state.txs[slot]? with
  | none => exact .refl sound
  | some tx =>
    have unblocked := segTxs_kept sound (segTxUnblockCheck_same slot tx state.txs)
    exact (segTxReset_sound few unblocked.sound slot).trans unblocked

theorem segTxSendUnacked_kept (env : SegEnv) (slot : Nat) :
    SegTxKept segMax state (segTxSendUnacked env state slot).1 := by
  unfold segTxSendUnacked
  cases found : state.txs[slot]? with
  | none => exact .refl sound
  | some tx =>
    dsimp only
    split
    · exact .refl sound
    split
    · exact segTxComplete_kept few sound slot _
    · exact segTxs_kept sound (forall₂_set .refl found
        (segTxAttempt_same slot env.outcome tx))

theorem segRetransmit_kept (env : SegEnv) (slot : Nat) :
    SegTxKept segMax state (segRetransmit env state slot).1 := by
  unfold segRetransmit
  cases found : state.txs[slot]? with
  | none => exact .refl sound
  | some tx =>
    dsimp only
    split
    · have cleared := @segTxs_kept segMax state _ sound
        (@forall₂_set _ _ .refl _ _ _ { tx with retransmit := false } found
          ⟨rfl, rfl, rfl, rfl⟩)
      exact (segTxSendUnacked_kept few cleared.sound env slot).trans cleared
    · exact .refl sound

end

section

variable (few : segMax ≤ 32)
include few

theorem ackSegments_sound (sound : tx.Sound segMax)
    (ack : Nat) (slab : List Nat) : (ackSegments ack tx slab).1.Sound segMax ∧
      ((ackSegments ack tx slab).2 ++ (ackSegments ack tx slab).1.blocks).Perm
        (slab ++ tx.blocks) := by
  apply foldlRecOn (motive := fun current : SegTx × List Nat =>
    current.1.Sound segMax ∧
      (current.2 ++ current.1.blocks).Perm (slab ++ tx.blocks))
  · exact ⟨sound, .refl _⟩
  · intro current kept bit _
    split
    · exact ⟨segTxDone_sound kept.1 few current.2 bit,
        (segTxDone_blocks ..).trans kept.2⟩
    · exact kept

section

variable (sound : SoundTxs segMax state.txs)
include sound

theorem ackContext_kept (ack slot : Nat) :
    SegTxKept segMax state (ackContext ack slot state).2.1 := by
  unfold ackContext
  cases found : state.txs[slot]? with
  | none => exact .refl sound
  | some tx =>
    obtain ⟨acked, blocks⟩ := ackSegments_sound few
      (sound tx (mem_of_getElem? found)) ack state.slab
    dsimp only
    split
    · exact .refl sound
    split
    · exact segTxComplete_kept few sound slot _
    split
    · exact .refl sound
    split
    · have scheduled : ({ (ackSegments ack tx state.slab).1 with
          retransmit := true } : SegTx).Sound segMax :=
        acked.of_same ⟨rfl, rfl, rfl, rfl⟩
      exact .set sound found scheduled blocks
    · have placed := PoolKept.set sound found acked blocks
      exact (segTxComplete_kept few placed.sound slot none).trans placed

theorem transAck_kept (cfg : Config) (friendMatch : Bool)
    (iviRx addr : Nat) (buf : List Byte) :
    SegTxKept segMax state (transAck cfg friendMatch iviRx addr buf state).2.1 := by
  unfold transAck
  split
  · dsimp only
    split
    · exact .refl sound
    split
    · exact .refl sound
    rename_i slot txs lookup
    obtain ⟨tx, found, rfl, _⟩ := segTxLookup_spec lookup
    have moved := @segTxs_kept segMax state _ sound
      (@forall₂_set _ _ .refl _ _ _ { tx with dst := addr } found
        ⟨rfl, rfl, rfl, rfl⟩)
    exact (ackContext_kept few moved.sound _ slot).trans moved
  · exact .refl sound

theorem transResetTx_kept : SegTxKept segMax state (transResetTx state).1 := by
  apply foldlRecOn (motive := fun current : SegTxs × List SegTxEvt =>
    SegTxKept segMax state current.1)
  · exact .refl sound
  · intro current kept slot _
    exact (segTxReset_sound few kept.sound slot).trans kept

end

end

structure Filled (segO count : Nat) (tx : SegTx) (slab : List Nat)
    (complete : Bool) (filled : SegTx) (left : List Nat) : Prop where
  length : filled.seg.length = tx.seg.length
  above : EmptyFrom (segO + count) filled.seg
  blocks : (left ++ filled.blocks).Perm (slab ++ tx.blocks)
  most : filled.blocks.length ≤ tx.blocks.length + count
  all : complete = true → filled.blocks.length = tx.blocks.length + count

theorem fillSegments_filled (friend : cfg.friend = false) (env : SegEnv)
    (unicast : Bool) (segments : List (List Byte)) :
    ∀ (segO : Nat) (tx : SegTx) (slab : List Nat),
      EmptyFrom segO tx.seg → segO + segments.length ≤ tx.seg.length →
      Filled segO segments.length tx slab
        (fillSegments cfg env unicast segO segments (tx, slab)).1
        (fillSegments cfg env unicast segO segments (tx, slab)).2.1
        (fillSegments cfg env unicast segO segments (tx, slab)).2.2.1 := by
  induction segments with
  | nil =>
    intro segO tx slab empty _
    exact ⟨rfl, empty, .refl _, le_refl _, fun _ => rfl⟩
  | cons data rest ih =>
    intro segO tx slab empty fits
    rw [length_cons] at fits
    cases slab with
    | nil =>
      exact ⟨rfl, empty.mono (Nat.le_add_right _ _), .refl _,
        Nat.le_add_right _ _, nofun⟩
    | cons block free =>
      have room : segO < tx.seg.length := by omega
      have absent : tx.seg[segO]? = some none := by
        have here := empty segO (le_refl segO)
        rw [getElem?_eq_getElem room] at here ⊢
        exact congrArg some here
      have stored := @slotBlocks_fill _ _ SegBuf.block _ _ absent ⟨block, data⟩
      have emptied : EmptyFrom (segO + 1)
          (tx.seg.set segO (some ⟨block, data⟩)) :=
        (empty.mono (Nat.le_succ segO)).set (Nat.lt_succ_self segO) _
      have length := @length_set _ tx.seg segO (some (⟨block, data⟩ : SegBuf))
      have later := ih (segO + 1)
        { tx with seg := tx.seg.set segO (some ⟨block, data⟩) } free
        emptied (by dsimp only; omega)
      have more := stored.length_eq
      rw [length_cons] at more
      rw [fillSegments, friend]
      have taken : (free ++ slotBlocks SegBuf.block
          (tx.seg.set segO (some ⟨block, data⟩))).Perm
            (block :: free ++ slotBlocks SegBuf.block tx.seg) :=
        (stored.append_left free).trans perm_middle
      have place : segO + (rest.length + 1) = segO + 1 + rest.length := by
        omega
      have counted : (slotBlocks SegBuf.block
          (tx.seg.set segO (some ⟨block, data⟩))).length + rest.length =
            (slotBlocks SegBuf.block tx.seg).length + (rest.length + 1) := by
        omega
      refine ⟨later.length.trans length, ?_, later.blocks.trans taken, ?_, ?_⟩
      · rw [length_cons, place]
        exact later.above
      · rw [length_cons]
        exact le_trans later.most (le_of_eq counted)
      · intro complete
        rw [length_cons]
        exact (later.all complete).trans counted

theorem sduSegments_count {sdu : List Byte} {ctl : Bool} (carries : sdu ≠ [])
    (fits : sdu.length ≤ cfg.txSegMax * segLen ctl) :
    (sduSegments (segLen ctl) sdu.length sdu).length =
        (sdu.length - 1) / segLen ctl % 2 ^ 8 + 1 ∧
      (sduSegments (segLen ctl) sdu.length sdu).length ≤ cfg.txSegMax := by
  have positive := segLen_pos ctl
  have long := length_pos_iff.mpr carries
  have most := cfg.txSegMax_le
  have few : (sdu.length - 1) / segLen ctl < cfg.txSegMax := by
    apply Nat.div_lt_of_lt_mul
    rw [Nat.mul_comm]
    omega
  have count : (sduSegments (segLen ctl) sdu.length sdu).length =
      (sdu.length - 1) / segLen ctl + 1 := by
    apply Nat.le_antisymm
    · have past : ¬ ((sdu.length - 1) / segLen ctl + 1) * segLen ctl <
          sdu.length := by
        have below := Nat.lt_mul_div_succ (sdu.length - 1) positive
        rw [Nat.mul_comm] at below
        omega
      have absent := sduSegments_get positive _ _
        ((sdu.length - 1) / segLen ctl + 1) (Nat.le_refl sdu.length)
      rw [if_neg past] at absent
      exact getElem?_eq_none_iff.mp absent
    · have below : (sdu.length - 1) / segLen ctl * segLen ctl < sdu.length :=
        Nat.lt_of_le_of_lt (Nat.div_mul_le_self _ _) (Nat.sub_lt long Nat.one_pos)
      have found := sduSegments_get positive _ _
        ((sdu.length - 1) / segLen ctl) (Nat.le_refl sdu.length)
      rw [if_pos below] at found
      exact (List.getElem?_eq_some_iff.mp found).1
  rw [count, Nat.mod_eq_of_lt (by omega)]
  exact ⟨rfl, few⟩

theorem sendSeg_kept (friend : cfg.friend = false)
    (sound : SoundTxs cfg.txSegMax state.txs) (env : SegEnv) (netTx : NetTx)
    {sdu : List Byte} (cb : Option SendCb) (ctlOp : Option Nat)
    (carries : sdu ≠ [])
    (fits : sdu.length ≤ cfg.txSegMax * segLen ctlOp.isSome) :
    SegTxKept cfg.txSegMax state (sendSeg cfg env netTx sdu cb ctlOp state).2.1 := by
  have few := cfg.txSegMax_le
  obtain ⟨count, within⟩ := @sduSegments_count cfg sdu ctlOp.isSome carries fits
  unfold sendSeg
  dsimp only
  generalize (state.txs.any fun tx =>
    tx.nackCount != 0 && segTxBlocks tx netTx.src netTx.addr) = blocked
  split
  · exact .refl sound
  rename_i slot search
  obtain ⟨tx, found, idle, taken⟩ := idle_slot (.boot cfg.txSegMax) search
  have bound := (List.getElem?_eq_some_iff.mp found).1
  rw [taken]
  have free := sound tx (mem_of_getElem? found)
  have empty := free.idle_empty idle
  have nothing : slotBlocks SegBuf.block tx.seg = [] :=
    slotBlocks_empty (emptyFrom_zero.mp empty)
  have room : 0 + (sduSegments (segLen ctlOp.isSome) sdu.length sdu).length ≤
      tx.seg.length := by
    rw [zero_add, free.length]
    exact within
  have filled := fillSegments_filled friend env (addrIsUnicast netTx.addr)
    (sduSegments (segLen ctlOp.isSome) sdu.length sdu) 0
    (segTxOpen cfg env netTx ctlOp cb sdu.length blocked tx) state.slab
    empty room
  have others := fillSegments_seg cfg env (addrIsUnicast netTx.addr)
    (sduSegments (segLen ctlOp.isSome) sdu.length sdu) 0
    (segTxOpen cfg env netTx ctlOp cb sdu.length blocked tx) state.slab
  rw [friend]
  generalize fillSegments cfg env (addrIsUnicast netTx.addr) 0
    (sduSegments (segLen ctlOp.isSome) sdu.length sdu)
    (segTxOpen cfg env netTx ctlOp cb sdu.length blocked tx, state.slab) =
      result at filled others ⊢
  obtain ⟨complete, copied, slab, _⟩ := result
  generalize opening : segTxOpen cfg env netTx ctlOp cb sdu.length blocked tx =
    opened at filled others
  dsimp only at filled others ⊢
  have segs : opened.seg = tx.seg := by rw [← opening]; rfl
  have openBlocks : opened.blocks = [] := by
    rw [SegTx.blocks, segs]
    exact nothing
  have segN : copied.segN + 1 =
      (sduSegments (segLen ctlOp.isSome) sdu.length sdu).length := by
    rw [others, ← opening, count]
    rfl
  have nack : copied.nackCount =
      (sduSegments (segLen ctlOp.isSome) sdu.length sdu).length := by
    rw [others, ← opening, count]
    refine Nat.mod_eq_of_lt ?_
    rw [← count]
    omega
  have length : copied.seg.length = cfg.txSegMax := by
    rw [filled.length, segs]
    exact free.length
  have above : EmptyFrom (copied.segN + 1) copied.seg := by
    rw [segN]
    have upper := filled.above
    rw [zero_add] at upper
    exact upper
  have most := filled.most
  have all := filled.all
  rw [openBlocks, length_nil, zero_add] at most all
  have blocks : (pool SegTx.blocks slab (state.txs.set slot copied)).Perm
      (pool SegTx.blocks state.slab state.txs) := by
    refine pool_set found copied ?_
    have moved := filled.blocks
    rw [openBlocks] at moved
    rw [show tx.blocks = [] from nothing]
    exact moved
  have placed : (SegTxs.mk (state.txs.set slot copied) slab).txs[slot]? =
      some copied :=
    getElem?_set_self bound
  cases complete with
  | false =>
    have freeable : copied.Freeable cfg.txSegMax :=
      ⟨length, above, by omega, by omega⟩
    exact (segTxReset_kept ((soundBut sound slot).ignore copied) placed
      freeable).behind blocks
  | true =>
    have soundCopied : copied.Sound cfg.txSegMax :=
      ⟨length, above, by rw [nack, all rfl]⟩
    have kept : SegTxKept cfg.txSegMax state
        ⟨state.txs.set slot copied, slab⟩ :=
      ⟨(soundBut sound slot).set soundCopied, blocks⟩
    cases blocked with
    | true => exact kept
    | false => exact (segTxSendUnacked_kept few kept.sound env slot).trans kept

theorem segTxStep_kept (friend : cfg.friend = false)
    (sound : SoundTxs cfg.txSegMax state.txs) {input : SegTxInput}
    (placed : Placed cfg (.tx input)) :
    SegTxKept cfg.txSegMax state (segTxStep cfg state input).1 := by
  have few := cfg.txSegMax_le
  cases input with
  | send env netTx sdu cb ctlOp =>
    exact sendSeg_kept friend sound env netTx cb ctlOp placed.1 placed.2
  | retransmit env slot => exact segRetransmit_kept few sound env slot
  | ack friendMatch iviRx addr buf =>
    exact transAck_kept few sound cfg friendMatch iviRx addr buf
  | segSendStart slot failed =>
    simp only [segTxStep]
    cases found : state.txs[slot]? with
    | none => exact .refl sound
    | some tx =>
      exact segTxs_kept sound (forall₂_set .refl found (segSendStart_same failed tx))
  | segSent slot =>
    simp only [segTxStep]
    cases found : state.txs[slot]? with
    | none => exact .refl sound
    | some tx =>
      exact segTxs_kept sound (forall₂_set .refl found (scheduleRetransmit_same tx))
  | reset => exact transResetTx_kept few sound

end Transmit

structure SegRx.Sound (segMax : Nat) (rx : SegRx) : Prop where
  length : rx.seg.length = segMax
  above : EmptyFrom (rx.segN + 1) rx.seg
  idle : rx.inUse = false → EmptyFrom 0 rx.seg
  marked : rx.inUse = true → ∀ i, (rx.seg[i]?).join.isSome = rx.block.testBit i
  fits : rx.inUse = true → rx.segN < segMax

abbrev SoundRxs (segMax : Nat) (rxs : List SegRx) : Prop :=
  ∀ rx ∈ rxs, rx.Sound segMax

abbrev SegRxKept (segMax : Nat) (before after : SegRxs) : Prop :=
  PoolKept (SegRx.Sound segMax) SegRx.blocks before.slab before.rxs
    after.slab after.rxs

section Receive

variable {cfg : Config} {env : RxEnv} {netRx : NetRx} {head : SegHdr}
variable {segMax slot : Nat} {rx : SegRx} {state : SegRxs}

theorem SegRx.reset_empty (above : EmptyFrom (rx.segN + 1) rx.seg)
    (full : Bool) : EmptyFrom 0 (rx.reset full).seg := by
  have kept : (rx.reset full).seg =
      replicate (min (rx.segN + 1) rx.seg.length) none ++
        rx.seg.drop (rx.segN + 1) := by
    cases full <;> rfl
  rw [kept]
  apply emptyFrom_zero.mpr
  intro held member
  rcases mem_append.mp member with cleared | beyond
  · exact eq_of_mem_replicate cleared
  obtain ⟨index, there⟩ := getElem?_of_mem beyond
  rw [getElem?_drop] at there
  have absent := above _ (Nat.le_add_right (rx.segN + 1) index)
  rw [there] at absent
  exact absent

theorem SegRx.reset_sound (length : rx.seg.length = segMax)
    (above : EmptyFrom (rx.segN + 1) rx.seg) (full : Bool) :
    (rx.reset full).Sound segMax := by
  have empty := rx.reset_empty above full
  have idle : (rx.reset full).inUse = false := by
    cases full <;> rfl
  refine ⟨(length_reset full rx).trans length, empty.mono (Nat.zero_le _),
    fun _ => empty, ?_, ?_⟩
  · intro used
    rw [idle] at used
    cases used
  · intro used
    rw [idle] at used
    cases used

theorem SegRx.Sound.of_same {other : SegRx} (sound : rx.Sound segMax)
    (seg : other.seg = rx.seg) (segN : other.segN = rx.segN)
    (inUse : other.inUse = rx.inUse) (block : other.block = rx.block) :
    other.Sound segMax := by
  refine ⟨?_, ?_, ?_, ?_, ?_⟩
  · rw [seg, sound.length]
  · rw [seg, segN]
    exact sound.above
  · rw [inUse, seg]
    exact sound.idle
  · rw [inUse, seg, block]
    exact sound.marked
  · rw [inUse, segN]
    exact sound.fits

theorem segRxReset_kept (but : SoundBut (SegRx.Sound segMax) slot state.rxs)
    (found : state.rxs[slot]? = some rx) (length : rx.seg.length = segMax)
    (above : EmptyFrom (rx.segN + 1) rx.seg) (cfg : Config) (full : Bool) :
    SegRxKept segMax state (segRxReset cfg state slot full).1 := by
  unfold segRxReset
  rw [found]
  dsimp only
  refine .put but found (SegRx.reset_sound length above full) ?_
  have nothing : (rx.reset full).blocks = [] :=
    slotBlocks_empty (emptyFrom_zero.mp (SegRx.reset_empty above full))
  have given : rx.heldBlocks = rx.blocks :=
    @EmptyFrom.blocks _ _ SegBuf.block _ _ above
  rw [nothing, given, append_nil]
  exact ((reverse_perm _).append_right _).trans perm_append_comm

theorem segRxReset_sound (sound : SoundRxs segMax state.rxs) (cfg : Config)
    (slot : Nat) (full : Bool) :
    SegRxKept segMax state (segRxReset cfg state slot full).1 := by
  cases found : state.rxs[slot]? with
  | none =>
    unfold segRxReset
    rw [found]
    exact .refl sound
  | some rx =>
    have here := sound rx (mem_of_getElem? found)
    exact segRxReset_kept (soundBut sound slot) found here.length here.above cfg full

theorem SegRx.sized_sound (sound : rx.Sound segMax) (head : SegHdr)
    (payload : List Byte) : (rx.sized head payload).Sound segMax ∧
      (rx.sized head payload).blocks = rx.blocks := by
  unfold SegRx.sized
  split
  · exact ⟨sound.of_same rfl rfl rfl rfl, rfl⟩
  · exact ⟨sound, rfl⟩

theorem SegRx.store_sound (sound : rx.Sound segMax) (inUse : rx.inUse = true)
    {segO : Nat} (within : segO ≤ rx.segN)
    (absent : rx.block.testBit segO = false) (free : Nat) (payload : List Byte) :
    (rx.store segO free payload).Sound segMax ∧
      (rx.store segO free payload).blocks.Perm (free :: rx.blocks) := by
  have room : segO < rx.seg.length := by
    have fits := sound.fits inUse
    have length := sound.length
    omega
  have none_here : rx.seg[segO]? = some none := by
    have unmarked := sound.marked inUse segO
    rw [absent, getElem?_eq_getElem room] at unmarked
    rw [getElem?_eq_getElem room]
    exact congrArg some
      (isNone_iff_eq_none.mp (isSome_eq_false_iff.mp unmarked))
  refine ⟨⟨(length_set ..).trans sound.length,
    sound.above.set (Nat.lt_succ_of_le within) _, ?_, ?_, sound.fits⟩,
    slotBlocks_fill none_here ⟨free, payload⟩⟩
  · intro idle
    rw [show (rx.store segO free payload).inUse = rx.inUse from rfl, inUse] at idle
    cases idle
  · intro _ i
    change ((rx.seg.set segO (some ⟨free, payload⟩))[i]?).join.isSome =
      (rx.block ||| 1 <<< segO).testBit i
    rw [testBit_add_bit, ← sound.marked inUse i]
    by_cases same : segO = i
    · subst same
      rw [getElem?_set_self room]
      simp
    · rw [getElem?_set_ne same, decide_eq_false same, Bool.or_false]

section

variable (sound : SoundRxs segMax state.rxs) (found : state.rxs[slot]? = some rx)
include sound found

theorem segRxDeliver_kept (cfg : Config) (env : RxEnv) (netRx : NetRx) (hdr : Byte)
    (aszmic : Bool) (seqAuth : Nat) (rplSlot : Option Nat) :
    SegRxKept segMax state (segRxDeliver cfg env netRx hdr aszmic seqAuth rplSlot
      slot rx state).2.1 := by
  have here := sound rx (mem_of_getElem? found)
  have stopped : ({ rx with ack := false } : SegRx).Sound segMax :=
    here.of_same rfl rfl rfl rfl
  have updated : SegRxKept segMax state
      { state with
        rpl := rplComplete cfg state.rpl rplSlot netRx (seqAuth % 2 ^ 24)
        rxs := state.rxs.set slot { rx with ack := false } } :=
    .set sound found stopped (.refl _)
  exact (segRxReset_sound updated.sound cfg slot false).trans updated

theorem segRxStore_kept (inUse : rx.inUse = true) (within : head.segO ≤ rx.segN)
    (cfg : Config) (env : RxEnv) (netRx : NetRx) (hdr : Byte) (seqAuth : Nat)
    (rplSlot : Option Nat) (payload : List Byte) :
    SegRxKept segMax state (segRxStore cfg env netRx hdr head seqAuth rplSlot
      payload slot rx state).2.1 := by
  have bound := (List.getElem?_eq_some_iff.mp found).1
  have here := sound rx (mem_of_getElem? found)
  obtain ⟨sized, blocks⟩ := SegRx.sized_sound here head payload
  obtain ⟨sizedUse, sizedBlock, sizedSegN⟩ := rx.sized_fields head payload
  unfold segRxStore
  dsimp only
  split
  · exact .refl sound
  rename_i unknown
  split
  · have placed : SegRxKept segMax state
        { state with rxs := state.rxs.set slot (rx.sized head payload) } :=
      .set sound found sized (by rw [blocks])
    exact (segRxReset_sound placed.sound cfg slot true).trans placed
  · split
    · exact .refl sound
    have timed : ((rx.sized head payload).timed env).Sound segMax :=
      sized.of_same rfl rfl rfl rfl
    have timedBlocks : ((rx.sized head payload).timed env).blocks =
        rx.blocks := blocks
    split
    · exact .set sound found timed (by rw [timedBlocks])
    rename_i free slab split
    have absent : ((rx.sized head payload).timed env).block.testBit
        head.segO = false := by
      change (rx.sized head payload).block.testBit head.segO = false
      rw [sizedBlock]
      exact eq_false_of_ne_true unknown
    rw [← sizedSegN] at within
    obtain ⟨stored, filled⟩ := SegRx.store_sound timed
      (sizedUse.trans inUse) within absent free payload
    have placed : SegRxKept segMax state
        { state with
          rxs := state.rxs.set slot
            (((rx.sized head payload).timed env).store head.segO free payload)
          slab := slab } := by
      refine .set sound found stored ?_
      rw [split, ← timedBlocks]
      exact (filled.append_left slab).trans perm_middle
    split
    · exact placed
    · exact (segRxDeliver_kept placed.sound (getElem?_set_self bound)
        cfg env netRx hdr _ seqAuth rplSlot).trans placed

theorem segRxKnown_kept (within : head.segO ≤ head.segN) (cfg : Config)
    (env : RxEnv) (netRx : NetRx) (hdr : Byte) (seqAuth : Nat)
    (rplSlot : Option Nat) (payload : List Byte) :
    SegRxKept segMax state (segRxKnown cfg env netRx hdr head seqAuth rplSlot
      payload slot rx state).2.1 := by
  unfold segRxKnown
  split
  · exact .refl sound
  split
  · exact .refl sound
  rename_i valid
  split
  · rename_i inUse
    have segN : rx.segN = head.segN := by
      simp only [segRxIsValid, not_eq_true, not_eq_false',
        and_eq_true, beq_iff_eq] at valid
      exact valid.1.1.1.2
    exact segRxStore_kept sound found inUse (by rw [segN]; exact within) cfg
      env netRx hdr seqAuth rplSlot payload
  · split <;> exact .refl sound

end

section

variable (sound : SoundRxs cfg.rxSegMax state.rxs) (within : head.segO ≤ head.segN)
  (env : RxEnv) (netRx : NetRx) (hdr : Byte) (seqAuth : Nat) (rplSlot : Option Nat)
  (payload : List Byte)
include sound within

theorem segRxNew_kept :
    SegRxKept cfg.rxSegMax state (segRxNew cfg env netRx hdr head seqAuth rplSlot
      payload state).2.1 := by
  unfold segRxNew
  dsimp only
  split
  · exact .refl sound
  rename_i small
  have fits : head.segN < cfg.rxSegMax := by simpa using small
  split
  · exact .refl sound
  split
  · exact .refl sound
  split
  · exact .refl sound
  rename_i slot rx opened alloc
  unfold segRxAlloc at alloc
  split at alloc
  · cases alloc
  obtain ⟨⟨place, idle⟩, scan, pair⟩ := map_eq_some_iff.mp alloc
  cases pair
  obtain ⟨found, unused⟩ := freeRx_spec scan
  have bound := (List.getElem?_eq_some_iff.mp found).1
  have here := sound idle (mem_of_getElem? found)
  have empty := here.idle unused
  have open_sound : ({ idle.alloc netRx hdr seqAuth head.segN with
      obo := netRx.friendMatch } : SegRx).Sound cfg.rxSegMax := by
    refine ⟨here.length, empty.mono (Nat.zero_le _),
      fun no => (by cases no), ?_, fun _ => fits⟩
    intro _ i
    change (idle.seg[i]?).join.isSome = Nat.testBit 0 i
    rw [empty i (Nat.zero_le i), Nat.zero_testBit]
    rfl
  have placed : SegRxKept cfg.rxSegMax state
      { state with
        rxs := state.rxs.set place
          { idle.alloc netRx hdr seqAuth head.segN with
            obo := netRx.friendMatch } } :=
    .set sound found open_sound (.refl _)
  exact (segRxStore_kept placed.sound (getElem?_set_self bound)
    rfl within cfg env netRx hdr seqAuth rplSlot payload).trans placed

theorem segRxTake_kept :
    SegRxKept cfg.rxSegMax state (segRxTake cfg env netRx hdr head seqAuth rplSlot
      payload state).2.1 := by
  unfold segRxTake segRxFind
  cases scan : segRxScan netRx.addr netRx.recvDst seqAuth state.rxs with
  | none => exact segRxNew_kept sound within env netRx hdr seqAuth rplSlot payload
  | some hit =>
    obtain ⟨slot, _, usable⟩ := hit
    obtain ⟨found, _⟩ := segRxScan_spec scan
    cases usable with
    | true =>
      exact segRxKnown_kept sound found within cfg env netRx hdr seqAuth
        rplSlot payload
    | false =>
      have cleared := segRxReset_sound sound cfg slot true
      exact (segRxNew_kept cleared.sound within env netRx hdr seqAuth rplSlot
        payload).trans cleared

end

theorem transSeg_kept (sound : SoundRxs cfg.rxSegMax state.rxs) (env : RxEnv)
    (netRx : NetRx) (buf : List Byte) :
    SegRxKept cfg.rxSegMax state (transSeg cfg env netRx buf state).2.1 := by
  unfold transSeg
  split
  · dsimp only
    split
    · exact .refl sound
    split
    · exact .refl sound
    · rename_i order
      exact segRxTake_kept sound (Nat.le_of_not_lt order) env netRx _ _ _ _
  · exact .refl sound

theorem segAck_kept (sound : SoundRxs segMax state.rxs) (cfg : Config)
    (env : RxEnv) (slot : Nat) :
    SegRxKept segMax state (segAck cfg env state slot).1 := by
  unfold segAck
  cases found : state.rxs[slot]? with
  | none => exact .refl sound
  | some rx =>
    have here := sound rx (mem_of_getElem? found)
    have timed (ack : Bool) : SegRxKept segMax state
        { state with rxs := state.rxs.set slot { rx with ack := ack } } :=
      .set sound found (here.of_same rfl rfl rfl rfl) (.refl _)
    dsimp only
    split
    · exact timed false
    split
    · exact segRxReset_sound sound cfg slot false
    · exact timed true

theorem rxReset_kept (sound : SoundRxs segMax state.rxs) (cfg : Config) :
    SegRxKept segMax state (rxReset cfg state).1 := by
  apply foldlRecOn (motive := fun current : SegRxs × List SegRxEvt =>
    SegRxKept segMax state current.1)
  · exact .refl sound
  · intro current kept slot _
    exact (segRxReset_sound kept.sound cfg slot true).trans kept

theorem transUnseg_slab (cfg : Config) (env : RxEnv) (netRx : NetRx)
    (buf : List Byte) (state : SegRxs) :
    (transUnseg cfg env netRx buf state).2.1.slab = state.slab := by
  unfold transUnseg
  cases buf with
  | nil => rfl
  | cons =>
    dsimp only
    split
    · rfl
    split
    · rfl
    · split <;> rfl

theorem segRxStep_kept (sound : SoundRxs cfg.rxSegMax state.rxs)
    (input : SegRxInput) :
    SegRxKept cfg.rxSegMax state (segRxStep cfg state input).1 := by
  cases input with
  | seg env netRx buf => exact transSeg_kept sound env netRx buf
  | unseg env netRx buf =>
    have rxs := transUnseg_rxs cfg env netRx buf state
    have slab := transUnseg_slab cfg env netRx buf state
    change SegRxKept cfg.rxSegMax state (transUnseg cfg env netRx buf state).2.1
    rw [SegRxKept, rxs, slab]
    exact .refl sound
  | segAck env slot => exact segAck_kept sound cfg env slot
  | rxReset => exact rxReset_kept sound cfg
  | ivUpdate => exact .refl sound
  | rplClear => exact .refl sound

end Receive

structure SegBufs.Sound (cfg : Config) (segBufs : Nat) (state : SegBufs) :
    Prop where
  once : state.allBlocks.Perm (List.range segBufs)
  txs : SoundTxs cfg.txSegMax state.txs
  rxs : SoundRxs cfg.rxSegMax state.rx.rxs

theorem SegBufs.Sound.owned {cfg : Config} {segBufs : Nat} {state : SegBufs}
    (sound : state.Sound cfg segBufs) : Owned segBufs state where
  once := sound.once
  nackCount tx member _ := (sound.txs tx member).nackCount_eq
  block rx member inUse := (sound.rxs rx member).marked inUse

theorem segBufsStep_sound {cfg : Config} (friend : cfg.friend = false)
    {segBufs : Nat} {state : SegBufs} {input : SegBufsInput}
    (sound : state.Sound cfg segBufs) (placed : Placed cfg input) :
    ((segBufsMachine cfg).next state input).Sound cfg segBufs := by
  cases input with
  | tx input =>
    have kept := segTxStep_kept friend (show SoundTxs _ state.tx.txs from
      sound.txs) placed
    exact ⟨(kept.blocks.append_right _).trans sound.once, kept.sound, sound.rxs⟩
  | rx input =>
    have kept := segRxStep_kept sound.rxs input
    have swap (slab : List Nat) (rxs : List SegRx) :
        (slab ++ state.txs.flatMap SegTx.blocks ++ rxs.flatMap SegRx.blocks).Perm
            (state.txs.flatMap SegTx.blocks ++ pool SegRx.blocks slab rxs) := by
      rw [pool, ← append_assoc]
      exact perm_append_comm.append_right _
    exact ⟨(swap _ _).trans ((kept.blocks.append_left _).trans
      ((swap _ _).symm.trans sound.once)), sound.txs, kept.sound⟩

theorem boot_sound (cfg : Config) (ivIndex crpl txCount rxCount segBufs : Nat) :
    (SegBufs.boot cfg ivIndex crpl txCount rxCount segBufs).Sound cfg segBufs := by
  have empty (count : Nat) : EmptyFrom 0
      (replicate count (none : Option SegBuf)) :=
    emptyFrom_zero.mpr fun slot member => eq_of_mem_replicate member
  refine ⟨?_, ?_, ?_⟩
  · have txs : (replicate txCount (SegTx.boot cfg.txSegMax)).flatMap
        SegTx.blocks = [] := by
      apply flatMap_eq_nil_iff.mpr
      intro tx member
      rw [eq_of_mem_replicate member]
      exact slotBlocks_empty (emptyFrom_zero.mp (empty _))
    have rxs : (replicate rxCount (SegRx.boot cfg.rxSegMax)).flatMap
        SegRx.blocks = [] := by
      apply flatMap_eq_nil_iff.mpr
      intro rx member
      rw [eq_of_mem_replicate member]
      exact slotBlocks_empty (emptyFrom_zero.mp (empty _))
    refine .of_eq ?_
    change range segBufs ++ (replicate txCount _).flatMap _ ++
      (replicate rxCount _).flatMap _ = _
    rw [txs, rxs, append_nil, append_nil]
  · intro tx member
    rw [eq_of_mem_replicate member]
    exact .of_empty length_replicate (empty _) rfl
  · intro rx member
    rw [eq_of_mem_replicate member]
    exact ⟨length_replicate, (empty _).mono (Nat.zero_le _),
      fun _ => empty _, fun used => (by cases used), fun used => (by cases used)⟩

/-- Without the Friend feature the blocks of the slab keep their owners in every
run in which each segment has its place. -/
theorem segBufs_owned {cfg : Config} (friend : cfg.friend = false)
    (ivIndex crpl txCount rxCount segBufs : Nat)
    (inputs : List SegBufsInput)
    (along : (segBufsMachine cfg).Along (fun _ input => Placed cfg input)
      (.boot cfg ivIndex crpl txCount rxCount segBufs) inputs) :
    (segBufsMachine cfg).Always (Owned segBufs)
      (.boot cfg ivIndex crpl txCount rxCount segBufs) inputs :=
  Machine.Always.mono (fun _ sound => sound.owned) (Machine.always_of_along
      (fun _ _ sound placed => segBufsStep_sound friend sound placed)
      (boot_sound cfg ivIndex crpl txCount rxCount segBufs) along)

theorem segBufs_owned_shared : (segBufsMachine sampleConfig).Always (Owned 4)
      (.boot sampleConfig 4 2 1 1 4) [.tx (sampleSend 0x100),
        .rx (firstOfTwo (unicastRx 1 5 false firstAddr_unicast fifthSeq_lt)),
        .tx .reset] :=
  segBufs_owned rfl 4 2 1 1 4 _
    ⟨⟨cons_ne_nil 0 _, by decide⟩, trivial, trivial, trivial⟩

/-! A message of 32 bytes with a MIC of eight: `bt_mesh_trans_send` lets it pass,
and its fourth segment is kept behind an array of three. -/

def longSend : SegTxInput :=
  .send ⟨0, 0x100, true, fun _ => false, fun _ => .sent, false⟩
    ⟨0, 0, 5, 7, 1, 0, 0, true, false⟩ (List.replicate 40 0) none none

theorem longSend_owned : ¬ (segBufsMachine sampleConfig).Always (Owned 4)
    (.boot sampleConfig 4 2 1 1 4) [.tx longSend] := by
  intro always
  have blocks := always.last.once.length_eq
  revert blocks
  decide

end ZephyrBluetooth.Mesh
