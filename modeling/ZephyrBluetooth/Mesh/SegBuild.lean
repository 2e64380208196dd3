import ZephyrBluetooth.Data.Chunks
import ZephyrBluetooth.Mesh.SegRx
import ZephyrBluetooth.Mesh.SegTransfer

namespace ZephyrBluetooth.Mesh

open Data List Option

variable {segO : Nat} {tx : SegTx}

structure SegSdu where
  id : SduId
  hdr : Byte
  ctl : Bool
  aszmic : Bool
  bytes : List Byte

variable {sdu : SegSdu}

namespace SegSdu

def segN (sdu : SegSdu) : Nat :=
  (sdu.bytes.length - 1) / segLen sdu.ctl

def payload (sdu : SegSdu) (segO : Nat) : List Byte :=
  chunk (segLen sdu.ctl) segO sdu.bytes

def head (sdu : SegSdu) (segO : Nat) : SegHdr where
  aszmic := sdu.aszmic
  seqZero := seqZeroOf sdu.id.seqAuth
  segO := segO
  segN := sdu.segN

def IsPdu (sdu : SegSdu) (segO : Nat) (pdu : List Byte) : Prop :=
  ∃ h1 h2 h3, pdu = sdu.hdr :: h1 :: h2 :: h3 :: sdu.payload segO ∧
    segHdrOf h1 h2 h3 = sdu.head segO

end SegSdu

def sentSdu (env : SegEnv) (netTx : NetTx) (ctlOp : Option Nat)
    (bytes : List Byte) : SegSdu where
  id := ⟨netTx.src, netTx.addr, seqAuthOf env.iviTx env.seq⟩
  hdr := BitVec.ofNat 8 (segHdr netTx ctlOp)
  ctl := ctlOp.isSome
  aszmic := netTx.aszmic
  bytes := bytes

/-- What `seg_tx_buf_build` has built of the SDU when `send_seg` returns, or
builds from the context that it leaves. -/
inductive Built (cfg : Config) (env : SegEnv) (netTx : NetTx)
    (bytes : List Byte) (cb : Option SendCb) (ctlOp : Option Nat)
    (state : SegTxs) (segO : Nat) : List Byte → Prop where
  | offered {pdu : List Byte}
      (offered : .friendEnqueue segO pdu ∈
        (sendSeg cfg env netTx bytes cb ctlOp state).2.2) :
      Built cfg env netTx bytes cb ctlOp state segO pdu
  | sent {slot : Nat} {pdu : List Byte}
      (sent : .netSend slot segO pdu ∈
        (sendSeg cfg env netTx bytes cb ctlOp state).2.2) :
      Built cfg env netTx bytes cb ctlOp state segO pdu
  | held {slot : Nat} {tx : SegTx} {buf : SegBuf}
      (taken : (state.txs.findIdx? fun tx => tx.nackCount == 0) = some slot)
      (found : (sendSeg cfg env netTx bytes cb ctlOp state).2.1.txs[slot]? = some tx)
      (active : tx.nackCount ≠ 0) (within : segO ≤ tx.segN)
      (held : (tx.seg[segO]?).join = some buf) :
      Built cfg env netTx bytes cb ctlOp state segO (segTxBufBuild tx segO buf.data)

theorem segLen_pos (ctl : Bool) : 0 < segLen ctl := by
  cases ctl <;> decide

theorem SegSdu.segN_lt {count : Nat} (positive : 0 < count)
    (fits : sdu.bytes.length ≤ count * segLen sdu.ctl) : sdu.segN < count := by
  have room : 0 < count * segLen sdu.ctl := Nat.mul_pos positive (segLen_pos _)
  apply Nat.div_lt_of_lt_mul
  rw [mul_comm]
  omega

theorem count_pos {bytes : List Byte} {count size : Nat}
    (some_bytes : bytes ≠ []) (fits : bytes.length ≤ count * size) :
    0 < count := by
  have long := length_pos_iff.mpr some_bytes
  rcases Nat.eq_zero_or_pos count with rfl | positive
  · rw [zero_mul] at fits
    omega
  · exact positive

theorem segHdrOf_built {aszmic : Bool} {seqZero segN : Nat}
    (seqZero_lt : seqZero < 2 ^ 13) (segO_lt : segO < 2 ^ 5)
    (segN_lt : segN < 2 ^ 5) :
    segHdrOf (BitVec.ofNat 8 (aszmic.toNat * 2 ^ 7 + seqZero / 2 ^ 6))
        (BitVec.ofNat 8 (seqZero % 2 ^ 6 * 2 ^ 2 + segO / 2 ^ 3))
        (BitVec.ofNat 8 (segO % 2 ^ 3 * 2 ^ 5 + segN)) =
      ⟨aszmic, seqZero, segO, segN⟩ := by
  have first : (BitVec.ofNat 8 (aszmic.toNat * 2 ^ 7 + seqZero / 2 ^ 6)).toNat =
      aszmic.toNat * 2 ^ 7 + seqZero / 2 ^ 6 := by
    rw [BitVec.toNat_ofNat, Nat.mod_eq_of_lt]
    cases aszmic <;> simp only [Bool.toNat_false, Bool.toNat_true] <;> omega
  have second : (BitVec.ofNat 8 (seqZero % 2 ^ 6 * 2 ^ 2 + segO / 2 ^ 3)).toNat =
      seqZero % 2 ^ 6 * 2 ^ 2 + segO / 2 ^ 3 := by
    rw [BitVec.toNat_ofNat, Nat.mod_eq_of_lt]
    omega
  have third : (BitVec.ofNat 8 (segO % 2 ^ 3 * 2 ^ 5 + segN)).toNat =
      segO % 2 ^ 3 * 2 ^ 5 + segN := by
    rw [BitVec.toNat_ofNat, Nat.mod_eq_of_lt]
    omega
  unfold segHdrOf be16Of
  rw [first, second, third, SegHdr.mk.injEq]
  cases aszmic with
  | false =>
    simp only [Bool.toNat_false, decide_eq_false_iff_not]
    refine ⟨?_, ?_, ?_, ?_⟩ <;> omega
  | true =>
    simp only [Bool.toNat_true, decide_eq_true_iff]
    refine ⟨?_, ?_, ?_, ?_⟩ <;> omega

structure Carries (sdu : SegSdu) (tx : SegTx) : Prop where
  hdr : BitVec.ofNat 8 tx.hdr = sdu.hdr
  seqAuth : tx.seqAuth = sdu.id.seqAuth
  len : tx.len = sdu.bytes.length
  segN : tx.segN = sdu.segN
  ctl : tx.ctl = sdu.ctl
  aszmic : tx.aszmic = sdu.aszmic

theorem Carries.isPdu (carries : Carries sdu tx) (few : sdu.segN < 2 ^ 5)
    (within : segO ≤ sdu.segN) :
    sdu.IsPdu segO (segTxBufBuild tx segO (sdu.payload segO)) := by
  refine ⟨_, _, _, ?_, segHdrOf_built (Nat.mod_lt _ (Nat.two_pow_pos 13))
    (lt_of_le_of_lt within few) few⟩
  have whole : (sdu.payload segO).take
      (min (segLen tx.ctl) (tx.len - segLen tx.ctl * segO)) =
      sdu.payload segO := by
    apply take_of_length_le
    rw [SegSdu.payload, length_chunk, carries.ctl, carries.len, mul_comm]
  unfold segTxBufBuild
  dsimp only
  rw [whole, carries.hdr, carries.seqAuth, carries.segN, carries.aszmic]
  rfl

structure Holds (sdu : SegSdu) (tx : SegTx) : Prop extends Carries sdu tx where
  held : ∀ segO buf, segO ≤ sdu.segN → (tx.seg[segO]?).join = some buf →
    buf.data = sdu.payload segO

theorem Holds.isPdu (holds : Holds sdu tx) (few : sdu.segN < 2 ^ 5) {buf : SegBuf}
    (within : segO ≤ sdu.segN) (held : (tx.seg[segO]?).join = some buf) :
    sdu.IsPdu segO (segTxBufBuild tx segO buf.data) := by
  rw [holds.held segO buf within held]
  exact holds.toCarries.isPdu few within

def Proper (sdu : SegSdu) : SegTxEvt → Prop
  | .netSend _ segO pdu | .friendEnqueue segO pdu =>
    segO ≤ sdu.segN ∧ sdu.IsPdu segO pdu
  | _ => True

def SegTx.content (tx : SegTx) :
    List (Option SegBuf) × Nat × Nat × Nat × Nat × Nat × Bool × Bool :=
  (tx.seg, tx.nackCount, tx.hdr, tx.seqAuth, tx.len, tx.segN, tx.ctl, tx.aszmic)

theorem Holds.of_content {sdu : SegSdu} {tx after : SegTx}
    (same : after.content = tx.content) (holds : Holds sdu tx) :
    Holds sdu after := by
  simp only [SegTx.content, Prod.mk.injEq] at same
  obtain ⟨seg, _, hdr, seqAuth, len, segN, ctl, aszmic⟩ := same
  refine ⟨⟨?_, ?_, ?_, ?_, ?_, ?_⟩, ?_⟩
  · rw [hdr, holds.hdr]
  · rw [seqAuth, holds.seqAuth]
  · rw [len, holds.len]
  · rw [segN, holds.segN]
  · rw [ctl, holds.ctl]
  · rw [aszmic, holds.aszmic]
  · rw [seg]
    exact holds.held

theorem scheduleRetransmit_content (tx : SegTx) :
    (scheduleRetransmit tx).content = tx.content := by
  unfold scheduleRetransmit
  split
  · rfl
  · dsimp only
    split <;> rfl

theorem segSendStart_content (failed : Bool) (tx : SegTx) :
    (segSendStart failed tx).1.content = tx.content := by
  have called : (tx.callStart failed).1.content = tx.content := by
    unfold SegTx.callStart
    split
    · split <;> rfl
    · rfl
  cases failed with
  | false => exact called
  | true => exact (scheduleRetransmit_content _).trans called

theorem segSendStart_proper (sdu : SegSdu) (failed : Bool) (tx : SegTx) :
    ∀ evt ∈ (segSendStart failed tx).2, Proper sdu evt := by
  unfold segSendStart SegTx.callStart
  dsimp only
  split
  · split <;> simp [Proper]
  · simp

theorem sendSegments_proper (few : sdu.segN < 2 ^ 5) (slot : Nat)
    (outcome : Nat → SegOutcome) (left : Nat) :
    ∀ tx : SegTx, Holds sdu tx → tx.segO + left ≤ sdu.segN + 1 →
      (sendSegments slot outcome left tx).1.content = tx.content ∧
      ∀ evt ∈ (sendSegments slot outcome left tx).2.1, Proper sdu evt := by
  induction left with
  | zero =>
    intro tx _ _
    exact ⟨rfl, by rintro _ ⟨⟩⟩
  | succ left ih =>
    intro tx holds reach
    have within : tx.segO ≤ sdu.segN := by omega
    have go : ∀ next : SegTx, next.content = tx.content → next.segO = tx.segO + 1 →
        (sendSegments slot outcome left next).1.content = tx.content ∧
        ∀ evt ∈ (sendSegments slot outcome left next).2.1, Proper sdu evt := by
      intro next same place
      obtain ⟨kept, proper⟩ := ih next (holds.of_content same) (by omega)
      exact ⟨kept.trans same, proper⟩
    rw [sendSegments]
    split
    · exact go _ rfl rfl
    rename_i buf held
    have first : Proper sdu (.netSend slot tx.segO
        (segTxBufBuild tx tx.segO buf.data)) :=
      ⟨within, holds.isPdu few within held⟩
    dsimp only
    split
    · exact ⟨rfl, by rintro _ ⟨⟩⟩
    · exact ⟨rfl, by rintro _ ⟨⟩⟩
    · obtain ⟨kept, later⟩ := go
        { tx with
          segPending := (tx.segPending + 1) % 2 ^ 8
          segO := tx.segO + 1 } rfl rfl
      exact ⟨kept, forall_mem_cons.mpr ⟨first, later⟩⟩
    · have same := (scheduleRetransmit_content _).trans (segSendStart_content false
          { tx with segPending := (tx.segPending + 1) % 2 ^ 8 })
      obtain ⟨kept, later⟩ := go
        { segSent (segSendStart false
            { tx with segPending := (tx.segPending + 1) % 2 ^ 8 }).1 with
          segO := tx.segO + 1 } same rfl
      exact ⟨kept, forall_mem_cons.mpr ⟨first,
        forall_mem_append.mpr ⟨segSendStart_proper sdu false _, later⟩⟩⟩

theorem segTxAttempt_proper (few : sdu.segN < 2 ^ 5) (slot : Nat)
    (outcome : Nat → SegOutcome) (holds : Holds sdu tx) :
    (segTxAttempt slot outcome tx).1.content = tx.content ∧
      ∀ evt ∈ (segTxAttempt slot outcome tx).2, Proper sdu evt := by
  have sending := @Holds.of_content sdu tx { tx with sending := true } rfl holds
  by_cases inside : tx.segO ≤ sdu.segN + 1
  · have reach : tx.segO + (tx.segN + 1 - tx.segO) ≤ sdu.segN + 1 := by
      rw [holds.segN]
      omega
    obtain ⟨kept, proper⟩ := sendSegments_proper few slot outcome
      (tx.segN + 1 - tx.segO) { tx with sending := true } sending reach
    refine ⟨?_, proper⟩
    unfold segTxAttempt
    dsimp only
    split <;> exact kept
  · have none_left : tx.segN + 1 - tx.segO = 0 := by
      rw [holds.segN]
      omega
    unfold segTxAttempt
    rw [none_left]
    exact ⟨rfl, nofun⟩

structure Sends (sdu : SegSdu) (slot : Nat) (after : SegTxs)
    (evts : List SegTxEvt) : Prop where
  holds : ∀ tx, after.txs[slot]? = some tx → tx.nackCount ≠ 0 → Holds sdu tx
  proper : ∀ evt ∈ evts, Proper sdu evt

variable {slot : Nat}

theorem Sends.append {after : SegTxs} {evts later : List SegTxEvt}
    (sends : Sends sdu slot after evts) (proper : ∀ evt ∈ later, Proper sdu evt) :
    Sends sdu slot after (evts ++ later) :=
  ⟨sends.holds, forall_mem_append.mpr ⟨sends.proper, proper⟩⟩

theorem Sends.prepend {after : SegTxs} {evts earlier : List SegTxEvt}
    (sends : Sends sdu slot after evts) (proper : ∀ evt ∈ earlier, Proper sdu evt) :
    Sends sdu slot after (earlier ++ evts) :=
  ⟨sends.holds, forall_mem_append.mpr ⟨proper, sends.proper⟩⟩

theorem segTxReset_sends (sdu : SegSdu) (state : SegTxs) (slot : Nat) :
    Sends sdu slot (segTxReset state slot).1 (segTxReset state slot).2 := by
  unfold segTxReset
  cases found : state.txs[slot]? with
  | none =>
    refine ⟨?_, nofun⟩
    intro tx present
    rw [found] at present
    cases present
  | some =>
    have bound := (List.getElem?_eq_some_iff.mp found).1
    refine ⟨?_, by simp [Proper]⟩
    intro after present active
    dsimp only at present
    rw [getElem?_set_self bound] at present
    cases present
    exact absurd rfl active

theorem segTxComplete_sends (sdu : SegSdu) (state : SegTxs) (slot : Nat)
    (err : Option Errno) : Sends sdu slot (segTxComplete state slot err).1
      (segTxComplete state slot err).2 := by
  unfold segTxComplete
  cases found : state.txs[slot]? with
  | none =>
    refine ⟨?_, nofun⟩
    intro tx present
    rw [found] at present
    cases present
  | some tx =>
    apply (segTxReset_sends sdu
      { state with txs := segTxUnblockCheck slot tx state.txs } slot).append
    intro evt member
    obtain ⟨_, _, rfl⟩ := map_eq_some_iff.mp (mem_toList.mp member)
    trivial

variable {state : SegTxs}

theorem segTxSendUnacked_sends (few : sdu.segN < 2 ^ 5) (env : SegEnv)
    (found : state.txs[slot]? = some tx)
    (holds : Holds sdu tx) : Sends sdu slot (segTxSendUnacked env state slot).1
      (segTxSendUnacked env state slot).2 := by
  unfold segTxSendUnacked
  rw [found]
  dsimp only
  split
  · refine ⟨?_, nofun⟩
    intro after present _
    rw [found] at present
    cases present
    exact holds
  · split
    · exact segTxComplete_sends sdu state slot _
    obtain ⟨kept, proper⟩ := segTxAttempt_proper few slot env.outcome holds
    refine ⟨?_, proper⟩
    intro after present _
    dsimp only at present
    rw [getElem?_set_self (List.getElem?_eq_some_iff.mp found).1] at present
    cases present
    exact holds.of_content kept

theorem sduSegments_get {len : Nat} (positive : 0 < len) :
    ∀ (fuel : Nat) (bytes : List Byte) (segO : Nat), bytes.length ≤ fuel →
      (sduSegments len fuel bytes)[segO]? =
        if segO * len < bytes.length then some (chunk len segO bytes)
        else none := by
  intro fuel
  induction fuel with
  | zero =>
    intro bytes segO bound
    have empty : bytes.length = 0 := Nat.le_zero.mp bound
    simp [sduSegments, empty]
  | succ fuel ih =>
    intro bytes segO bound
    rw [sduSegments]
    split
    · rename_i empty
      simp [empty]
    rename_i nonempty
    have some_left : 0 < bytes.length := length_pos_iff.mpr nonempty
    cases segO with
    | zero => simp [chunk, some_left]
    | succ segO =>
      have shorter : (bytes.drop len).length ≤ fuel := by
        rw [length_drop]
        omega
      rw [getElem?_cons_succ, ih _ segO shorter]
      have cut : chunk len segO (bytes.drop len) = chunk len (segO + 1) bytes := by
        rw [chunk, chunk, drop_drop, Nat.succ_mul, add_comm]
      rw [cut, length_drop, Nat.succ_mul]
      congr 1
      rw [eq_iff_iff]
      omega

/-- The segments of the SDU from `segO` on. -/
def Cuts (sdu : SegSdu) (segO : Nat) (segments : List (List Byte)) : Prop :=
  ∀ k data, segments[k]? = some data →
    segO + k ≤ sdu.segN ∧ data = sdu.payload (segO + k)

theorem Cuts.tail {sdu : SegSdu} {segO : Nat} {data : List Byte}
    {rest : List (List Byte)} (cuts : Cuts sdu segO (data :: rest)) :
    Cuts sdu (segO + 1) rest := by
  intro k later found
  have place : segO + 1 + k = segO + (k + 1) := by omega
  rw [place]
  exact cuts (k + 1) later found

/-- The slots in front of `segO` hold segments of the SDU. -/
structure HoldsBelow (sdu : SegSdu) (segO : Nat) (tx : SegTx) : Prop
    extends Carries sdu tx where
  held : ∀ place buf, place < segO → (tx.seg[place]?).join = some buf →
    buf.data = sdu.payload place

theorem HoldsBelow.store (holds : HoldsBelow sdu segO tx) {slot : Option SegBuf}
    (stored : ∀ buf, slot = some buf → buf.data = sdu.payload segO) :
    HoldsBelow sdu (segO + 1) { tx with seg := tx.seg.set segO slot } := by
  refine ⟨⟨holds.hdr, holds.seqAuth, holds.len, holds.segN, holds.ctl,
    holds.aszmic⟩, ?_⟩
  intro place buf below held
  dsimp only at held
  rw [getElem?_set] at held
  split at held
  · rename_i same
    subst same
    split at held
    · exact stored buf held
    · cases held
  · exact holds.held place buf (by omega) held

theorem fillSegments_holds (few : sdu.segN < 2 ^ 5) (cfg : Config) (env : SegEnv)
    (unicast : Bool) (segments : List (List Byte)) :
    ∀ (segO : Nat) (tx : SegTx) (slab : List Nat), Cuts sdu segO segments →
      HoldsBelow sdu segO tx →
      ((fillSegments cfg env unicast segO segments (tx, slab)).1 = true →
        HoldsBelow sdu (segO + segments.length)
          (fillSegments cfg env unicast segO segments (tx, slab)).2.1) ∧
      ∀ evt ∈ (fillSegments cfg env unicast segO segments (tx, slab)).2.2.2,
        Proper sdu evt := by
  induction segments with
  | nil =>
    intro segO tx slab _ holds
    exact ⟨fun _ => holds, by rintro _ ⟨⟩⟩
  | cons data rest ih =>
    intro segO tx slab cuts holds
    cases slab with
    | nil =>
      refine ⟨?_, by rintro _ ⟨⟩⟩
      intro complete
      cases complete
    | cons block free =>
      obtain ⟨within, piece⟩ := cuts 0 data rfl
      rw [add_zero] at within piece
      have offered : ∀ evt ∈ (if cfg.friend then
          [SegTxEvt.friendEnqueue segO (segTxBufBuild
            { tx with seg := tx.seg.set segO (some ⟨block, data⟩) } segO
            data)]
          else []), Proper sdu evt := by
        intro evt member
        split at member
        · obtain rfl := mem_singleton.mp member
          refine ⟨within, ?_⟩
          rw [piece]
          exact (holds.store fun buf same => by cases same; rfl
            ).toCarries.isPdu few within
        · cases member
      have count : segO + (data :: rest).length = segO + 1 + rest.length := by
        rw [length_cons]
        omega
      rw [fillSegments, count]
      dsimp only
      split
      · obtain ⟨filled, later⟩ := ih (segO + 1)
          { tx with seg := tx.seg.set segO none } (block :: free) cuts.tail
          (holds.store (by simp))
        exact ⟨filled, forall_mem_append.mpr ⟨offered, later⟩⟩
      · obtain ⟨filled, later⟩ := ih (segO + 1)
          { tx with seg := tx.seg.set segO (some ⟨block, data⟩) } free
          cuts.tail (holds.store fun buf same => by cases same; exact piece)
        exact ⟨filled, forall_mem_append.mpr ⟨offered, later⟩⟩

section Sending

variable {cfg : Config} {env : SegEnv} {netTx : NetTx} {bytes : List Byte}
variable {ctlOp : Option Nat}

theorem sentSdu_segN_lt
    (fits : bytes.length ≤ cfg.txSegMax * segLen ctlOp.isSome) :
    (sentSdu env netTx ctlOp bytes).segN < 2 ^ 5 := by
  have long : bytes.length ≤ 32 * segLen ctlOp.isSome :=
    le_trans fits (Nat.mul_le_mul_right _ cfg.txSegMax_le)
  exact SegSdu.segN_lt (by decide) long

theorem sentSdu_cuts : Cuts (sentSdu env netTx ctlOp bytes) 0
      (sduSegments (segLen ctlOp.isSome) bytes.length bytes) := by
  intro k data found
  rw [sduSegments_get (segLen_pos _) _ _ _ (le_refl _)] at found
  split at found
  · rename_i below
    cases found
    rw [zero_add]
    refine ⟨?_, rfl⟩
    exact (Nat.le_div_iff_mul_le (segLen_pos _)).mpr (Nat.le_sub_one_of_lt below)
  · cases found

theorem sduSegments_length (some_bytes : bytes ≠ []) :
    (sentSdu env netTx ctlOp bytes).segN <
      (sduSegments (segLen ctlOp.isSome) bytes.length bytes).length := by
  have long := length_pos_iff.mpr some_bytes
  have below : (sentSdu env netTx ctlOp bytes).segN * segLen ctlOp.isSome <
      bytes.length :=
    Nat.lt_of_le_of_lt (Nat.div_mul_le_self _ _) (Nat.sub_lt long Nat.one_pos)
  have found := sduSegments_get (segLen_pos ctlOp.isSome) _ _
    (sentSdu env netTx ctlOp bytes).segN (Nat.le_refl bytes.length)
  rw [if_pos below] at found
  exact (List.getElem?_eq_some_iff.mp found).1

theorem segTxOpen_carries
    (fits : bytes.length ≤ cfg.txSegMax * segLen ctlOp.isSome)
    (cb : Option SendCb) (blocked : Bool) (tx : SegTx) :
    HoldsBelow (sentSdu env netTx ctlOp bytes) 0
      (segTxOpen cfg env netTx ctlOp cb bytes.length blocked tx) := by
  have few := @sentSdu_segN_lt cfg env netTx bytes ctlOp fits
  have segN : (bytes.length - 1) / segLen ctlOp.isSome % 2 ^ 8 =
      (sentSdu env netTx ctlOp bytes).segN :=
    Nat.mod_eq_of_lt (lt_trans few (by decide))
  exact ⟨⟨rfl, rfl, rfl, segN, rfl, rfl⟩, nofun⟩

theorem HoldsBelow.holds (some_bytes : bytes ≠ [])
    (below : HoldsBelow (sentSdu env netTx ctlOp bytes)
      (0 + (sduSegments (segLen ctlOp.isSome) bytes.length bytes).length) tx) :
    Holds (sentSdu env netTx ctlOp bytes) tx := by
  refine ⟨below.toCarries, ?_⟩
  intro segO buf within held
  have low := lt_of_le_of_lt within
    (@sduSegments_length env netTx bytes ctlOp some_bytes)
  exact below.held segO buf (by rw [zero_add]; exact low) held

theorem sendSeg_sends (some_bytes : bytes ≠ [])
    (fits : bytes.length ≤ cfg.txSegMax * segLen ctlOp.isSome)
    (cb : Option SendCb) (state : SegTxs) :
    (state.txs.findIdx? fun tx => tx.nackCount == 0) = none ∧
        (sendSeg cfg env netTx bytes cb ctlOp state).2.2 = [] ∨
      ∃ slot, (state.txs.findIdx? fun tx => tx.nackCount == 0) = some slot ∧
        Sends (sentSdu env netTx ctlOp bytes) slot
          (sendSeg cfg env netTx bytes cb ctlOp state).2.1
          (sendSeg cfg env netTx bytes cb ctlOp state).2.2 := by
  have few := @sentSdu_segN_lt cfg env netTx bytes ctlOp fits
  unfold sendSeg
  dsimp only
  cases scan : state.txs.findIdx? fun tx => tx.nackCount == 0 with
  | none => exact .inl ⟨rfl, rfl⟩
  | some slot =>
    refine .inr ⟨slot, rfl, ?_⟩
    obtain ⟨bound, _⟩ := findIdx?_eq_some_iff_getElem.mp scan
    dsimp only
    generalize (state.txs.any fun tx =>
      tx.nackCount != 0 && segTxBlocks tx netTx.src netTx.addr) = blocked
    have below := @segTxOpen_carries cfg env netTx bytes ctlOp fits cb blocked
      (state.txs.getD slot (.boot cfg.txSegMax))
    generalize segTxOpen cfg env netTx ctlOp cb bytes.length blocked
      (state.txs.getD slot (.boot cfg.txSegMax)) = opened at below
    split
    · exact segTxReset_sends _ _ slot
    obtain ⟨filled, offered⟩ := fillSegments_holds few cfg env
      (addrIsUnicast netTx.addr) _ 0 opened state.slab sentSdu_cuts below
    generalize fillSegments cfg env (addrIsUnicast netTx.addr) 0
      (sduSegments (segLen ctlOp.isSome) bytes.length bytes)
      (opened, state.slab) = filling at filled offered
    obtain ⟨_, tx, _, _⟩ := filling
    dsimp only at filled offered ⊢
    split
    · exact (segTxReset_sends _ _ slot).prepend offered
    rename_i isComplete
    have below := filled (by simpa using isComplete)
    have holds := below.holds some_bytes
    have present := getElem?_set_self (a := tx) bound
    split
    · apply ((segTxReset_sends _ _ slot).prepend offered).append
      unfold sendCbFinalize
      split
      · simp
      · split <;> split <;> simp [Proper]
    · split
      · refine ⟨?_, forall_mem_append.mpr ⟨offered, by simp [Proper]⟩⟩
        intro after found _
        dsimp only at found
        rw [present] at found
        cases found
        exact holds
      · apply ((segTxSendUnacked_sends few env present holds).prepend offered).append
        split <;> simp [Proper]

variable {cb : Option SendCb}

theorem Built.isPdu {pdu : List Byte} (some_bytes : bytes ≠ [])
    (fits : bytes.length ≤ cfg.txSegMax * segLen ctlOp.isSome)
    (built : Built cfg env netTx bytes cb ctlOp state segO pdu) :
    segO ≤ (sentSdu env netTx ctlOp bytes).segN ∧
      (sentSdu env netTx ctlOp bytes).IsPdu segO pdu := by
  rcases @sendSeg_sends cfg env netTx bytes ctlOp some_bytes fits cb state with
    ⟨full, silent⟩ | ⟨taken, scan, sends⟩
  · cases built with
    | offered offered =>
      rw [silent] at offered
      cases offered
    | sent sent =>
      rw [silent] at sent
      cases sent
    | held taken =>
      rw [full] at taken
      cases taken
  · cases built with
    | offered offered => exact sends.proper _ offered
    | sent sent => exact sends.proper _ sent
    | held place found active within held =>
      rw [scan] at place
      cases place
      have holds := sends.holds _ found active
      rw [holds.segN] at within
      exact ⟨within, holds.isPdu (sentSdu_segN_lt fits) within held⟩

theorem fillSegments_offers (friend : cfg.friend = true) (unicast : Bool)
    (segments : List (List Byte)) :
    ∀ (segO : Nat) (tx : SegTx) (slab : List Nat),
      (fillSegments cfg env unicast segO segments (tx, slab)).1 = true →
      ∀ k, k < segments.length → ∃ pdu, .friendEnqueue (segO + k) pdu ∈
        (fillSegments cfg env unicast segO segments (tx, slab)).2.2.2 := by
  induction segments with
  | nil => exact fun _ _ _ _ k below => nomatch below
  | cons data rest ih =>
    intro segO tx slab complete k below
    cases slab with
    | nil => cases complete
    | cons block free =>
      rw [fillSegments, if_pos friend] at complete ⊢
      cases k with
      | zero => exact ⟨_, mem_append_left _ mem_cons_self⟩
      | succ k =>
        have place : segO + (k + 1) = segO + 1 + k := by omega
        have below := Nat.lt_of_succ_lt_succ below
        rw [place]
        dsimp only at complete ⊢
        split at complete
        · rename_i taken
          rw [if_pos taken]
          exact (ih _ _ _ complete k below).imp fun _ => mem_append_right _
        · rename_i kept
          rw [if_neg kept]
          exact (ih _ _ _ complete k below).imp fun _ => mem_append_right _

theorem fillSegments_keeps (friend : cfg.friend = false) (unicast : Bool)
    (segments : List (List Byte)) :
    ∀ (segO : Nat) (tx : SegTx) (slab : List Nat),
      (fillSegments cfg env unicast segO segments (tx, slab)).1 = true →
      (∀ place, place < segO →
        (fillSegments cfg env unicast segO segments (tx, slab)).2.1.seg[place]? =
          tx.seg[place]?) ∧
      ∀ k, k < segments.length → segO + k < tx.seg.length → ∃ buf,
        (fillSegments cfg env unicast segO segments
          (tx, slab)).2.1.seg[segO + k]? = some (some buf) := by
  induction segments with
  | nil => exact fun _ _ _ _ => ⟨fun _ _ => rfl, nofun⟩
  | cons data rest ih =>
    intro segO tx slab complete
    cases slab with
    | nil => cases complete
    | cons block free =>
      rw [fillSegments, friend] at complete ⊢
      obtain ⟨same, stored⟩ := ih (segO + 1)
        { tx with seg := tx.seg.set segO (some ⟨block, data⟩) } free complete
      refine ⟨fun place low => ?_, fun k below inside => ?_⟩
      · exact (same place (Nat.lt_succ_of_lt low)).trans
          (getElem?_set_ne (ne_of_gt low))
      · cases k with
        | zero =>
          exact ⟨_, (same segO (Nat.lt_succ_self _)).trans
            (getElem?_set_self inside)⟩
        | succ k =>
          have place : segO + (k + 1) = segO + 1 + k := by omega
          rw [place] at inside ⊢
          exact stored k (Nat.lt_of_succ_lt_succ below)
            (by rw [length_set]; exact inside)

/-- The context of an accepted SDU, the segments that were offered to the Friend
queues, and what is left without those. -/
theorem sendSeg_accepted
    (accepted : (sendSeg cfg env netTx bytes cb ctlOp state).1 = .ok ()) :
    ∃ slot blocked tx slab offered,
      (state.txs.findIdx? fun tx => tx.nackCount == 0) = some slot ∧
      fillSegments cfg env (addrIsUnicast netTx.addr) 0
          (sduSegments (segLen ctlOp.isSome) bytes.length bytes)
          (segTxOpen cfg env netTx ctlOp cb bytes.length blocked
            (state.txs.getD slot (.boot cfg.txSegMax)), state.slab) =
        (true, tx, slab, offered) ∧
      (∀ evt ∈ offered,
        evt ∈ (sendSeg cfg env netTx bytes cb ctlOp state).2.2) ∧
      (cfg.friend = false →
        (sendSeg cfg env netTx bytes cb ctlOp state).2.1 =
            ⟨state.txs.set slot tx, slab⟩ ∨
          (sendSeg cfg env netTx bytes cb ctlOp state).2.1 =
            (segTxSendUnacked env ⟨state.txs.set slot tx, slab⟩ slot).1) := by
  revert accepted
  unfold sendSeg
  dsimp only
  generalize (state.txs.any fun tx =>
    tx.nackCount != 0 && segTxBlocks tx netTx.src netTx.addr) = blocked
  cases scan : state.txs.findIdx? fun tx => tx.nackCount == 0 with
  | none => exact nofun
  | some slot =>
    dsimp only
    split
    · exact nofun
    cases filling : fillSegments cfg env (addrIsUnicast netTx.addr) 0
      (sduSegments (segLen ctlOp.isSome) bytes.length bytes)
      (segTxOpen cfg env netTx ctlOp cb bytes.length blocked
        (state.txs.getD slot (.boot cfg.txSegMax)), state.slab) with
    | mk complete filled =>
      obtain ⟨tx, slab, offered⟩ := filled
      dsimp only
      split
      · exact nofun
      rename_i isComplete
      obtain rfl : complete = true := by simpa using isComplete
      intro _
      refine ⟨slot, blocked, tx, slab, offered, rfl, filling, ?_, ?_⟩
      · intro evt member
        split
        · exact mem_append_left _ (mem_append_left _ member)
        · split
          · exact mem_append_left _ member
          · exact mem_append_left _ (mem_append_left _ member)
      · intro noFriend
        rw [noFriend, Bool.false_and, if_neg Bool.false_ne_true]
        split
        · exact .inl rfl
        · exact .inr rfl

/-- `send_seg` builds every segment of an SDU that it accepts. -/
theorem sendSeg_builds (some_bytes : bytes ≠ [])
    (fits : bytes.length ≤ cfg.txSegMax * segLen ctlOp.isSome)
    (arrays : ∀ tx ∈ state.txs, tx.seg.length = cfg.txSegMax)
    (attempts : cfg.txSegRetransCount ≠ 0)
    (accepted : (sendSeg cfg env netTx bytes cb ctlOp state).1 = .ok ())
    (within : segO ≤ (sentSdu env netTx ctlOp bytes).segN) :
    ∃ pdu, Built cfg env netTx bytes cb ctlOp state segO pdu := by
  obtain ⟨slot, blocked, tx, slab, offered, scan, filling, kept, left⟩ :=
    sendSeg_accepted accepted
  have low := lt_of_le_of_lt within
    (@sduSegments_length env netTx bytes ctlOp some_bytes)
  cases friend : cfg.friend with
  | true =>
    obtain ⟨pdu, member⟩ := fillSegments_offers friend _ _ _ _ _
      (congrArg (·.1) filling) segO low
    rw [filling, zero_add] at member
    exact ⟨pdu, .offered (kept _ member)⟩
  | false =>
    obtain ⟨bound, _⟩ := findIdx?_eq_some_iff_getElem.mp scan
    have length : (state.txs.getD slot (.boot cfg.txSegMax)).seg.length =
        cfg.txSegMax := by
      rw [getD_eq_getElem _ _ bound]
      exact arrays _ (getElem_mem bound)
    have opened := @segTxOpen_carries cfg env netTx bytes ctlOp fits cb blocked
      (state.txs.getD slot (.boot cfg.txSegMax))
    have segN_lt := @SegSdu.segN_lt (sentSdu env netTx ctlOp bytes)
      cfg.txSegMax (count_pos some_bytes fits) fits
    obtain ⟨buf, stored⟩ := (fillSegments_keeps friend _ _ _ _ _
      (congrArg (·.1) filling)).2 segO low (by
        rw [zero_add]
        exact (lt_of_le_of_lt within segN_lt).trans_eq length.symm)
    have copied := fillSegments_seg cfg env (addrIsUnicast netTx.addr)
      (sduSegments (segLen ctlOp.isSome) bytes.length bytes) 0
      (segTxOpen cfg env netTx ctlOp cb bytes.length blocked
        (state.txs.getD slot (.boot cfg.txSegMax))) state.slab
    rw [filling] at stored copied
    rw [zero_add] at stored
    change tx = _ at copied
    have active : tx.nackCount ≠ 0 := by
      rw [copied]
      exact ne_of_gt (segCount_pos fits)
    have inContext : segO ≤ tx.segN := by
      rw [copied]
      exact within.trans_eq opened.segN.symm
    have held : (tx.seg[segO]?).join = some buf := by
      rw [stored]
      rfl
    have present := getElem?_set_self (a := tx) bound
    rcases left friend with same | sent
    · exact ⟨_, .held scan (by rw [same]; exact present) active inContext held⟩
    · have same := segTxAttempt_same slot env.outcome tx
      refine ⟨_, .held scan ?_ (same.nackCount ▸ active) (same.segN ▸ inContext)
        (same.seg ▸ held)⟩
      have again : tx.attempts ≠ 0 := by
        rw [copied]
        exact attempts
      rw [sent]
      unfold segTxSendUnacked
      rw [present]
      dsimp only
      rw [if_neg active, if_neg again]
      exact getElem?_set_self (by rw [length_set]; exact bound)

end Sending

end ZephyrBluetooth.Mesh
