import ZephyrBluetooth.Mesh.SegTxBlock

namespace ZephyrBluetooth.Mesh

open Data List

/-! What the calls of the transport layer leave of the segmented transfers under
way, and how the transfers end. -/

structure SameTransfer (before after : SegTx) : Prop where
  seg : after.seg = before.seg
  seqAuth : after.seqAuth = before.seqAuth
  segN : after.segN = before.segN
  nackCount : after.nackCount = before.nackCount

theorem SameTransfer.refl (tx : SegTx) : SameTransfer tx tx :=
  ⟨rfl, rfl, rfl, rfl⟩

theorem SameTransfer.trans {first second third : SegTx}
    (one : SameTransfer first second) (two : SameTransfer second third) :
    SameTransfer first third :=
  ⟨two.seg.trans one.seg, two.seqAuth.trans one.seqAuth,
    two.segN.trans one.segN, two.nackCount.trans one.nackCount⟩

theorem scheduleRetransmit_same (tx : SegTx) :
    SameTransfer tx (scheduleRetransmit tx) := by
  unfold scheduleRetransmit
  split
  · exact .refl tx
  · dsimp only
    split <;> exact ⟨rfl, rfl, rfl, rfl⟩

theorem callStart_same (failed : Bool) (tx : SegTx) :
    SameTransfer tx (tx.callStart failed).1 := by
  unfold SegTx.callStart
  split
  · split
    · exact ⟨rfl, rfl, rfl, rfl⟩
    · exact .refl tx
  · exact .refl tx

theorem segSendStart_same (failed : Bool) (tx : SegTx) :
    SameTransfer tx (segSendStart failed tx).1 := by
  have called := callStart_same failed tx
  cases failed with
  | false => exact called
  | true => exact called.trans (scheduleRetransmit_same _)

theorem sendSegments_same (slot : Nat) (outcome : Nat → SegOutcome) (left : Nat)
    (tx : SegTx) : SameTransfer tx (sendSegments slot outcome left tx).1 := by
  induction left generalizing tx with
  | zero => exact .refl tx
  | succ left ih =>
    have go (next : SegTx) (same : SameTransfer tx next) :
        SameTransfer tx (sendSegments slot outcome left next).1 :=
      same.trans (ih next)
    rw [sendSegments]
    split
    · exact go _ ⟨rfl, rfl, rfl, rfl⟩
    split
    · exact .refl tx
    · exact .refl tx
    · exact go _ ⟨rfl, rfl, rfl, rfl⟩
    · have counted : SameTransfer tx
          { tx with segPending := (tx.segPending + 1) % 2 ^ 8 } :=
        ⟨rfl, rfl, rfl, rfl⟩
      have sent := (counted.trans (segSendStart_same false _)).trans
        (scheduleRetransmit_same _)
      exact go _ ⟨sent.seg, sent.seqAuth, sent.segN, sent.nackCount⟩

theorem segTxAttempt_same (slot : Nat) (outcome : Nat → SegOutcome)
    (tx : SegTx) : SameTransfer tx (segTxAttempt slot outcome tx).1 := by
  have tried := sendSegments_same slot outcome (tx.segN + 1 - tx.segO)
    { tx with sending := true }
  unfold segTxAttempt
  dsimp only
  split <;> exact ⟨tried.seg, tried.seqAuth, tried.segN, tried.nackCount⟩

theorem fillSegments_seg (cfg : Config) (env : SegEnv) (unicast : Bool)
    (segments : List (List Byte)) :
    ∀ (segO : Nat) (tx : SegTx) (slab : List Nat),
      (fillSegments cfg env unicast segO segments (tx, slab)).2.1 =
        { tx with
          seg := (fillSegments cfg env unicast segO segments
            (tx, slab)).2.1.seg } := by
  induction segments with
  | nil =>
    intro segO tx slab
    rfl
  | cons data rest ih =>
    intro segO tx slab
    cases slab with
    | nil => rfl
    | cons block free =>
      rw [fillSegments]
      dsimp only
      split
      · exact ih (segO + 1) { tx with seg := tx.seg.set segO none }
          (block :: free)
      · exact ih (segO + 1)
          { tx with seg := tx.seg.set segO (some ⟨block, data⟩) } free

theorem segTxUnblockCheck_same (slot : Nat) (tx : SegTx) (txs : List SegTx) :
    List.Forall₂ SameTransfer txs (segTxUnblockCheck slot tx txs) := by
  unfold segTxUnblockCheck
  cases scan : unblockScan slot tx 0 none txs with
  | none => exact forall₂_same.mpr fun other _ => .refl other
  | some best =>
    obtain ⟨_, _⟩ := best
    rcases unblockScan_some scan with empty | ⟨k, place, found, _⟩
    · cases empty
    rw [zero_add] at place
    subst place
    exact forall₂_set .refl found ⟨rfl, rfl, rfl, rfl⟩

def CarriedOn (fresh : Option Nat) (before after : SegTx) : Prop :=
  after.nackCount ≠ 0 → before.nackCount ≠ 0 ∧ after.seqAuth = before.seqAuth ∨
      fresh = some after.seqAuth

def StaysActive (before after : SegTx) : Prop :=
  before.nackCount ≠ 0 → after.nackCount ≠ 0

def isReset : SegTxEvt → Bool
  | .reset _ => true
  | _ => false

def isQuiet : SegTxEvt → Bool
  | .start .. | .stop .. | .lpnPoll => true
  | _ => false

def EndsInReset (evts : List SegTxEvt) : Prop :=
  ∃ before slot after, evts = before ++ .reset slot :: after ∧
    (∀ evt ∈ before, isReset evt = false) ∧ ∀ evt ∈ after, isQuiet evt = true

/-- What a call does to the transfers: none gets another SeqAuth, and none ends
without its reset. -/
structure Turn (fresh : Option Nat) (before after : List SegTx)
    (evts : List SegTxEvt) : Prop where
  carried : List.Forall₂ (CarriedOn fresh) before after
  told : List.Forall₂ StaysActive before after ∨ EndsInReset evts

theorem SameTransfer.carriedOn {before after : SegTx}
    (same : SameTransfer before after) (fresh : Option Nat) :
    CarriedOn fresh before after := by
  intro active
  rw [same.nackCount] at active
  exact .inl ⟨active, same.seqAuth⟩

theorem SameTransfer.staysActive {before after : SegTx}
    (same : SameTransfer before after) : StaysActive before after := by
  intro active
  rw [same.nackCount]
  exact active

theorem CarriedOn.refl (fresh : Option Nat) (tx : SegTx) :
    CarriedOn fresh tx tx :=
  (SameTransfer.refl tx).carriedOn fresh

theorem CarriedOn.trans {fresh : Option Nat} {first second third : SegTx}
    (one : CarriedOn fresh first second) (two : CarriedOn fresh second third) :
    CarriedOn fresh first third := by
  intro active
  rcases two active with ⟨middle, same⟩ | new
  · rcases one middle with ⟨old, alike⟩ | new
    · exact .inl ⟨old, same.trans alike⟩
    · exact .inr (by rw [same]; exact new)
  · exact .inr new

variable {fresh : Option Nat} {before middle after : List SegTx}
variable {evts : List SegTxEvt}

theorem Turn.of_same (same : List.Forall₂ SameTransfer before after)
    (evts : List SegTxEvt) : Turn fresh before after evts where
  carried := same.imp fun _ _ same => same.carriedOn fresh
  told := .inl (same.imp fun _ _ same => same.staysActive)

theorem Turn.refl (txs : List SegTx) (evts : List SegTxEvt) :
    Turn fresh txs txs evts :=
  .of_same (forall₂_same.mpr fun tx _ => .refl tx) evts

theorem Turn.behind (later : Turn fresh middle after evts)
    (carried : List.Forall₂ (CarriedOn fresh) before middle)
    (stays : List.Forall₂ StaysActive before middle) :
    Turn fresh before after evts where
  carried := forall₂_trans (fun _ _ _ => .trans) carried later.carried
  told := by
    rcases later.told with active | reset
    · exact .inl (forall₂_trans (fun _ _ _ one two active => two (one active))
        stays active)
    · exact .inr reset

theorem Turn.behind_same (later : Turn fresh middle after evts)
    (same : List.Forall₂ SameTransfer before middle) :
    Turn fresh before after evts :=
  later.behind (same.imp fun _ _ same => same.carriedOn fresh)
    (same.imp fun _ _ same => same.staysActive)

theorem EndsInReset.around {first last : List SegTxEvt} (ends : EndsInReset evts)
    (silent : ∀ evt ∈ first, isReset evt = false)
    (quiet : ∀ evt ∈ last, isQuiet evt = true) :
    EndsInReset (first ++ evts ++ last) := by
  obtain ⟨front, slot, back, rfl, before, after⟩ := ends
  refine ⟨first ++ front, slot, back ++ last, by simp, ?_, ?_⟩
  · intro evt member
    rcases mem_append.mp member with left | right
    · exact silent evt left
    · exact before evt right
  · intro evt member
    rcases mem_append.mp member with left | right
    · exact after evt left
    · exact quiet evt right

theorem Turn.around {first last : List SegTxEvt}
    (turn : Turn fresh before after evts)
    (silent : ∀ evt ∈ first, isReset evt = false)
    (quiet : ∀ evt ∈ last, isQuiet evt = true) :
    Turn fresh before after (first ++ evts ++ last) where
  carried := turn.carried
  told := turn.told.imp_right fun ends => ends.around silent quiet

variable {slot : Nat}

theorem Turn.set {tx updated : SegTx}
    (found : before[slot]? = some tx) (carried : CarriedOn fresh tx updated)
    (stays : StaysActive tx updated) (evts : List SegTxEvt) :
    Turn fresh before (before.set slot updated) evts where
  carried := forall₂_set (.refl fresh) found carried
  told := .inl (forall₂_set (fun _ active => active) found stays)

theorem segTxReset_turn (state : SegTxs) (slot : Nat) :
    Turn fresh state.txs (segTxReset state slot).1.txs
      (segTxReset state slot).2 := by
  unfold segTxReset
  cases found : state.txs[slot]? with
  | none => exact .refl state.txs []
  | some =>
    refine ⟨forall₂_set (.refl fresh) found fun active => absurd rfl active,
      .inr ⟨[], slot, [], rfl, ?_, ?_⟩⟩
    · intro evt member
      cases member
    · intro evt member
      cases member

variable {state : SegTxs}

theorem segTxComplete_ends {tx : SegTx} (found : state.txs[slot]? = some tx)
    (err : Option Errno) : EndsInReset (segTxComplete state slot err).2 := by
  have length := (segTxUnblockCheck_same slot tx state.txs).length_eq
  have bound := (List.getElem?_eq_some_iff.mp found).1
  unfold segTxComplete segTxReset
  rw [found]
  dsimp only
  rw [getElem?_eq_getElem (by rw [← length]; exact bound)]
  refine ⟨[], slot, _, rfl, ?_, ?_⟩
  · intro evt member
    cases member
  · intro evt member
    cases notified : tx.cb.filter fun cb => cb.hasEnd with
    | none =>
      rw [notified] at member
      cases member
    | some =>
      rw [notified] at member
      rw [mem_singleton.mp member]
      rfl

theorem segTxComplete_carried (state : SegTxs) (slot : Nat) (err : Option Errno) :
    List.Forall₂ (CarriedOn fresh) state.txs
      (segTxComplete state slot err).1.txs := by
  unfold segTxComplete
  cases state.txs[slot]? with
  | none => exact (Turn.refl state.txs []).carried
  | some tx =>
    have unblocked := segTxUnblockCheck_same slot tx state.txs
    exact ((segTxReset_turn _ slot).behind_same unblocked).carried

theorem segTxComplete_turn (state : SegTxs) (slot : Nat) (err : Option Errno) :
    Turn fresh state.txs (segTxComplete state slot err).1.txs
      (segTxComplete state slot err).2 := by
  cases found : state.txs[slot]? with
  | none =>
    unfold segTxComplete
    rw [found]
    exact .refl state.txs []
  | some =>
    exact ⟨segTxComplete_carried state slot err, .inr (segTxComplete_ends found err)⟩

theorem segTxSendUnacked_turn (env : SegEnv) (state : SegTxs) (slot : Nat) :
    Turn fresh state.txs (segTxSendUnacked env state slot).1.txs
      (segTxSendUnacked env state slot).2 := by
  unfold segTxSendUnacked
  cases found : state.txs[slot]? with
  | none => exact .refl state.txs []
  | some tx =>
    dsimp only
    split
    · exact .refl state.txs []
    split
    · exact segTxComplete_turn state slot _
    · exact .of_same (forall₂_set .refl found
        (segTxAttempt_same slot env.outcome tx)) _

theorem segRetransmit_turn (env : SegEnv) (state : SegTxs) (slot : Nat) :
    Turn fresh state.txs (segRetransmit env state slot).1.txs
      (segRetransmit env state slot).2 := by
  unfold segRetransmit
  cases found : state.txs[slot]? with
  | none => exact .refl state.txs []
  | some tx =>
    dsimp only
    split
    · have cleared : List.Forall₂ SameTransfer state.txs
          (state.txs.set slot { tx with retransmit := false }) :=
        forall₂_set .refl found ⟨rfl, rfl, rfl, rfl⟩
      exact (segTxSendUnacked_turn env _ slot).behind_same cleared
    · exact .refl state.txs []

theorem segTxDone_seqAuth (tx : SegTx) (slab : List Nat) (idx : Nat) :
    (segTxDone tx slab idx).1.seqAuth = tx.seqAuth := by
  unfold segTxDone
  split <;> rfl

theorem ackSegments_same {Seen : Type} (seen : SegTx → Seen)
    (done : ∀ tx slab idx, seen (segTxDone tx slab idx).1 = seen tx) (ack : Nat)
    (tx : SegTx) (slab : List Nat) :
    seen (ackSegments ack tx slab).1 = seen tx := by
  apply foldlRecOn
    (motive := fun current : SegTx × List Nat => seen current.1 = seen tx)
  · rfl
  · intro current same bit _
    split
    · rw [done]
      exact same
    · exact same

theorem ackContext_turn {tx : SegTx} (ack : Nat)
    (found : state.txs[slot]? = some tx)
    (active : addrIsUnicast tx.dst = true → tx.nackCount ≠ 0) :
    Turn fresh state.txs (ackContext ack slot state).2.1.txs
      (ackContext ack slot state).2.2 := by
  unfold ackContext
  rw [found]
  dsimp only
  split
  · exact .refl state.txs []
  rename_i unicast
  have active := active (by simpa using unicast)
  split
  · exact segTxComplete_turn state slot _
  split
  · exact .refl state.txs []
  have carried : CarriedOn fresh tx (ackSegments ack tx state.slab).1 :=
    fun _ => .inl ⟨active, ackSegments_same _ segTxDone_seqAuth ..⟩
  split
  · rename_i left
    have carried : CarriedOn fresh tx
        { (ackSegments ack tx state.slab).1 with retransmit := true } :=
      carried
    exact .set found carried (fun _ => left) []
  · have bound := (List.getElem?_eq_some_iff.mp found).1
    have completed := @segTxComplete_carried fresh
      ⟨state.txs.set slot (ackSegments ack tx state.slab).1,
        (ackSegments ack tx state.slab).2⟩ slot none
    refine ⟨?_, .inr (segTxComplete_ends (getElem?_set_self bound) none)⟩
    exact forall₂_trans (fun _ _ _ => .trans)
      (forall₂_set (.refl fresh) found carried) completed

theorem transAck_turn {cfg : Config} (tidy : TidyTxs state.txs)
    (friendMatch : Bool) (iviRx addr : Nat) (buf : List Byte) :
    Turn fresh state.txs (transAck cfg friendMatch iviRx addr buf state).2.1.txs
      (transAck cfg friendMatch iviRx addr buf state).2.2 := by
  unfold transAck
  split
  · dsimp only
    split
    · exact .refl state.txs []
    split
    · exact .refl state.txs []
    rename_i slot txs lookup
    obtain ⟨tx, found, rfl, active⟩ := segTxLookup_active tidy lookup
    have bound := (List.getElem?_eq_some_iff.mp found).1
    have moved : List.Forall₂ SameTransfer state.txs
        (state.txs.set slot { tx with dst := addr }) :=
      forall₂_set .refl found ⟨rfl, rfl, rfl, rfl⟩
    have placed : ({ state with
        txs := state.txs.set slot { tx with dst := addr } } :
        SegTxs).txs[slot]? = some { tx with dst := addr } :=
      getElem?_set_self bound
    exact (ackContext_turn _ placed active).behind_same moved
  · exact .refl state.txs []

theorem fillSegments_evts (cfg : Config) (env : SegEnv) (unicast : Bool)
    (segments : List (List Byte)) : ∀ (segO : Nat) (tx : SegTx) (slab : List Nat),
      ∀ evt ∈ (fillSegments cfg env unicast segO segments (tx, slab)).2.2.2,
        isReset evt = false := by
  induction segments with
  | nil =>
    intro segO tx slab evt member
    cases member
  | cons data rest ih =>
    intro segO tx slab
    cases slab with
    | nil =>
      intro evt member
      cases member
    | cons =>
      rw [fillSegments]
      intro evt member
      rcases mem_append.mp member with offered | later
      · split at offered
        · rw [mem_singleton.mp offered]
          rfl
        · cases offered
      · split at later
        · exact ih (segO + 1) _ _ evt later
        · exact ih (segO + 1) _ _ evt later

theorem sendSeg_turn (cfg : Config) (env : SegEnv) (netTx : NetTx)
    (sdu : List Byte) (cb : Option SendCb) (ctlOp : Option Nat) (state : SegTxs) :
    Turn (some (seqAuthOf env.iviTx env.seq)) state.txs
      (sendSeg cfg env netTx sdu cb ctlOp state).2.1.txs
      (sendSeg cfg env netTx sdu cb ctlOp state).2.2 := by
  unfold sendSeg
  dsimp only
  generalize (state.txs.any fun tx =>
    tx.nackCount != 0 && segTxBlocks tx netTx.src netTx.addr) = blocked
  split
  · exact .refl state.txs []
  rename_i slot search
  obtain ⟨tx, found, idle, taken⟩ := idle_slot (.boot cfg.txSegMax) search
  rw [taken]
  have opens (updated : SegTx)
      (seqAuth : updated.seqAuth = seqAuthOf env.iviTx env.seq)
      {after : List SegTx} {evts : List SegTxEvt}
      (later : Turn (some (seqAuthOf env.iviTx env.seq))
        (state.txs.set slot updated) after evts) :
      Turn (some (seqAuthOf env.iviTx env.seq)) state.txs after evts :=
    later.behind
      (forall₂_set (.refl _) found fun _ => .inr (by rw [seqAuth]))
      (forall₂_set (fun _ active => active) found fun active =>
        absurd idle active)
  split
  · have reset := @segTxReset_turn (some (seqAuthOf env.iviTx env.seq))
      ⟨state.txs.set slot
        (segTxOpen cfg env netTx ctlOp cb sdu.length blocked tx), state.slab⟩
      slot
    exact opens _ rfl reset
  · have silent := fillSegments_evts cfg env (addrIsUnicast netTx.addr)
      (sduSegments (segLen ctlOp.isSome) sdu.length sdu) 0
      (segTxOpen cfg env netTx ctlOp cb sdu.length blocked tx) state.slab
    have filled := fillSegments_seg cfg env (addrIsUnicast netTx.addr)
      (sduSegments (segLen ctlOp.isSome) sdu.length sdu) 0
      (segTxOpen cfg env netTx ctlOp cb sdu.length blocked tx) state.slab
    generalize fillSegments cfg env (addrIsUnicast netTx.addr) 0
      (sduSegments (segLen ctlOp.isSome) sdu.length sdu)
      (segTxOpen cfg env netTx ctlOp cb sdu.length blocked tx, state.slab) =
        result at silent filled ⊢
    obtain ⟨_, copied, slab, offered⟩ := result
    have seqAuth : copied.seqAuth = seqAuthOf env.iviTx env.seq := by
      rw [show copied = _ from filled]
      rfl
    have nothing : ∀ evt ∈ ([] : List SegTxEvt), isQuiet evt = true := by
      intro evt member
      cases member
    have reset := @segTxReset_turn (some (seqAuthOf env.iviTx env.seq))
      ⟨state.txs.set slot copied, slab⟩ slot
    split
    · rw [← append_nil (offered ++ _)]
      exact opens copied seqAuth (reset.around silent nothing)
    split
    · refine opens copied seqAuth (reset.around silent ?_)
      intro evt member
      unfold sendCbFinalize at member
      split at member
      · cases member
      rename_i cb
      rcases mem_append.mp member with left | right
      · split at left
        · rw [mem_singleton.mp left]
          rfl
        · cases left
      · split at right
        · rw [mem_singleton.mp right]
          rfl
        · cases right
    · split
      · exact opens copied seqAuth (.refl _ _)
      refine opens copied seqAuth ((segTxSendUnacked_turn env
        ⟨state.txs.set slot copied, slab⟩ slot).around silent ?_)
      intro evt member
      split at member
      · rw [mem_singleton.mp member]
        rfl
      · cases member

end ZephyrBluetooth.Mesh
