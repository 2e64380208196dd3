import ZephyrBluetooth.Mesh.Beacon
import ZephyrBluetooth.Mesh.SegTransfer

namespace ZephyrBluetooth.Mesh

open Data List Bool

structure IvTransfer where
  net : Net
  segTx : SegTxs

/-- What takes sequence numbers during a call: whether the primary subnet exists,
and how many Friend Queues take a copy of each segment. -/
structure SeqUse where
  primary : Bool
  enqueued : Nat → Nat

def takeSeqs (cfg : Config) (primary txInProgress : Bool) : Nat → Net → Net
  | 0, net => net
  | copies + 1, net =>
    takeSeqs cfg primary txInProgress copies (nextSeq cfg net primary txInProgress).2

def netEvt (cfg : Config) (seqUse : SeqUse) (txInProgress : Bool) (net : Net) :
    SegTxEvt → Net
  | .netSend _ _ _ => (nextSeq cfg net seqUse.primary txInProgress).2
  | .nextSeq => (nextSeq cfg net seqUse.primary txInProgress).2
  | .friendEnqueue segO _ =>
    takeSeqs cfg seqUse.primary txInProgress (seqUse.enqueued segO) net
  | .reset _ => ivuProceed cfg net txInProgress
  | .start _ _ | .stop _ _ | .lpnPoll => net

/-- The events of a call with the node around them.  Only a reset looks at the
transfers, and it is the last one to touch them. -/
def settle (cfg : Config) (seqUse : SeqUse) (net : Net)
    (result : SegTxs × List SegTxEvt) : IvTransfer where
  net := result.2.foldl (netEvt cfg seqUse (txInProgress result.1.txs)) net
  segTx := result.1

/-- A new transfer is named by the sequence number and the IV index of the
node. -/
def SegTxInput.within (net : Net) : SegTxInput → SegTxInput
  | .send env netTx sdu cb ctlOp =>
    .send { env with iviTx := netIviTx net, seq := net.seq } netTx sdu cb ctlOp
  | input => input

/-- `bt_mesh_trans_reset`, transfer by transfer. -/
def resetTransfers (cfg : Config) (seqUse : SeqUse) (state : IvTransfer) :
    IvTransfer :=
  (List.range state.segTx.txs.length).foldl
    (fun current slot =>
      settle cfg seqUse current.net (segTxReset current.segTx slot))
    state

inductive IvTransferInput where
  | segTx (seqUse : SeqUse) (input : SegTxInput)
  | nextSeq (primary : Bool)
  | ivUpdate (ivIndex : UInt32) (ivUpdate : Bool)
  | ivuRefresh

def ivTransferStep (cfg : Config) (state : IvTransfer) :
    IvTransferInput → IvTransfer
  | .segTx seqUse input =>
    match input with
    | .reset => resetTransfers cfg seqUse state
    | input =>
      settle cfg seqUse state.net
        (segTxStep cfg state.segTx (input.within state.net))
  | .nextSeq primary =>
    { state with
      net := (nextSeq cfg state.net primary (txInProgress state.segTx.txs)).2 }
  | .ivUpdate ivIndex ivUpdate =>
    { state with
      net := (netIvUpdate cfg state.net ivIndex.toNat ivUpdate
        (txInProgress state.segTx.txs)).2 }
  | .ivuRefresh =>
    { state with
      net := ivuRefresh cfg state.net (txInProgress state.segTx.txs) }

def ivTransferMachine (cfg : Config) :
    Machine IvTransfer IvTransferInput Empty where
  step state input := (ivTransferStep cfg state input, [])

structure IvTransfer.IvKept (state : IvTransfer) : Prop where
  iv : ∀ tx ∈ state.segTx.txs, tx.nackCount ≠ 0 →
    tx.seqAuth >>> 24 = netIviTx state.net
  pending : state.net.ivuPending = true →
    state.net.ivuInProgress = true ∧ txInProgress state.segTx.txs = true

def Switches (before after : IvTransfer) : Prop :=
  before.net.ivuPending = true → txInProgress after.segTx.txs = false →
    after.net.ivuInProgress = false ∧ after.net.ivuPending = false ∧
      after.net.ivIndex = before.net.ivIndex

/-- A transfer is named by a sequence number of 24 bits and has a place for each
of its segments, and there is no IV Index Recovery. -/
def KeepsIv (cfg : Config) (state : IvTransfer) : IvTransferInput → Prop
  | .segTx _ (.send _ _ sdu _ ctlOp) =>
    state.net.seq < 2 ^ 24 ∧ sdu.length ≤ cfg.txSegMax * segLen ctlOp.isSome
  | .ivUpdate ivIndex _ => ¬ recovers state.net ivIndex.toNat
  | _ => True

def Aged (cfg : Config) (net : Net) : Prop :=
  (!(cfg.ivUpdateTest && net.ivuTest) &&
    decide (net.ivuDuration < ivuMinHours)) = false

inductive IvMove (cfg : Config) (net : Net) (txInProgress : Bool) : Net → Prop
  | stay : IvMove cfg net txInProgress net
  | defer (inProgress : net.ivuInProgress = true) (aged : Aged cfg net)
      (active : txInProgress = true) :
      IvMove cfg net txInProgress { net with ivuPending := true }
  | leave (inProgress : net.ivuInProgress = true)
      (idle : txInProgress = false) :
      IvMove cfg net txInProgress (doUpdate cfg net net.ivIndex false)
  | enter (normal : net.ivuInProgress = false)
      (bound : net.ivIndex + 1 < 2 ^ 32) :
      IvMove cfg net txInProgress (doUpdate cfg net (net.ivIndex + 1) true)

variable {cfg : Config} {net after : Net} {active : Bool}

theorem ivUpdateGuarded_leave (aged : Aged cfg net) (ivIndex : Nat)
    (active : Bool) :
    (ivUpdateGuarded cfg net ivIndex false active).2 =
      if active then { net with ivuPending := true }
      else doUpdate cfg net ivIndex false := by
  unfold ivUpdateGuarded
  rw [show (!(cfg.ivUpdateTest && net.ivuTest) &&
    decide (net.ivuDuration < ivuMinHours)) = false from aged]
  cases active <;> rfl

theorem netIvUpdate_leave (inProgress : net.ivuInProgress = true)
    (ivIndex : Nat) (active : Bool) :
    (netIvUpdate cfg net ivIndex false active).2 = net ∨
      ivIndex = net.ivIndex ∧ Aged cfg net ∧
        (netIvUpdate cfg net ivIndex false active).2 =
          if active then { net with ivuPending := true }
          else doUpdate cfg net net.ivIndex false := by
  unfold netIvUpdate
  rw [if_pos inProgress]
  split
  · exact .inl rfl
  rename_i same
  have same : ivIndex = net.ivIndex := not_not.mp same
  subst same
  rw [if_neg Bool.false_ne_true]
  cases aged : (!(cfg.ivUpdateTest && net.ivuTest) &&
      decide (net.ivuDuration < ivuMinHours)) with
  | true =>
    left
    unfold ivUpdateGuarded
    rw [aged]
    rfl
  | false => exact .inr ⟨rfl, aged, ivUpdateGuarded_leave aged net.ivIndex active⟩

theorem ivUpdateGuarded_enter (ivIndex : Nat) (active : Bool) :
    (ivUpdateGuarded cfg net ivIndex true active).2 = net ∨
      (ivUpdateGuarded cfg net ivIndex true active).2 =
        doUpdate cfg net ivIndex true := by
  unfold ivUpdateGuarded
  split
  · exact .inl rfl
  · exact .inr rfl

theorem netIvUpdate_move (current : net.ivIndex < 2 ^ 32) {ivIndex : Nat}
    (bound : ivIndex < 2 ^ 32) (regular : ¬ recovers net ivIndex)
    (ivUpdate active : Bool) :
    IvMove cfg net active (netIvUpdate cfg net ivIndex ivUpdate active).2 := by
  cases inProgress : net.ivuInProgress with
  | true =>
    cases ivUpdate with
    | true =>
      have same : (netIvUpdate cfg net ivIndex true active).2 = net := by
        unfold netIvUpdate
        rw [if_pos inProgress]
        split <;> rfl
      rw [same]
      exact .stay
    | false =>
      rcases netIvUpdate_leave inProgress ivIndex active with
        same | ⟨_, aged, moved⟩
      · rw [same]
        exact .stay
      rw [moved]
      cases active with
      | true => exact .defer inProgress aged rfl
      | false => exact .leave inProgress rfl
  | false =>
    unfold netIvUpdate
    rw [if_neg (by rw [inProgress]; exact false_ne_true)]
    split
    · exact .stay
    rename_i different
    split
    · exact .stay
    rename_i window
    have noWrap : (net.ivIndex + 1) % 2 ^ 32 = net.ivIndex + 1 :=
      Nat.mod_eq_of_lt (by omega)
    rw [noWrap]
    split
    · rename_i ahead
      exact absurd ⟨inProgress, ahead, by omega⟩ regular
    rename_i near
    have next : ivIndex = net.ivIndex + 1 := by omega
    subst next
    split
    · exact .stay
    split
    · exact .stay
    rename_i flag
    have flag : ivUpdate = true := by simpa using flag
    subst flag
    rcases @ivUpdateGuarded_enter cfg net (net.ivIndex + 1) active
      with same | entered
    · rw [same]
      exact .stay
    · rw [entered]
      exact .enter inProgress bound

theorem nextSeq_move (current : net.ivIndex < 2 ^ 32) (primary active : Bool) :
    ∃ seq seqPending,
      IvMove cfg { net with seq := seq, seqPending := seqPending } active
          (nextSeq cfg net primary active).2 ∧
        (net.ivuInProgress = true → (nextSeq cfg net primary active).2 =
            { net with seq := seq, seqPending := seqPending }) := by
  have stored : ∃ seqPending, (if cfg.settings then
        storeSeq cfg { net with seq := (net.seq + 1) % 2 ^ 32 }
      else { net with seq := (net.seq + 1) % 2 ^ 32 }) =
        { net with seq := (net.seq + 1) % 2 ^ 32, seqPending := seqPending } := by
    unfold storeSeq
    split
    · split
      · exact ⟨net.seqPending, rfl⟩
      · exact ⟨true, rfl⟩
    · exact ⟨net.seqPending, rfl⟩
  obtain ⟨seqPending, stored⟩ := stored
  refine ⟨(net.seq + 1) % 2 ^ 32, seqPending, ?_⟩
  unfold nextSeq
  dsimp only
  rw [stored]
  split
  · rename_i updates
    simp only [and_eq_true, not_eq_true'] at updates
    have move := @netIvUpdate_move cfg
      { net with seq := (net.seq + 1) % 2 ^ 32, seqPending := seqPending }
      current _ (Nat.mod_lt (net.ivIndex + 1) (Nat.two_pow_pos 32))
    refine ⟨move ?_ true active, fun inProgress => ?_⟩
    · intro recovery
      have ahead : net.ivIndex + 1 < (net.ivIndex + 1) % 2 ^ 32 := recovery.2.1
      omega
    · rw [updates.1.1] at inProgress
      cases inProgress
  · exact ⟨.stay, fun _ => rfl⟩

structure Net.Due (cfg : Config) (net : Net) : Prop where
  bound : net.ivIndex < 2 ^ 32
  due : net.ivuPending = true → net.ivuInProgress = true ∧ Aged cfg net

structure IvStep (cfg : Config) (active : Bool) (before after : Net) : Prop where
  due : after.Due cfg
  tx : netIviTx after = netIviTx before ∨ active = false
  pending : after.ivuPending = true → before.ivuPending = true ∨ active = true

theorem IvStep.refl (due : net.Due cfg) : IvStep cfg active net net :=
  ⟨due, .inl rfl, .inl⟩

theorem IvStep.trans {first second third : Net}
    (one : IvStep cfg active first second)
    (two : IvStep cfg active second third) : IvStep cfg active first third where
  due := two.due
  tx := by
    rcases two.tx with same | idle
    · rcases one.tx with alike | idle
      · exact .inl (same.trans alike)
      · exact .inr idle
    · exact .inr idle
  pending pending := by
    rcases two.pending pending with was | put
    · exact one.pending was
    · exact .inr put

@[simp] theorem doUpdate_ivuPending (cfg : Config) (net : Net) (ivIndex : Nat)
    (ivUpdate : Bool) :
    (doUpdate cfg net ivIndex ivUpdate).ivuPending = net.ivuPending := by
  unfold doUpdate
  cases ivUpdate <;> cases cfg.settings <;> rfl

theorem IvMove.step (due : net.Due cfg)
    (waits : net.ivuPending = true → active = true)
    (move : IvMove cfg net active after) : IvStep cfg active net after := by
  cases move with
  | stay => exact .refl due
  | defer inProgress aged put =>
    exact ⟨⟨due.bound, fun _ => ⟨inProgress, aged⟩⟩, .inl rfl, fun _ => .inr put⟩
  | leave inProgress idle =>
    have clear : net.ivuPending = false := by
      by_contra pending
      rw [waits (eq_true_of_ne_false pending)] at idle
      cases idle
    refine ⟨⟨by simpa using due.bound, ?_⟩, .inr idle, ?_⟩
    all_goals
      rw [doUpdate_ivuPending, clear]
      intro pending
      cases pending
  | enter normal bound =>
    have clear : net.ivuPending = false := by
      by_contra pending
      have inProgress := (due.due (eq_true_of_ne_false pending)).1
      rw [normal] at inProgress
      cases inProgress
    refine ⟨⟨by simpa using bound, ?_⟩, .inl ?_, ?_⟩
    · rw [doUpdate_ivuPending, clear]
      intro pending
      cases pending
    · simp only [netIviTx, ivBefore, doUpdate_ivIndex, doUpdate_ivuInProgress,
        if_true, normal, toNat_true, toNat_false]
      omega
    · rw [doUpdate_ivuPending, clear]
      intro pending
      cases pending

structure SameIv (before after : Net) : Prop where
  ivIndex : after.ivIndex = before.ivIndex
  inProgress : after.ivuInProgress = before.ivuInProgress
  pending : after.ivuPending = before.ivuPending
  duration : after.ivuDuration = before.ivuDuration
  test : after.ivuTest = before.ivuTest

theorem SameIv.refl (net : Net) : SameIv net net := ⟨rfl, rfl, rfl, rfl, rfl⟩

theorem SameIv.trans {first second third : Net} (one : SameIv first second)
    (two : SameIv second third) : SameIv first third :=
  ⟨two.ivIndex.trans one.ivIndex, two.inProgress.trans one.inProgress,
    two.pending.trans one.pending, two.duration.trans one.duration,
    two.test.trans one.test⟩

theorem SameIv.due (same : SameIv net after) (due : net.Due cfg) :
    after.Due cfg := by
  refine ⟨by rw [same.ivIndex]; exact due.bound, ?_⟩
  rw [same.pending, same.inProgress, Aged, same.duration, same.test]
  exact due.due

theorem SameIv.step (same : SameIv net after) (due : net.Due cfg) :
    IvStep cfg active net after where
  due := same.due due
  tx := .inl (by rw [netIviTx, same.ivIndex, same.inProgress, netIviTx])
  pending pending := .inl (by rw [← same.pending]; exact pending)

theorem nextSeq_step (due : net.Due cfg) (primary : Bool) :
    IvStep cfg active net (nextSeq cfg net primary active).2 ∧
      (net.ivuInProgress = true →
        SameIv net (nextSeq cfg net primary active).2) := by
  obtain ⟨seq, seqPending, move, quiet⟩ := @nextSeq_move cfg net due.bound
    primary active
  have same : SameIv net { net with seq := seq, seqPending := seqPending } :=
    ⟨rfl, rfl, rfl, rfl, rfl⟩
  cases inProgress : net.ivuInProgress with
  | true =>
    have quiet := quiet inProgress
    rw [quiet]
    exact ⟨same.step due, fun _ => same⟩
  | false =>
    refine ⟨(same.step due).trans (move.step (same.due due) ?_),
      fun no => by cases no⟩
    intro pending
    have inProgress' := (due.due pending).1
    rw [inProgress] at inProgress'
    cases inProgress'

theorem takeSeqs_step (primary : Bool) (copies : Nat) :
    ∀ {net : Net}, net.Due cfg →
      IvStep cfg active net (takeSeqs cfg primary active copies net) ∧
        (net.ivuInProgress = true →
          SameIv net (takeSeqs cfg primary active copies net)) := by
  induction copies with
  | zero => exact fun due => ⟨.refl due, fun _ => .refl _⟩
  | succ copies ih =>
    intro net due
    obtain ⟨first, firstSame⟩ := @nextSeq_step cfg net active due primary
    obtain ⟨rest, restSame⟩ := ih first.due
    refine ⟨first.trans rest, fun inProgress => ?_⟩
    have same := firstSame inProgress
    exact same.trans (restSame (same.inProgress.trans inProgress))

theorem ivuProceed_due (due : net.Due cfg) (pending : net.ivuPending = true)
    (active : Bool) :
    ivuProceed cfg net active = if active then net
      else doUpdate cfg { net with ivuPending := false } net.ivIndex false := by
  obtain ⟨inProgress, aged⟩ := due.due pending
  have cleared : Aged cfg { net with ivuPending := false } := aged
  unfold ivuProceed netIvUpdate
  rw [if_pos pending, if_pos inProgress, if_neg (fun different => different rfl),
    if_neg Bool.false_ne_true, ivUpdateGuarded_leave cleared]
  cases active with
  | true =>
    have back : { net with ivuPending := true } = net := by
      rw [← pending]
    simpa using back
  | false => rfl

theorem ivuProceed_step (due : net.Due cfg) :
    IvStep cfg active net (ivuProceed cfg net active) := by
  cases pending : net.ivuPending with
  | false =>
    have same : ivuProceed cfg net active = net := by
      rw [ivuProceed, if_neg (by rw [pending]; exact false_ne_true)]
    rw [same]
    exact .refl due
  | true =>
    rw [ivuProceed_due due pending]
    cases active with
    | true => exact .refl due
    | false =>
      refine ⟨⟨by simpa using due.bound, ?_⟩, .inr rfl, ?_⟩
      all_goals
        rw [if_neg Bool.false_ne_true, doUpdate_ivuPending]
        intro again
        cases again

theorem netEvt_step (due : net.Due cfg) (seqUse : SeqUse) (evt : SegTxEvt) :
    IvStep cfg active net (netEvt cfg seqUse active net evt) ∧
      (isReset evt = false → net.ivuInProgress = true →
        SameIv net (netEvt cfg seqUse active net evt)) := by
  cases evt with
  | netSend =>
    obtain ⟨step, same⟩ := @nextSeq_step cfg net active due seqUse.primary
    exact ⟨step, fun _ => same⟩
  | nextSeq =>
    obtain ⟨step, same⟩ := @nextSeq_step cfg net active due seqUse.primary
    exact ⟨step, fun _ => same⟩
  | friendEnqueue segO =>
    obtain ⟨step, same⟩ := @takeSeqs_step cfg active seqUse.primary
      (seqUse.enqueued segO) net due
    exact ⟨step, fun _ => same⟩
  | reset => exact ⟨ivuProceed_step due, fun no => by cases no⟩
  | start => exact ⟨.refl due, fun _ _ => .refl net⟩
  | stop => exact ⟨.refl due, fun _ _ => .refl net⟩
  | lpnPoll => exact ⟨.refl due, fun _ _ => .refl net⟩

theorem netEvts_step (seqUse : SeqUse) (evts : List SegTxEvt) :
    ∀ {net : Net}, net.Due cfg →
      IvStep cfg active net (evts.foldl (netEvt cfg seqUse active) net) := by
  induction evts with
  | nil => exact fun due => .refl due
  | cons evt rest ih =>
    intro net due
    have first := (@netEvt_step cfg net active due seqUse evt).1
    exact first.trans (ih first.due)

theorem netEvts_same (seqUse : SeqUse) (evts : List SegTxEvt) :
    ∀ {net : Net}, net.Due cfg → net.ivuInProgress = true →
      (∀ evt ∈ evts, isReset evt = false) →
      SameIv net (evts.foldl (netEvt cfg seqUse active) net) := by
  induction evts with
  | nil => exact fun _ _ _ => .refl _
  | cons evt rest ih =>
    intro net due inProgress silent
    have first := (@netEvt_step cfg net active due seqUse evt).2
      (silent evt mem_cons_self) inProgress
    exact first.trans (ih (first.due due) (first.inProgress.trans inProgress)
      fun other member => silent other (mem_cons_of_mem evt member))

theorem netEvts_quiet (seqUse : SeqUse) :
    ∀ {evts : List SegTxEvt}, (∀ evt ∈ evts, isQuiet evt = true) →
      evts.foldl (netEvt cfg seqUse active) net = net
  | [], _ => rfl
  | evt :: rest, quiet => by
      have here : netEvt cfg seqUse active net evt = net := by
        have quiet := quiet evt mem_cons_self
        cases evt with
        | start => rfl
        | stop => rfl
        | lpnPoll => rfl
        | netSend => cases quiet
        | nextSeq => cases quiet
        | friendEnqueue => cases quiet
        | reset => cases quiet
      rw [foldl_cons, here]
      exact netEvts_quiet seqUse fun other member =>
        quiet other (mem_cons_of_mem evt member)

theorem netEvts_switch (seqUse : SeqUse) {evts : List SegTxEvt}
    (due : net.Due cfg) (pending : net.ivuPending = true)
    (ends : EndsInReset evts) :
    let left := evts.foldl (netEvt cfg seqUse false) net
    left.ivuInProgress = false ∧ left.ivuPending = false ∧
      left.ivIndex = net.ivIndex := by
  obtain ⟨front, _, _, rfl, silent, quiet⟩ := ends
  have same := @netEvts_same cfg false seqUse front net due (due.due pending).1
    silent
  rw [foldl_append, foldl_cons, netEvts_quiet seqUse quiet]
  generalize front.foldl (netEvt cfg seqUse false) net = reached at same ⊢
  change (ivuProceed cfg reached false).ivuInProgress = false ∧
    (ivuProceed cfg reached false).ivuPending = false ∧
      (ivuProceed cfg reached false).ivIndex = net.ivIndex
  rw [ivuProceed_due (same.due due) (same.pending.trans pending),
    if_neg Bool.false_ne_true]
  exact ⟨doUpdate_ivuInProgress .., doUpdate_ivuPending ..,
    (doUpdate_ivIndex ..).trans same.ivIndex⟩

structure IvTransfer.Ok (cfg : Config) (state : IvTransfer) : Prop where
  kept : state.IvKept
  due : state.net.Due cfg
  tidy : TidyTxs state.segTx.txs

theorem txInProgress_iff {txs : List SegTx} :
    txInProgress txs = true ↔ ∃ tx ∈ txs, tx.nackCount ≠ 0 := by
  simp [txInProgress]

theorem txInProgress_of_stays {before after : List SegTx}
    (stays : List.Forall₂ StaysActive before after)
    (active : txInProgress before = true) : txInProgress after = true := by
  obtain ⟨_, member, busy⟩ := txInProgress_iff.mp active
  obtain ⟨old, among, step⟩ := forall₂_mem stays.flip member
  exact txInProgress_iff.mpr ⟨old, among, step busy⟩

variable {state : IvTransfer}

theorem IvTransfer.Ok.node (ok : state.Ok cfg)
    (step : IvStep cfg (txInProgress state.segTx.txs) state.net after) :
    ({ state with net := after } : IvTransfer).Ok cfg where
  kept := by
    constructor
    · intro tx member busy
      rcases step.tx with same | idle
      · exact (ok.kept.iv tx member busy).trans same.symm
      · rw [txInProgress_iff.mpr ⟨tx, member, busy⟩] at idle
        cases idle
    · intro pending
      refine ⟨(step.due.due pending).1, ?_⟩
      rcases step.pending pending with was | put
      · exact (ok.kept.pending was).2
      · exact put
  due := step.due
  tidy := ok.tidy

theorem IvTransfer.Ok.settle (ok : state.Ok cfg) {fresh : Option Nat}
    (named : ∀ seqAuth, fresh = some seqAuth → seqAuth >>> 24 = netIviTx state.net)
    (seqUse : SeqUse) {result : SegTxs × List SegTxEvt}
    (turn : Turn fresh state.segTx.txs result.1.txs result.2)
    (tidy : TidyTxs result.1.txs) :
    (Mesh.settle cfg seqUse state.net result).Ok cfg ∧
      Switches state (Mesh.settle cfg seqUse state.net result) := by
  obtain ⟨segTx, evts⟩ := result
  have step := @netEvts_step cfg (txInProgress segTx.txs) seqUse evts state.net
    ok.due
  have switches : state.net.ivuPending = true → txInProgress segTx.txs = false →
      let left := evts.foldl (netEvt cfg seqUse false) state.net
      left.ivuInProgress = false ∧ left.ivuPending = false ∧
        left.ivIndex = state.net.ivIndex := by
    intro pending idle
    rcases turn.told with stays | ends
    · have busy := txInProgress_of_stays stays (ok.kept.pending pending).2
      rw [show txInProgress segTx.txs = false from idle] at busy
      cases busy
    · exact netEvts_switch seqUse ok.due pending ends
  refine ⟨⟨⟨?_, ?_⟩, step.due, tidy⟩, ?_⟩
  · intro tx member busy
    have active : txInProgress segTx.txs = true :=
      txInProgress_iff.mpr ⟨tx, member, busy⟩
    have same : netIviTx (evts.foldl
        (netEvt cfg seqUse (txInProgress segTx.txs)) state.net) =
        netIviTx state.net := by
      rcases step.tx with same | idle
      · exact same
      · rw [active] at idle
        cases idle
    refine Eq.trans ?_ same.symm
    obtain ⟨old, among, carried⟩ := forall₂_mem turn.carried member
    rcases carried busy with ⟨was, alike⟩ | new
    · rw [alike]
      exact ok.kept.iv old among was
    · exact named _ new
  · intro pending
    refine ⟨(step.due.due pending).1, ?_⟩
    by_contra idle
    have idle : txInProgress segTx.txs = false := eq_false_of_ne_true idle
    have pending : (evts.foldl (netEvt cfg seqUse (txInProgress segTx.txs))
      state.net).ivuPending = true := pending
    rcases step.pending pending with was | put
    · rw [idle, (switches was idle).2.1] at pending
      cases pending
    · rw [idle] at put
      cases put
  · intro pending idle
    have idle : txInProgress segTx.txs = false := idle
    have left := switches pending idle
    unfold Mesh.settle
    rw [idle]
    exact left

theorem segTxReset_tidy {segTx : SegTxs} (tidy : TidyTxs segTx.txs)
    (slot : Nat) : TidyTxs (segTxReset segTx slot).1.txs :=
  (segTxReset_spec segTx slot).2 (tidy.but slot)

def SwitchDue (start : Net) (net : Net) : Prop :=
  start.ivuPending = true → net.ivIndex = start.ivIndex ∧ (net.ivuPending = true ∨
      net.ivuInProgress = false ∧ net.ivuPending = false)

theorem SwitchDue.reset {start : Net} (due : net.Due cfg)
    (switchDue : SwitchDue start net) (active : Bool) :
    SwitchDue start (ivuProceed cfg net active) := by
  intro pending
  obtain ⟨same, waits | ⟨normal, clear⟩⟩ := switchDue pending
  · rw [ivuProceed_due due waits]
    cases active with
    | true => exact ⟨same, .inl waits⟩
    | false =>
      rw [if_neg Bool.false_ne_true]
      exact ⟨(doUpdate_ivIndex ..).trans same,
        .inr ⟨doUpdate_ivuInProgress .., doUpdate_ivuPending ..⟩⟩
  · rw [ivuProceed, if_neg (by rw [clear]; exact false_ne_true)]
    exact ⟨same, .inr ⟨normal, clear⟩⟩

theorem resetTransfers_ok (ok : state.Ok cfg) (seqUse : SeqUse) :
    (resetTransfers cfg seqUse state).Ok cfg ∧
      Switches state (resetTransfers cfg seqUse state) := by
  have reached : (resetTransfers cfg seqUse state).Ok cfg ∧
      SwitchDue state.net (resetTransfers cfg seqUse state).net := by
    apply foldlRecOn (motive := fun current : IvTransfer =>
        current.Ok cfg ∧ SwitchDue state.net current.net)
    · exact ⟨ok, fun pending => ⟨rfl, .inl pending⟩⟩
    · rintro current ⟨ok, switchDue⟩ slot _
      refine ⟨(ok.settle (fun _ none => by cases none) seqUse
        (@segTxReset_turn none current.segTx slot)
        (segTxReset_tidy ok.tidy slot)).1, ?_⟩
      unfold Mesh.settle
      cases found : current.segTx.txs[slot]? with
      | none =>
        have nothing : (segTxReset current.segTx slot).2 = [] := by
          rw [segTxReset, found]
        rw [nothing]
        exact switchDue
      | some =>
        have once : (segTxReset current.segTx slot).2 = [.reset slot] := by
          rw [segTxReset, found]
        rw [once]
        exact switchDue.reset ok.due _
  obtain ⟨after, switchDue⟩ := reached
  refine ⟨after, fun pending idle => ?_⟩
  obtain ⟨same, waits | ⟨normal, clear⟩⟩ := switchDue pending
  · have busy := (after.kept.pending waits).2
    rw [idle] at busy
    cases busy
  · exact ⟨normal, clear, same⟩

theorem seqAuthOf_iv {ivIndex seq : Nat} (fits : seq < 2 ^ 24) :
    seqAuthOf ivIndex seq >>> 24 = ivIndex := by
  rw [seqAuthOf, Nat.shiftRight_or_distrib, Nat.shiftLeft_shiftRight,
    Nat.shiftRight_eq_div_pow, Nat.div_eq_of_lt fits, Nat.or_zero]

theorem netIvUpdate_step (ok : state.Ok cfg) {ivIndex : Nat}
    (bound : ivIndex < 2 ^ 32) (regular : ¬ recovers state.net ivIndex)
    (ivUpdate : Bool) : IvStep cfg (txInProgress state.segTx.txs) state.net
      (netIvUpdate cfg state.net ivIndex ivUpdate
        (txInProgress state.segTx.txs)).2 :=
  (netIvUpdate_move ok.due.bound bound regular ivUpdate _).step ok.due
    fun pending => (ok.kept.pending pending).2

theorem storeIv_duration (net : Net) :
    storeIv true net = { net with ivPending := true } := by
  rw [storeIv, Bool.not_true, Bool.or_false]

theorem ivuRefresh_move (current : net.ivIndex < 2 ^ 32) (active : Bool) :
    ∃ duration ivPending, (ivuMinHours ≤ net.ivuDuration → ivuMinHours ≤ duration) ∧
        IvMove cfg
          { net with ivuDuration := duration, ivPending := ivPending } active
          (ivuRefresh cfg net active) := by
  have older : ivuMinHours ≤ net.ivuDuration →
      ivuMinHours ≤ min 255 (net.ivuDuration + ivuHours cfg) := by
    intro old
    exact Nat.le_min.mpr ⟨by decide, Nat.le_add_right_of_le old⟩
  unfold ivuRefresh
  split
  · exact ⟨net.ivuDuration, net.ivPending, id, .stay⟩
  dsimp only
  split
  · split
    · rw [storeIv_duration]
      exact ⟨_, true, older, .stay⟩
    · exact ⟨_, net.ivPending, older, .stay⟩
  · split
    · have move := @netIvUpdate_move cfg
        { net with ivuDuration := min 255 (net.ivuDuration + ivuHours cfg) }
        current net.ivIndex current (not_recovers_self _) false active
      exact ⟨_, net.ivPending, older, move⟩
    · split
      · rw [storeIv_duration]
        exact ⟨_, true, older, .stay⟩
      · exact ⟨_, net.ivPending, older, .stay⟩

theorem ivuRefresh_step (ok : state.Ok cfg) :
    IvStep cfg (txInProgress state.segTx.txs) state.net
      (ivuRefresh cfg state.net (txInProgress state.segTx.txs)) := by
  obtain ⟨duration, ivPending, older, move⟩ := @ivuRefresh_move cfg state.net
    ok.due.bound (txInProgress state.segTx.txs)
  have aged : ({ state.net with
      ivuDuration := duration, ivPending := ivPending } : Net).Due cfg := by
    refine ⟨ok.due.bound, fun pending => ?_⟩
    obtain ⟨inProgress, aged⟩ := ok.due.due pending
    refine ⟨inProgress, ?_⟩
    unfold Aged at aged ⊢
    rw [and_eq_false_iff] at aged ⊢
    refine aged.imp_right fun old => ?_
    simp only [decide_eq_false_iff_not, Nat.not_lt] at old ⊢
    exact older old
  have step := move.step aged fun pending => (ok.kept.pending pending).2
  exact ⟨step.due, step.tx, step.pending⟩

theorem segTxStep_turn (tidy : TidyTxs state.segTx.txs)
    {input : SegTxInput} (single : input ≠ .reset) : ∃ fresh,
      (∀ seqAuth, fresh = some seqAuth →
        (∀ seqUse, KeepsIv cfg state (.segTx seqUse input)) →
          seqAuth >>> 24 = netIviTx state.net) ∧ Turn fresh state.segTx.txs
        (segTxStep cfg state.segTx (input.within state.net)).1.txs
        (segTxStep cfg state.segTx (input.within state.net)).2 := by
  cases input with
  | send env netTx sdu cb ctlOp =>
    refine ⟨_, ?_, sendSeg_turn cfg _ netTx sdu cb ctlOp state.segTx⟩
    rintro _ ⟨⟩ keeps
    exact seqAuthOf_iv (keeps ⟨false, fun _ => 0⟩).1
  | retransmit env slot =>
    exact ⟨none, fun _ none => (by cases none),
      segRetransmit_turn env state.segTx slot⟩
  | ack friendMatch iviRx addr buf =>
    exact ⟨none, fun _ none => (by cases none),
      transAck_turn tidy friendMatch iviRx addr buf⟩
  | segSendStart slot failed =>
    refine ⟨none, fun _ none => (by cases none), ?_⟩
    unfold SegTxInput.within segTxStep
    dsimp only
    cases found : state.segTx.txs[slot]? with
    | none => exact .refl _ []
    | some tx =>
      exact .of_same (forall₂_set .refl found (segSendStart_same failed tx)) _
  | segSent slot =>
    refine ⟨none, fun _ none => (by cases none), ?_⟩
    unfold SegTxInput.within segTxStep
    dsimp only
    cases found : state.segTx.txs[slot]? with
    | none => exact .refl _ []
    | some tx =>
      exact .of_same (forall₂_set .refl found (scheduleRetransmit_same tx)) _
  | reset => exact absurd rfl single

theorem ivTransferStep_ok (ok : state.Ok cfg) {input : IvTransferInput}
    (keeps : KeepsIv cfg state input) :
    Switches state (ivTransferStep cfg state input) ∧
      (ivTransferStep cfg state input).Ok cfg := by
  have alone {after : Net}
      (step : IvStep cfg (txInProgress state.segTx.txs) state.net after) :
      Switches state { state with net := after } ∧
        ({ state with net := after } : IvTransfer).Ok cfg := by
    refine ⟨fun pending idle => ?_, ok.node step⟩
    have busy := (ok.kept.pending pending).2
    rw [show txInProgress state.segTx.txs = false from idle] at busy
    cases busy
  cases input with
  | segTx seqUse input =>
    by_cases all : input = .reset
    · subst all
      exact (resetTransfers_ok ok seqUse).symm
    have fits : (input.within state.net).Fits cfg := by
      cases input with
      | send => exact keeps.2
      | _ => trivial
    have tidy := (segTxStep_exact ok.tidy (input.within state.net) fits).tidy
    obtain ⟨_, named, turn⟩ := segTxStep_turn ok.tidy all
    have keeps : ∀ seqUse, KeepsIv cfg state (.segTx seqUse input) := by
      intro other
      cases input <;> exact keeps
    have settled := ok.settle (fun seqAuth new => named seqAuth new keeps)
      seqUse turn tidy
    have step : ivTransferStep cfg state (.segTx seqUse input) =
        settle cfg seqUse state.net
          (segTxStep cfg state.segTx (input.within state.net)) := by
      cases input with
      | reset => exact absurd rfl all
      | _ => rfl
    rw [step]
    exact settled.symm
  | nextSeq primary => exact alone (nextSeq_step ok.due primary).1
  | ivUpdate ivIndex ivUpdate =>
    exact alone (netIvUpdate_step ok ivIndex.toNat_lt keeps ivUpdate)
  | ivuRefresh => exact alone (ivuRefresh_step ok)

theorem boot_ok (cfg : Config) {net : Net} (bound : net.ivIndex < 2 ^ 32)
    (clear : net.ivuPending = false) (msgCount segBufs : Nat) :
    (IvTransfer.mk net (.boot cfg msgCount segBufs)).Ok cfg where
  kept := by
    refine ⟨fun tx member busy => ?_, fun pending => ?_⟩
    · rw [eq_of_mem_replicate member] at busy
      exact absurd rfl busy
    · rw [clear] at pending
      cases pending
  due := by
    refine ⟨bound, fun pending => ?_⟩
    rw [clear] at pending
    cases pending
  tidy := .boot cfg msgCount segBufs

/-- Transfers keep their IV index, and a switch that was put off for them happens
with the end of the last one, in every run in which they are named by sequence
numbers of 24 bits and have a place for each segment. -/
theorem segTx_keepsIv (cfg : Config) (net : Net) (msgCount segBufs : Nat)
    (inputs : List IvTransferInput) (bound : net.ivIndex < 2 ^ 32)
    (clear : net.ivuPending = false)
    (along : (ivTransferMachine cfg).Along (KeepsIv cfg)
      ⟨net, .boot cfg msgCount segBufs⟩ inputs) :
    (ivTransferMachine cfg).Always IvTransfer.IvKept
        ⟨net, .boot cfg msgCount segBufs⟩ inputs ∧ (ivTransferMachine cfg).Along
        (fun state input =>
          Switches state ((ivTransferMachine cfg).next state input))
        ⟨net, .boot cfg msgCount segBufs⟩ inputs := by
  have start := boot_ok cfg bound clear msgCount segBufs
  constructor
  · exact (@Machine.always_of_along _ _ _ (ivTransferMachine cfg) (KeepsIv cfg)
      (IvTransfer.Ok cfg) (fun _ _ ok keeps => (ivTransferStep_ok ok keeps).2) _ _
      start along).mono fun _ ok => ok.kept
  · exact @Machine.along_of_along _ _ _ (ivTransferMachine cfg) (KeepsIv cfg)
      (fun state input =>
        Switches state ((ivTransferMachine cfg).next state input))
      (IvTransfer.Ok cfg) (fun _ _ ok keeps => ivTransferStep_ok ok keeps) _ _
      start along

def noUse : SeqUse where
  primary := true
  enqueued _ := 0

def updatingNet : Net where
  ivIndex := 5
  seq := 7
  valid := true
  ivuInProgress := true
  ivuTest := false
  ivuPending := false
  ivuDuration := 96
  ivPending := false
  seqPending := false
  rpl := .boot 1

def putOff : List IvTransferInput :=
  [.segTx noUse (sampleSend 7), .ivUpdate 5 false, .segTx noUse .reset]

theorem segTx_keepsIv_putOff :
    (ivTransferMachine sampleConfig).Always IvTransfer.IvKept
        ⟨updatingNet, .boot sampleConfig 2 64⟩ putOff ∧
      (ivTransferMachine sampleConfig).Along (fun state input =>
          Switches state ((ivTransferMachine sampleConfig).next state input))
        ⟨updatingNet, .boot sampleConfig 2 64⟩ putOff :=
  segTx_keepsIv sampleConfig updatingNet 2 64 putOff (by decide) rfl
    ⟨⟨show 7 < 2 ^ 24 by decide, by decide⟩,
      fun recovery => Bool.noConfusion recovery.1, trivial, trivial⟩

/-! A node that runs out of sequence numbers before an IV update is allowed. -/

def lastSeqNet : Net :=
  { updatingNet with
    ivIndex := 4
    seq := 0xffffff
    ivuInProgress := false
    ivuDuration := 0 }

def seqOverflow : List IvTransferInput :=
  [.nextSeq true, .segTx noUse (sampleSend 0)]

theorem seqOverflow_keepsIv :
    ¬ (ivTransferMachine sampleConfig).Always IvTransfer.IvKept
      ⟨lastSeqNet, .boot sampleConfig 2 64⟩ seqOverflow := by
  intro always
  have kept := always.last.iv
  exact absurd kept (by decide)

end ZephyrBluetooth.Mesh
