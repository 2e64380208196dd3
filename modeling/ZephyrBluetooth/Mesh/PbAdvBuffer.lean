import ZephyrBluetooth.Mesh.PbAdvAck

namespace ZephyrBluetooth.Mesh

open BitVec Bool Data List

variable {before link : Link} {bytes payload : List Byte} {rx : LinkRx}
  {xactId gpc : Byte}

def LinkEvt.InBounds : LinkEvt → Prop
  | .write offset bytes => ∀ place < bytes.length,
      0 ≤ offset + (place : Int) ∧ offset + (place : Int) < (rxBufferMax : Int)
  | .check count => count ≤ rxBufferMax
  | .recv _ _ msg => msg.length ≤ rxBufferMax
  | _ => True

instance : ∀ evt : LinkEvt, Decidable evt.InBounds
  | .write offset bytes => inferInstanceAs (Decidable (∀ place < bytes.length,
      0 ≤ offset + (place : Int) ∧ offset + (place : Int) < (rxBufferMax : Int)))
  | .check count => inferInstanceAs (Decidable (count ≤ rxBufferMax))
  | .recv _ _ msg => inferInstanceAs (Decidable (msg.length ≤ rxBufferMax))
  | .ack _ | .unexpected _ _ _ | .error _ | .linkOpened | .linkClosed | .advSend _
  | .txComplete => .isTrue trivial

/-- A continuation with data has the index of the start while the start is
still missing, which `XACT_SEG_DATA` places in front of the buffer. -/
def contOutside (xactId gpc : Byte) (payload : List Byte) (rx : LinkRx) : Prop :=
  gpc.toNat / 4 = 0 ∧ payload ≠ [] ∧ payload.length ≤ rxBufferMax + 3 ∧
    (rx.seg = 0 ∧ nextTransactionId rx.id = xactId ∨
      rx.id = xactId ∧ rx.seg.getLsbD 0 = true)

/-- A start announces more than the buffer holds and takes over from a
transaction that still lacks continuations. -/
def startStale (xactId : Byte) (len : Nat) (rx : LinkRx) : Prop :=
  rxBufferMax < len ∧ xactId = nextTransactionId rx.id ∧ rx.seg ≠ 0 ∧
    rx.seg.getLsbD 0 = false

def startOutside (gpc : Byte) (len : Nat) (payload : List Byte) (rx : LinkRx) :
    Prop :=
  rxBufferMax < payload.length ∧ startHeaderValid gpc len = true ∧
    startMisfit (gpc.toNat / 4) rx.seg = false

def recvBufAdmitted (xactId gpc : Byte) (payload : List Byte) (rx : LinkRx) :
    Prop :=
  match gpc.toNat % 4, payload with
  | 0, lenHigh :: lenLow :: _ :: rest =>
    ¬ startStale xactId (lenHigh.toNat * 2 ^ 8 + lenLow.toNat) rx ∧
      (startAccepted xactId rx = true →
        ¬ startOutside gpc (lenHigh.toNat * 2 ^ 8 + lenLow.toNat) rest rx)
  | 2, payload => ¬ contOutside xactId gpc payload rx
  | _, _ => True

def bufAdmitted (link : Link) : LinkInput → Prop
  | .pdu _ (b0 :: b1 :: b2 :: b3 :: xactId :: gpc :: payload) =>
    link.cb = true → link.flags.active = true → link.id = b0 ++ b1 ++ b2 ++ b3 →
        recvBufAdmitted xactId gpc payload link.rx
  | _ => True

def AccessInBounds (uuid : List Byte) (link : Link) (input : LinkInput) : Prop :=
  ∀ evt ∈ (linkStep uuid link input).2, evt.InBounds

/-- What is still missing of a transaction has a size that fits, or it needs the
start first: a continuation with index 3 or more does not fit behind the others,
so its bit is cleared by a start only. -/
structure RxBounded (rx : LinkRx) : Prop where
  len : rx.seg = 0 ∨ rx.len ≤ rxBufferMax ∨ rx.seg.getLsbD 3 = true
  lost : rx.seg.getLsbD 0 = true → rx.seg.getLsbD 3 = true

def LinkBounded (link : Link) : Prop := RxBounded link.rx

theorem RxBounded.of_seg_eq_zero (complete : rx.seg = 0) : RxBounded rx := by
  refine ⟨.inl complete, ?_⟩
  intro low
  rw [complete] at low
  cases low

theorem RxBounded.resized {before after : LinkRx} (bounded : RxBounded before)
    (seg : after.seg = before.seg)
    (len : after.len = before.len ∨ after.len ≤ rxBufferMax) :
    RxBounded after := by
  refine ⟨?_, seg ▸ bounded.lost⟩
  rcases len with same | small
  · rw [seg, same]
    exact bounded.len
  · exact .inr (.inl small)

theorem write_inBounds {offset : Int} (within : bytes = [] ∨ 0 ≤ offset ∧
      offset + bytes.length ≤ (rxBufferMax : Int)) :
    (LinkEvt.write offset bytes).InBounds := by
  intro place inside
  rcases within with rfl | ⟨_, _⟩
  · cases inside
  · omega

theorem getLsbD_xactSegRecv_ne {seg index : Nat} (pending : Byte)
    (different : index ≠ seg) (inside : index < 8) :
    (xactSegRecv seg pending).getLsbD index = pending.getLsbD index := by
  simp only [xactSegRecv, getLsbD_and, getLsbD_not, inside,
    decide_true, Bool.true_and, getLsbD_shiftLeft]
  simp
  omega

theorem storeCont_bounded {seg : Nat} (bounded : RxBounded rx)
    (pending : rx.seg.getLsbD seg = true)
    (fits : xactSegOffset seg + payload.length ≤ (rxBufferMax : Int)) :
    RxBounded (rx.storeCont seg payload) ∧
      ((rx.storeCont seg payload).seg = 0 → rx.len ≤ rxBufferMax) := by
  have low : seg ≠ 3 := by
    rintro rfl
    rw [xactSegOffset, rxBufferMax] at fits
    omega
  have third := getLsbD_xactSegRecv_ne rx.seg (Ne.symm low) (by decide : 3 < 8)
  have started : rx.len ≤ rxBufferMax ∨ rx.seg.getLsbD 3 = true := by
    rcases bounded.len with complete | rest
    · rw [complete] at pending
      simp at pending
    · exact rest
  refine ⟨⟨.inr ?_, ?_⟩, ?_⟩
  · rcases started with small | high
    · exact .inl small
    · exact .inr (third.trans high)
  · intro first
    refine third.trans (bounded.lost ?_)
    simp only [LinkRx.storeCont, xactSegRecv, getLsbD_and,
      and_eq_true] at first
    exact first.1
  · intro complete
    rcases started with small | high
    · exact small
    rw [LinkRx.storeCont] at complete
    simp only at complete
    rw [complete, high] at third
    cases third

structure Bounded (out : Link × List LinkEvt) : Prop where
  inside : ∀ evt ∈ out.2, evt.InBounds
  after : RxBounded out.1.rx

variable {evts : List LinkEvt} {after : Link}

theorem Silent.bounded (silent : Silent evts)
    (bounded : RxBounded after.rx) : Bounded (after, evts) := by
  refine ⟨?_, bounded⟩
  intro evt member
  have quiet := silent evt member
  cases evt with
  | write _ _ | check _ | recv _ _ _ => cases quiet
  | _ => trivial

theorem Bounded.none (bounded : RxBounded link.rx) : Bounded (link, []) :=
  Silent.nil.bounded bounded

theorem Bounded.cons {evt : LinkEvt} (inside : evt.InBounds)
    (rest : Bounded (after, evts)) : Bounded (after, evt :: evts) :=
  ⟨forall_mem_cons.mpr ⟨inside, rest.inside⟩, rest.after⟩

theorem Bounded.acked (xactId : Byte)
    (sent : List (List Byte)) (rest : Bounded (after, evts)) :
    Bounded (after, .ack xactId :: (sent.map .advSend ++ evts)) := by
  have sends := ((Silent.advSend sent).bounded rest.after).inside
  exact .cons trivial ⟨forall_mem_append.mpr ⟨sends, rest.inside⟩, rest.after⟩

theorem genProvAckSend_bounded (alloc : Bool) (xactId : Byte)
    (bounded : RxBounded link.rx) : Bounded (genProvAckSend alloc xactId link) := by
  obtain ⟨sent, evts, _, rx⟩ := genProvAckSend_spec alloc xactId link
  have acked : Bounded ((genProvAckSend alloc xactId link).1,
      .ack xactId :: (sent.map .advSend ++ [])) :=
    .acked xactId sent (.none (rx ▸ bounded))
  rwa [append_nil, ← evts] at acked

theorem LinkRx.length_msg (rx : LinkRx) : rx.msg.length = rx.len := by
  simp [LinkRx.msg]

theorem provMsgRecv_bounded (alloc : Bool) (bounded : RxBounded link.rx)
    (fits : link.rx.len ≤ rxBufferMax) : Bounded (provMsgRecv alloc link) := by
  obtain ⟨sent, evts, _, rx⟩ := genProvAckSend_spec alloc link.rx.id link
  have acked : RxBounded (genProvAckSend alloc link.rx.id link).1.rx := by
    rw [rx]
    exact bounded
  unfold provMsgRecv
  split
  · exact .cons fits (.none bounded)
  simp only [evts, rx]
  split
  · refine .cons fits (.acked _ sent (.cons trivial ?_))
    exact .cons trivial (Silent.nil.bounded acked)
  · refine .cons fits (.acked _ sent (.cons ?_ (.none acked)))
    exact Nat.le_trans (Nat.le_of_eq (LinkRx.length_msg _)) fits

theorem recvComplete_bounded (alloc : Bool) (bounded : RxBounded link.rx)
    (fits : link.rx.seg = 0 → link.rx.len ≤ rxBufferMax) :
    Bounded (recvComplete alloc link) := by
  unfold recvComplete
  split
  · rename_i complete
    exact provMsgRecv_bounded alloc bounded (fits complete)
  · exact .none bounded

theorem provFailed_bounded (err : ProvErr) (bounded : RxBounded link.rx) :
    Bounded (provFailed err link) :=
  .cons trivial (.none bounded)

theorem contSegment_bounded (alloc : Bool) {seg : Nat} (bounded : RxBounded link.rx)
    (admitted : ¬ (seg = 0 ∧ payload ≠ [] ∧ payload.length ≤ rxBufferMax + 3 ∧
      link.rx.seg.getLsbD 0 = true)) :
    Bounded (contSegment alloc seg payload link) := by
  unfold contSegment
  split
  · exact provFailed_bounded _ bounded
  split
  · exact .none bounded
  rename_i pending
  split
  · exact .none bounded
  rename_i fits
  have isPending : link.rx.seg.getLsbD seg = true := by simpa using pending
  obtain ⟨stored, small⟩ := storeCont_bounded bounded isPending (Int.not_lt.mp fits)
  have inside : (LinkEvt.write (xactSegOffset seg) payload).InBounds := by
    apply write_inBounds
    rw [xactSegOffset, rxBufferMax] at *
    cases seg with
    | zero =>
      left
      refine Decidable.byContradiction fun some => admitted ⟨rfl, some, ?_, isPending⟩
      omega
    | succ =>
      right
      omega
  refine .cons inside ?_
  dsimp only
  split
  · exact provFailed_bounded _ stored
  · exact recvComplete_bounded alloc stored small

theorem resend_bounded (alloc : Bool) (xactId : Byte) (bounded : RxBounded link.rx) :
    Bounded (if !link.flags.ackPending then genProvAckSend alloc xactId link
        else (link, [])) := by
  split
  · exact genProvAckSend_bounded alloc xactId bounded
  · exact .none bounded

theorem genProvCont_bounded (alloc : Bool) (bounded : RxBounded link.rx)
    (admitted : ¬ contOutside xactId gpc payload link.rx) :
    Bounded (genProvCont alloc xactId gpc payload link) := by
  unfold genProvCont
  split
  · exact resend_bounded alloc xactId bounded
  split
  · rename_i lost
    have fresh : RxBounded (link.rx.startLost xactId) :=
      ⟨.inr (.inl (Nat.zero_le _)), fun _ =>
        (by decide : segNval.getLsbD 3 = true)⟩
    refine contSegment_bounded alloc fresh ?_
    rintro ⟨first, some, short, _⟩
    exact admitted ⟨first, some, short, .inl lost⟩
  · split
    · exact .none bounded
    rename_i known
    refine contSegment_bounded alloc bounded ?_
    rintro ⟨first, some, short, pending⟩
    exact admitted ⟨first, some, short, .inr ⟨(not_not.mp known).symm, pending⟩⟩

theorem started_bounded {fcs : Byte} {len : Nat} (small : len ≤ rxBufferMax) :
    RxBounded (rx.started xactId gpc fcs len payload) := by
  refine ⟨.inr (.inl small), ?_⟩
  intro first
  simp [LinkRx.started, LinkRx.storeStart, xactSegRecv] at first

theorem startSegment_bounded (alloc : Bool) {fcs : Byte} {len : Nat}
    (bounded : RxBounded link.rx)
    (announced : len ≤ rxBufferMax ∨ link.rx.seg = 0 ∨ link.rx.seg.getLsbD 0 = true)
    (admitted : ¬ startOutside gpc len payload link.rx) :
    Bounded (startSegment alloc xactId gpc len fcs payload link) := by
  have headed : RxBounded (link.rx.head xactId fcs len) := by
    refine ⟨?_, bounded.lost⟩
    rcases announced with small | complete | lost
    · exact .inr (.inl small)
    · exact .inl complete
    · exact .inr (.inr (bounded.lost lost))
  unfold startSegment
  cases valid : startHeaderValid gpc len with
  | false => exact provFailed_bounded _ headed
  | true =>
    have small : len ≤ rxBufferMax := by
      simp only [startHeaderValid, and_eq_true, decide_eq_true_eq] at valid
      exact valid.1.1.2
    cases misfit : startMisfit (gpc.toNat / 4) link.rx.seg with
    | true =>
      simp only [provClearTx, LinkRx.head, misfit, Bool.not_true,
        false_eq_true, if_false, if_true]
      exact provFailed_bounded _ (bounded.resized rfl (.inr small))
    | false =>
      simp only [provClearTx, LinkRx.head, misfit, Bool.not_true,
        false_eq_true, if_false]
      have stored : RxBounded (link.rx.started xactId gpc fcs len payload) :=
        started_bounded small
      refine .cons (write_inBounds (.inr ?_))
        (recvComplete_bounded alloc stored fun _ => small)
      refine ⟨Int.le_refl 0, ?_⟩
      have within : ¬ rxBufferMax < payload.length :=
        fun large => admitted ⟨large, valid, misfit⟩
      omega

theorem genProvStart_bounded (alloc : Bool) {lenHigh lenLow fcs : Byte}
    {rest : List Byte} (bounded : RxBounded link.rx)
    (fresh : ¬ startStale xactId (lenHigh.toNat * 2 ^ 8 + lenLow.toNat) link.rx)
    (admitted : startAccepted xactId link.rx = true →
      ¬ startOutside gpc (lenHigh.toNat * 2 ^ 8 + lenLow.toNat) rest link.rx) :
    Bounded (genProvStart alloc xactId gpc (lenHigh :: lenLow :: fcs :: rest)
      link) := by
  simp only [genProvStart]
  by_cases same : xactId = link.rx.id
  · have accepts : startAccepted xactId link.rx = link.rx.seg.getLsbD 0 :=
      if_pos same
    rw [accepts] at admitted
    rw [if_pos same]
    by_cases complete : link.rx.seg = 0
    · rw [if_pos complete]
      exact resend_bounded alloc xactId bounded
    rw [if_neg complete]
    cases low : link.rx.seg.getLsbD 0 with
    | false => exact .none bounded
    | true =>
      exact startSegment_bounded alloc bounded (.inr (.inr low)) (admitted low)
  · have accepts : startAccepted xactId link.rx =
        decide (xactId = nextTransactionId link.rx.id) := if_neg same
    rw [accepts] at admitted
    rw [if_neg same]
    by_cases next : xactId = nextTransactionId link.rx.id
    · rw [if_neg (not_not.mpr next)]
      refine startSegment_bounded alloc bounded ?_ (admitted (decide_eq_true next))
      by_cases small : lenHigh.toNat * 2 ^ 8 + lenLow.toNat ≤ rxBufferMax
      · exact .inl small
      by_cases complete : link.rx.seg = 0
      · exact .inr (.inl complete)
      cases low : link.rx.seg.getLsbD 0 with
      | true => exact .inr (.inr rfl)
      | false => exact absurd ⟨Nat.not_le.mp small, next, complete, low⟩ fresh
    · rw [if_pos next]
      exact .none bounded

/-- Without an access to the buffer the transaction stays as it is, but for its
length, or it has nothing missing. -/
structure RxKept (before : LinkRx) (out : Link × List LinkEvt) : Prop where
  seg : out.1.rx.seg = before.seg ∧
      (out.1.rx.len = before.len ∨ out.1.rx.len ≤ rxBufferMax) ∨ out.1.rx.seg = 0
  silent : Silent out.2

variable {before : LinkRx}

theorem RxKept.bounded {out : Link × List LinkEvt}
    (kept : RxKept before out) (bounded : RxBounded before) : Bounded out := by
  refine kept.silent.bounded ?_
  rcases kept.seg with ⟨seg, len⟩ | seg
  · exact bounded.resized seg len
  · exact .of_seg_eq_zero seg

theorem RxKept.same (silent : Silent evts) (link : Link) :
    RxKept link.rx (link, evts) :=
  ⟨.inl ⟨rfl, .inl rfl⟩, silent⟩

theorem resetAdvLink_kept (link : Link)
    (silent : Silent evts) (seg : link.rx.seg = before.seg) :
    RxKept before (resetAdvLink link, evts) := by
  refine ⟨?_, silent⟩
  unfold resetAdvLink
  dsimp only
  split
  · exact .inr rfl
  · exact .inl ⟨seg, .inr (Nat.zero_le _)⟩

theorem closeLink_kept (link : Link) : RxKept link.rx (closeLink link) :=
  resetAdvLink_kept link (by simp [Silent, LinkEvt.silent]) rfl

theorem bearerCtlSendUnacked_kept (alloc : Bool) (op : Byte) (payload : List Byte)
    (seg : link.rx.seg = before.seg ∧
      (link.rx.len = before.len ∨ link.rx.len ≤ rxBufferMax) ∨ link.rx.seg = 0) :
    RxKept before (bearerCtlSendUnacked alloc op payload link).2 := by
  obtain ⟨_, _, rx, silent⟩ := bearerCtlSendUnacked_spec alloc op payload link
  exact ⟨rx ▸ seg, silent⟩

theorem genProvAck_kept (xactId : Byte) (link : Link) :
    RxKept link.rx (genProvAck xactId link) := by
  unfold genProvAck
  split
  · exact .same .nil link
  split
  · refine ⟨?_, by simp [Silent, LinkEvt.silent]⟩
    dsimp only
    split <;> exact .inl ⟨rfl, .inl rfl⟩
  · exact .same .nil link

section

variable (alloc : Bool)
include alloc

section

variable (uuid : List Byte)
include uuid

theorem genProvCtl_kept
    (linkId : BitVec 32) (gpc : Byte) (payload : List Byte) (link : Link) :
    RxKept link.rx (genProvCtl alloc uuid linkId gpc payload link) := by
  unfold genProvCtl
  split
  · unfold linkOpenRx
    split
    · exact .same .nil link
    split
    · split
      · exact .same .nil link
      · exact bearerCtlSendUnacked_kept alloc _ _ (.inl ⟨rfl, .inl rfl⟩)
    · split
      · exact .same .nil link
      cases alloc with
      | true => exact ⟨.inl ⟨rfl, .inr (Nat.zero_le _)⟩,
          by simp [bearerCtlSendUnacked, Silent, LinkEvt.silent]⟩
      | false => exact resetAdvLink_kept _ .nil rfl
  · unfold linkAckRx
    split
    · split
      · split
        · exact .same .nil link
        · exact ⟨.inl ⟨rfl, .inl rfl⟩, by simp [Silent, LinkEvt.silent]⟩
      · exact .same .nil link
    · exact .same .nil link
  · unfold linkCloseRx
    split
    · split
      · exact .same .nil link
      · exact closeLink_kept link
    · exact .same .nil link
  · exact .same .nil link

theorem genProvRecv_inactive (linkId : BitVec 32)
    (xactId gpc : Byte) (payload : List Byte) (inactive : link.flags.active = false) :
    RxKept link.rx (genProvRecv alloc uuid linkId xactId gpc payload link) := by
  unfold genProvRecv
  rw [inactive]
  split
  · split <;> exact .same .nil link
  · exact .same .nil link
  · exact .same .nil link
  · exact genProvCtl_kept alloc uuid linkId gpc payload link

theorem genProvRecv_bounded (linkId : BitVec 32)
    (active : link.flags.active = true) (bounded : RxBounded link.rx)
    (admitted : recvBufAdmitted xactId gpc payload link.rx) :
    Bounded (genProvRecv alloc uuid linkId xactId gpc payload link) := by
  have kinds : gpc.toNat % 4 = 0 ∨ gpc.toNat % 4 = 1 ∨ gpc.toNat % 4 = 2 ∨
      gpc.toNat % 4 = 3 := by omega
  unfold genProvRecv
  unfold recvBufAdmitted at admitted
  rw [active]
  rcases kinds with kind | kind | kind | kind
  · rw [kind] at admitted ⊢
    rcases payload with _ | ⟨_, _ | ⟨_, _ | ⟨_, _⟩⟩⟩
    iterate 3 exact .none bounded
    exact genProvStart_bounded alloc bounded admitted.1 admitted.2
  · rw [kind]
    exact (genProvAck_kept xactId link).bounded bounded
  · rw [kind] at admitted ⊢
    exact genProvCont_bounded alloc bounded admitted
  · rw [kind]
    exact (genProvCtl_kept alloc uuid linkId gpc payload link).bounded bounded

theorem pbAdvRecv_bounded {pdu : List Byte}
    (bounded : RxBounded link.rx) (admitted : bufAdmitted link (.pdu alloc pdu)) :
    Bounded (pbAdvRecv alloc uuid pdu link) := by
  unfold pbAdvRecv
  cases listening : link.cb with
  | false => exact .none bounded
  | true =>
    rcases pdu with _ | ⟨b0, _ | ⟨b1, _ | ⟨b2, _ | ⟨b3, _ |
      ⟨xactId, _ | ⟨gpc, payload⟩⟩⟩⟩⟩⟩
    iterate 6 exact .none bounded
    simp only [Bool.not_true, Bool.false_eq_true, if_false]
    cases active : link.flags.active with
    | false =>
      exact (genProvRecv_inactive alloc uuid _ xactId gpc payload
        active).bounded bounded
    | true =>
      by_cases same : link.id = b0 ++ b1 ++ b2 ++ b3
      · rw [if_neg (fun other => other.2 same)]
        exact genProvRecv_bounded alloc uuid _ active bounded
          (admitted listening active same)
      · rw [if_pos ⟨rfl, same⟩]
        exact .none bounded

end

theorem provLinkClose_kept (status : Byte)
    (seg : link.rx.seg = before.seg ∧
      (link.rx.len = before.len ∨ link.rx.len ≤ rxBufferMax) ∨ link.rx.seg = 0) :
    RxKept before (provLinkClose alloc status link) := by
  unfold provLinkClose
  split
  · exact ⟨seg, .nil⟩
  · exact bearerCtlSendUnacked_kept alloc _ _ seg

end

theorem linkStep_bounded (uuid : List Byte) {input : LinkInput}
    (bounded : RxBounded link.rx) (admitted : bufAdmitted link input) :
    Bounded (linkStep uuid link input) := by
  cases input with
  | pdu alloc => exact pbAdvRecv_bounded alloc uuid bounded admitted
  | ackComplete => exact Silent.nil.bounded bounded
  | bufSent =>
    simp only [linkStep, bufSent]
    split
    · exact (closeLink_kept link).bounded bounded
    · exact .none bounded
  | protocolTimeout alloc =>
    simp only [linkStep, protocolTimeout]
    split
    · exact .none bounded
    · exact (provLinkClose_kept alloc _ (.inr rfl)).bounded bounded
  | retransmit alloc =>
    simp only [linkStep, provRetransmit]
    split
    · exact .none bounded
    split
    · exact (provLinkClose_kept alloc _ (.inl ⟨rfl, .inl rfl⟩)).bounded bounded
    · exact (Silent.advSend _).bounded bounded
  | linkOpen =>
    simp only [linkStep, provLinkOpen]
    split
    · exact .none bounded
    split
    · exact Silent.nil.bounded (bounded.resized rfl (.inr (Nat.zero_le _)))
    · exact (Silent.advSend [_]).bounded (bounded.resized rfl (.inr (Nat.zero_le _)))
  | linkAccept =>
    simp only [linkStep, provLinkAccept]
    split
    · exact .none bounded
    · exact Silent.nil.bounded (bounded.resized rfl (.inl rfl))
  | linkClose alloc =>
    exact (provLinkClose_kept alloc _ (.inl ⟨rfl, .inl rfl⟩)).bounded bounded
  | send =>
    simp only [linkStep, provSendAdv]
    split
    · exact Silent.nil.bounded bounded
    split
    · exact Silent.nil.bounded bounded
    split
    · exact Silent.nil.bounded bounded
    · exact (Silent.advSend _).bounded bounded
  | clearTx => exact Silent.nil.bounded bounded
  | reset => exact (resetAdvLink_kept link .nil rfl).bounded bounded

/-- Every step of the bearer, from boot on, stays inside its buffer. -/
theorem pbAdv_inBounds (uuid : List Byte) (inputs : List LinkInput)
    (along : (linkMachine uuid).Along bufAdmitted bootLink inputs) :
    (linkMachine uuid).Along (AccessInBounds uuid) bootLink inputs := by
  have start : LinkBounded bootLink := RxBounded.of_seg_eq_zero rfl
  refine Machine.along_of_along ?_ start along
  intro link input bounded admitted
  have step := linkStep_bounded uuid bounded admitted
  exact ⟨step.inside, step.after⟩

instance decidableAccessInBounds (uuid : List Byte) (link : Link)
    (input : LinkInput) : Decidable (AccessInBounds uuid link input) :=
  inferInstanceAs (Decidable (∀ evt ∈ (linkStep uuid link input).2, evt.InBounds))

instance (xactId gpc : Byte) (payload : List Byte) (rx : LinkRx) :
    Decidable (contOutside xactId gpc payload rx) :=
  inferInstanceAs (Decidable (_ ∧ _ ∧ _ ∧ (_ ∧ _ ∨ _ ∧ _)))

instance (xactId : Byte) (len : Nat) (rx : LinkRx) :
    Decidable (startStale xactId len rx) :=
  inferInstanceAs (Decidable (_ ∧ _ ∧ _ ∧ _))

instance (gpc : Byte) (len : Nat) (payload : List Byte) (rx : LinkRx) :
    Decidable (startOutside gpc len payload rx) :=
  inferInstanceAs (Decidable (_ ∧ _ ∧ _))

instance (xactId gpc : Byte) (payload : List Byte) (rx : LinkRx) :
    Decidable (recvBufAdmitted xactId gpc payload rx) := by
  delta recvBufAdmitted
  exact match gpc.toNat % 4, payload with
  | 0, _ :: _ :: _ :: _ => inferInstanceAs (Decidable (_ ∧ _))
  | 2, _ => inferInstanceAs (Decidable (¬ _))
  | 0, [] | 0, [_] | 0, [_, _] | 1, _ | 3, _ | _ + 4, _ => .isTrue trivial

instance decidableBufAdmitted (link : Link) :
    ∀ input, Decidable (bufAdmitted link input)
  | .pdu _ (b0 :: b1 :: b2 :: b3 :: xactId :: gpc :: payload) =>
    inferInstanceAs (Decidable (link.cb = true → link.flags.active = true →
      link.id = b0 ++ b1 ++ b2 ++ b3 → recvBufAdmitted xactId gpc payload link.rx))
  | .pdu _ [] | .pdu _ [_] | .pdu _ [_, _] | .pdu _ [_, _, _]
  | .pdu _ [_, _, _, _] | .pdu _ [_, _, _, _, _]
  | .ackComplete | .bufSent | .protocolTimeout _ | .retransmit _ _ _
  | .linkOpen _ _ _ | .linkAccept | .linkClose _ _ | .send _ _ | .clearTx
  | .reset => .isTrue trivial

def sampleSegments : List LinkInput :=
  [.linkAccept, sampleOpen,
    .pdu true ([0, 0, 0, 1, 0, 0x04, 0, 21, 0] ++ List.replicate 20 7),
    .pdu true [0, 0, 0, 1, 0, 0x06, 7]]

theorem pbAdv_inBounds_segments :
    (linkMachine sampleUuid).Along bufAdmitted bootLink sampleSegments ∧
      (linkMachine sampleUuid).Along (AccessInBounds sampleUuid) bootLink sampleSegments :=
  have admitted := by decide +kernel
  ⟨admitted, pbAdv_inBounds sampleUuid _ admitted⟩

theorem pbAdv_outOfBounds :
    ¬ (linkMachine sampleUuid).Along (AccessInBounds sampleUuid) bootLink
        [.linkAccept, sampleOpen, .pdu true [0, 0, 0, 1, 0, 0x02, 7]] ∧
      ¬ (linkMachine sampleUuid).Along (AccessInBounds sampleUuid) bootLink
        [.linkAccept, sampleOpen,
          .pdu true ([0, 0, 0, 1, 0, 0x04, 0, 21, 0] ++ List.replicate 20 7),
          .pdu true [0, 0, 0, 1, 1, 0x04, 1, 43, 0],
          .pdu true ([0, 0, 0, 1, 1, 0x06] ++ List.replicate 23 7)] := by
  decide +kernel

end ZephyrBluetooth.Mesh
