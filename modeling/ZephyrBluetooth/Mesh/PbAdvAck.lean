import ZephyrBluetooth.Mesh.PbAdv

namespace ZephyrBluetooth.Mesh

open Data List Bool

variable {before link : Link}

inductive LinkInput where
  | pdu (alloc : Bool) (bytes : List Byte)
  | ackComplete
  | bufSent
  | protocolTimeout (alloc : Bool)
  | retransmit (alloc expired : Bool) (busy : List Byte → Bool)
  | linkOpen (alloc : Bool) (linkId : BitVec 32) (uuid : List Byte)
  | linkAccept
  | linkClose (alloc : Bool) (status : Byte)
  | send (allocs : Nat) (msg : List Byte)
  | clearTx
  | reset

def linkStep (uuid : List Byte) (link : Link) : LinkInput → Link × List LinkEvt
  | .pdu alloc bytes => pbAdvRecv alloc uuid bytes link
  | .ackComplete => (ackComplete link, [])
  | .bufSent => bufSent link
  | .protocolTimeout alloc => protocolTimeout alloc link
  | .retransmit alloc expired busy => provRetransmit alloc expired busy link
  | .linkOpen alloc linkId target => (provLinkOpen alloc linkId target link).2
  | .linkAccept => ((provLinkAccept link).2, [])
  | .linkClose alloc status => provLinkClose alloc status link
  | .send allocs msg => (provSendAdv allocs msg link).2
  | .clearTx => (provClearTx link, [])
  | .reset => (resetAdvLink link, [])

def linkMachine (uuid : List Byte) : Machine Link LinkInput LinkEvt :=
  ⟨linkStep uuid⟩

def deliveredAfter : Option Byte → List LinkEvt → Option Byte
  | delivered, [] => delivered
  | _, .recv xactId _ _ :: rest => deliveredAfter (some xactId) rest
  | _, .unexpected xactId _ _ :: rest => deliveredAfter (some xactId) rest
  | delivered, _ :: rest => deliveredAfter delivered rest

structure AckState where
  link : Link
  delivered : Option Byte

def ackMachine (uuid : List Byte) : Machine AckState LinkInput LinkEvt where
  step state input :=
    let (link, evts) := linkStep uuid state.link input
    (⟨link, if link.flags.active then deliveredAfter state.delivered evts
      else none⟩, evts)

def bootLink : Link where
  id := 0
  flags := .clear
  cb := false
  rx := ⟨0, 0, 0, 0, 0, fun _ => 0⟩
  tx := ⟨0, 0, []⟩

def bootAck : AckState := ⟨bootLink, none⟩

/-- The next thing that happens besides the transmission of the acknowledgment
itself is the hand-over of the transaction with a matching FCS. -/
def HandedNext (xactId : Byte) : List LinkEvt → Prop
  | .advSend _ :: rest => HandedNext xactId rest
  | .recv handed fcs msg :: _ => handed = xactId ∧ fcsCheck msg fcs
  | .unexpected handed fcs msg :: _ => handed = xactId ∧ fcsCheck msg fcs
  | _ => False

/-- Within one call of the bearer, an acknowledgment is for the transaction
handed over last, or it is part of the hand-over of its own transaction. -/
def AcksDelivered : Option Byte → List LinkEvt → Prop
  | _, [] => True
  | delivered, .ack xactId :: rest =>
    (delivered = some xactId ∨ HandedNext xactId rest) ∧ AcksDelivered delivered rest
  | _, .recv xactId fcs msg :: rest =>
    fcsCheck msg fcs ∧ AcksDelivered (some xactId) rest
  | _, .unexpected xactId fcs msg :: rest =>
    fcsCheck msg fcs ∧ AcksDelivered (some xactId) rest
  | delivered, _ :: rest => AcksDelivered delivered rest

instance decidableHandedNext (xactId : Byte) :
    ∀ evts, Decidable (HandedNext xactId evts)
  | [] => .isFalse id
  | .advSend _ :: rest => decidableHandedNext xactId rest
  | .recv handed fcs msg :: _ =>
    inferInstanceAs (Decidable (handed = xactId ∧ fcsCheck msg fcs))
  | .unexpected handed fcs msg :: _ =>
    inferInstanceAs (Decidable (handed = xactId ∧ fcsCheck msg fcs))
  | .write _ _ :: _ => .isFalse id
  | .check _ :: _ => .isFalse id
  | .ack _ :: _ => .isFalse id
  | .error _ :: _ => .isFalse id
  | .linkOpened :: _ => .isFalse id
  | .linkClosed :: _ => .isFalse id
  | .txComplete :: _ => .isFalse id

instance decidableAcksDelivered :
    ∀ delivered evts, Decidable (AcksDelivered delivered evts)
  | _, [] => .isTrue trivial
  | delivered, .ack xactId :: rest =>
    have := decidableAcksDelivered delivered rest
    inferInstanceAs (Decidable ((delivered = some xactId ∨ HandedNext xactId rest) ∧
        AcksDelivered delivered rest))
  | _, .recv xactId fcs msg :: rest =>
    have := decidableAcksDelivered (some xactId) rest
    inferInstanceAs (Decidable (fcsCheck msg fcs ∧ AcksDelivered (some xactId) rest))
  | _, .unexpected xactId fcs msg :: rest =>
    have := decidableAcksDelivered (some xactId) rest
    inferInstanceAs (Decidable (fcsCheck msg fcs ∧ AcksDelivered (some xactId) rest))
  | delivered, .write _ _ :: rest => decidableAcksDelivered delivered rest
  | delivered, .check _ :: rest => decidableAcksDelivered delivered rest
  | delivered, .error _ :: rest => decidableAcksDelivered delivered rest
  | delivered, .linkOpened :: rest => decidableAcksDelivered delivered rest
  | delivered, .linkClosed :: rest => decidableAcksDelivered delivered rest
  | delivered, .advSend _ :: rest => decidableAcksDelivered delivered rest
  | delivered, .txComplete :: rest => decidableAcksDelivered delivered rest

/-- The identifier that `link.rx.id` starts with, which belongs to no
transaction of the link. -/
def firstXactId (flags : LinkFlags) : Byte :=
  if flags.provisioner then xactIdNval else xactIdMax

def LinkRx.Intact (rx : LinkRx) : Prop :=
  rx.seg = 0 → fcsCheck rx.msg rx.fcs

def startAccepted (xactId : Byte) (rx : LinkRx) : Bool :=
  if xactId = rx.id then rx.seg.getLsbD 0 else xactId = nextTransactionId rx.id

def LinkRx.started (xactId gpc fcs : Byte) (len : Nat) (payload : List Byte)
    (rx : LinkRx) : LinkRx :=
  { rx.head xactId fcs len with
    lastSeg := BitVec.ofNat 8 (gpc.toNat / 4) }.storeStart (gpc.toNat / 4) payload

def startAdmitted (xactId gpc fcs : Byte) (len : Nat) (payload : List Byte)
    (rx : LinkRx) : Prop :=
  startAccepted xactId rx → if startHeaderValid gpc len then
      startMisfit (gpc.toNat / 4) rx.seg ∨
        (rx.started xactId gpc fcs len payload).Intact
    else
      rx.seg ≠ 0

def contStores (xactId : Byte) (seg : Nat) (payload : List Byte)
    (rx : LinkRx) : Bool :=
  decide (xactId = rx.id) && decide (seg ≤ rx.lastSeg.toNat) &&
    rx.seg.getLsbD seg &&
    decide (xactSegOffset seg + payload.length ≤ rxBufferMax)

def contAdmitted (xactId : Byte) (seg : Nat) (payload : List Byte)
    (rx : LinkRx) : Prop :=
  contStores xactId seg payload rx → (rx.storeCont seg payload).seg = 0 →
      lastSegMisfit seg payload (rx.storeCont seg payload) = false ∧
        fcsCheck (rx.storeCont seg payload).msg rx.fcs

def BeforeFirst (state : AckState) (xactId : Byte) : Prop :=
  state.delivered = none ∧ state.link.rx.seg = 0 ∧
    xactId = firstXactId state.link.flags

def recvAdmitted (state : AckState) (xactId gpc : Byte) (payload : List Byte) :
    Prop :=
  match gpc.toNat % 4, payload with
  | 0, lenHigh :: lenLow :: fcs :: rest =>
    ¬ BeforeFirst state xactId ∧
      startAdmitted xactId gpc fcs (lenHigh.toNat * 2 ^ 8 + lenLow.toNat) rest
        state.link.rx
  | 2, payload =>
    ¬ BeforeFirst state xactId ∧
      contAdmitted xactId (gpc.toNat / 4) payload state.link.rx
  | _, _ => True

def pduAdmitted (state : AckState) : List Byte → Prop
  | b0 :: b1 :: b2 :: b3 :: xactId :: gpc :: payload =>
    state.link.flags.active → state.link.id = b0 ++ b1 ++ b2 ++ b3 →
      recvAdmitted state xactId gpc payload
  | _ => True

def ackAdmitted (state : AckState) : LinkInput → Prop
  | .pdu _ bytes => pduAdmitted state bytes
  | .protocolTimeout _ => state.link.flags.active → state.link.rx.seg = 0
  | _ => True

instance (rx : LinkRx) : Decidable rx.Intact :=
  inferInstanceAs (Decidable (rx.seg = 0 → fcsCheck rx.msg rx.fcs))

instance (xactId gpc fcs : Byte) (len : Nat) (payload : List Byte)
    (rx : LinkRx) : Decidable (startAdmitted xactId gpc fcs len payload rx) :=
  inferInstanceAs (Decidable (startAccepted xactId rx →
    if startHeaderValid gpc len then
      startMisfit (gpc.toNat / 4) rx.seg ∨
        (rx.started xactId gpc fcs len payload).Intact
    else
      rx.seg ≠ 0))

instance (xactId : Byte) (seg : Nat) (payload : List Byte) (rx : LinkRx) :
    Decidable (contAdmitted xactId seg payload rx) :=
  inferInstanceAs (Decidable (contStores xactId seg payload rx →
    (rx.storeCont seg payload).seg = 0 →
      lastSegMisfit seg payload (rx.storeCont seg payload) = false ∧
        fcsCheck (rx.storeCont seg payload).msg rx.fcs))

instance (state : AckState) (xactId : Byte) :
    Decidable (BeforeFirst state xactId) :=
  inferInstanceAs (Decidable (_ ∧ _ ∧ _))

instance (state : AckState) (xactId gpc : Byte) (payload : List Byte) :
    Decidable (recvAdmitted state xactId gpc payload) := by
  unfold recvAdmitted
  split <;> infer_instance

instance decidablePduAdmitted (state : AckState) :
    ∀ bytes, Decidable (pduAdmitted state bytes)
  | b0 :: b1 :: b2 :: b3 :: xactId :: gpc :: payload =>
    inferInstanceAs (Decidable
      (state.link.flags.active → state.link.id = b0 ++ b1 ++ b2 ++ b3 →
        recvAdmitted state xactId gpc payload))
  | [] | [_] | [_, _] | [_, _, _] | [_, _, _, _] | [_, _, _, _, _] =>
    .isTrue trivial

instance (state : AckState) :
    ∀ input, Decidable (ackAdmitted state input)
  | .pdu _ bytes => decidablePduAdmitted state bytes
  | .protocolTimeout _ =>
    inferInstanceAs (Decidable (state.link.flags.active → state.link.rx.seg = 0))
  | .ackComplete | .bufSent | .retransmit _ _ _ | .linkOpen _ _ _
  | .linkAccept | .linkClose _ _ | .send _ _ | .clearTx | .reset => .isTrue trivial

def LinkEvt.isAccess : LinkEvt → Bool
  | .write _ _ | .check _ => true
  | _ => false

def LinkEvt.silent : LinkEvt → Bool
  | .write _ _ | .check _ | .ack _ | .recv _ _ _ | .unexpected _ _ _ => false
  | _ => true

def Silent (evts : List LinkEvt) : Prop :=
  ∀ evt ∈ evts, evt.silent

inductive HandOver (xactId : Byte) : List LinkEvt → Prop
  | recv (fcs : Byte) (msg : List Byte) (checked : fcsCheck msg fcs) :
      HandOver xactId [.recv xactId fcs msg]
  | unexpected (fcs : Byte) (msg : List Byte) (err : ProvErr)
      (checked : fcsCheck msg fcs) :
      HandOver xactId [.unexpected xactId fcs msg, .error err]

structure SameLink (before after : Link) : Prop where
  active : after.flags.active = before.flags.active
  provisioner : after.flags.provisioner = before.flags.provisioner
  cb : after.cb = before.cb

structure LiveLink (before after : Link) : Prop
    extends SameLink before after where
  live : before.flags.active

inductive LinkEffect (delivered : Option Byte) (before after : Link) :
    List LinkEvt → Prop
  | idle {evts} (same : SameLink before after)
      (id : after.rx.id = before.rx.id) (seg : after.rx.seg = before.rx.seg)
      (silent : Silent evts) : LinkEffect delivered before after evts
  | progressed {evts} (same : LiveLink before after)
      (pending : after.rx.seg ≠ 0) (silent : Silent evts) :
      LinkEffect delivered before after evts
  | resent (sent : List (List Byte)) (same : LiveLink before after)
      (id : after.rx.id = before.rx.id) (seg : after.rx.seg = before.rx.seg)
      (complete : before.rx.seg = 0)
      (known : ¬ (delivered = none ∧ before.rx.id = firstXactId before.flags)) :
      LinkEffect delivered before after (.ack before.rx.id :: sent.map .advSend)
  | handed {xactId evts} (sent : List (List Byte))
      (same : LiveLink before after) (id : after.rx.id = xactId)
      (handOver : HandOver xactId evts) :
      LinkEffect delivered before after (.ack xactId :: (sent.map .advSend ++ evts))
  | accessed {evt evts} (access : evt.isAccess)
      (step : LinkEffect delivered before after evts) :
      LinkEffect delivered before after (evt :: evts)
  | closed {evts} (inactive : after.flags.active = false)
      (provisioner : after.flags.provisioner = false)
      (id : after.cb → after.rx.id = xactIdMax) (silent : Silent evts) :
      LinkEffect delivered before after evts
  | accepted (wasInactive : before.flags.active = false)
      (flags : after.flags = before.flags) (id : after.rx.id = xactIdMax) :
      LinkEffect delivered before after []
  | openedRx {evts} (wasInactive : before.flags.active = false)
      (listening : before.cb) (id : after.rx.id = before.rx.id)
      (provisioner : after.flags.provisioner = before.flags.provisioner)
      (active : after.flags.active) (silent : Silent evts) :
      LinkEffect delivered before after evts
  | openedTx {evts} (wasInactive : before.flags.active = false)
      (id : after.rx.id = firstXactId after.flags)
      (active : after.flags.active) (silent : Silent evts) :
      LinkEffect delivered before after evts

theorem SameLink.refl (link : Link) : SameLink link link := ⟨rfl, rfl, rfl⟩

theorem Silent.nil : Silent [] := by simp [Silent]

theorem Silent.advSend (pdus : List (List Byte)) :
    Silent (pdus.map .advSend) := by
  simp [Silent, LinkEvt.silent]

theorem LinkEffect.same (delivered : Option Byte) (link : Link) :
    LinkEffect delivered link link [] :=
  .idle (.refl link) rfl rfl .nil

theorem genProvAckSend_spec (alloc : Bool) (xactId : Byte) (link : Link) :
    ∃ sent : List (List Byte),
      (genProvAckSend alloc xactId link).2 = .ack xactId :: sent.map .advSend ∧
      SameLink link (genProvAckSend alloc xactId link).1 ∧
      (genProvAckSend alloc xactId link).1.rx = link.rx := by
  unfold genProvAckSend
  dsimp only
  split
  · exact ⟨[], rfl, ⟨rfl, rfl, rfl⟩, rfl⟩
  split
  · exact ⟨[], rfl, ⟨rfl, rfl, rfl⟩, rfl⟩
  refine ⟨[be32 link.id ++ [xactId, 0x01]], rfl, ?_, ?_⟩
  · split <;> exact ⟨rfl, rfl, rfl⟩
  · split <;> rfl

section

variable (delivered : Option Byte)
include delivered

theorem provMsgRecv_effect (alloc : Bool)
    (same : LiveLink before link) (checked : fcsCheck link.rx.msg link.rx.fcs) :
    LinkEffect delivered before (provMsgRecv alloc link).1
      (provMsgRecv alloc link).2 := by
  obtain ⟨sent, evts, frame, rx⟩ := genProvAckSend_spec alloc link.rx.id link
  have sameAcked : SameLink before (genProvAckSend alloc link.rx.id link).1 :=
    ⟨frame.active.trans same.active, frame.provisioner.trans same.provisioner,
      frame.cb.trans same.cb⟩
  have live := same.live
  simp only [provMsgRecv, checked, Bool.not_true, false_eq_true, if_false,
    evts, rx, provFailed]
  split
  · exact .accessed rfl (.handed sent
      ⟨⟨sameAcked.active, sameAcked.provisioner, sameAcked.cb⟩, live⟩
      rfl (.unexpected _ _ _ checked))
  · exact .accessed rfl
      (.handed sent ⟨sameAcked, live⟩ (congrArg LinkRx.id rx) (.recv _ _ checked))

theorem provFailed_effect (err : ProvErr) (same : LiveLink before link)
    (rx : link.rx.id = before.rx.id ∧ link.rx.seg = before.rx.seg ∨
      link.rx.seg ≠ 0) :
    LinkEffect delivered before (provFailed err link).1 (provFailed err link).2 := by
  have sameFailed : SameLink before (provFailed err link).1 :=
    ⟨same.active, same.provisioner, same.cb⟩
  have silent : Silent (provFailed err link).2 := by
    simp [provFailed, Silent, LinkEvt.silent]
  rcases rx with ⟨id, seg⟩ | pending
  · exact .idle sameFailed id seg silent
  · exact .progressed ⟨sameFailed, same.live⟩ pending silent

theorem recvComplete_effect (alloc : Bool)
    (same : LiveLink before link) (intact : link.rx.Intact) :
    LinkEffect delivered before (recvComplete alloc link).1
      (recvComplete alloc link).2 := by
  unfold recvComplete
  split
  · rename_i complete
    exact provMsgRecv_effect delivered alloc same (intact complete)
  · rename_i pending
    exact .progressed same pending .nil

theorem contSegment_effect (alloc : Bool) (seg : Nat)
    (payload : List Byte) (same : LiveLink before link)
    (rx : link.rx.id = before.rx.id ∧ link.rx.seg = before.rx.seg ∨ link.rx.seg ≠ 0)
    (admitted : contAdmitted link.rx.id seg payload link.rx) :
    LinkEffect delivered before (contSegment alloc seg payload link).1
      (contSegment alloc seg payload link).2 := by
  unfold contSegment
  split
  · exact provFailed_effect delivered _ same rx
  rename_i inRange
  have unchanged : LinkEffect delivered before link [] := by
    rcases rx with ⟨id, seg⟩ | pending
    · exact .idle same.toSameLink id seg .nil
    · exact .progressed same pending .nil
  split
  · exact unchanged
  rename_i missing
  split
  · exact unchanged
  rename_i fits
  have stores : contStores link.rx.id seg payload link.rx := by
    simp only [not_eq_true, not_eq_false'] at missing
    simp [contStores, missing]
    omega
  have stored := admitted stores
  have sameStored : LiveLink before
      { link with rx := link.rx.storeCont seg payload } :=
    ⟨⟨same.active, same.provisioner, same.cb⟩, same.live⟩
  refine .accessed rfl ?_
  dsimp only
  split
  · rename_i misfit
    apply provFailed_effect delivered _ sameStored
    right
    intro complete
    rw [(stored complete).1] at misfit
    cases misfit
  · apply recvComplete_effect delivered alloc sameStored
    intro complete
    exact (stored complete).2

end

theorem xactSegRecv_segNval (seg : Nat) : xactSegRecv seg segNval ≠ 0 := by
  intro zero
  have low : (xactSegRecv seg segNval).getLsbD 0 = false := by rw [zero]; rfl
  have high : (xactSegRecv seg segNval).getLsbD 1 = false := by rw [zero]; rfl
  simp [xactSegRecv, segNval] at low high
  omega

theorem resent_effect (alloc : Bool) (state : AckState)
    (active : state.link.flags.active) (complete : state.link.rx.seg = 0)
    (notFirst : ¬ BeforeFirst state state.link.rx.id) :
    LinkEffect state.delivered state.link
      (if !state.link.flags.ackPending then
        genProvAckSend alloc state.link.rx.id state.link
      else (state.link, [])).1
      (if !state.link.flags.ackPending then
        genProvAckSend alloc state.link.rx.id state.link
      else (state.link, [])).2 := by
  split
  · obtain ⟨sent, evts, same, rx⟩ :=
      genProvAckSend_spec alloc state.link.rx.id state.link
    rw [evts]
    refine .resent sent ⟨same, active⟩ (congrArg LinkRx.id rx)
      (congrArg LinkRx.seg rx) complete ?_
    intro first
    exact notFirst ⟨first.1, complete, first.2⟩
  · exact .same _ _

theorem genProvCont_effect (alloc : Bool) (xactId gpc : Byte)
    (payload : List Byte) (state : AckState) (active : state.link.flags.active)
    (notFirst : ¬ BeforeFirst state xactId)
    (admitted : contAdmitted xactId (gpc.toNat / 4) payload state.link.rx) :
    LinkEffect state.delivered state.link
      (genProvCont alloc xactId gpc payload state.link).1
      (genProvCont alloc xactId gpc payload state.link).2 := by
  unfold genProvCont
  split
  · rename_i repeated
    obtain ⟨complete, rfl⟩ := repeated
    exact resent_effect alloc state active complete notFirst
  · split
    · rename_i lost
      apply contSegment_effect
      · exact ⟨⟨rfl, rfl, rfl⟩, active⟩
      · exact .inr (by decide : segNval ≠ 0)
      · intro _ complete
        exact absurd complete (xactSegRecv_segNval _)
    · split
      · exact .same _ _
      rename_i known
      have idEq : xactId = state.link.rx.id := not_not.mp known
      subst idEq
      exact contSegment_effect _ _ _ _ ⟨.refl _, active⟩ (.inl ⟨rfl, rfl⟩) admitted

theorem startSegment_effect (delivered : Option Byte) (alloc : Bool)
    (xactId gpc fcs : Byte) (len : Nat) (payload : List Byte) (link : Link)
    (active : link.flags.active)
    (admitted : if startHeaderValid gpc len then
      startMisfit (gpc.toNat / 4) link.rx.seg ∨
        (link.rx.started xactId gpc fcs len payload).Intact
      else link.rx.seg ≠ 0) :
    LinkEffect delivered link
      (startSegment alloc xactId gpc len fcs payload link).1
      (startSegment alloc xactId gpc len fcs payload link).2 := by
  unfold startSegment
  cases valid : startHeaderValid gpc len with
  | false =>
    rw [valid] at admitted
    exact provFailed_effect delivered _ ⟨⟨rfl, rfl, rfl⟩, active⟩ (.inr admitted)
  | true =>
    rw [valid] at admitted
    simp only [Bool.not_true, false_eq_true, if_false]
    split
    · rename_i misfit
      refine provFailed_effect delivered _ ?_ (.inr ?_)
      · exact ⟨⟨rfl, rfl, rfl⟩, active⟩
      · intro empty
        have low : link.rx.seg.getLsbD 0 = true :=
          (Bool.and_eq_true_iff.mp misfit).1
        rw [show link.rx.seg = 0 from empty] at low
        cases low
    · rename_i fits
      refine .accessed rfl (recvComplete_effect delivered alloc ?_ ?_)
      · exact ⟨⟨rfl, rfl, rfl⟩, active⟩
      rcases admitted with misfit | intact
      · exact absurd misfit fits
      · exact intact

theorem genProvStart_effect (alloc : Bool) (xactId gpc : Byte)
    (lenHigh lenLow fcs : Byte) (rest : List Byte) (state : AckState)
    (active : state.link.flags.active) (notFirst : ¬ BeforeFirst state xactId)
    (admitted : startAdmitted xactId gpc fcs
      (lenHigh.toNat * 2 ^ 8 + lenLow.toNat) rest state.link.rx) :
    LinkEffect state.delivered state.link
      (genProvStart alloc xactId gpc (lenHigh :: lenLow :: fcs :: rest) state.link).1
      (genProvStart alloc xactId gpc (lenHigh :: lenLow :: fcs :: rest)
        state.link).2 := by
  unfold genProvStart
  dsimp only
  split
  · rename_i sameId
    split
    · rename_i complete
      subst sameId
      exact resent_effect alloc state active complete notFirst
    · split
      · exact .same _ _
      rename_i pending
      apply startSegment_effect _ _ _ _ _ _ _ _ active
      apply admitted
      simpa [startAccepted, sameId] using pending
  · rename_i otherId
    split
    · exact .same _ _
    rename_i expected
    apply startSegment_effect _ _ _ _ _ _ _ _ active
    apply admitted
    simpa [startAccepted, otherId] using expected

theorem bearerCtlSendUnacked_spec (alloc : Bool) (op : Byte)
    (payload : List Byte) (link : Link) :
    (bearerCtlSendUnacked alloc op payload link).2.1.flags = link.flags ∧
      (bearerCtlSendUnacked alloc op payload link).2.1.cb = link.cb ∧
      (bearerCtlSendUnacked alloc op payload link).2.1.rx = link.rx ∧
      Silent (bearerCtlSendUnacked alloc op payload link).2.2 := by
  cases alloc
  · exact ⟨rfl, rfl, rfl, .nil⟩
  · exact ⟨rfl, rfl, rfl, .advSend [ctlPdu link op payload]⟩

variable {evts : List LinkEvt}

section

variable (delivered : Option Byte)
include delivered

theorem resetAdvLink_effect (before link : Link) (silent : Silent evts) :
    LinkEffect delivered before (resetAdvLink link) evts := by
  unfold resetAdvLink
  dsimp only
  split
  · exact .closed rfl rfl (fun listening => by cases listening) silent
  · exact .closed rfl rfl (fun _ => rfl) silent

theorem closeLink_effect (link : Link) :
    LinkEffect delivered link (closeLink link).1 (closeLink link).2 :=
  resetAdvLink_effect delivered link link
    (by simp [closeLink, Silent, LinkEvt.silent])

theorem linkOpenRx_effect (alloc : Bool) (uuid : List Byte) (linkId : BitVec 32)
    (payload : List Byte) (link : Link) (listening : link.cb) :
    LinkEffect delivered link (linkOpenRx alloc uuid linkId payload link).1
      (linkOpenRx alloc uuid linkId payload link).2 := by
  unfold linkOpenRx
  split
  · exact .same _ _
  split
  · split
    · exact .same _ _
    obtain ⟨flags, cb, rx, silent⟩ := bearerCtlSendUnacked_spec alloc 0x01 [] link
    refine .idle ⟨?_, ?_, cb⟩ (congrArg LinkRx.id rx) (congrArg LinkRx.seg rx) silent
    · rw [flags]
    · rw [flags]
  · rename_i inactive
    split
    · exact .same _ _
    cases alloc with
    | false => exact resetAdvLink_effect _ _ _ .nil
    | true =>
      refine .openedRx ?_ listening rfl rfl rfl ?_
      · simpa using inactive
      · simp [bearerCtlSendUnacked, Silent, LinkEvt.silent]

theorem genProvCtl_effect (alloc : Bool) (uuid : List Byte) (linkId : BitVec 32)
    (gpc : Byte) (payload : List Byte) (link : Link) (listening : link.cb) :
    LinkEffect delivered link (genProvCtl alloc uuid linkId gpc payload link).1
      (genProvCtl alloc uuid linkId gpc payload link).2 := by
  unfold genProvCtl
  split
  · exact linkOpenRx_effect delivered alloc uuid linkId payload link listening
  · unfold linkAckRx
    split
    · split
      · split
        · exact .same _ _
        · exact .idle ⟨rfl, rfl, rfl⟩ rfl rfl (by simp [Silent, LinkEvt.silent])
      · exact .same _ _
    · exact .same _ _
  · unfold linkCloseRx
    split
    · split
      · exact .same _ _
      · exact closeLink_effect delivered link
    · exact .same _ _
  · exact .same _ _

theorem genProvAck_effect (xactId : Byte)
    (link : Link) : LinkEffect delivered link (genProvAck xactId link).1
      (genProvAck xactId link).2 := by
  unfold genProvAck
  split
  · exact .same _ _
  split
  · refine .idle ?_ ?_ ?_ (by simp [Silent, LinkEvt.silent])
    · split <;> exact ⟨rfl, rfl, rfl⟩
    · split <;> rfl
    · split <;> rfl
  · exact .same _ _

end

theorem pbAdvRecv_effect (alloc : Bool) (uuid bytes : List Byte)
    (state : AckState) (admitted : pduAdmitted state bytes) :
    LinkEffect state.delivered state.link
      (pbAdvRecv alloc uuid bytes state.link).1
      (pbAdvRecv alloc uuid bytes state.link).2 := by
  unfold pbAdvRecv
  split
  · exact .same _ _
  rename_i listening
  have listening : state.link.cb := by simpa using listening
  split
  · rename_i b0 b1 b2 b3 xactId gpc payload
    dsimp only
    split
    · exact .same _ _
    rename_i ours
    unfold genProvRecv
    split
    · rename_i start
      split
      · exact .same _ _
      rename_i long
      split
      · exact .same _ _
      rename_i active
      have active : state.link.flags.active := by simpa using active
      have fields := admitted active (not_not.mp fun other =>
        ours ⟨active, other⟩)
      match payload with
      | lenHigh :: lenLow :: fcs :: rest =>
        simp only [recvAdmitted, start] at fields
        exact genProvStart_effect alloc xactId gpc lenHigh lenLow fcs
          rest state active fields.1 fields.2
      | [] => simp at long
      | [_] => simp at long
      | [_, _] => simp at long
    · split
      · exact .same _ _
      · exact genProvAck_effect _ _ _
    · rename_i cont
      split
      · exact .same _ _
      rename_i active
      have active : state.link.flags.active := by simpa using active
      have fields := admitted active (not_not.mp fun other =>
        ours ⟨active, other⟩)
      simp only [recvAdmitted, cont] at fields
      exact genProvCont_effect alloc xactId gpc payload state active
        fields.1 fields.2
    · exact genProvCtl_effect _ _ _ _ _ _ _ listening
  · exact .same _ _

theorem provLinkClose_effect (delivered : Option Byte) (alloc : Bool)
    (status : Byte) (same : SameLink before link) (id : link.rx.id = before.rx.id)
    (seg : link.rx.seg = before.rx.seg) :
    LinkEffect delivered before (provLinkClose alloc status link).1
      (provLinkClose alloc status link).2 := by
  unfold provLinkClose
  split
  · exact .idle same id seg .nil
  obtain ⟨flags, cb, rx, silent⟩ :=
    bearerCtlSendUnacked_spec alloc 0x02 [status]
      { link with flags := { link.flags with closing := true } }
  refine .idle ⟨?_, ?_, cb.trans same.cb⟩ ?_ ?_ silent
  · rw [flags]
    exact same.active
  · rw [flags]
    exact same.provisioner
  · rw [rx]
    exact id
  · rw [rx]
    exact seg

theorem provLinkOpen_effect (delivered : Option Byte) (alloc : Bool)
    (linkId : BitVec 32) (uuid : List Byte) (link : Link) :
    LinkEffect delivered link (provLinkOpen alloc linkId uuid link).2.1
      (provLinkOpen alloc linkId uuid link).2.2 := by
  unfold provLinkOpen
  split
  · exact .same _ _
  rename_i inactive
  have inactive : link.flags.active = false := by simpa using inactive
  cases alloc with
  | false => exact .openedTx inactive rfl rfl .nil
  | true => exact .openedTx inactive rfl rfl (.advSend [_])

theorem provSendAdv_effect (delivered : Option Byte) (allocs : Nat)
    (msg : List Byte) (link : Link) :
    LinkEffect delivered link (provSendAdv allocs msg link).2.1
      (provSendAdv allocs msg link).2.2 := by
  unfold provSendAdv
  dsimp only
  split
  · exact .idle ⟨rfl, rfl, rfl⟩ rfl rfl .nil
  split
  · exact .idle ⟨rfl, rfl, rfl⟩ rfl rfl .nil
  split
  · exact .idle ⟨rfl, rfl, rfl⟩ rfl rfl .nil
  · exact .idle ⟨rfl, rfl, rfl⟩ rfl rfl (.advSend _)

theorem linkStep_effect (uuid : List Byte) (state : AckState)
    (input : LinkInput) (admitted : ackAdmitted state input) :
    LinkEffect state.delivered state.link (linkStep uuid state.link input).1
      (linkStep uuid state.link input).2 := by
  cases input with
  | pdu alloc bytes => exact pbAdvRecv_effect alloc uuid bytes state admitted
  | ackComplete => exact .idle ⟨rfl, rfl, rfl⟩ rfl rfl .nil
  | bufSent =>
    simp only [linkStep, bufSent]
    split
    · exact closeLink_effect _ _
    · exact .same _ _
  | protocolTimeout alloc =>
    simp only [linkStep, protocolTimeout]
    split
    · exact .same _ _
    rename_i active
    have idle := admitted (by simpa using active)
    refine provLinkClose_effect _ alloc _ ?_ rfl idle.symm
    exact ⟨rfl, rfl, rfl⟩
  | retransmit alloc =>
    simp only [linkStep, provRetransmit]
    split
    · exact .same _ _
    split
    · exact provLinkClose_effect _ alloc _ (.refl _) rfl rfl
    · exact .idle (.refl _) rfl rfl (.advSend _)
  | linkOpen alloc linkId target =>
    exact provLinkOpen_effect _ alloc linkId target state.link
  | linkAccept =>
    simp only [linkStep, provLinkAccept]
    split
    · exact .same _ _
    · rename_i inactive
      exact .accepted (by simpa using inactive) rfl rfl
  | linkClose alloc status =>
    exact provLinkClose_effect _ alloc status (.refl _) rfl rfl
  | send allocs msg => exact provSendAdv_effect _ allocs msg state.link
  | clearTx => exact .idle ⟨rfl, rfl, rfl⟩ rfl rfl .nil
  | reset => exact resetAdvLink_effect _ _ _ .nil

theorem Silent.after (silent : Silent evts) (delivered : Option Byte) :
    deliveredAfter delivered evts = delivered ∧ AcksDelivered delivered evts := by
  induction evts with
  | nil => exact ⟨rfl, trivial⟩
  | cons evt rest ih =>
    have later := ih fun other member =>
      silent other (mem_cons_of_mem evt member)
    have first := silent evt mem_cons_self
    cases evt with
    | write _ _ | check _ | ack _ | recv _ _ _ | unexpected _ _ _ => cases first
    | error _ | linkOpened | linkClosed | advSend _ | txComplete => exact later

theorem LinkEvt.isAccess_after {evt : LinkEvt} (access : evt.isAccess)
    (delivered : Option Byte) (evts : List LinkEvt) :
    deliveredAfter delivered (evt :: evts) = deliveredAfter delivered evts ∧
      (AcksDelivered delivered (evt :: evts) ↔ AcksDelivered delivered evts) := by
  cases evt with
  | write _ _ | check _ => exact ⟨rfl, Iff.rfl⟩
  | _ => cases access

theorem deliveredAfter_sent (delivered : Option Byte) (sent : List (List Byte))
    (evts : List LinkEvt) : deliveredAfter delivered (sent.map .advSend ++ evts) =
      deliveredAfter delivered evts := by
  induction sent with
  | nil => rfl
  | cons pdu rest ih => exact ih

theorem acksDelivered_sent (delivered : Option Byte) (sent : List (List Byte))
    (evts : List LinkEvt) : AcksDelivered delivered (sent.map .advSend ++ evts) ↔
      AcksDelivered delivered evts := by
  induction sent with
  | nil => exact Iff.rfl
  | cons pdu rest ih => exact ih

theorem handedNext_sent (xactId : Byte) (sent : List (List Byte))
    (evts : List LinkEvt) :
    HandedNext xactId (sent.map .advSend ++ evts) ↔ HandedNext xactId evts := by
  induction sent with
  | nil => exact Iff.rfl
  | cons pdu rest ih => exact ih

theorem HandOver.spec {xactId : Byte}
    (handOver : HandOver xactId evts) (delivered : Option Byte) :
    HandedNext xactId evts ∧ AcksDelivered delivered evts ∧
      deliveredAfter delivered evts = some xactId := by
  cases handOver with
  | recv fcs msg checked => exact ⟨⟨rfl, checked⟩, ⟨checked, trivial⟩, rfl⟩
  | unexpected fcs msg err checked =>
    exact ⟨⟨rfl, checked⟩, ⟨checked, trivial⟩, rfl⟩

def Settled (state : AckState) : Prop :=
  state.link.rx.seg = 0 → state.delivered = some state.link.rx.id ∨
      state.delivered = none ∧ state.link.rx.id = firstXactId state.link.flags

structure AckInvariant (state : AckState) : Prop where
  settled : state.link.flags.active → Settled state
  idle : state.link.flags.active = false →
    state.delivered = none ∧ state.link.flags.provisioner = false
  listening : state.link.flags.active = false → state.link.cb →
    state.link.rx.id = xactIdMax

theorem LinkEffect.acksDelivered {state : AckState} {after : Link}
    (effect : LinkEffect state.delivered state.link after evts)
    (invariant : AckInvariant state) : AcksDelivered state.delivered evts := by
  induction effect with
  | accessed access _ ih => exact (LinkEvt.isAccess_after access _ _).2.mpr ih
  | idle _ _ _ silent | progressed _ _ silent | closed _ _ _ silent
  | openedRx _ _ _ _ _ silent | openedTx _ _ _ silent => exact (silent.after _).2
  | accepted => trivial
  | resent sent same _ _ complete known =>
    refine ⟨.inl ?_, ?_⟩
    · rcases invariant.settled same.live complete with handed | first
      · exact handed
      · exact absurd first known
    · exact ((Silent.advSend sent).after _).2
  | handed sent _ _ handOver =>
    obtain ⟨next, acks, _⟩ := handOver.spec state.delivered
    exact ⟨.inr ((handedNext_sent _ sent _).mpr next),
      (acksDelivered_sent _ sent _).mpr acks⟩

def afterStep (state : AckState) (after : Link) (evts : List LinkEvt) :
    AckState :=
  ⟨after, if after.flags.active then deliveredAfter state.delivered evts else none⟩

section

variable {state : AckState} {after : Link} {evts : List LinkEvt}
  (invariant : AckInvariant state)
include invariant

theorem AckInvariant.sameLink (same : SameLink state.link after)
    (id : state.link.flags.active = false → after.rx.id = state.link.rx.id)
    (settled : after.flags.active → Settled (afterStep state after evts)) :
    AckInvariant (afterStep state after evts) where
  settled := settled
  idle inactive := by
    have inactive : after.flags.active = false := inactive
    have before := invariant.idle (same.active ▸ inactive)
    refine ⟨?_, same.provisioner.trans before.2⟩
    simp [afterStep, inactive]
  listening inactive listening := by
    have inactive : after.flags.active = false := inactive
    have wasInactive := same.active ▸ inactive
    exact (id wasInactive).trans
      (invariant.listening wasInactive (same.cb ▸ listening))

theorem AckInvariant.liveLink (same : LiveLink state.link after)
    (settled : after.flags.active → Settled (afterStep state after evts)) :
    AckInvariant (afterStep state after evts) := by
  refine invariant.sameLink same.toSameLink ?_ settled
  intro inactive
  rw [same.live] at inactive
  cases inactive

theorem AckInvariant.opened (wasInactive : state.link.flags.active = false)
    (active : after.flags.active) (id : after.rx.id = firstXactId after.flags)
    (silent : Silent evts) :
    AckInvariant (afterStep state after evts) where
  settled _ _ := by
    right
    refine ⟨?_, id⟩
    simp only [afterStep, active, if_true, (silent.after _).1]
    exact (invariant.idle wasInactive).1
  idle inactive := by
    rw [show after.flags.active = false from inactive] at active
    cases active
  listening inactive := by
    rw [show after.flags.active = false from inactive] at active
    cases active

end

theorem LinkEffect.invariant {state : AckState} {after : Link}
    (effect : LinkEffect state.delivered state.link after evts)
    (invariant : AckInvariant state) :
    AckInvariant (afterStep state after evts) := by
  induction effect with
  | accessed access _ ih =>
    rwa [afterStep, (LinkEvt.isAccess_after access _ _).1]
  | idle same id seg silent =>
    refine invariant.sameLink same (fun _ => id) ?_
    intro active complete
    have settled := invariant.settled (same.active ▸ active)
      (seg.symm.trans complete)
    simpa [afterStep, active, (silent.after _).1, id, firstXactId,
      same.provisioner] using settled
  | progressed same pending =>
    refine invariant.liveLink same ?_
    intro active complete
    exact absurd complete pending
  | resent sent same id seg complete =>
    refine invariant.liveLink same ?_
    intro active complete
    have settled := invariant.settled (same.active ▸ active)
      (seg.symm.trans complete)
    have quiet := ((Silent.advSend sent).after state.delivered).1
    simpa [afterStep, active, deliveredAfter, quiet, id, firstXactId,
      same.provisioner] using settled
  | handed sent same id handOver =>
    refine invariant.liveLink same ?_
    intro active _
    left
    simp only [afterStep, show after.flags.active = true from active,
      if_true, deliveredAfter, deliveredAfter_sent, id]
    exact (handOver.spec state.delivered).2.2
  | closed inactive provisioner id =>
    refine ⟨?_, ?_, fun _ => id⟩
    · intro active
      rw [show after.flags.active = true from active] at inactive
      cases inactive
    · intro _
      refine ⟨?_, provisioner⟩
      simp [afterStep, inactive]
  | accepted wasInactive flags id =>
    have inactive : after.flags.active = false := by rw [flags, wasInactive]
    refine ⟨?_, ?_, fun _ _ => id⟩
    · intro active
      rw [show after.flags.active = true from active] at inactive
      cases inactive
    · intro _
      refine ⟨by simp [afterStep, inactive], ?_⟩
      simpa [afterStep, flags] using (invariant.idle wasInactive).2
  | openedRx wasInactive listening id provisioner active silent =>
    refine invariant.opened wasInactive active ?_ silent
    have device := (invariant.idle wasInactive).2
    rw [id, invariant.listening wasInactive listening, firstXactId,
      provisioner, device]
    rfl
  | openedTx wasInactive id active silent =>
    exact invariant.opened wasInactive active id silent

theorem AckInvariant.boot : AckInvariant bootAck where
  settled active := by cases active
  idle _ := ⟨rfl, rfl⟩
  listening _ listening := by cases listening

def AckStepDelivered (uuid : List Byte) (state : AckState) (input : LinkInput) :
    Prop :=
  AcksDelivered state.delivered ((ackMachine uuid).emit state input)

theorem pbAdv_acks_delivered (uuid : List Byte) (inputs : List LinkInput)
    (along : (ackMachine uuid).Along ackAdmitted bootAck inputs) :
    (ackMachine uuid).Along (AckStepDelivered uuid) bootAck inputs := by
  refine Machine.along_of_along ?_ AckInvariant.boot along
  intro state input invariant admitted
  have effect := linkStep_effect uuid state input admitted
  exact ⟨effect.acksDelivered invariant, effect.invariant invariant⟩

def sampleUuid : List Byte := List.replicate 16 0

def sampleOpen : LinkInput :=
  .pdu true ([0, 0, 0, 1, 0, 0x03] ++ sampleUuid)

def sampleInvite (fcs : Byte) : LinkInput :=
  .pdu true [0, 0, 0, 1, 0, 0, 0, 2, fcs, 0, 0]

theorem pbAdv_acks_delivered_invite :
    (ackMachine sampleUuid).Along ackAdmitted bootAck
        [.linkAccept, sampleOpen, sampleInvite 0x14, .ackComplete,
          sampleInvite 0x14] ∧
      (ackMachine sampleUuid).Along (AckStepDelivered sampleUuid) bootAck
        [.linkAccept, sampleOpen, sampleInvite 0x14, .ackComplete,
          sampleInvite 0x14] :=
  have admitted := by decide
  ⟨admitted, pbAdv_acks_delivered sampleUuid _ admitted⟩

theorem pbAdv_acks_corrupted_invite :
    ¬ (ackMachine sampleUuid).Along (AckStepDelivered sampleUuid) bootAck
      [.linkAccept, sampleOpen, sampleInvite 0x15, sampleInvite 0x15] := by
  unfold AckStepDelivered
  decide

end ZephyrBluetooth.Mesh
