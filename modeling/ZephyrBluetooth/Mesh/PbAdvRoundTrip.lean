import Mathlib.Data.List.GetD
import ZephyrBluetooth.Mesh.PbAdvAck

namespace ZephyrBluetooth.Mesh

open Data List

variable {index : Nat} {after before : List Nat} {inputs : List LinkInput}

/-! The segments that `prov_send_adv` cuts a provisioning PDU into, and what a
receiver makes of them in any order and with repetitions. -/

/-- Where segment `index` starts in the provisioning PDU. -/
def segStart (index : Nat) : Nat :=
  if index = 0 then 0 else startPayloadMax + (index - 1) * contPayloadMax

def segSlice (index : Nat) (msg : List Byte) : List Byte :=
  (msg.drop (segStart index)).take (segStart (index + 1) - segStart index)

def contPdu (linkId : BitVec 32) (xactId : Byte) (msg : List Byte)
    (index : Nat) : List Byte :=
  be32 linkId ++ (xactId :: BitVec.ofNat 8 (index * 4 + 2) :: segSlice index msg)

def segPdu (linkId : BitVec 32) (xactId : Byte) (msg : List Byte) :
    Nat → List Byte
  | 0 => startPdu linkId xactId msg
  | index + 1 => contPdu linkId xactId msg (index + 1)

def segCut (msg : List Byte) (index : Nat) : Prop :=
  index = 0 ∨ segStart index < msg.length

def recvCalls (evts : List LinkEvt) : List (List Byte) :=
  evts.filterMap fun
    | .recv _ _ msg => some msg
    | _ => none

/-- What the receiving node does on its own while the segments arrive: its
acknowledgments get sent, and it sends or drops PDUs of its own. -/
def LinkInput.ownWork : LinkInput → Bool
  | .ackComplete | .send _ _ | .clearTx => true
  | _ => false

def sentPdus (evts : List LinkEvt) : List (List Byte) :=
  evts.filterMap fun
    | .advSend pdu => some pdu
    | _ => none

structure Brings (pdus : List (List Byte)) (inputs : List LinkInput) : Prop where
  only : ∀ input ∈ inputs, input.ownWork ∨
    ∃ alloc, ∃ pdu ∈ pdus, input = .pdu alloc pdu
  every : ∀ pdu ∈ pdus, ∃ alloc, .pdu alloc pdu ∈ inputs

structure Expects (linkId : BitVec 32) (xactId : Byte) (link : Link) : Prop where
  id : link.id = linkId
  cb : link.cb = true
  active : link.flags.active = true
  valid : link.flags.invalid = false
  complete : link.rx.seg = 0
  next : nextTransactionId link.rx.id = xactId

theorem segStart_succ (index : Nat) :
    segStart (index + 1) = startPayloadMax + index * contPayloadMax := rfl

theorem length_segSlice (index : Nat) (msg : List Byte) :
    (segSlice index msg).length = min (segStart (index + 1) - segStart index)
        (msg.length - segStart index) := by
  simp [segSlice]

theorem segSlice_zero (msg : List Byte) :
    segSlice 0 msg = msg.take startPayloadMax := by
  simp [segSlice, segStart]

theorem segSlice_succ (index : Nat) (msg : List Byte) : segSlice (index + 1) msg =
      (msg.drop (segStart (index + 1))).take contPayloadMax := by
  unfold segSlice
  congr 1
  simp only [segStart_succ, contPayloadMax]
  omega

theorem mem_contPdus (linkId : BitVec 32) (xactId : Byte) (msg : List Byte)
    (pdu : List Byte) (fuel index : Nat)
    (enough : msg.length ≤ segStart (index + 1) + fuel) :
    pdu ∈ contPdus linkId xactId fuel (index + 1)
        (msg.drop (segStart (index + 1))) ↔
      ∃ place, index < place ∧ segStart place < msg.length ∧
        pdu = contPdu linkId xactId msg place := by
  induction fuel generalizing index with
  | zero =>
    simp only [contPdus, not_mem_nil, false_iff, not_exists, not_and]
    intro place later sent
    obtain ⟨before, rfl⟩ := Nat.exists_eq_succ_of_ne_zero (by omega : place ≠ 0)
    simp only [Nat.succ_eq_add_one, segStart_succ, contPayloadMax] at enough sent
    omega
  | succ fuel ih =>
    have next : (msg.drop (segStart (index + 1))).drop contPayloadMax =
        msg.drop (segStart (index + 1 + 1)) := by
      rw [drop_drop, segStart_succ, segStart_succ]
      congr 1
      simp only [contPayloadMax]
      omega
    have covered : msg.length ≤ segStart (index + 1 + 1) + fuel := by
      simp only [segStart_succ, contPayloadMax] at enough ⊢
      omega
    rw [contPdus, next]
    by_cases done : msg.drop (segStart (index + 1)) = []
    · rw [if_pos done]
      rw [drop_eq_nil_iff] at done
      simp only [not_mem_nil, false_iff, not_exists, not_and]
      intro place later sent
      obtain ⟨before, rfl⟩ := Nat.exists_eq_succ_of_ne_zero (by omega : place ≠ 0)
      simp only [Nat.succ_eq_add_one, segStart_succ, contPayloadMax] at done sent
      omega
    · rw [if_neg done, mem_cons, ih (index + 1) covered, ← segSlice_succ]
      rw [drop_eq_nil_iff] at done
      constructor
      · rintro (rfl | ⟨place, later, sent, rfl⟩)
        · exact ⟨index + 1, by omega, by omega, rfl⟩
        · exact ⟨place, by omega, sent, rfl⟩
      · rintro ⟨place, later, sent, rfl⟩
        rcases Nat.lt_or_ge (index + 1) place with further | _
        · exact .inr ⟨place, further, sent, rfl⟩
        · obtain rfl : place = index + 1 := by omega
          exact .inl rfl

variable {msg : List Byte} {link : Link}

theorem provSendAdv_sends {allocs : Nat}
    (sends : (provSendAdv allocs msg link).1 = .ok ()) :
    ∃ pdus : List (List Byte),
      (provSendAdv allocs msg link).2.2 = pdus.map .advSend ∧
      ∀ pdu, pdu ∈ pdus ↔ ∃ index, segCut msg index ∧
          pdu = segPdu link.id (nextTransactionId link.tx.id) msg index := by
  simp only [provSendAdv] at sends ⊢
  split at sends
  · cases sends
  split at sends
  · cases sends
  split at sends
  · cases sends
  rename_i enough few fits
  rw [if_neg enough, if_neg few, if_neg fits]
  refine ⟨_, rfl, ?_⟩
  intro pdu
  have conts := mem_contPdus link.id (nextTransactionId link.tx.id) msg pdu
    (msg.drop startPayloadMax).length 0 (by
      simp only [segStart_succ, length_drop]
      omega)
  rw [mem_cons]
  refine (or_congr_right conts).trans ?_
  constructor
  · rintro (rfl | ⟨place, later, sent, rfl⟩)
    · exact ⟨0, .inl rfl, rfl⟩
    · obtain ⟨before, rfl⟩ :=
        Nat.exists_eq_succ_of_ne_zero (by omega : place ≠ 0)
      exact ⟨before + 1, .inr sent, rfl⟩
  · rintro ⟨index, sent, rfl⟩
    cases index with
    | zero => exact .inl rfl
    | succ before =>
      rcases sent with absurdity | sent
      · cases absurdity
      · exact .inr ⟨before + 1, by omega, sent, rfl⟩

theorem segStart_spec (index : Nat) : index = 0 ∧ segStart index = 0 ∨
      0 < index ∧ segStart index + 23 = 20 + index * 23 := by
  cases index with
  | zero => exact .inl ⟨rfl, rfl⟩
  | succ =>
    refine .inr ⟨by omega, ?_⟩
    rw [segStart_succ, startPayloadMax, contPayloadMax]
    omega

theorem lastSeg_spec (len : Nat) :
    len ≤ 20 ∧ lastSeg len = 0 ∨ 20 < len ∧ lastSeg len = 1 + (len - 20) / 23 := by
  rcases Nat.lt_or_ge 20 len with long | short
  · exact .inr ⟨long, if_neg (Nat.not_le.mpr long)⟩
  · exact .inl ⟨short, if_pos short⟩

theorem segCut_lastSeg (short : msg.length ≤ 65) :
    segCut msg (lastSeg msg.length) ↔ msg.length ≠ 43 := by
  have start := segStart_spec (lastSeg msg.length)
  have last := lastSeg_spec msg.length
  unfold segCut
  omega

theorem segCut_le_lastSeg (sent : segCut msg index) :
    index ≤ lastSeg msg.length := by
  have start := segStart_spec index
  have last := lastSeg_spec msg.length
  unfold segCut at sent
  omega

theorem segCut_of_lt_lastSeg (before : index < lastSeg msg.length) :
    segCut msg index := by
  have start := segStart_spec index
  have last := lastSeg_spec msg.length
  unfold segCut
  omega

theorem lastSeg_le_two {len : Nat} (short : len ≤ 65) : lastSeg len ≤ 2 := by
  have last := lastSeg_spec len
  omega

def gathered (msg : List Byte) (seen : List Nat) : Bool :=
  (List.range (lastSeg msg.length + 1)).all fun index => decide (index ∈ seen)

def completes (msg : List Byte) (before after : List Nat) : List (List Byte) :=
  if gathered msg after && !gathered msg before then [msg] else []

def topSeg (msg : List Byte) (seen : List Nat) : Nat :=
  if 0 ∈ seen then lastSeg msg.length else 7

def StoresSeen (msg : List Byte) (seen : List Nat) (data : Nat → Byte) : Prop :=
  ∀ index ∈ seen, ∀ place, segStart index ≤ place →
    place < segStart (index + 1) → place < msg.length → data place = msg.getD place 0

structure Collects (xactId : Byte) (msg : List Byte) (seen : List Nat)
    (rx : LinkRx) : Prop where
  id : rx.id = xactId
  sent : ∀ index ∈ seen, segCut msg index
  pending : ∀ index, rx.seg.getLsbD index =
    (decide (index ≤ topSeg msg seen) && !decide (index ∈ seen))
  started : 0 ∈ seen → rx.len = msg.length ∧ rx.fcs = fcsCalc msg ∧
    rx.lastSeg.toNat = lastSeg msg.length
  lost : 0 ∉ seen → rx.lastSeg = segNval
  stored : StoresSeen msg seen rx.data

structure OnLink (linkId : BitVec 32) (link : Link) : Prop where
  id : link.id = linkId
  cb : link.cb = true
  active : link.flags.active = true
  valid : link.flags.invalid = false

inductive RxStage (xactId : Byte) (msg : List Byte) (seen : List Nat)
    (rx : LinkRx) : Prop
  | waiting (none : seen = []) (complete : rx.seg = 0)
      (next : nextTransactionId rx.id = xactId)
  | collecting (some : seen ≠ []) (collects : Collects xactId msg seen rx)

theorem gathered_iff (msg : List Byte) (seen : List Nat) :
    gathered msg seen = true ↔
      ∀ index, index ≤ lastSeg msg.length → index ∈ seen := by
  simp only [gathered, all_eq_true, mem_range, decide_eq_true_eq]
  constructor
  · intro all index le
    exact all index (by omega)
  · intro all index lt
    exact all index (by omega)

theorem gathered_congr {seen other : List Nat}
    (same : ∀ index, index ∈ seen ↔ index ∈ other) :
    gathered msg seen = gathered msg other := by
  rw [Bool.eq_iff_iff, gathered_iff, gathered_iff]
  simp only [same]

theorem completes_self (msg : List Byte) (seen : List Nat) :
    completes msg seen seen = [] := by
  simp [completes]

theorem mem_cons_of_seen {seen : List Nat} (known : index ∈ seen) (other : Nat) :
    other ∈ index :: seen ↔ other ∈ seen := by
  rw [mem_cons]
  constructor
  · rintro (rfl | member)
    · exact known
    · exact member
  · exact .inr

theorem decide_mem_cons (other index : Nat) (seen : List Nat) :
    decide (other ∈ index :: seen) =
      (decide (other = index) || decide (other ∈ seen)) := by
  simp [mem_cons, Bool.decide_or]

section

variable {xactId : Byte} {msg : List Byte} {seen : List Nat} {rx : LinkRx}
  (collects : Collects xactId msg seen rx)
include collects

theorem Collects.repeated (known : index ∈ seen) :
    Collects xactId msg (index :: seen) rx := by
  have same := mem_cons_of_seen known
  obtain ⟨id, sent, pending, started, lost, stored⟩ := collects
  refine ⟨id, ?_, ?_, ?_, ?_, ?_⟩
  · intro other member
    exact sent other ((same other).mp member)
  · intro other
    have sameTop : topSeg msg (index :: seen) = topSeg msg seen := by
      simp only [topSeg, same]
    have sameSeen : decide (other ∈ index :: seen) = decide (other ∈ seen) :=
      decide_eq_decide.mpr (same other)
    rw [pending other, sameTop, sameSeen]
  · intro member
    exact started ((same 0).mp member)
  · intro unseen
    exact lost (fun member => unseen ((same 0).mpr member))
  · intro other member
    exact stored other ((same other).mp member)

theorem Collects.seg_eq_zero_iff : rx.seg = 0 ↔ gathered msg seen = true := by
  rw [gathered_iff]
  constructor
  · intro complete index le
    have clear : ∀ other, other ≤ topSeg msg seen → other ∈ seen := by
      intro other below
      have pending := collects.pending other
      rw [complete] at pending
      simpa [below] using pending
    have started : 0 ∈ seen := clear 0 (Nat.zero_le _)
    apply clear
    rwa [topSeg, if_pos started]
  · intro all
    have started : 0 ∈ seen := all 0 (Nat.zero_le _)
    apply BitVec.eq_of_getLsbD_eq
    intro index _
    rw [collects.pending index, topSeg, if_pos started]
    by_cases le : index ≤ lastSeg msg.length
    · simp [all index le]
    · simp [le]

theorem Collects.msg_eq (all : gathered msg seen = true) : rx.msg = msg := by
  rw [gathered_iff] at all
  have len := (collects.started (all 0 (Nat.zero_le _))).1
  apply ext_getElem
  · simp [LinkRx.msg, len]
  · intro place inRx inMsg
    have covered : ∃ index, index ≤ lastSeg msg.length ∧
        segStart index ≤ place ∧ place < segStart (index + 1) := by
      have last := lastSeg_spec msg.length
      rcases Nat.lt_or_ge place 20 with first | _
      · exact ⟨0, Nat.zero_le _, Nat.zero_le _, first⟩
      refine ⟨(place - 20) / 23 + 1, ?_, ?_, ?_⟩
      · have := Nat.div_le_div_right (c := 23)
          (by omega : place - 20 ≤ msg.length - 20)
        omega
      · rw [segStart_succ, startPayloadMax, contPayloadMax]
        omega
      · rw [segStart_succ, startPayloadMax, contPayloadMax]
        omega
    obtain ⟨index, le, lower, upper⟩ := covered
    have stored := collects.stored index (all index le) place lower upper inMsg
    simp only [LinkRx.msg, getElem_map, getElem_range, stored]
    rw [getD_eq_getElem _ _ inMsg]

end

theorem writeAt_segSlice (index : Nat) (msg : List Byte) (data : Nat → Byte)
    (place : Nat) :
    writeAt (segStart index) (segSlice index msg) data place =
      if segStart index ≤ place ∧ place < segStart (index + 1) ∧
          place < msg.length then
        msg.getD place 0
      else data place := by
  unfold writeAt
  by_cases behind : segStart index ≤ place
  · have offset : ((place : Int) - (segStart index : Int)).toNat =
        place - segStart index := by omega
    rw [if_pos (by exact_mod_cast behind), offset]
    by_cases inside : place < segStart (index + 1) ∧ place < msg.length
    · rw [if_pos ⟨behind, inside⟩]
      have bound : place - segStart index < (segSlice index msg).length := by
        rw [length_segSlice]
        omega
      rw [getD_eq_getElem _ _ bound, getD_eq_getElem _ _ inside.2]
      simp only [segSlice, getElem_take, getElem_drop]
      congr 1
      omega
    · rw [if_neg (fun all => inside all.2)]
      apply getD_eq_default
      rw [length_segSlice]
      omega
  · rw [if_neg (by exact_mod_cast behind), if_neg (fun all => behind all.1)]

theorem StoresSeen.write {seen : List Nat}
    {data : Nat → Byte} (stored : StoresSeen msg seen data) (index : Nat) :
    StoresSeen msg (index :: seen)
      (writeAt (segStart index) (segSlice index msg) data) := by
  intro other member place lower upper inMsg
  rw [writeAt_segSlice]
  split
  · rfl
  rename_i outside
  rcases mem_cons.mp member with rfl | known
  · exact absurd ⟨lower, upper, inMsg⟩ outside
  · exact stored other known place lower upper inMsg

theorem getLsbD_xactSegRecv (seg : Nat) (pending : Byte) (index : Nat) :
    (xactSegRecv seg pending).getLsbD index =
      (pending.getLsbD index && !decide (index = seg)) := by
  by_cases inside : index < 8
  · simp only [xactSegRecv, BitVec.getLsbD_and, BitVec.getLsbD_not, inside,
      decide_true, Bool.true_and, BitVec.getLsbD_shiftLeft]
    congr 2
    simp only [Bool.and_eq_decide, decide_eq_decide]
    simp
    omega
  · rw [BitVec.getLsbD_of_ge _ _ (by omega), BitVec.getLsbD_of_ge _ _ (by omega)]
    rfl

structure Collected (linkId : BitVec 32) (xactId : Byte) (msg : List Byte)
    (before after : List Nat) (out : Link × List LinkEvt) : Prop where
  onLink : OnLink linkId out.1
  stage : RxStage xactId msg after out.1.rx
  calls : recvCalls out.2 = completes msg before after

theorem nextTransactionId_ne (id : Byte) : nextTransactionId id ≠ id := by
  revert id
  decide

theorem recvCalls_append (evts rest : List LinkEvt) :
    recvCalls (evts ++ rest) = recvCalls evts ++ recvCalls rest :=
  filterMap_append

theorem recvCalls_ack (xactId : Byte) (sent : List (List Byte)) :
    recvCalls (.ack xactId :: sent.map .advSend) = [] := by
  simp [recvCalls]

theorem recvCalls_check (count : Nat) (evts : List LinkEvt) :
    recvCalls (.check count :: evts) = recvCalls evts := rfl

theorem OnLink.genProvAckSend {linkId : BitVec 32}
    (onLink : OnLink linkId link) (alloc : Bool) (xactId : Byte) :
    OnLink linkId (genProvAckSend alloc xactId link).1 := by
  obtain ⟨id, cb, active, valid⟩ := onLink
  unfold Mesh.genProvAckSend
  dsimp only
  split
  · exact ⟨id, cb, active, valid⟩
  split
  · exact ⟨id, cb, active, valid⟩
  · split <;> exact ⟨id, cb, active, valid⟩

section Receiver

variable {linkId : BitVec 32} {xactId : Byte} {msg : List Byte}
variable {seen : List Nat} {link : Link}

theorem resend_collected (alloc : Bool) (onLink : OnLink linkId link)
    (stage : RxStage xactId msg seen link.rx) :
    Collected linkId xactId msg seen seen
      (if !link.flags.ackPending then genProvAckSend alloc xactId link
        else (link, [])) := by
  split
  · obtain ⟨_, evts, _, rx⟩ := genProvAckSend_spec alloc xactId link
    refine ⟨onLink.genProvAckSend alloc xactId, rx ▸ stage, ?_⟩
    rw [evts, recvCalls_ack, completes_self]
  · exact ⟨onLink, stage, (completes_self msg seen).symm⟩

theorem Collected.known {out : Link × List LinkEvt}
    (collected : Collected linkId xactId msg seen seen out) (known : index ∈ seen) :
    Collected linkId xactId msg seen (index :: seen) out := by
  obtain ⟨onLink, stage, calls⟩ := collected
  cases stage with
  | waiting none =>
    rw [none] at known
    cases known
  | collecting _ collects =>
    refine ⟨onLink, .collecting (cons_ne_nil _ _) (collects.repeated known), ?_⟩
    rw [calls, completes, completes, gathered_congr (mem_cons_of_seen known)]

theorem Collected.ignored (onLink : OnLink linkId link)
    (collects : Collects xactId msg seen link.rx) (known : index ∈ seen) :
    Collected linkId xactId msg seen (index :: seen) (link, []) := by
  have some : seen ≠ [] := ne_nil_of_mem known
  have same : Collected linkId xactId msg seen seen (link, []) :=
    ⟨onLink, .collecting some collects, (completes_self msg seen).symm⟩
  exact same.known known

theorem recvComplete_collected (alloc : Bool) (onLink : OnLink linkId link)
    (some : after ≠ []) (collects : Collects xactId msg after link.rx)
    (incomplete : gathered msg seen = false) :
    Collected linkId xactId msg seen after (recvComplete alloc link) := by
  unfold recvComplete
  split
  · rename_i complete
    have all := collects.seg_eq_zero_iff.mp complete
    have started := collects.started ((gathered_iff msg after).mp all 0 (Nat.zero_le _))
    obtain ⟨_, evts, _, rx⟩ := genProvAckSend_spec alloc link.rx.id link
    have acked := onLink.genProvAckSend alloc link.rx.id
    have checked : fcsCheck link.rx.msg link.rx.fcs = true := by
      rw [collects.msg_eq all, started.2.1]
      exact fcsCheck_fcsCalc msg
    simp only [provMsgRecv, checked, Bool.not_true, Bool.false_eq_true, if_false,
      acked.valid, rx, evts]
    have kept : Collects xactId msg after
        (genProvAckSend alloc link.rx.id link).1.rx := by
      rw [rx]
      exact collects
    refine ⟨acked, .collecting some kept, ?_⟩
    rw [recvCalls_check, recvCalls_append, recvCalls_ack, completes, all, incomplete,
      collects.msg_eq all]
    rfl
  · rename_i pending
    have missing : gathered msg after = false := by
      rw [Bool.eq_false_iff]
      exact fun all => pending (collects.seg_eq_zero_iff.mpr all)
    refine ⟨onLink, .collecting some collects, ?_⟩
    rw [completes, missing]
    rfl

theorem Collected.afterWrite {before after : List Nat} {out : Link × List LinkEvt}
    {offset : Int} {bytes : List Byte}
    (collected : Collected linkId xactId msg before after out) :
    Collected linkId xactId msg before after (afterWrite offset bytes out) :=
  ⟨collected.onLink, collected.stage, collected.calls⟩

theorem topSeg_cons_succ (msg : List Byte) (seen : List Nat) (index : Nat) :
    topSeg msg ((index + 1) :: seen) = topSeg msg seen := by
  simp [topSeg]

variable {rx : LinkRx}

theorem Collects.storeCont (collects : Collects xactId msg seen rx)
    (sent : segCut msg (index + 1)) : Collects xactId msg ((index + 1) :: seen)
      (rx.storeCont (index + 1) (segSlice (index + 1) msg)) := by
  have offset : xactSegOffset (index + 1) = (segStart (index + 1) : Nat) := by
    rw [segStart_succ, xactSegOffset, startPayloadMax, contPayloadMax]
    omega
  refine ⟨collects.id, ?_, ?_, ?_, ?_, ?_⟩
  · intro other member
    rcases mem_cons.mp member with rfl | known
    · exact sent
    · exact collects.sent other known
  · intro other
    rw [LinkRx.storeCont, getLsbD_xactSegRecv, collects.pending other,
      topSeg_cons_succ, decide_mem_cons, Bool.not_or, Bool.and_assoc,
      Bool.and_comm (!decide (other ∈ seen))]
  · intro started
    exact collects.started (by simpa using started)
  · intro unseen
    exact collects.lost (by simpa using unseen)
  · rw [LinkRx.storeCont, offset]
    exact collects.stored.write (index + 1)

theorem contSegment_collected (alloc : Bool) (short : msg.length ≤ 65)
    (onLink : OnLink linkId link) (collects : Collects xactId msg seen link.rx)
    (incomplete : gathered msg seen = false) (sent : segCut msg (index + 1)) :
    Collected linkId xactId msg seen ((index + 1) :: seen)
      (contSegment alloc (index + 1) (segSlice (index + 1) msg) link) := by
  have within := segCut_le_lastSeg sent
  have atMostTwo := lastSeg_le_two short
  have inRange : ¬ link.rx.lastSeg.toNat < index + 1 := by
    by_cases started : 0 ∈ seen
    · rw [(collects.started started).2.2]
      omega
    rw [collects.lost started, segNval]
    simp
    omega
  unfold contSegment
  rw [if_neg inRange]
  by_cases known : index + 1 ∈ seen
  · have clear : link.rx.seg.getLsbD (index + 1) = false := by
      rw [collects.pending]
      simp [known]
    rw [clear]
    exact .ignored onLink collects known
  · have missing : link.rx.seg.getLsbD (index + 1) = true := by
      rw [collects.pending, topSeg]
      simp only [known, decide_false, Bool.not_false, Bool.and_true,
        decide_eq_true_eq]
      split <;> omega
    have length := length_segSlice (index + 1) msg
    have here := segStart_spec (index + 1)
    have there := segStart_spec (index + 1 + 1)
    have fits : ¬ (rxBufferMax : Int) <
        xactSegOffset (index + 1) + (segSlice (index + 1) msg).length := by
      rw [xactSegOffset, rxBufferMax]
      omega
    have stored := collects.storeCont sent
    have regular : lastSegMisfit (index + 1) (segSlice (index + 1) msg)
        (link.rx.storeCont (index + 1) (segSlice (index + 1) msg)) = false := by
      by_cases started : 0 ∈ seen
      · obtain ⟨len, _, last⟩ := collects.started started
        have lastSpec := lastSeg_spec msg.length
        have sentHere : segStart (index + 1) < msg.length := by
          rcases sent with absurdity | sent
          · cases absurdity
          · exact sent
        simp only [lastSegMisfit, LinkRx.storeCont, expectLen, len, last,
          Bool.and_eq_false_iff, decide_eq_false_iff_not, not_not]
        omega
      · have lost := collects.lost started
        simp only [lastSegMisfit, LinkRx.storeCont, lost, segNval,
          Bool.and_eq_false_iff, decide_eq_false_iff_not]
        simp
        omega
    simp only [missing, Bool.not_true, Bool.false_eq_true, if_false, fits, regular]
    refine .afterWrite (recvComplete_collected alloc ?_ (cons_ne_nil _ _) stored
      incomplete)
    exact ⟨onLink.id, onLink.cb, onLink.active, onLink.valid⟩

theorem Collects.startLost (msg : List Byte) (xactId : Byte) (rx : LinkRx) :
    Collects xactId msg [] (rx.startLost xactId) := by
  refine ⟨rfl, ?_, ?_, ?_, fun _ => rfl, ?_⟩
  · intro index member
    cases member
  · intro index
    simp only [LinkRx.startLost, segNval, topSeg, not_mem_nil, if_false,
      decide_false, Bool.not_false, Bool.and_true]
    rcases Nat.lt_or_ge index 8 with _ | outside
    · revert index
      decide
    rw [BitVec.getLsbD_of_ge _ _ outside]
    symm
    rw [decide_eq_false_iff_not]
    omega
  · intro member
    cases member
  · intro index member
    cases member

theorem gathered_nil (msg : List Byte) : gathered msg [] = false := by
  rw [Bool.eq_false_iff]
  intro all
  cases (gathered_iff msg []).mp all 0 (Nat.zero_le _)

theorem genProvCont_collected (alloc : Bool) (short : msg.length ≤ 65)
    (onLink : OnLink linkId link) (stage : RxStage xactId msg seen link.rx)
    (sent : segCut msg (index + 1)) :
    Collected linkId xactId msg seen ((index + 1) :: seen)
      (genProvCont alloc xactId (BitVec.ofNat 8 ((index + 1) * 4 + 2))
        (segSlice (index + 1) msg) link) := by
  have within := segCut_le_lastSeg sent
  have atMostTwo := lastSeg_le_two short
  have gpc : (BitVec.ofNat 8 ((index + 1) * 4 + 2)).toNat / 4 = index + 1 := by
    rw [BitVec.toNat_ofNat]
    omega
  unfold genProvCont
  simp only [gpc]
  cases stage with
  | waiting none complete next =>
    subst none
    have different : link.rx.id ≠ xactId := by
      rw [← next]
      exact (nextTransactionId_ne link.rx.id).symm
    rw [if_neg (fun same => different same.2), if_pos ⟨complete, next⟩]
    exact contSegment_collected alloc short
      ⟨onLink.id, onLink.cb, onLink.active, onLink.valid⟩
      (Collects.startLost msg xactId link.rx) (gathered_nil msg) sent
  | collecting some collects =>
    cases all : gathered msg seen with
    | true =>
      have known : index + 1 ∈ seen :=
        (gathered_iff msg seen).mp all (index + 1) within
      rw [if_pos ⟨collects.seg_eq_zero_iff.mpr all, collects.id⟩]
      have resent := resend_collected alloc onLink (.collecting some collects)
      exact resent.known known
    | false =>
      have pending : link.rx.seg ≠ 0 := by
        intro complete
        rw [collects.seg_eq_zero_iff.mp complete] at all
        cases all
      rw [if_neg (fun same => pending same.1), if_neg (fun same => pending same.1),
        if_neg (not_not.mpr collects.id.symm)]
      exact contSegment_collected alloc short onLink collects all sent

variable {gpc : Byte}

theorem startHeaderValid_sent (within : 1 ≤ msg.length) (short : msg.length ≤ 65)
    (last : gpc.toNat / 4 = lastSeg msg.length) :
    startHeaderValid gpc msg.length = true := by
  have lastSpec := lastSeg_spec msg.length
  simp only [startHeaderValid, last, rxBufferMax, Bool.and_eq_true,
    decide_eq_true_eq, Bool.not_eq_true', Bool.and_eq_false_iff,
    decide_eq_false_iff_not]
  refine ⟨⟨⟨within, decide_eq_true short⟩, ?_⟩, trivial⟩
  omega

theorem Collects.startMisfit_eq (short : msg.length ≤ 65)
    (collects : Collects xactId msg seen rx) (some : seen ≠ [])
    (unstarted : 0 ∉ seen) : startMisfit (lastSeg msg.length) rx.seg = false := by
  have atMostTwo := lastSeg_le_two short
  have received : ∀ index, (~~~rx.seg).getLsbD index =
      (decide (index < 8) && decide (index ∈ seen)) := by
    intro index
    rw [BitVec.getLsbD_not, collects.pending index, topSeg, if_neg unstarted]
    rcases Nat.lt_or_ge index 8 with inside | outside
    · simp [inside, show index ≤ 7 by omega]
    · simp [Nat.not_lt.mpr outside]
  have bounded : (~~~rx.seg).toNat < 2 ^ (lastSeg msg.length + 1) := by
    apply Nat.lt_pow_two_of_testBit
    intro index above
    rw [BitVec.testBit_toNat, received index]
    have unseen : index ∉ seen := by
      intro member
      have := segCut_le_lastSeg (collects.sent index member)
      omega
    simp [unseen]
  have nonzero : (~~~rx.seg).toNat ≠ 0 := by
    obtain ⟨index, member⟩ := exists_mem_of_ne_nil seen some
    have within := segCut_le_lastSeg (collects.sent index member)
    intro zero
    have bit := received index
    rw [← BitVec.testBit_toNat, zero, Nat.zero_testBit] at bit
    simp [member, show index < 8 by omega] at bit
  have log := (Nat.log2_lt nonzero).mpr bounded
  unfold startMisfit findMsbSet
  rw [if_neg nonzero, Bool.and_eq_false_iff, decide_eq_false_iff_not]
  right
  omega

theorem LinkRx.started_seg (xactId gpc fcs : Byte) (len : Nat)
    (payload : List Byte) (rx : LinkRx) :
    (rx.started xactId gpc fcs len payload).seg =
      xactSegRecv 0 ((if rx.seg = 0 then segNval else rx.seg) &&&
        (((1 : Byte) <<< (gpc.toNat / 4 + 1)) - 1)) := rfl

theorem Collects.storeStart (short : msg.length ≤ 65)
    (last : gpc.toNat / 4 = lastSeg msg.length)
    (sent : ∀ index ∈ seen, segCut msg index)
    (stored : StoresSeen msg seen rx.data)
    (pending : ∀ index, (if rx.seg = 0 then segNval else rx.seg).getLsbD index =
      (decide (index ≤ 7) && !decide (index ∈ seen))) :
    Collects xactId msg (0 :: seen) (rx.started xactId gpc (fcsCalc msg) msg.length
        (msg.take startPayloadMax)) := by
  have atMostTwo := lastSeg_le_two short
  have mask : ∀ last ≤ 2, ∀ index,
      (((1 : Byte) <<< (last + 1)) - 1).getLsbD index = decide (index ≤ last) := by
    intro last le index
    rcases Nat.lt_or_ge index 8 with _ | outside
    · revert last index
      decide
    rw [BitVec.getLsbD_of_ge _ _ outside]
    symm
    rw [decide_eq_false_iff_not]
    omega
  refine ⟨rfl, ?_, ?_, ?_, ?_, ?_⟩
  · intro other member
    rcases mem_cons.mp member with rfl | known
    · exact .inl rfl
    · exact sent other known
  · intro other
    rw [LinkRx.started_seg, getLsbD_xactSegRecv, BitVec.getLsbD_and, pending other, last,
      mask _ atMostTwo, topSeg, if_pos (mem_cons_self ..), decide_mem_cons]
    by_cases le : other ≤ lastSeg msg.length
    · simp [le, show other ≤ 7 by omega, Bool.and_comm]
    · simp [le]
  · intro _
    refine ⟨rfl, rfl, ?_⟩
    simp only [LinkRx.started, LinkRx.storeStart, LinkRx.head]
    rw [BitVec.toNat_ofNat, last]
    omega
  · intro unseen
    exact absurd (mem_cons_self ..) unseen
  · have written := stored.write 0
    rw [segSlice_zero] at written
    exact written

theorem startSegment_collected (alloc : Bool) (within : 1 ≤ msg.length)
    (short : msg.length ≤ 65)
    (last : gpc.toNat / 4 = lastSeg msg.length) (onLink : OnLink linkId link)
    (fits : startMisfit (lastSeg msg.length) link.rx.seg = false)
    (sent : ∀ index ∈ seen, segCut msg index)
    (stored : StoresSeen msg seen link.rx.data)
    (pending : ∀ index,
      (if link.rx.seg = 0 then segNval else link.rx.seg).getLsbD index =
        (decide (index ≤ 7) && !decide (index ∈ seen)))
    (incomplete : gathered msg seen = false) :
    Collected linkId xactId msg seen (0 :: seen)
      (startSegment alloc xactId gpc msg.length (fcsCalc msg)
        (msg.take startPayloadMax) link) := by
  have misfit : startMisfit (gpc.toNat / 4) link.rx.seg = false := by
    rw [last]
    exact fits
  have collects : Collects xactId msg (0 :: seen)
      (link.rx.started xactId gpc (fcsCalc msg) msg.length
        (msg.take startPayloadMax)) :=
    .storeStart short last sent stored pending
  simp only [startSegment, startHeaderValid_sent within short last, provClearTx,
    LinkRx.head, misfit, Bool.not_true, Bool.false_eq_true, if_false]
  refine .afterWrite (recvComplete_collected alloc ?_ (cons_ne_nil _ _) collects
    incomplete)
  exact ⟨onLink.id, onLink.cb, onLink.active, onLink.valid⟩

theorem genProvStart_collected (alloc : Bool) (within : 1 ≤ msg.length)
    (short : msg.length ≤ 65) (onLink : OnLink linkId link)
    (stage : RxStage xactId msg seen link.rx) :
    Collected linkId xactId msg seen (0 :: seen)
      (genProvStart alloc xactId (BitVec.ofNat 8 (lastSeg msg.length * 4))
        (BitVec.ofNat 8 (msg.length / 2 ^ 8) :: BitVec.ofNat 8 msg.length ::
          fcsCalc msg :: msg.take startPayloadMax) link) := by
  have atMostTwo := lastSeg_le_two short
  have last : (BitVec.ofNat 8 (lastSeg msg.length * 4)).toNat / 4 =
      lastSeg msg.length := by
    rw [BitVec.toNat_ofNat]
    omega
  have length : (BitVec.ofNat 8 (msg.length / 2 ^ 8)).toNat * 2 ^ 8 +
      (BitVec.ofNat 8 msg.length).toNat = msg.length := by
    rw [BitVec.toNat_ofNat, BitVec.toNat_ofNat]
    omega
  simp only [genProvStart, length]
  cases stage with
  | waiting none complete next =>
    subst none
    have different : xactId ≠ link.rx.id := by
      rw [← next]
      exact nextTransactionId_ne link.rx.id
    have lost := Collects.startLost msg xactId link.rx
    rw [if_neg different, if_neg (not_not.mpr next.symm)]
    refine startSegment_collected alloc within short last onLink ?_ lost.sent
      nofun ?_ (gathered_nil msg)
    · rw [complete]
      rfl
    · rw [if_pos complete]
      exact lost.pending
  | collecting some collects =>
    rw [if_pos collects.id.symm]
    cases all : gathered msg seen with
    | true =>
      rw [if_pos (collects.seg_eq_zero_iff.mpr all)]
      have resent := resend_collected alloc onLink (.collecting some collects)
      exact resent.known ((gathered_iff msg seen).mp all 0 (Nat.zero_le _))
    | false =>
      have pending : link.rx.seg ≠ 0 := by
        intro complete
        rw [collects.seg_eq_zero_iff.mp complete] at all
        cases all
      rw [if_neg pending]
      have low := collects.pending 0
      by_cases started : 0 ∈ seen
      · rw [if_pos (by simpa [started] using low)]
        exact .ignored onLink collects started
      rw [if_neg (by simpa [started] using low)]
      refine startSegment_collected alloc within short last onLink
        (collects.startMisfit_eq short some started) collects.sent
        collects.stored ?_ all
      rw [if_neg pending]
      have field := collects.pending
      rwa [topSeg, if_neg started] at field

theorem be32_parse (value : BitVec 32) :
    (value >>> 24).setWidth 8 ++ (value >>> 16).setWidth 8 ++
      (value >>> 8).setWidth 8 ++ value.setWidth 8 = value := by
  apply BitVec.eq_of_getLsbD_eq
  intro index inside
  simp only [BitVec.getLsbD_append, BitVec.getLsbD_setWidth,
    BitVec.getLsbD_ushiftRight]
  grind

theorem pbAdvRecv_onLink (alloc : Bool) (uuid : List Byte)
    (onLink : OnLink linkId link) (other gpc : Byte) (payload : List Byte) :
    pbAdvRecv alloc uuid (be32 linkId ++ (other :: gpc :: payload)) link =
      genProvRecv alloc uuid linkId other gpc payload link := by
  simp only [pbAdvRecv, onLink.cb, be32, cons_append, nil_append,
    be32_parse, onLink.id, Bool.not_true, Bool.false_eq_true, if_false,
    ne_eq, not_true_eq_false, and_false]

theorem segPdu_collected (alloc : Bool) (uuid : List Byte) (within : 1 ≤ msg.length)
    (short : msg.length ≤ 65) (onLink : OnLink linkId link)
    (stage : RxStage xactId msg seen link.rx) (sent : segCut msg index) :
    Collected linkId xactId msg seen (index :: seen)
      (pbAdvRecv alloc uuid (segPdu linkId xactId msg index) link) := by
  have atMostTwo := lastSeg_le_two short
  have least := segCut_le_lastSeg sent
  cases index with
  | zero =>
    have kind : (BitVec.ofNat 8 (lastSeg msg.length * 4)).toNat % 4 = 0 := by
      rw [BitVec.toNat_ofNat]
      omega
    rw [segPdu, startPdu, pbAdvRecv_onLink alloc uuid onLink, genProvRecv, kind]
    simp only [length_cons, onLink.active]
    rw [if_neg (by omega)]
    exact genProvStart_collected alloc within short onLink stage
  | succ index =>
    have kind : (BitVec.ofNat 8 ((index + 1) * 4 + 2)).toNat % 4 = 2 := by
      rw [BitVec.toNat_ofNat]
      omega
    rw [segPdu, contPdu, pbAdvRecv_onLink alloc uuid onLink, genProvRecv, kind]
    simp only [onLink.active]
    exact genProvCont_collected alloc short onLink stage sent

theorem ownWork_collected (uuid : List Byte) {input : LinkInput}
    (own : input.ownWork = true) (onLink : OnLink linkId link)
    (stage : RxStage xactId msg seen link.rx) :
    Collected linkId xactId msg seen seen (linkStep uuid link input) := by
  obtain ⟨id, cb, active, valid⟩ := onLink
  cases input with
  | ackComplete =>
    exact ⟨⟨id, cb, active, valid⟩, stage, (completes_self msg seen).symm⟩
  | clearTx =>
    exact ⟨⟨id, cb, active, valid⟩, stage, (completes_self msg seen).symm⟩
  | send =>
    simp only [linkStep, provSendAdv]
    split
    · exact ⟨⟨id, cb, active, valid⟩, stage, (completes_self msg seen).symm⟩
    split
    · exact ⟨⟨id, cb, active, valid⟩, stage, (completes_self msg seen).symm⟩
    split
    · exact ⟨⟨id, cb, active, valid⟩, stage, (completes_self msg seen).symm⟩
    refine ⟨⟨id, cb, active, valid⟩, stage, ?_⟩
    rw [completes_self]
    simp [recvCalls]
  | pdu _ _ | bufSent | protocolTimeout _ | retransmit _ _ _ | linkOpen _ _ _
  | linkAccept | linkClose _ _ | reset => cases own

inductive Sees (linkId : BitVec 32) (xactId : Byte) (msg : List Byte) :
    List Nat → List LinkInput → List Nat → Prop
  | done (seen : List Nat) : Sees linkId xactId msg seen [] seen
  | own {seen final : List Nat} {input : LinkInput} {rest : List LinkInput}
      (own : input.ownWork = true) (later : Sees linkId xactId msg seen rest final) :
      Sees linkId xactId msg seen (input :: rest) final
  | arrives {seen final : List Nat} {index : Nat} {alloc : Bool}
      {rest : List LinkInput} (sent : segCut msg index)
      (later : Sees linkId xactId msg (index :: seen) rest final) :
      Sees linkId xactId msg seen
        (.pdu alloc (segPdu linkId xactId msg index) :: rest) final

theorem completes_append {between : List Nat}
    (first : ∀ index ∈ before, index ∈ between)
    (second : ∀ index ∈ between, index ∈ after) :
    completes msg before between ++ completes msg between after =
      completes msg before after := by
  have grows : ∀ {small large : List Nat}, (∀ index ∈ small, index ∈ large) →
      gathered msg small = true → gathered msg large = true := by
    intro small large within all
    rw [gathered_iff] at all ⊢
    intro index le
    exact within index (all index le)
  have early := grows first
  have late := grows second
  simp only [completes]
  cases one : gathered msg before with
  | true => simp [early one, late (early one)]
  | false =>
    cases two : gathered msg between with
    | true => simp [late two]
    | false => simp

theorem Sees.subset (sees : Sees linkId xactId msg before inputs after) :
    ∀ index ∈ before, index ∈ after := by
  induction sees with
  | done => exact fun _ member => member
  | own _ _ ih => exact ih
  | arrives _ _ ih =>
    intro index member
    exact ih index (mem_cons_of_mem _ member)

theorem Sees.calls (uuid : List Byte) (within : 1 ≤ msg.length)
    (short : msg.length ≤ 65) (sees : Sees linkId xactId msg before inputs after)
    (onLink : OnLink linkId link)
    (stage : RxStage xactId msg before link.rx) :
    recvCalls ((linkMachine uuid).trace link inputs) =
      completes msg before after := by
  induction sees generalizing link with
  | done =>
    rw [completes_self]
    rfl
  | @own seen final input rest own later ih =>
    have step := ownWork_collected uuid own onLink stage
    have calls := step.calls
    rw [completes_self] at calls
    rw [Machine.trace_cons, recvCalls_append, ← ih step.onLink step.stage]
    exact congrArg (· ++ _) calls
  | @arrives seen final index alloc rest sent later ih =>
    have step := segPdu_collected alloc uuid within short onLink stage sent
    rw [Machine.trace_cons, recvCalls_append,
      ← completes_append (fun _ member => mem_cons_of_mem _ member)
        later.subset, ← ih step.onLink step.stage]
    exact congrArg (· ++ _) step.calls

theorem Brings.sees {pdus : List (List Byte)} (pdusSent : ∀ pdu, pdu ∈ pdus ↔
      ∃ index, segCut msg index ∧ pdu = segPdu linkId xactId msg index)
    (only : ∀ input ∈ inputs, input.ownWork ∨
      ∃ alloc, ∃ pdu ∈ pdus, input = .pdu alloc pdu) (seen : List Nat) :
    ∃ final, Sees linkId xactId msg seen inputs final ∧
      (∀ index ∈ final, index ∈ seen ∨ segCut msg index) ∧
      ∀ alloc pdu, .pdu alloc pdu ∈ inputs →
        ∃ index ∈ final, pdu = segPdu linkId xactId msg index := by
  induction inputs generalizing seen with
  | nil =>
    refine ⟨seen, .done seen, fun _ member => .inl member, ?_⟩
    intro alloc pdu member
    cases member
  | cons input rest ih =>
    have restOnly := fun other member =>
      only other (mem_cons_of_mem input member)
    rcases only input (mem_cons_self ..) with own | ⟨alloc, pdu, isSent, rfl⟩
    · obtain ⟨final, sees, finalSent, arrived⟩ := ih restOnly seen
      refine ⟨final, .own own sees, finalSent, ?_⟩
      intro alloc pdu member
      rcases mem_cons.mp member with rfl | later
      · cases own
      · exact arrived alloc pdu later
    · obtain ⟨index, sent, rfl⟩ := (pdusSent pdu).mp isSent
      obtain ⟨final, sees, finalSent, arrived⟩ := ih restOnly (index :: seen)
      refine ⟨final, .arrives sent sees, ?_, ?_⟩
      · intro other member
        rcases finalSent other member with known | other
        · rcases mem_cons.mp known with rfl | known
          · exact .inr sent
          · exact .inl known
        · exact .inr other
      · intro other pdu member
        rcases mem_cons.mp member with same | later
        · cases same
          exact ⟨index, sees.subset index (mem_cons_self ..), rfl⟩
        · exact arrived other pdu later

theorem segPdu_gpc (linkId : BitVec 32) (xactId : Byte) (msg : List Byte)
    (index : Nat) :
    (segPdu linkId xactId msg index)[5]? = some (BitVec.ofNat 8
        (if index = 0 then lastSeg msg.length * 4 else index * 4 + 2)) := by
  cases index <;> rfl

theorem segPdu_injective (short : msg.length ≤ 65) {other : Nat}
    (sent : segCut msg index) (otherSent : segCut msg other)
    (same : segPdu linkId xactId msg index = segPdu linkId xactId msg other) :
    index = other := by
  have least := segCut_le_lastSeg sent
  have otherLeast := segCut_le_lastSeg otherSent
  have atMostTwo := lastSeg_le_two short
  have gpc := segPdu_gpc linkId xactId msg index
  rw [same, segPdu_gpc, Option.some_inj] at gpc
  have values := congrArg BitVec.toNat gpc
  rw [BitVec.toNat_ofNat, BitVec.toNat_ofNat] at values
  split at values <;> split at values <;> omega

theorem sentPdus_map (pdus : List (List Byte)) :
    sentPdus (pdus.map .advSend) = pdus := by
  induction pdus with
  | nil => rfl
  | cons => simp [sentPdus]

theorem Brings.gathered_iff {pdus : List (List Byte)} (short : msg.length ≤ 65)
    (brings : Brings pdus inputs) (pdusSent : ∀ pdu, pdu ∈ pdus ↔
      ∃ index, segCut msg index ∧ pdu = segPdu linkId xactId msg index) :
    ∃ final, Sees linkId xactId msg [] inputs final ∧
      (gathered msg final = true ↔ msg.length ≠ 43) := by
  obtain ⟨final, sees, finalSent, arrived⟩ := Brings.sees pdusSent brings.only []
  have allSent : ∀ index ∈ final, segCut msg index := by
    intro index member
    rcases finalSent index member with known | sent
    · cases known
    · exact sent
  have complete : ∀ index, segCut msg index → index ∈ final := by
    intro index sent
    obtain ⟨alloc, member⟩ := brings.every _ ((pdusSent _).mpr ⟨index, sent, rfl⟩)
    obtain ⟨other, seen, same⟩ := arrived alloc _ member
    rw [segPdu_injective short sent (allSent other seen) same]
    exact seen
  refine ⟨final, sees, ?_⟩
  rw [Mesh.gathered_iff, ← segCut_lastSeg short]
  constructor
  · intro all
    exact allSent _ (all _ (Nat.le_refl _))
  · intro lastSent index le
    rcases Nat.lt_or_eq_of_le le with before | rfl
    · exact complete index (segCut_of_lt_lastSeg before)
    · exact complete _ lastSent

end Receiver

/-- The receiver that expects the transaction gets the message, once, whatever
the order of the segments and however often they are repeated, unless the
sender announces a segment more than it sends. -/
theorem provSendAdv_received_iff (uuid : List Byte) (allocs : Nat)
    (msg : List Byte) (sender receiver : Link) (inputs : List LinkInput)
    (within : 1 ≤ msg.length) (short : msg.length ≤ 65)
    (sends : (provSendAdv allocs msg sender).1 = .ok ())
    (expects : Expects sender.id (nextTransactionId sender.tx.id) receiver)
    (brings : Brings (sentPdus (provSendAdv allocs msg sender).2.2) inputs) :
    recvCalls ((linkMachine uuid).trace receiver inputs) = [msg] ↔
      msg.length ≠ 43 := by
  obtain ⟨_, evts, pdusSent⟩ := provSendAdv_sends sends
  rw [evts, sentPdus_map] at brings
  obtain ⟨final, sees, whole⟩ := brings.gathered_iff short pdusSent
  have onLink : OnLink sender.id receiver :=
    ⟨expects.id, expects.cb, expects.active, expects.valid⟩
  have stage : RxStage (nextTransactionId sender.tx.id) msg [] receiver.rx :=
    .waiting rfl expects.complete expects.next
  rw [sees.calls uuid within short onLink stage, completes, gathered_nil,
    Bool.not_false, Bool.and_true, ← whole]
  cases gathered msg final <;> simp

def sampleLink : Link where
  id := 1
  flags := { LinkFlags.clear with active := true }
  cb := true
  rx := ⟨xactIdMax, 0, 0, 0, 0, fun _ => 0⟩
  tx := ⟨xactIdMax, xactIdNval, []⟩

def sampleArrivals : List LinkInput :=
  let start := segPdu 1 0 (List.replicate 21 7) 0
  let cont := segPdu 1 0 (List.replicate 21 7) 1
  [.pdu true cont, .pdu true start, .ackComplete, .pdu false cont]

theorem provSendAdv_received_iff_reordered :
    recvCalls ((linkMachine sampleUuid).trace sampleLink sampleArrivals) =
      [replicate 21 7] := by
  have sent : sentPdus (provSendAdv 3 (replicate 21 7) sampleLink).2.2 =
      [segPdu 1 0 (replicate 21 7) 0, segPdu 1 0 (replicate 21 7) 1] := by
    decide +kernel
  refine (provSendAdv_received_iff sampleUuid 3 (replicate 21 7) sampleLink
    sampleLink sampleArrivals (by decide) (by decide) rfl
    ⟨rfl, rfl, rfl, rfl, rfl, rfl⟩ ?_).mpr (by decide)
  rw [sent]
  constructor
  · simp [sampleArrivals, LinkInput.ownWork]
  · simp [sampleArrivals]

theorem provSendAdv_43_bytes_lost :
    ¬ ∀ (allocs : Nat) (msg : List Byte) (sender receiver : Link)
      (inputs : List LinkInput), 1 ≤ msg.length → msg.length ≤ 65 →
      (provSendAdv allocs msg sender).1 = .ok () →
      Expects sender.id (nextTransactionId sender.tx.id) receiver →
      Brings (sentPdus (provSendAdv allocs msg sender).2.2) inputs →
      recvCalls ((linkMachine sampleUuid).trace receiver inputs) = [msg] := by
  intro claim
  have sent : sentPdus (provSendAdv 3 (replicate 43 7) sampleLink).2.2 =
      [segPdu 1 0 (replicate 43 7) 0, segPdu 1 0 (replicate 43 7) 1] := by
    decide +kernel
  have received := claim 3 (replicate 43 7) sampleLink sampleLink
    [.pdu true (segPdu 1 0 (replicate 43 7) 0),
      .pdu true (segPdu 1 0 (replicate 43 7) 1)]
    (by decide) (by decide) rfl ⟨rfl, rfl, rfl, rfl, rfl, rfl⟩
    (by
      rw [sent]
      constructor
      · simp
      · simp)
  revert received
  decide +kernel

end ZephyrBluetooth.Mesh
