import ZephyrBluetooth.Mesh.FriendHeld

namespace ZephyrBluetooth.Mesh

open Data List Option

variable {seg : FrndSeg} {src netIdx : Nat} {offer : Offered}

/-- The friendship has its share of the buffers at most, the differences to the
size of the Friend Queue do not wrap around, and every buffer was taken while
one of the share was left. -/
structure Frnd.Within (cfg : FriendConfig) (frnd : Frnd) : Prop where
  held : frnd.held ≤ cfg.queueSize + 1
  queueSize : frnd.queueSize ≤ cfg.queueSize
  reserved : frnd.reserved ≤ cfg.queueSize
  taken : ∀ held ∈ frnd.log.taken, held < cfg.queueSize + 1

def Frnd.known (offer : Offered) (frnd : Frnd) : Option FrndSeg :=
  if offer.sdu.type = .single then
    none
  else
    frnd.seg.find? fun seg =>
      seg.isSeg offer.info.src
        (FriendBuf.seqZero ⟨Frnd.pduBytes offer.info offer.sdu.sbuf, false⟩)

def Frnd.RoomForUpdate (cfg : FriendConfig) (frnd : Frnd) : Prop :=
  frnd.queueSize + frnd.reserved < cfg.queueSize

/-- A new message is queued beside the announced segments, or none are
announced; a known one has segments to come. -/
def Frnd.RoomForOffer (cfg : FriendConfig) (offer : Offered) (frnd : Frnd) :
    Prop :=
  offer.own = false →
    frnd.hasSpace cfg offer.info.src offer.sdu.seqAuth offer.sdu.segCount = true →
    match frnd.known offer with
    | some seg => seg.queue.length < seg.segCount
    | none =>
      frnd.reserved = 0 ∨
        frnd.queueSize + frnd.reserved + offer.sdu.segCount ≤ cfg.queueSize

def Frnd.takes (frnd : Frnd) : Bool :=
  frnd.netIdx.isSome && !(frnd.sendLast && frnd.last.isSome) &&
    !(frnd.established && !frnd.pendingReq)

def Frnd.pollsUpdate (netIdx src : Nat) (buf : List Byte) (frnd : Frnd) : Bool :=
  match buf with
  | [] => false
  | fsn :: _ =>
    frnd.isFound false netIdx src && decide (fsn.toNat < 2) && !frnd.pendingBuf &&
      !(decide (fsn.toNat = frnd.fsn.toNat) && frnd.last.isSome) &&
      frnd.queue.isEmpty

/-- The PDU that `encode_friend_ctl` builds. -/
def Frnd.ctlBytes (env : FriendEnv) (dst ctlOp : Nat) (sdu : List Byte) :
    List Byte :=
  Frnd.pduBytes
    { src := env.primary
      dst := dst
      seq := 0
      ttl := 0
      ctl := true
      ivIndex := ivBefore env.ivIndex env.ivuInProgress }
    (BitVec.ofNat 8 (ctlOp % 2 ^ 7) :: sdu)

def RoomFor (cfg : FriendConfig) (frnd : Frnd) (input : FrndInput) : Prop :=
  match input with
  | .enqueueRx .. | .enqueueTx .. =>
    ∀ offer, input.offered frnd = some offer → frnd.RoomForOffer cfg offer
  | .poll _ netIdx src buf =>
    frnd.pollsUpdate netIdx src buf = true → frnd.RoomForUpdate cfg
  | .secUpdate _ netIdx =>
    frnd.netIdx.isSome → (netIdx = none ∨ frnd.netIdx = netIdx) →
      frnd.RoomForUpdate cfg
  | .subnetEvt _ netIdx evt _ =>
    frnd.netIdx = some netIdx → (evt = .swapped ∨ evt = .revoked) →
      frnd.RoomForUpdate cfg
  | .sub env _ netIdx src buf =>
    frnd.subHandled netIdx src buf = true → frnd.held < cfg.queueSize + 1 ∧
        (env.encrypt (Frnd.ctlBytes env frnd.lpn 0x09 (buf.take 1))).1 = true
  | .request env _ addr _ credErr offer =>
    credErr = false → (env.encrypt (Frnd.ctlBytes env addr 0x04 offer)).1 = true
  | .timeout env =>
    frnd.takes = true → frnd.last = none ∧
      ∀ buf rest, frnd.queue = buf :: rest → rest = [] ∨
        (env.encrypt (Frnd.updateOverwrite (!rest.isEmpty) buf.data)).1 = true
  | _ => True

namespace Frnd

variable {cfg : FriendConfig} {env : FriendEnv} {frnd : Frnd}

structure Spaced (cfg : FriendConfig) (frnd : Frnd) : Prop where
  queue : frnd.queue.length ≤ frnd.queueSize
  space : frnd.queueSize + frnd.reserved ≤ cfg.queueSize
  segs : ∀ seg ∈ frnd.seg, seg.queue.length ≤ seg.segCount
  taken : ∀ held ∈ frnd.log.taken, held < cfg.queueSize + 1
  leaked : frnd.leaked = 0
  linked : frnd.linked = false
  faulted : frnd.faulted = false
  idle : frnd.netIdx = none → frnd.last = none

theorem last_length (frnd : Frnd) : frnd.last.toList.length ≤ 1 := by
  cases frnd.last with
  | none => exact Nat.zero_le 1
  | some => exact le_refl 1

section

variable (spaced : Spaced cfg frnd)
include spaced

theorem Spaced.segHeld_le : frnd.segHeld ≤ frnd.reserved :=
  sum_map_le spaced.segs

theorem Spaced.within : Within cfg frnd := by
  have held : frnd.held = frnd.queue.length + frnd.segHeld +
    frnd.last.toList.length := rfl
  have last := last_length frnd
  have segHeld := spaced.segHeld_le
  have queue := spaced.queue
  have space := spaced.space
  exact ⟨by omega, by omega, by omega, spaced.taken⟩

theorem Spaced.clear : Spaced cfg frnd.clear where
  queue := le_refl 0
  space := by
    have nothing : frnd.clear.reserved = 0 := by
      simp [Frnd.clear, reserved, FrndSeg.empty]
    rw [nothing]
    exact Nat.zero_le _
  segs seg member := by
    obtain ⟨_, _, rfl⟩ := mem_map.mp member
    exact le_refl 0
  taken held member := by cases member
  leaked := spaced.leaked
  linked := rfl
  faulted := by
    change (frnd.faulted || frnd.last.isSome && frnd.linked) = false
    rw [spaced.faulted, spaced.linked, Bool.and_false, Bool.or_false]
  idle _ := rfl

theorem Spaced.unrefLast : Spaced cfg frnd.unrefLast :=
  { spaced with
    linked := rfl
    faulted := spaced.clear.faulted
    idle := fun _ => rfl }

end

variable {buf : FriendBuf} {after : Frnd}

section

variable (spaced : Spaced cfg frnd)
include spaced

theorem Spaced.created {info : FriendPduInfo} {sdu : List Byte}
    (room : frnd.held < cfg.queueSize + 1)
    (created : frnd.createPdu cfg env info sdu = some (buf, after)) :
    Spaced cfg after := by
  obtain ⟨_, _, rfl⟩ := createPdu_spec created
  refine { spaced with taken := ?_ }
  intro held member
  rcases mem_append.mp member with old | now
  · exact spaced.taken held old
  · rw [mem_singleton.mp now, spaced.leaked]
    exact room

section

variable (room : frnd.queueSize + frnd.reserved < cfg.queueSize)
include room

theorem Spaced.enqueueBuf (buf : FriendBuf) :
    Spaced cfg (frnd.enqueueBuf buf) := by
  have limit := cfg.queueSize_le
  have queue := spaced.queue
  have size : (frnd.enqueueBuf buf).queueSize = frnd.queueSize + 1 :=
    Nat.mod_eq_of_lt (by omega)
  have length : (frnd.enqueueBuf buf).queue.length = frnd.queue.length + 1 := by
    rw [Frnd.enqueueBuf, length_append, length_singleton]
  exact { spaced with
    queue := by rw [size, length]; omega
    space := by
      rw [size]
      change frnd.queueSize + 1 + frnd.reserved ≤ _
      omega }

theorem Spaced.held_lt : frnd.held < cfg.queueSize + 1 := by
  have held : frnd.held = frnd.queue.length + frnd.segHeld +
    frnd.last.toList.length := rfl
  have last := last_length frnd
  have segHeld := spaced.segHeld_le
  have queue := spaced.queue
  omega

end

theorem Spaced.enqueueUpdate (room : RoomForUpdate cfg frnd) (md : Nat) :
    Spaced cfg (frnd.enqueueUpdate cfg env md) := by
  unfold Frnd.enqueueUpdate
  split
  · exact spaced
  rename_i buf taken created
  have after := spaced.created (spaced.held_lt room) created
  obtain ⟨_, _, rfl⟩ := createPdu_spec created
  exact after.enqueueBuf room buf

theorem Spaced.sendNext (ctlOp : Nat)
    (sdu : List Byte) (room : frnd.held < cfg.queueSize + 1)
    (encrypted : (env.encrypt (ctlBytes env frnd.lpn ctlOp sdu)).1 = true)
    (allocated : frnd.netIdx ≠ none) :
    Spaced cfg (frnd.sendNext env (frnd.encodeCtl cfg env ctlOp sdu)) := by
  unfold Frnd.sendNext
  split
  · exact spaced
  rename_i buf after created
  have taken := (spaced.created room created).unrefLast
  obtain ⟨_, rfl, rfl⟩ := createPdu_spec created
  have encrypted : (env.encrypt (pduBytes
      { src := env.primary
        dst := frnd.lpn
        seq := 0
        ttl := 0
        ctl := true
        ivIndex := ivBefore env.ivIndex env.ivuInProgress }
      (BitVec.ofNat 8 (ctlOp % 2 ^ 7) :: sdu))).1 = true := encrypted
  rw [if_pos encrypted]
  exact { taken with idle := fun none => absurd none allocated }

end

theorem evict_space {total segCount : Nat} (limit : total < 2 ^ 32) :
    ∀ (pending : Bool) (avail size : Nat) (queue : List FriendBuf),
      queue.length ≤ size → size ≤ total → avail = (total - size) % 2 ^ 8 →
      (evict segCount pending avail size queue).2.2.length ≤
          (evict segCount pending avail size queue).2.1 ∧
        (evict segCount pending avail size queue).2.1 ≤ size ∧
        ((evict segCount pending avail size queue).1 = true →
          (evict segCount pending avail size queue).2.1 + segCount ≤ total)
  | pending, avail, size, [], counted, below, same => by
      refine ⟨counted, le_refl size, ?_⟩
      rw [evict]
      intro ready
      simp only [Bool.not_eq_true', Bool.or_eq_false_iff,
        decide_eq_false_iff_not] at ready
      change size + segCount ≤ total
      omega
  | pending, avail, size, buf :: rest, counted, below, same => by
      rw [length_cons] at counted
      rw [evict]
      split
      · have less : dec32 size = size - 1 := by
          unfold dec32
          omega
        rw [less]
        obtain ⟨length, _, room⟩ := @evict_space total segCount limit
          buf.frags ((avail + 1) % 2 ^ 8) (size - 1) rest (by omega) (by omega)
          (by omega)
        exact ⟨length, by omega, room⟩
      · rename_i done
        refine ⟨counted, le_refl size, fun _ => ?_⟩
        simp only [Bool.or_eq_true, decide_eq_true_eq, not_or] at done
        change size + segCount ≤ total
        omega

theorem Spaced.prepareSpace (spaced : Spaced cfg frnd) (addr : Nat)
    (seqAuth : Option Nat) (segCount : Nat) :
    Spaced cfg (frnd.prepareSpace cfg addr seqAuth segCount).2 ∧
      (frnd.prepareSpace cfg addr seqAuth segCount).2.seg = frnd.seg ∧
      (frnd.prepareSpace cfg addr seqAuth segCount).2.queueSize ≤ frnd.queueSize ∧
      ((frnd.prepareSpace cfg addr seqAuth segCount).1 = true →
        frnd.hasSpace cfg addr seqAuth segCount = true ∧
          (frnd.prepareSpace cfg addr seqAuth segCount).2.queueSize + segCount ≤
            cfg.queueSize) := by
  unfold Frnd.prepareSpace
  cases space : frnd.hasSpace cfg addr seqAuth segCount with
  | false => exact ⟨spaced, rfl, le_refl _, fun ready => by cases ready⟩
  | true =>
    have limit := cfg.queueSize_le
    have below := spaced.space
    obtain ⟨length, smaller, room⟩ := @evict_space cfg.queueSize segCount
      (by omega) false
      ((cfg.queueSize + 2 ^ 32 - frnd.queueSize) % 2 ^ 32 % 2 ^ 8)
      frnd.queueSize frnd.queue spaced.queue (by omega) (by omega)
    refine ⟨{ spaced with queue := length, space := ?_ }, rfl, smaller,
      fun ready => ⟨rfl, room ready⟩⟩
    exact le_trans (Nat.add_le_add_right smaller _) below

theorem Spaced.purgeOldAck (spaced : Spaced cfg frnd) (seqAuth src : Nat) :
    Spaced cfg (frnd.purgeOldAck seqAuth src) ∧
      (frnd.purgeOldAck seqAuth src).seg = frnd.seg ∧
      (frnd.purgeOldAck seqAuth src).queueSize ≤ frnd.queueSize := by
  unfold Frnd.purgeOldAck
  split
  · rename_i found
    obtain ⟨_, member, isAck⟩ := any_eq_true.mp found
    have shorter := length_eraseP_of_mem member isAck
    have some := length_pos_of_mem member
    have limit := cfg.queueSize_le
    have below := spaced.space
    have queue := spaced.queue
    have less : dec32 frnd.queueSize = frnd.queueSize - 1 := by
      unfold dec32
      omega
    refine ⟨{ spaced with queue := ?_, space := ?_ }, rfl, ?_⟩
    · change _ ≤ dec32 frnd.queueSize
      rw [shorter, less]
      omega
    · change dec32 frnd.queueSize + frnd.reserved ≤ _
      rw [less]
      omega
    · change dec32 frnd.queueSize ≤ _
      rw [less]
      omega
  · exact ⟨spaced, rfl, le_refl _⟩

theorem reserved_set {slot : Nat} {old : FrndSeg}
    (found : frnd.seg[slot]? = some old) (seg : FrndSeg) :
    ((frnd.seg.set slot seg).map FrndSeg.segCount).sum + old.segCount =
      frnd.reserved + seg.segCount :=
  sum_map_set FrndSeg.segCount found seg

theorem segs_set {slot : Nat}
    (segs : ∀ seg ∈ frnd.seg, seg.queue.length ≤ seg.segCount)
    (fits : seg.queue.length ≤ seg.segCount) :
    ∀ other ∈ frnd.seg.set slot seg, other.queue.length ≤ other.segCount := by
  intro other member
  rcases mem_or_eq_of_mem_set member with old | rfl
  · exact segs other old
  · exact fits

theorem Spaced.held_lt_of_seg (spaced : Spaced cfg frnd) (member : seg ∈ frnd.seg)
    (fewer : seg.queue.length < seg.segCount) :
    frnd.held < cfg.queueSize + 1 := by
  obtain ⟨slot, found⟩ := mem_iff_getElem?.mp member
  have more := @sum_map_le _ (fun seg : FrndSeg => seg.queue.length)
    FrndSeg.segCount
    (frnd.seg.set slot { seg with queue := seg.queue ++ [⟨[], false⟩] })
    (segs_set spaced.segs (by
      rw [length_append, length_singleton]
      exact fewer))
  have lengths := sum_map_set (fun seg : FrndSeg => seg.queue.length) found
    { seg with queue := seg.queue ++ [⟨[], false⟩] }
  have counts := reserved_set found { seg with queue := seg.queue ++ [⟨[], false⟩] }
  have held : frnd.held = frnd.queue.length + frnd.segHeld +
    frnd.last.toList.length := rfl
  have segHeld : frnd.segHeld = (frnd.seg.map fun seg => seg.queue.length).sum := rfl
  have last := last_length frnd
  have queue := spaced.queue
  have space := spaced.space
  rw [length_append, length_singleton] at lengths
  dsimp only at counts
  omega

structure SegRoom (cfg : FriendConfig) (frnd : Frnd) (slot : Nat)
    (old seg : FrndSeg) : Prop where
  found : frnd.seg[slot]? = some old
  queue : old.queue = seg.queue
  fewer : seg.queue.length < seg.segCount
  space : frnd.queueSize + (frnd.reserved - old.segCount + seg.segCount) ≤
    cfg.queueSize
  counted : old.segCount ≤ frnd.reserved

theorem Spaced.enqueueSegment (spaced : Spaced cfg frnd) {segCount : Nat}
    {type : FriendPduType} (segment : type ≠ .single)
    (room : ∀ slot seg, getSeg src buf.seqZero segCount frnd.seg =
      some (slot, seg) → ∃ old, SegRoom cfg frnd slot old seg) :
    Spaced cfg (frnd.enqueuePdu type src segCount buf) := by
  have limit := cfg.queueSize_le
  cases type with
  | single => exact absurd rfl segment
  | incomplete =>
    rw [enqueuePdu_incomplete]
    cases got : getSeg src buf.seqZero segCount frnd.seg with
    | none => exact spaced
    | some context =>
      obtain ⟨slot, seg⟩ := context
      obtain ⟨old, room⟩ := room slot seg got
      have longer : (seg.queue ++ [{ buf with frags := true }]).length ≤
          seg.segCount := by
        rw [length_append, length_singleton]
        exact room.fewer
      refine { spaced with segs := segs_set spaced.segs longer, space := ?_ }
      · have sums := reserved_set room.found
          { seg with queue := seg.queue ++ [{ buf with frags := true }] }
        have space := room.space
        have counted := room.counted
        change frnd.queueSize + ((frnd.seg.set slot
          { seg with queue := seg.queue ++ [{ buf with frags := true }] }).map
            FrndSeg.segCount).sum ≤ _
        dsimp only at sums
        omega
  | complete =>
    rw [enqueuePdu_complete]
    cases got : getSeg src buf.seqZero segCount frnd.seg with
    | none => exact spaced
    | some context =>
      obtain ⟨slot, seg⟩ := context
      obtain ⟨old, room⟩ := room slot seg got
      have space := room.space
      have counted := room.counted
      have fewer := room.fewer
      have queue := spaced.queue
      refine { spaced with
        queue := ?_, segs := segs_set spaced.segs (le_refl 0),
        space := ?_ }
      · change (frnd.queue ++ (seg.queue ++ [buf])).length ≤
          (frnd.queueSize + seg.segCount) % 2 ^ 32
        rw [length_append, length_append, length_singleton]
        omega
      · have sums := reserved_set room.found .empty
        have none : FrndSeg.empty.segCount = 0 := rfl
        change (frnd.queueSize + seg.segCount) % 2 ^ 32 +
          ((frnd.seg.set slot .empty).map FrndSeg.segCount).sum ≤ _
        omega

theorem segCount_le_reserved (member : seg ∈ frnd.seg) :
    seg.segCount ≤ frnd.reserved := by
  obtain ⟨_, found⟩ := mem_iff_getElem?.mp member
  have sums := reserved_set found .empty
  have none : FrndSeg.empty.segCount = 0 := rfl
  omega

theorem getSeg_find {seqZero segCount slot : Nat} {segs : List FrndSeg}
    (got : getSeg src seqZero segCount segs = some (slot, seg)) :
    ∃ old, segs[slot]? = some old ∧ old.queue = seg.queue ∧
      ((segs.find? fun seg => seg.isSeg src seqZero) = some seg ∧ seg = old ∨
        (segs.find? fun seg => seg.isSeg src seqZero) = none ∧
          seg = ⟨[], segCount % 2 ^ 8⟩) := by
  rw [find?_eq_bind_findIdx?_getElem?]
  unfold getSeg at got
  cases search : segs.findIdx? fun seg => seg.isSeg src seqZero with
  | some =>
    rw [search] at got
    obtain ⟨_, here, pair⟩ := map_eq_some_iff.mp got
    cases pair
    exact ⟨_, here, rfl, .inl ⟨here, rfl⟩⟩
  | none =>
    rw [search] at got
    obtain ⟨_, free, pair⟩ := map_eq_some_iff.mp got
    cases pair
    obtain ⟨bound, isFree, _⟩ := findIdx?_eq_some_iff_getElem.mp free
    exact ⟨_, getElem?_eq_getElem bound, isEmpty_iff.mp isFree, .inr ⟨rfl, rfl⟩⟩

theorem Spaced.segment (spaced : Spaced cfg frnd) (type : offer.sdu.type ≠ .single)
    (ready : frnd.queueSize + offer.sdu.segCount ≤ cfg.queueSize)
    (room : match frnd.known offer with
      | some seg => seg.queue.length < seg.segCount
      | none => frnd.reserved = 0 ∨
          frnd.queueSize + frnd.reserved + offer.sdu.segCount ≤ cfg.queueSize) :
    Spaced cfg (match frnd.createPdu cfg offer.env offer.info offer.sdu.sbuf with
      | none => frnd
      | some (buf, taken) =>
        taken.enqueuePdu offer.sdu.type offer.info.src offer.sdu.segCount buf) := by
  have count : offer.sdu.segCount = offer.sdu.segN + 1 := if_neg type
  have few := offer.sdu.segN.isLt
  split
  · exact spaced
  rename_i buf taken created
  have known : frnd.known offer =
      frnd.seg.find? fun seg => seg.isSeg offer.info.src buf.seqZero := by
    obtain ⟨_, rfl, _⟩ := createPdu_spec created
    exact if_neg type
  rw [known] at room
  cases found : frnd.seg.find? fun seg =>
      seg.isSeg offer.info.src buf.seqZero with
  | some context =>
    rw [found] at room
    have member := mem_of_find?_eq_some found
    have after := spaced.created (spaced.held_lt_of_seg member room) created
    obtain ⟨_, _, rfl⟩ := createPdu_spec created
    refine after.enqueueSegment type fun slot seg got => ?_
    obtain ⟨old, here, queue, ⟨same, rfl⟩ | ⟨none, _⟩⟩ := getSeg_find got
    · rw [found] at same
      cases same
      have counted := segCount_le_reserved member
      have space := spaced.space
      refine ⟨_, here, rfl, room, ?_, counted⟩
      change frnd.queueSize +
        (frnd.reserved - context.segCount + context.segCount) ≤ _
      omega
    · rw [found] at none
      cases none
  | none =>
    rw [found] at room
    have free : frnd.queueSize + frnd.reserved < cfg.queueSize := by omega
    have after := spaced.created (spaced.held_lt free) created
    obtain ⟨_, _, rfl⟩ := createPdu_spec created
    refine after.enqueueSegment type fun slot seg got => ?_
    obtain ⟨old, here, queue, ⟨same, _⟩ | ⟨_, rfl⟩⟩ := getSeg_find got
    · rw [found] at same
      cases same
    have counted := segCount_le_reserved (mem_of_getElem? here)
    have byte : offer.sdu.segCount % 2 ^ 8 = offer.sdu.segCount :=
      Nat.mod_eq_of_lt (by omega)
    refine ⟨old, here, queue, ?_, ?_, counted⟩
    · change 0 < offer.sdu.segCount % 2 ^ 8
      omega
    · change frnd.queueSize + (frnd.reserved - old.segCount +
        offer.sdu.segCount % 2 ^ 8) ≤ _
      omega

structure Less (before after : Frnd) : Prop where
  seg : after.seg = before.seg
  queueSize : after.queueSize ≤ before.queueSize

theorem Less.reserved (less : Less frnd after) :
    after.reserved = frnd.reserved := by
  rw [Frnd.reserved, less.seg, Frnd.reserved]

theorem Less.known (less : Less frnd after) (offer : Offered) :
    after.known offer = frnd.known offer := by
  rw [Frnd.known, less.seg, Frnd.known]

section

variable (spaced : Spaced cfg frnd)
include spaced

theorem Spaced.single (type : offer.sdu.type = .single)
    (free : frnd.queueSize + frnd.reserved < cfg.queueSize) :
    Spaced cfg (frnd.lpnEnqueue cfg offer.env offer.info offer.sdu) := by
  obtain ⟨purged, same, step⟩ :=
    @lpnEnqueue_cases cfg offer.env frnd offer.info offer.sdu
  rw [step]
  have kept : Spaced cfg purged ∧ Less frnd purged := by
    rcases same with rfl | ⟨seqAuth, _, _, rfl⟩
    · exact ⟨spaced, rfl, le_refl _⟩
    · obtain ⟨after, segs, less⟩ := spaced.purgeOldAck seqAuth offer.info.src
      exact ⟨after, segs, less⟩
  obtain ⟨after, less⟩ := kept
  have room : purged.queueSize + purged.reserved < cfg.queueSize := by
    rw [less.reserved]
    exact lt_of_le_of_lt (Nat.add_le_add_right less.queueSize _) free
  split
  · exact after
  rename_i buf taken created
  have taking := after.created (after.held_lt room) created
  obtain ⟨_, _, rfl⟩ := createPdu_spec created
  rw [type]
  exact taking.enqueueBuf room buf

theorem Spaced.deliver (room : RoomForOffer cfg offer frnd) :
    Spaced cfg (frnd.deliver cfg offer) := by
  obtain ⟨prepared, segs, smaller, space⟩ := spaced.prepareSpace
    offer.info.src offer.sdu.seqAuth offer.sdu.segCount
  unfold Frnd.deliver
  rcases result : frnd.prepareSpace cfg offer.info.src offer.sdu.seqAuth
    offer.sdu.segCount with ⟨ready, evicted⟩
  rw [result] at prepared segs smaller space
  dsimp only at prepared segs smaller space
  have less : Less frnd evicted := ⟨segs, smaller⟩
  cases ready with
  | false => exact prepared
  | true =>
    obtain ⟨has, fits⟩ := space rfl
    cases own : offer.own with
    | true => exact prepared
    | false =>
      have room := room own has
      dsimp only
      rw [if_neg Bool.false_ne_true]
      by_cases type : offer.sdu.type = .single
      · have count : offer.sdu.segCount = 1 := if_pos type
        have alone : frnd.known offer = none := if_pos type
        rw [alone, count] at room
        rw [count] at fits
        refine prepared.single type ?_
        rw [less.reserved]
        omega
      · obtain ⟨_, rfl | ⟨_, single, _⟩, step⟩ :=
          @lpnEnqueue_cases cfg offer.env evicted offer.info offer.sdu
        · rw [step]
          refine prepared.segment type fits ?_
          rw [less.known, less.reserved]
          cases context : frnd.known offer with
          | some =>
            rw [context] at room
            exact room
          | none =>
            rw [context] at room
            omega
        · exact absurd single type

theorem Spaced.dropLast (empty : frnd.last = none) : Spaced cfg frnd.dropLast :=
  { spaced with
    leaked := by
      change frnd.leaked + frnd.last.toList.length = 0
      rw [spaced.leaked, empty]
      rfl
    linked := rfl
    idle := fun _ => rfl }

theorem Spaced.sendBuf : Spaced cfg (frnd.sendBuf env) := by
  unfold Frnd.sendBuf
  split
  · exact { spaced with }
  · exact spaced

theorem Spaced.sendQueued {rest : List FriendBuf}
    (allocated : frnd.netIdx ≠ none)
    (empty : frnd.last = none) (queue : frnd.queue = buf :: rest)
    (encrypted : rest = [] ∨
      (env.encrypt (updateOverwrite (!rest.isEmpty) buf.data)).1 = true) :
    Spaced cfg (frnd.sendQueued env buf rest) := by
  have dropped := spaced.dropLast empty
  have length := spaced.queue
  have space := spaced.space
  have limit := cfg.queueSize_le
  rw [queue, length_cons] at length
  have less : dec32 frnd.queueSize = frnd.queueSize - 1 := by
    unfold dec32
    omega
  unfold Frnd.sendQueued
  dsimp only
  split
  · refine Spaced.sendBuf { dropped with queue := ?_, space := ?_, idle := ?_ }
    · change rest.length ≤ dec32 frnd.queueSize
      omega
    · change dec32 frnd.queueSize + frnd.reserved ≤ cfg.queueSize
      omega
    · exact fun none => absurd none allocated
  · rename_i failed
    have last : rest = [] := encrypted.resolve_right failed
    subst last
    exact { dropped with
      queue := Nat.zero_le _
      linked := rfl
      idle := fun none => absurd none allocated }

end

section

variable (spaced : Spaced cfg frnd)
include spaced

theorem Spaced.timeout (room : RoomFor cfg frnd (.timeout env)) :
    Spaced cfg (frnd.timeout env) := by
  have takes : frnd.netIdx.isNone = false →
      (frnd.sendLast && frnd.last.isSome) = false →
      (frnd.established && !frnd.pendingReq) = false → frnd.takes = true := by
    intro allocated last ended
    rw [Frnd.takes, last, ended, ← not_isNone, allocated]
    rfl
  unfold Frnd.timeout
  split
  · exact spaced
  rename_i allocated
  have allocated := eq_false_of_ne_true allocated
  split
  · exact Spaced.sendBuf { spaced with }
  rename_i last
  split
  · exact spaced.clear
  rename_i ended
  obtain ⟨empty, encrypted⟩ := room (takes allocated
    (eq_false_of_ne_true last) (eq_false_of_ne_true ended))
  cases queue : frnd.queue with
  | nil => exact (spaced.dropLast empty).clear
  | cons buf rest =>
    refine spaced.sendQueued ?_ empty queue (encrypted buf rest queue)
    intro none
    rw [none] at allocated
    cases allocated

theorem Spaced.poll {buf : List Byte}
    (room : RoomFor cfg frnd (.poll env netIdx src buf)) :
    Spaced cfg (frnd.poll cfg env netIdx src buf) := by
  have room : frnd.pollsUpdate netIdx src buf = true → frnd.RoomForUpdate cfg := room
  unfold Frnd.pollsUpdate at room
  unfold Frnd.poll
  cases buf with
  | nil => exact spaced
  | cons fsn rest =>
    dsimp only at room ⊢
    split
    · exact spaced
    rename_i found
    split
    · exact spaced
    rename_i valid
    split
    · exact spaced
    rename_i pending
    split
    · exact { spaced with }
    rename_i again
    have next : Spaced cfg
        { ({ frnd with pendingReq := true, established := true } :
            Frnd).unrefLast with fsn := decide (fsn.toNat = 1) } :=
      { spaced.unrefLast with }
    split
    · rename_i empty
      refine next.enqueueUpdate ?_ 0
      have again : (decide (fsn.toNat = frnd.fsn.toNat) &&
          frnd.last.isSome) = false := by
        rw [Bool.and_eq_false_imp]
        intro same
        exact eq_false_of_ne_true fun some =>
          again ⟨of_decide_eq_true same, some⟩
      refine room ?_
      rw [again, empty, eq_false_of_ne_true pending,
        decide_eq_true (Nat.lt_of_not_le valid)]
      simpa using found
    · exact next

theorem Spaced.sub {op : SubOp} {buf : List Byte}
    (room : RoomFor cfg frnd (.sub env op netIdx src buf)) :
    Spaced cfg (frnd.sub cfg env op netIdx src buf) := by
  unfold Frnd.sub
  split
  · rename_i xact high low rest
    split
    · exact spaced
    rename_i found
    split
    · exact spaced
    rename_i pending
    have found : frnd.isFound true netIdx src = true := by simpa using found
    have handled : frnd.subHandled netIdx src (xact :: high :: low :: rest) =
        true := by
      simp [subHandled, found, pending]
    obtain ⟨held, encrypted⟩ := room handled
    have requested : Spaced cfg
        { frnd with
          pendingReq := true
          subList := (pullAddrs (high :: low :: rest)).foldl (subChange op)
            frnd.subList
          log := { frnd.log with
            subOps := frnd.log.subOps ++
              (pullAddrs (high :: low :: rest)).map fun addr =>
                (op, addr) } } := { spaced with }
    refine requested.sendNext 0x09 [xact] held encrypted ?_
    intro free
    have free : frnd.netIdx = none := free
    simp [isFound, free] at found
  · exact spaced

theorem Spaced.request {addr numElem : Nat} {credErr : Bool} {offer : List Byte}
    (room : RoomFor cfg frnd (.request env netIdx addr numElem credErr offer)) :
    Spaced cfg (frnd.request cfg env netIdx addr numElem credErr offer) := by
  have cleared : Spaced cfg (if frnd.netIdx.isSome then frnd.clear else frnd) ∧
      (if frnd.netIdx.isSome then frnd.clear else frnd).last = none := by
    split
    · exact ⟨spaced.clear, rfl⟩
    · rename_i free
      exact ⟨spaced, spaced.idle (not_isSome_iff_eq_none.mp free)⟩
  unfold Frnd.request
  generalize (if frnd.netIdx.isSome then frnd.clear else frnd) = before at cleared ⊢
  obtain ⟨cleared, empty⟩ := cleared
  have opened : Spaced cfg
      { before with lpn := addr, numElem := numElem, netIdx := some netIdx } :=
    { cleared with idle := fun _ => empty }
  split
  · exact opened.clear
  rename_i derived
  refine opened.sendNext 0x04 offer ?_ (room (eq_false_of_ne_true derived))
    (some_ne_none netIdx)
  have held : before.held = before.queue.length + before.segHeld +
    before.last.toList.length := rfl
  rw [empty] at held
  have segHeld := cleared.segHeld_le
  have queue := cleared.queue
  have space := cleared.space
  change before.held < _
  simp only [toList_none, length_nil] at held
  omega

theorem Spaced.secUpdate {netIdx : Option Nat}
    (room : RoomFor cfg frnd (.secUpdate env netIdx)) :
    Spaced cfg (frnd.secUpdate cfg env netIdx) := by
  unfold Frnd.secUpdate
  split
  · exact spaced
  rename_i allocated
  split
  · rename_i concerned
    refine spaced.enqueueUpdate (room ?_ ?_) 0
    · rw [← not_isNone, eq_false_of_ne_true allocated]
      rfl
    · rwa [isNone_iff_eq_none] at concerned
  · exact spaced

theorem Spaced.subnetEvt {evt : KeyEvt} {credErr : Bool}
    (room : RoomFor cfg frnd (.subnetEvt env netIdx evt credErr)) :
    Spaced cfg (frnd.subnetEvt cfg env netIdx evt credErr) := by
  unfold Frnd.subnetEvt
  split
  · exact spaced
  · rename_i concerned
    have room := room (not_not.mp concerned)
    cases evt with
    | added => exact spaced
    | deleted => exact spaced.clear
    | updated =>
      dsimp only
      split
      · exact spaced.clear
      · exact spaced
    | swapped => exact spaced.enqueueUpdate (room (.inl rfl)) 0
    | revoked => exact spaced.enqueueUpdate (room (.inr rfl)) 0

theorem Spaced.clearIncomplete (netIdx src dst seqAuth : Nat) :
    Spaced cfg (frnd.clearIncomplete netIdx src dst seqAuth) := by
  unfold Frnd.clearIncomplete
  split
  · exact spaced
  split
  · exact spaced
  rename_i slot search
  obtain ⟨bound, _⟩ := findIdx?_eq_some_iff_getElem.mp search
  have sums := reserved_set (getElem?_eq_getElem bound) .empty
  have none : FrndSeg.empty.segCount = 0 := rfl
  have space := spaced.space
  refine { spaced with
    segs := segs_set spaced.segs (le_refl 0), space := ?_ }
  change frnd.queueSize + ((frnd.seg.set slot .empty).map FrndSeg.segCount).sum ≤ _
  omega

theorem Spaced.bufSendStart : Spaced cfg frnd.bufSendStart := by
  have started : Spaced cfg { frnd with pendingBuf := false } := { spaced with }
  unfold Frnd.bufSendStart
  split
  · exact started.unrefLast
  · exact started

end

theorem Spaced.step {input : FrndInput} (spaced : Spaced cfg frnd)
    (room : RoomFor cfg frnd input) : Spaced cfg (frndStep cfg frnd input) := by
  cases input with
  | enqueueRx env rx netIdx recvTtl sdu =>
    change Spaced cfg (frnd.enqueueRx cfg env rx netIdx recvTtl sdu)
    rw [enqueueRx_eq]
    cases offered : (FrndInput.enqueueRx env rx netIdx recvTtl sdu).offered frnd with
    | none => exact spaced
    | some offer => exact spaced.deliver (room offer offered)
  | enqueueTx env tx sdu =>
    change Spaced cfg (frnd.enqueueTx cfg env tx sdu)
    rw [enqueueTx_eq]
    cases offered : (FrndInput.enqueueTx env tx sdu).offered frnd with
    | none => exact spaced
    | some offer => exact spaced.deliver (room offer offered)
  | clearIncomplete netIdx src dst seqAuth =>
    exact spaced.clearIncomplete netIdx src dst seqAuth
  | poll => exact spaced.poll room
  | sub => exact spaced.sub room
  | request => exact spaced.request room
  | timeout => exact spaced.timeout room
  | bufSendStart => exact spaced.bufSendStart
  | secUpdate => exact spaced.secUpdate room
  | subnetEvt => exact spaced.subnetEvt room
  | clear => exact spaced.clear

theorem boot_spaced (cfg : FriendConfig) : Spaced cfg (.boot cfg) where
  queue := le_refl 0
  space := by
    have nothing : (Frnd.boot cfg).reserved = 0 := by
      simp [Frnd.boot, reserved, FrndSeg.empty]
    rw [nothing]
    exact Nat.zero_le _
  segs seg member := by
    rw [eq_of_mem_replicate member]
    exact le_refl 0
  taken held member := by cases member
  leaked := rfl
  linked := rfl
  faulted := rfl
  idle _ := rfl

end Frnd

/-- A friendship stays within its share in every run in which each buffer that
is taken has room beside the announced segments. -/
theorem friendQueue_within (cfg : FriendConfig) (inputs : List FrndInput)
    (along : (frndMachine cfg).Along (RoomFor cfg) (.boot cfg) inputs) :
    (frndMachine cfg).Always (Frnd.Within cfg) (.boot cfg) inputs :=
  (@Machine.always_of_along _ _ _ (frndMachine cfg) (RoomFor cfg)
    (Frnd.Spaced cfg) (fun _ _ spaced room => spaced.step room) _ _
    (Frnd.boot_spaced cfg) along).mono fun _ spaced => spaced.within

theorem friendQueue_within_polledMessage :
    (frndMachine friendTestConfig).Always (Frnd.Within friendTestConfig)
      (.boot friendTestConfig) polledMessage := by
  refine friendQueue_within friendTestConfig polledMessage
    ⟨fun _ => rfl, fun takes => absurd takes (by decide), trivial,
      fun _ => show _ < _ by decide, fun _ => ⟨rfl, fun _ _ _ => .inr rfl⟩,
      trivial, ?_, fun _ => show _ < _ by decide,
      fun _ => ⟨rfl, fun _ _ _ => .inr rfl⟩, trivial, trivial⟩
  intro offer offered
  cases offered
  exact fun _ _ => .inl rfl

/-! Messages that are queued while the first segment of another one waits for
the second. -/

def smallQueueConfig : FriendConfig :=
  { friendTestConfig with
    queueSize := 4
    queueSize_pos := by decide
    queueSize_le := by decide }

def firstSegment : FriendSdu where
  type := .incomplete
  segN := ⟨1, one_lt_segments⟩
  seqAuth := some 7
  sbuf := [0x80, 0x00, 0x1c, 0x01, 0x11, 0x22]

def besideSegment : List FrndInput :=
  newFriendship ++ .enqueueTx plainEnv lpnTx firstSegment ::
    List.replicate 4 (.enqueueTx plainEnv lpnTx shortSdu)

theorem besideSegment_within :
    ¬ (frndMachine smallQueueConfig).Always (Frnd.Within smallQueueConfig)
      (.boot smallQueueConfig) besideSegment := by
  intro always
  have within := always.last
  exact absurd within.held (by decide)

end ZephyrBluetooth.Mesh
