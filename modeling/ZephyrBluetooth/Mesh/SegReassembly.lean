import ZephyrBluetooth.Mesh.SegBuild
import ZephyrBluetooth.Mesh.SegRxOnce

namespace ZephyrBluetooth.Mesh

open Data List Option

structure Arrival where
  segO : Nat
  pdu : List Byte
  netRx : NetRx
  env : RxEnv

def Arrival.input (arrival : Arrival) : SegRxInput :=
  .seg arrival.env arrival.netRx arrival.pdu

def delivered (evts : List SegRxEvt) : List SegRxEvt :=
  evts.filter fun evt => evt.sdu.isSome

def reassemblyMachine (cfg : Config) :
    Machine SegRxs SegRxInput SegRxEvt where
  step state input :=
    let (next, evts) := segRxStep cfg state input
    (next, delivered evts)

namespace SegSdu

def handed (sdu : SegSdu) : List SegRxEvt :=
  if sdu.ctl then
    [.ctlRecv sdu.id sdu.hdr sdu.bytes]
  else if sdu.bytes.length < 1 + appMicLen sdu.aszmic then
    []
  else
    [.sduRecv sdu.id sdu.hdr sdu.aszmic
      (sdu.bytes.take (sdu.bytes.length - appMicLen sdu.aszmic))]

def AllOf (sdu : SegSdu) (seen : List Nat) : Prop :=
  ∀ segO ≤ sdu.segN, segO ∈ seen

instance (sdu : SegSdu) (seen : List Nat) : Decidable (sdu.AllOf seen) :=
  inferInstanceAs (Decidable (∀ segO ≤ sdu.segN, segO ∈ seen))

end SegSdu

/-- The arrival is a segment of the SDU, secured with a sequence number that
leads back to its SeqAuth. -/
structure Arrives (sdu : SegSdu) (ivIndex : Nat) (arrival : Arrival) :
    Prop where
  within : arrival.segO ≤ sdu.segN
  isPdu : sdu.IsPdu arrival.segO arrival.pdu
  addr : arrival.netRx.addr = sdu.id.src
  recvDst : arrival.netRx.recvDst = sdu.id.dst
  ctl : arrival.netRx.ctl = sdu.ctl
  seqAuth : seqAuthRx ivIndex arrival.netRx (sdu.head arrival.segO) = sdu.id.seqAuth

def Sized (count : Nat) (state : SegRxs) : Prop :=
  ∀ rx ∈ state.rxs, rx.seg.length = count

/-- The receiver has a free context and free blocks for the SDU, and no context
of its addresses is as new. -/
structure Ready (sdu : SegSdu) (state : SegRxs) : Prop where
  older : ∀ rx ∈ state.rxs, rx.src = sdu.id.src → rx.dst = sdu.id.dst →
    rx.seqAuth < sdu.id.seqAuth
  free : ∃ rx ∈ state.rxs, rx.inUse = false
  blocks : sdu.segN < state.slab.length

structure Passes (cfg : Config) (sdu : SegSdu) (state : SegRxs)
    (arrival : Arrival) : Prop where
  replay : (rplCheck cfg state.rpl arrival.netRx true).1.replay = false
  fresh : oldSeqAuth state.rpl (rplCheck cfg state.rpl arrival.netRx true).1.slot
    arrival.netRx (sdu.id.seqAuth % 2 ^ 24) = false
  queue : arrival.netRx.localMatch = true ∨ arrival.env.queueHasSpace = true

structure Session (sdu : SegSdu) (start state : SegRxs) (seen : List Nat)
    (slot : Nat) (rx : SegRx) : Prop where
  ivIndex : state.ivIndex = start.ivIndex
  found : state.rxs[slot]? = some rx
  src : rx.src = sdu.id.src
  dst : rx.dst = sdu.id.dst
  seqAuth : rx.seqAuth = sdu.id.seqAuth
  hdr : rx.hdr = sdu.hdr
  segN : rx.segN = sdu.segN
  ctl : rx.ctl = sdu.ctl
  marks : Marks rx.block seen
  bound : ∀ segO ∈ seen, segO < sdu.segN + 1
  first : ∀ place other, place < slot → state.rxs[place]? = some other →
    ¬ (other.src = sdu.id.src ∧ other.dst = sdu.id.dst)
  only : ∀ place other, place ≠ slot → state.rxs[place]? = some other →
    other.src = sdu.id.src → other.dst = sdu.id.dst →
    other.seqAuth < sdu.id.seqAuth

structure Receiving (sdu : SegSdu) (start state : SegRxs) (seen : List Nat)
    (slot : Nat) (rx : SegRx) : Prop
    extends Session sdu start state seen slot rx where
  rpl : state.rpl = start.rpl
  inUse : rx.inUse = true
  pieces : ∀ segO ∈ seen, ∃ block,
    rx.seg[segO]? = some (some ⟨block, sdu.payload segO⟩)
  len : sdu.segN ∈ seen → rx.len = sdu.bytes.length
  slots : sdu.segN < rx.seg.length
  blocks : lacking (sdu.segN + 1) rx.block ≤ state.slab.length

inductive Stage (sdu : SegSdu) (start : SegRxs) : List Nat → SegRxs → Prop where
  | waiting : Stage sdu start [] start
  | receiving {seen : List Nat} {state : SegRxs} {slot : Nat} {rx : SegRx}
      (missing : ¬ sdu.AllOf seen)
      (receiving : Receiving sdu start state seen slot rx) :
      Stage sdu start seen state
  | complete {seen : List Nat} {state : SegRxs} {slot : Nat} {rx : SegRx}
      (all : sdu.AllOf seen) (session : Session sdu start state seen slot rx)
      (closed : rx.inUse = false) : Stage sdu start seen state

section Sizes

variable {cfg : Config} {count slot : Nat} {state : SegRxs} {rx : SegRx}

theorem Sized.set (sized : Sized count state)
    (found : state.rxs[slot]? = some rx) {after : SegRxs} (updated : SegRx)
    (length : updated.seg.length = rx.seg.length)
    (rxs : after.rxs = state.rxs.set slot updated) : Sized count after := by
  intro context member
  rw [rxs] at member
  rcases mem_or_eq_of_mem_set member with kept | rfl
  · exact sized context kept
  · rw [length]
    exact sized rx (mem_of_getElem? found)

theorem length_reset (full : Bool) (rx : SegRx) :
    (rx.reset full).seg.length = rx.seg.length := by
  have length : (replicate (min (rx.segN + 1) rx.seg.length)
      (none : Option SegBuf) ++ rx.seg.drop (rx.segN + 1)).length =
      rx.seg.length := by
    rw [length_append, length_replicate, length_drop]
    omega
  cases full <;> exact length

theorem segRxReset_sized (sized : Sized count state) (cfg : Config) (slot : Nat)
    (full : Bool) : Sized count (segRxReset cfg state slot full).1 := by
  unfold segRxReset
  cases found : state.rxs[slot]? with
  | none => exact sized
  | some rx => exact sized.set found _ (length_reset full rx) rfl

theorem length_sized (head : SegHdr) (payload : List Byte) (rx : SegRx) :
    (rx.sized head payload).seg.length = rx.seg.length := by
  unfold SegRx.sized
  split <;> rfl

section

variable (sized : Sized count state)
include sized

theorem segRxDeliver_sized
    (found : state.rxs[slot]? = some rx) (env : RxEnv) (netRx : NetRx)
    (hdr : Byte) (aszmic : Bool) (seqAuth : Nat) (rplSlot : Option Nat) :
    Sized count (segRxDeliver cfg env netRx hdr aszmic seqAuth rplSlot slot rx
      state).2.1 :=
  segRxReset_sized (sized.set found { rx with ack := false } rfl rfl) cfg slot false

theorem segRxStore_sized (found : state.rxs[slot]? = some rx) (env : RxEnv)
    (netRx : NetRx) (hdr : Byte) (head : SegHdr) (seqAuth : Nat)
    (rplSlot : Option Nat) (payload : List Byte) :
    Sized count (segRxStore cfg env netRx hdr head seqAuth rplSlot payload slot
      rx state).2.1 := by
  have bound := (List.getElem?_eq_some_iff.mp found).1
  have length := length_sized head payload rx
  unfold segRxStore
  dsimp only
  split
  · exact sized
  split
  · exact segRxReset_sized (sized.set found _ length rfl) cfg slot true
  split
  · exact sized
  split
  · exact sized.set found ((rx.sized head payload).timed env) length rfl
  rename_i free slab _
  have stored : (((rx.sized head payload).timed env).store head.segO free
      payload).seg.length = rx.seg.length :=
    (length_set ..).trans length
  split
  · exact sized.set found _ stored rfl
  exact segRxDeliver_sized (sized.set found _ stored rfl)
    (getElem?_set_self bound) env netRx hdr head.aszmic seqAuth
    rplSlot

theorem segRxNew_sized (env : RxEnv)
    (netRx : NetRx) (hdr : Byte) (head : SegHdr) (seqAuth : Nat)
    (rplSlot : Option Nat) (payload : List Byte) :
    Sized count (segRxNew cfg env netRx hdr head seqAuth rplSlot payload
      state).2.1 := by
  rcases segRxNew_cases cfg env netRx hdr head seqAuth rplSlot payload state
    with ⟨same, _⟩ | ⟨slot, rx, opened, _, alloc, stored⟩
  · rwa [same]
  rw [stored]
  unfold segRxAlloc at alloc
  split at alloc
  · cases alloc
  obtain ⟨⟨_, free⟩, scan, pair⟩ := map_eq_some_iff.mp alloc
  cases pair
  obtain ⟨found, _⟩ := freeRx_spec scan
  exact segRxStore_sized
    (sized.set found
      { free.alloc netRx hdr seqAuth head.segN with
        obo := netRx.friendMatch } rfl rfl)
    (getElem?_set_self (List.getElem?_eq_some_iff.mp found).1) env netRx
    hdr head seqAuth rplSlot payload

theorem segRxTake_sized (env : RxEnv)
    (netRx : NetRx) (hdr : Byte) (head : SegHdr) (seqAuth : Nat)
    (rplSlot : Option Nat) (payload : List Byte) :
    Sized count (segRxTake cfg env netRx hdr head seqAuth rplSlot payload
      state).2.1 := by
  unfold segRxTake segRxFind
  cases scan : segRxScan netRx.addr netRx.recvDst seqAuth state.rxs with
  | none => exact segRxNew_sized sized env netRx hdr head seqAuth rplSlot payload
  | some hit =>
    obtain ⟨slot, _, usable⟩ := hit
    obtain ⟨found, _⟩ := segRxScan_spec scan
    cases usable with
    | false =>
      exact segRxNew_sized (segRxReset_sized sized cfg slot true) env netRx hdr
        head seqAuth rplSlot payload
    | true =>
      dsimp only
      unfold segRxKnown
      split
      · exact sized
      split
      · exact sized
      split
      · exact segRxStore_sized sized found env netRx hdr head seqAuth rplSlot payload
      · split <;> exact sized

end

theorem segRxStep_sized (cfg : Config) (state : SegRxs) (input : SegRxInput)
    (sized : Sized count state) :
    Sized count ((segRxMachine cfg).next state input) := by
  cases input with
  | seg env netRx buf =>
    change Sized count (transSeg cfg env netRx buf state).2.1
    rcases transSeg_cases cfg env netRx buf state with
      dropped | ⟨hdr, h1, h2, h3, payload, _, _, taken⟩
    · rwa [dropped]
    · rw [taken]
      exact segRxTake_sized sized env netRx hdr _ _ _ payload
  | unseg env netRx buf =>
    change Sized count (transUnseg cfg env netRx buf state).2.1
    unfold transUnseg
    split
    · exact sized
    dsimp only
    split
    · exact sized
    split
    · exact sized
    · split <;> exact sized
  | segAck env slot =>
    change Sized count (segAck cfg env state slot).1
    unfold segAck
    cases found : state.rxs[slot]? with
    | none => exact sized
    | some rx =>
      dsimp only
      split
      · exact sized.set found { rx with ack := false } rfl rfl
      split
      · exact segRxReset_sized sized cfg slot false
      · exact sized.set found { rx with ack := true } rfl rfl
  | rxReset =>
    change Sized count (rxReset cfg state).1
    apply foldlRecOn (motive := fun current : SegRxs × List SegRxEvt =>
      Sized count current.1)
    · exact sized
    · intro current kept slot _
      exact segRxReset_sized kept cfg slot true
  | ivUpdate => exact sized
  | rplClear => exact sized

theorem boot_sized (cfg : Config) (ivIndex crpl msgCount segBufs : Nat) :
    Sized cfg.rxSegMax (.boot cfg ivIndex crpl msgCount segBufs) := by
  intro rx member
  rw [eq_of_mem_replicate member]
  exact length_replicate

end Sizes

namespace SegSdu

variable {sdu : SegSdu}

theorem segN_mul_lt (some_bytes : sdu.bytes ≠ []) :
    sdu.segN * segLen sdu.ctl < sdu.bytes.length := by
  have long := length_pos_iff.mpr some_bytes
  exact Nat.lt_of_le_of_lt (Nat.div_mul_le_self _ _) (Nat.sub_lt long Nat.one_pos)

theorem length_le_segN_mul (sdu : SegSdu) :
    sdu.bytes.length ≤ (sdu.segN + 1) * segLen sdu.ctl := by
  have below := Nat.lt_div_mul_add (segLen_pos sdu.ctl) (a := sdu.bytes.length - 1)
  rw [Nat.succ_mul]
  change sdu.bytes.length ≤ (sdu.bytes.length - 1) / segLen sdu.ctl *
    segLen sdu.ctl + segLen sdu.ctl
  omega

theorem length_le_rxSduMax {cfg : Config} (sdu : SegSdu)
    (fits : sdu.segN < cfg.rxSegMax) : sdu.bytes.length ≤ rxSduMax cfg := by
  have short : segLen sdu.ctl ≤ 12 := by
    cases sdu.ctl <;> decide
  exact le_trans sdu.length_le_segN_mul (Nat.mul_le_mul fits short)

theorem length_payload (sdu : SegSdu) (segO : Nat) : (sdu.payload segO).length =
      min (segLen sdu.ctl) (sdu.bytes.length - segO * segLen sdu.ctl) :=
  length_chunk _ _ _

variable {segO : Nat}

section

variable (some_bytes : sdu.bytes ≠ [])
include some_bytes

theorem length_payload_lt
    (before : segO < sdu.segN) : (sdu.payload segO).length = segLen sdu.ctl := by
  have room : (segO + 1) * segLen sdu.ctl ≤ sdu.segN * segLen sdu.ctl :=
    Nat.mul_le_mul_right _ before
  have below := segN_mul_lt some_bytes
  rw [length_payload, Nat.min_eq_left]
  rw [Nat.succ_mul] at room
  omega

theorem length_payload_last :
    sdu.segN * segLen sdu.ctl + (sdu.payload sdu.segN).length =
      sdu.bytes.length := by
  have below := segN_mul_lt some_bytes
  have reach := sdu.length_le_segN_mul
  rw [length_payload]
  rw [Nat.succ_mul] at reach
  omega

theorem payload_ne_nil (within : segO ≤ sdu.segN) : sdu.payload segO ≠ [] := by
  have below := segN_mul_lt some_bytes
  have room : segO * segLen sdu.ctl ≤ sdu.segN * segLen sdu.ctl :=
    Nat.mul_le_mul_right _ within
  have positive := segLen_pos sdu.ctl
  rw [← length_pos_iff, length_payload]
  omega

end

theorem allOf_again {seen : List Nat} (known : segO ∈ seen) :
    sdu.AllOf (segO :: seen) ↔ sdu.AllOf seen := by
  constructor
  · intro all place within
    rcases mem_cons.mp (all place within) with rfl | member
    · exact known
    · exact member
  · intro all place within
    exact mem_cons_of_mem _ (all place within)

theorem allOf_iff {mask : Nat} {seen : List Nat} (marks : Marks mask seen)
    (bound : ∀ segO ∈ seen, segO < sdu.segN + 1) :
    mask = blockComplete sdu.segN ↔ sdu.AllOf seen := by
  rw [blockComplete, marks.full_iff bound]
  constructor
  · intro all segO within
    exact all segO (Nat.lt_succ_of_le within)
  · intro all segO below
    exact all segO (Nat.le_of_lt_succ below)

end SegSdu

section Storing

variable {sdu : SegSdu} {start state : SegRxs} {seen : List Nat}
variable {slot segO : Nat} {rx : SegRx}

theorem Session.again (session : Session sdu start state seen slot rx)
    (known : rx.block.testBit segO = true) :
    Session sdu start state (segO :: seen) slot rx :=
  { session with
    marks := session.marks.again known
    bound := forall_mem_cons.mpr
      ⟨session.bound segO ((session.marks segO).mp known), session.bound⟩ }

theorem Receiving.again (receiving : Receiving sdu start state seen slot rx)
    (known : rx.block.testBit segO = true) :
    Receiving sdu start state (segO :: seen) slot rx := by
  have member := (receiving.marks segO).mp known
  refine
    { receiving with
      toSession := receiving.toSession.again known
      pieces := forall_mem_cons.mpr
        ⟨receiving.pieces segO member, receiving.pieces⟩
      len := ?_ }
  intro last
  rcases mem_cons.mp last with rfl | later
  · exact receiving.len member
  · exact receiving.len later

theorem Session.set (session : Session sdu start state seen slot rx)
    {updated : SegRx} {after : SegRxs} {now : List Nat}
    (ivIndex : after.ivIndex = state.ivIndex)
    (rxs : after.rxs = state.rxs.set slot updated) (src : updated.src = rx.src)
    (dst : updated.dst = rx.dst) (seqAuth : updated.seqAuth = rx.seqAuth)
    (hdr : updated.hdr = rx.hdr) (segN : updated.segN = rx.segN)
    (ctl : updated.ctl = rx.ctl) (marks : Marks updated.block now)
    (bound : ∀ segO ∈ now, segO < sdu.segN + 1) :
    Session sdu start after now slot updated where
  ivIndex := ivIndex.trans session.ivIndex
  found := by
    rw [rxs]
    exact getElem?_set_self (List.getElem?_eq_some_iff.mp session.found).1
  src := src.trans session.src
  dst := dst.trans session.dst
  seqAuth := seqAuth.trans session.seqAuth
  hdr := hdr.trans session.hdr
  segN := segN.trans session.segN
  ctl := ctl.trans session.ctl
  marks := marks
  bound := bound
  first place other below found := by
    rw [rxs, getElem?_set_ne (ne_of_gt below)] at found
    exact session.first place other below found
  only place other elsewhere found := by
    rw [rxs, getElem?_set_ne (Ne.symm elsewhere)] at found
    exact session.only place other elsewhere found

theorem sized_len (some_bytes : sdu.bytes ≠ [])
    (receiving : Receiving sdu start state seen slot rx)
    (last : sdu.segN ∈ segO :: seen) :
    (rx.sized (sdu.head segO) (sdu.payload segO)).len = sdu.bytes.length := by
  unfold SegRx.sized
  split
  · rename_i isLast
    have same : segO = sdu.segN := isLast
    subst same
    rw [receiving.ctl]
    exact SegSdu.length_payload_last some_bytes
  · rename_i notLast
    rcases mem_cons.mp last with same | member
    · exact absurd same.symm notLast
    · exact receiving.len member

theorem sized_kept (head : SegHdr) (payload : List Byte) (rx : SegRx) :
    rx.sized head payload = { rx with len := (rx.sized head payload).len } := by
  unfold SegRx.sized
  split <;> rfl

theorem Receiving.store (some_bytes : sdu.bytes ≠ [])
    (receiving : Receiving sdu start state seen slot rx)
    (within : segO ≤ sdu.segN) (absent : rx.block.testBit segO = false)
    (env : RxEnv) {free : Nat} {slab : List Nat}
    (slabEq : state.slab = free :: slab) :
    Receiving sdu start
      { state with
        rxs := state.rxs.set slot
          (((rx.sized (sdu.head segO) (sdu.payload segO)).timed env).store segO
            free (sdu.payload segO))
        slab := slab }
      (segO :: seen) slot
      (((rx.sized (sdu.head segO) (sdu.payload segO)).timed env).store segO free
        (sdu.payload segO)) := by
  have len : sdu.segN ∈ segO :: seen → _ := sized_len some_bytes receiving
  rw [sized_kept]
  generalize (rx.sized (sdu.head segO) (sdu.payload segO)).len = length at len
  have counted := lacking_add (Nat.lt_succ_of_le within) absent
  have enough := receiving.blocks
  rw [slabEq, length_cons, ← counted] at enough
  refine
    { toSession := receiving.toSession.set rfl rfl rfl rfl rfl rfl rfl rfl
        (receiving.marks.add segO)
        (forall_mem_cons.mpr ⟨Nat.lt_succ_of_le within, receiving.bound⟩)
      rpl := receiving.rpl
      inUse := receiving.inUse
      pieces := ?_
      len := len
      slots := ?_
      blocks := Nat.le_of_succ_le_succ enough }
  · intro place member
    change ∃ block, (rx.seg.set segO (some ⟨free, sdu.payload segO⟩))[place]? =
      some (some ⟨block, sdu.payload place⟩)
    by_cases same : place = segO
    · subst same
      exact ⟨free, getElem?_set_self (lt_of_le_of_lt within receiving.slots)⟩
    · rw [getElem?_set_ne (Ne.symm same)]
      exact receiving.pieces place ((mem_cons.mp member).resolve_left same)
  · change sdu.segN < (rx.seg.set segO (some ⟨free, sdu.payload segO⟩)).length
    rw [length_set]
    exact receiving.slots

theorem Receiving.assemble (receiving : Receiving sdu start state seen slot rx)
    (all : sdu.AllOf seen) (aszmic : Bool) :
    rx.assemble aszmic = if sdu.ctl then sdu.bytes
      else sdu.bytes.take (sdu.bytes.length - appMicLen aszmic) := by
  have len := receiving.len (all sdu.segN (Nat.le_refl _))
  have whole : (range (rx.segN + 1)).flatMap rx.piece = sdu.bytes := by
    rw [receiving.segN]
    calc
      _ = (range (sdu.segN + 1)).flatMap sdu.payload := by
        apply flatMap_congr
        intro place member
        have within := Nat.le_of_lt_succ (mem_range.mp member)
        obtain ⟨_, held⟩ := receiving.pieces place (all place within)
        rw [SegRx.piece, held, receiving.ctl, len]
        apply take_of_length_le
        rw [SegSdu.length_payload]
      _ = sdu.bytes := flatMap_chunk_of_le sdu.length_le_segN_mul
  unfold SegRx.assemble
  rw [whole, receiving.ctl]

theorem delivered_of_sdu {evts : List SegRxEvt}
    (nothing : evts.filterMap SegRxEvt.sdu = []) : delivered evts = [] := by
  rw [filterMap_eq_nil_iff] at nothing
  apply filter_eq_nil_iff.mpr
  intro evt member
  rw [nothing evt member]
  exact Bool.false_ne_true

theorem delivered_append (evts later : List SegRxEvt) :
    delivered (evts ++ later) = delivered evts ++ delivered later :=
  filter_append ..

theorem Receiving.handOver (receiving : Receiving sdu start state seen slot rx)
    (all : sdu.AllOf seen) (env : RxEnv) :
    delivered (handOver env sdu.ctl sdu.id sdu.hdr sdu.aszmic rx).2 =
      sdu.handed := by
  have len := receiving.len (all sdu.segN (le_refl _))
  unfold Mesh.handOver SegSdu.handed
  cases ctl : sdu.ctl with
  | true =>
    rw [receiving.assemble all false, ctl]
    rfl
  | false =>
    rw [receiving.assemble all sdu.aszmic, ctl, len]
    simp only [Bool.false_eq_true, if_false]
    split <;> rfl

end Storing

section Reception

variable {cfg : Config} {sdu : SegSdu} {start state : SegRxs}
variable {seen : List Nat} {slot segO : Nat} {rx : SegRx} {netRx : NetRx}

theorem segRxDeliver_stage (receiving : Receiving sdu start state seen slot rx)
    (all : sdu.AllOf seen) (addr : netRx.addr = sdu.id.src)
    (recvDst : netRx.recvDst = sdu.id.dst) (ctl : netRx.ctl = sdu.ctl)
    (env : RxEnv) (rplSlot : Option Nat) : Stage sdu start seen
        (segRxDeliver cfg env netRx sdu.hdr sdu.aszmic sdu.id.seqAuth rplSlot
          slot rx state).2.1 ∧
      delivered (segRxDeliver cfg env netRx sdu.hdr sdu.aszmic sdu.id.seqAuth
        rplSlot slot rx state).2.2 = sdu.handed := by
  have bound := (List.getElem?_eq_some_iff.mp receiving.found).1
  unfold segRxDeliver
  constructor
  · have closed : Session sdu start
        (segRxReset cfg
          { state with
            rpl := rplComplete cfg state.rpl rplSlot netRx (sdu.id.seqAuth % 2 ^ 24)
            rxs := state.rxs.set slot { rx with ack := false } }
          slot false).1
        seen slot (({ rx with ack := false } : SegRx).reset false) := by
      unfold segRxReset
      rw [getElem?_set_self bound]
      exact receiving.toSession.set rfl (set_set ..) rfl rfl rfl rfl rfl rfl
        receiving.marks receiving.bound
    exact .complete all closed rfl
  · rw [delivered_append, delivered_append, delivered_of_sdu (sendAck_sdu ..),
      delivered_of_sdu (segRxReset_spec ..).2.2, nil_append,
      append_nil, addr, recvDst, ctl]
    exact receiving.handOver all env

theorem segRxStore_stage (some_bytes : sdu.bytes ≠ [])
    (fits : sdu.segN < cfg.rxSegMax)
    (receiving : Receiving sdu start state seen slot rx)
    (missing : ¬ sdu.AllOf seen) (within : segO ≤ sdu.segN)
    (addr : netRx.addr = sdu.id.src) (recvDst : netRx.recvDst = sdu.id.dst)
    (ctl : netRx.ctl = sdu.ctl) (env : RxEnv) (rplSlot : Option Nat) :
    Stage sdu start (segO :: seen)
        (segRxStore cfg env netRx sdu.hdr (sdu.head segO) sdu.id.seqAuth rplSlot
          (sdu.payload segO) slot rx state).2.1 ∧
      delivered (segRxStore cfg env netRx sdu.hdr (sdu.head segO)
          sdu.id.seqAuth rplSlot (sdu.payload segO) slot rx state).2.2 =
        if sdu.AllOf (segO :: seen) then sdu.handed else [] := by
  unfold segRxStore
  dsimp only
  split
  · rename_i known
    have again := @SegSdu.allOf_again sdu segO seen ((receiving.marks segO).mp known)
    rw [if_neg (mt again.mp missing)]
    exact ⟨.receiving (mt again.mp missing) (receiving.again known), rfl⟩
  · rename_i unknown
    have absent : rx.block.testBit segO = false := eq_false_of_ne_true unknown
    split
    · rename_i tooLong
      exfalso
      obtain ⟨last, long⟩ := tooLong
      have same : segO = sdu.segN := last
      rw [sized_len some_bytes receiving (same ▸ mem_cons_self)] at long
      exact not_lt.mpr (sdu.length_le_rxSduMax fits) long
    · split
      · rename_i short
        exfalso
        obtain ⟨notLast, wrong⟩ := short
        have before : segO < sdu.segN := lt_of_le_of_ne within notLast
        rw [receiving.ctl] at wrong
        exact wrong (SegSdu.length_payload_lt some_bytes before)
      · split
        · rename_i empty
          exfalso
          have enough := receiving.blocks
          rw [empty] at enough
          exact not_lt.mpr enough (lacking_pos (Nat.lt_succ_of_le within) absent)
        · rename_i free slab slabEq
          have stored := receiving.store some_bytes within absent env slabEq
          have full := SegSdu.allOf_iff stored.marks stored.bound
          split
          · rename_i notFull
            rw [if_neg (mt full.mpr notFull)]
            exact ⟨.receiving (mt full.mpr notFull) stored, rfl⟩
          · rename_i isFull
            have all := full.mp (not_not.mp isFull)
            rw [if_pos all]
            exact segRxDeliver_stage stored all addr recvDst ctl env rplSlot

theorem segRxScan_found {addr dst seqAuth : Nat} :
    ∀ {rxs : List SegRx} {slot : Nat}, rxs[slot]? = some rx → rx.src = addr →
      rx.dst = dst → seqAuth ≤ rx.seqAuth →
      (∀ place other, place < slot → rxs[place]? = some other →
        ¬ (other.src = addr ∧ other.dst = dst)) →
      segRxScan addr dst seqAuth rxs = some (slot, rx, true)
  | [], slot, found, _, _, _, _ => by cases found
  | head :: rest, 0, found, src, dst, reaches, _ => by
      cases found
      rw [segRxScan, if_pos ⟨src, dst, reaches⟩]
  | head :: rest, slot + 1, found, src, dst, reaches, first => by
      have other := first 0 head (Nat.succ_pos slot) rfl
      have later : rest[slot]? = some rx := found
      rw [segRxScan, if_neg (fun here => other ⟨here.1, here.2.1⟩),
        if_neg (fun here => other ⟨here.1, here.2.1⟩),
        segRxScan_found later src dst reaches fun place context below =>
          first (place + 1) context (Nat.succ_lt_succ below)]
      rfl

theorem Session.find (session : Session sdu start state seen slot rx)
    (addr : netRx.addr = sdu.id.src) (recvDst : netRx.recvDst = sdu.id.dst) :
    segRxFind cfg netRx sdu.id.seqAuth state = (some (slot, rx), state, []) := by
  unfold segRxFind
  rw [addr, recvDst, segRxScan_found session.found session.src session.dst
    (le_of_eq session.seqAuth.symm) session.first]

theorem Session.valid (session : Session sdu start state seen slot rx)
    (addr : netRx.addr = sdu.id.src) (recvDst : netRx.recvDst = sdu.id.dst)
    (ctl : netRx.ctl = sdu.ctl) :
    segRxIsValid rx netRx sdu.hdr sdu.segN = true := by
  simp [segRxIsValid, session.hdr, session.segN, session.src, session.dst,
    session.ctl, addr, recvDst, ctl]

theorem segRxTake_receiving (some_bytes : sdu.bytes ≠ [])
    (fits : sdu.segN < cfg.rxSegMax)
    (receiving : Receiving sdu start state seen slot rx)
    (missing : ¬ sdu.AllOf seen) (within : segO ≤ sdu.segN)
    (addr : netRx.addr = sdu.id.src) (recvDst : netRx.recvDst = sdu.id.dst)
    (ctl : netRx.ctl = sdu.ctl) (env : RxEnv) (rplSlot : Option Nat) :
    Stage sdu start (segO :: seen)
        (segRxTake cfg env netRx sdu.hdr (sdu.head segO) sdu.id.seqAuth rplSlot
          (sdu.payload segO) state).2.1 ∧
      delivered (segRxTake cfg env netRx sdu.hdr (sdu.head segO)
          sdu.id.seqAuth rplSlot (sdu.payload segO) state).2.2 =
        if sdu.AllOf (segO :: seen) then sdu.handed else [] := by
  have stored := @segRxStore_stage cfg sdu start state seen slot segO rx netRx
    some_bytes fits receiving missing within addr recvDst ctl env rplSlot
  have known : segRxKnown cfg env netRx sdu.hdr (sdu.head segO) sdu.id.seqAuth
      rplSlot (sdu.payload segO) slot rx state =
      segRxStore cfg env netRx sdu.hdr (sdu.head segO) sdu.id.seqAuth rplSlot
        (sdu.payload segO) slot rx state := by
    unfold segRxKnown
    have valid : segRxIsValid rx netRx sdu.hdr (sdu.head segO).segN = true :=
      receiving.valid addr recvDst ctl
    rw [receiving.seqAuth, if_neg (lt_irrefl _), valid, receiving.inUse]
    rfl
  unfold segRxTake
  rw [receiving.find addr recvDst]
  dsimp only
  rw [known]
  exact stored

theorem segRxTake_complete (all : sdu.AllOf seen)
    (session : Session sdu start state seen slot rx) (closed : rx.inUse = false)
    (within : segO ≤ sdu.segN) (addr : netRx.addr = sdu.id.src)
    (recvDst : netRx.recvDst = sdu.id.dst) (ctl : netRx.ctl = sdu.ctl)
    (env : RxEnv) (rplSlot : Option Nat) : Stage sdu start (segO :: seen)
        (segRxTake cfg env netRx sdu.hdr (sdu.head segO) sdu.id.seqAuth rplSlot
          (sdu.payload segO) state).2.1 ∧
      delivered (segRxTake cfg env netRx sdu.hdr (sdu.head segO)
          sdu.id.seqAuth rplSlot (sdu.payload segO) state).2.2 = [] := by
  have full : rx.block = blockComplete rx.segN := by
    rw [session.segN]
    exact (SegSdu.allOf_iff session.marks session.bound).mpr all
  have known := (session.marks segO).mpr (all segO within)
  have valid : segRxIsValid rx netRx sdu.hdr (sdu.head segO).segN = true :=
    session.valid addr recvDst ctl
  have again := session.again known
  unfold segRxTake
  rw [session.find addr recvDst]
  dsimp only
  unfold segRxKnown
  rw [session.seqAuth, if_neg (lt_irrefl _), valid, closed, if_pos full]
  refine ⟨.complete (fun place inside => mem_cons_of_mem _ (all place inside))
    { again with ivIndex := again.ivIndex, found := again.found } closed, ?_⟩
  exact delivered_of_sdu (sendAck_sdu ..)

/-- After `seg_rx_find` no context is in the way.  A context of the same
addresses is not in front of all free ones. -/
structure Cleared (cfg : Config) (sdu : SegSdu) (start state : SegRxs) : Prop
    extends Ready sdu state where
  sized : Sized cfg.rxSegMax state
  ivIndex : state.ivIndex = start.ivIndex
  rpl : state.rpl = start.rpl
  behind : ∀ (place : Nat) (other : SegRx), state.rxs[place]? = some other →
    other.src = sdu.id.src → other.dst = sdu.id.dst →
    ∃ (before : Nat) (rx : SegRx), before ≤ place ∧
      state.rxs[before]? = some rx ∧ rx.inUse = false

theorem segRxScan_before {addr dst seqAuth : Nat} {usable : Bool} :
    ∀ {rxs : List SegRx} {slot : Nat},
      segRxScan addr dst seqAuth rxs = some (slot, rx, usable) →
      ∀ (place : Nat) (other : SegRx), place < slot →
        rxs[place]? = some other → other.src = addr → other.dst = dst →
        other.inUse = false
  | [], slot, scan, _, _, _, _, _, _ => by cases scan
  | head :: rest, slot, scan, place, other, below, found, src, dst => by
      rw [segRxScan] at scan
      split at scan
      · cases scan
        cases below
      split at scan
      · cases scan
        cases below
      rename_i notStale
      obtain ⟨⟨_, _⟩, later, pair⟩ := map_eq_some_iff.mp scan
      cases pair
      cases place with
      | zero =>
        cases found
        exact eq_false_of_ne_true fun inUse => notStale ⟨src, dst, inUse⟩
      | succ place =>
        exact segRxScan_before later place other
          (Nat.lt_of_succ_lt_succ below) found src dst

theorem Ready.reset (ready : Ready sdu start)
    (found : start.rxs[slot]? = some rx) (src : sdu.id.src ≠ 0) :
    Ready sdu (segRxReset cfg start slot true).1 := by
  have bound := (List.getElem?_eq_some_iff.mp found).1
  unfold segRxReset
  rw [found]
  refine ⟨?_, ?_, ?_⟩
  · intro context member sameSrc
    rcases mem_or_eq_of_mem_set member with kept | rfl
    · exact ready.older context kept sameSrc
    · exact absurd sameSrc.symm src
  · exact ⟨rx.reset true, mem_set bound _, rfl⟩
  · have enough := ready.blocks
    rw [length_append]
    omega

theorem segRxFind_cleared (ready : Ready sdu start)
    (sized : Sized cfg.rxSegMax start) (addr : netRx.addr = sdu.id.src)
    (recvDst : netRx.recvDst = sdu.id.dst) :
    ∃ cleared evts,
      segRxFind cfg netRx sdu.id.seqAuth start = (none, cleared, evts) ∧
        delivered evts = [] ∧ Cleared cfg sdu start cleared := by
  have src : sdu.id.src ≠ 0 := addr ▸ netRx.addr_ne_zero
  unfold segRxFind
  rw [addr, recvDst]
  cases scan : segRxScan sdu.id.src sdu.id.dst sdu.id.seqAuth start.rxs with
  | none =>
    refine ⟨start, [], rfl, rfl, { ready with
      sized := sized
      ivIndex := rfl
      rpl := rfl
      behind := ?_ }⟩
    intro place other found sameSrc sameDst
    refine ⟨place, other, le_refl _, found, eq_false_of_ne_true ?_⟩
    intro inUse
    refine segRxScan_none scan place ⟨other.src, other.dst, other.seqAuth⟩ ?_
      ⟨sameSrc, sameDst⟩
    exact (slotView_found found).trans (session_eq_some.mpr ⟨inUse, rfl, rfl, rfl⟩)
  | some hit =>
    obtain ⟨slot, rx, usable⟩ := hit
    obtain ⟨found, sameSrc, sameDst, reaches, inUse⟩ := segRxScan_spec scan
    cases usable with
    | true =>
      have newer := ready.older rx (mem_of_getElem? found) sameSrc sameDst
      exact absurd newer (not_lt.mpr (reaches rfl))
    | false =>
      have bound := (List.getElem?_eq_some_iff.mp found).1
      refine ⟨(segRxReset cfg start slot true).1,
        (segRxReset cfg start slot true).2, rfl,
        delivered_of_sdu (segRxReset_spec cfg start slot true).2.2,
        { ready.reset found src with
          sized := segRxReset_sized sized cfg slot true
          ivIndex := ?_
          rpl := (segRxReset_spec cfg start slot true).1
          behind := ?_ }⟩
      · unfold segRxReset
        rw [found]
      · have rxs : (segRxReset cfg start slot true).1.rxs =
            start.rxs.set slot (rx.reset true) := by
          unfold segRxReset
          rw [found]
        rw [rxs]
        intro place other present otherSrc otherDst
        rcases lt_trichotomy place slot with below | rfl | above
        · refine ⟨place, other, le_refl _, present, ?_⟩
          rw [getElem?_set_ne (ne_of_gt below)] at present
          exact segRxScan_before scan place other below present otherSrc otherDst
        · rw [getElem?_set_self bound] at present
          cases present
          exact absurd otherSrc.symm src
        · exact ⟨slot, rx.reset true, le_of_lt above, getElem?_set_self bound, rfl⟩

theorem freeRx_first :
    ∀ {rxs : List SegRx} {slot : Nat} {rx : SegRx}, freeRx rxs = some (slot, rx) →
      ∀ (place : Nat) (other : SegRx), place < slot →
        rxs[place]? = some other → other.inUse = true
  | [], slot, rx, scan, _, _, _, _ => by cases scan
  | head :: rest, slot, rx, scan, place, other, below, found => by
      rw [freeRx] at scan
      split at scan
      · rename_i inUse
        obtain ⟨⟨_, _⟩, later, pair⟩ := map_eq_some_iff.mp scan
        cases pair
        cases place with
        | zero =>
          cases found
          exact inUse
        | succ place =>
          exact freeRx_first later place other (Nat.lt_of_succ_lt_succ below) found
      · cases scan
        cases below

theorem freeRx_isSome :
    ∀ {rxs : List SegRx}, (∃ rx ∈ rxs, rx.inUse = false) →
      ∃ slot rx, freeRx rxs = some (slot, rx)
  | [], ⟨_, member, _⟩ => by cases member
  | head :: rest, ⟨free, member, idle⟩ => by
      rw [freeRx]
      split
      · rename_i inUse
        rcases mem_cons.mp member with rfl | later
        · rw [idle] at inUse
          cases inUse
        · obtain ⟨slot, rx, scan⟩ := freeRx_isSome ⟨free, later, idle⟩
          exact ⟨slot + 1, rx, by rw [scan]; rfl⟩
      · exact ⟨0, head, rfl⟩

theorem Cleared.alloc (cleared : Cleared cfg sdu start state)
    (fits : sdu.segN < cfg.rxSegMax) (addr : netRx.addr = sdu.id.src)
    (recvDst : netRx.recvDst = sdu.id.dst) (ctl : netRx.ctl = sdu.ctl) :
    ∃ slot rx opened, segRxAlloc netRx sdu.hdr sdu.id.seqAuth sdu.segN state =
          some (slot, rx, opened) ∧ Receiving sdu start opened [] slot rx := by
  obtain ⟨slot, free, scan⟩ := freeRx_isSome cleared.free
  obtain ⟨found, idle⟩ := freeRx_spec scan
  have bound := (List.getElem?_eq_some_iff.mp found).1
  have some_block : state.slab ≠ [] := by
    intro empty
    have enough := cleared.blocks
    rw [empty] at enough
    cases enough
  unfold segRxAlloc
  rw [if_neg some_block, scan]
  refine ⟨slot, _, _, rfl, ?_⟩
  refine
    { ivIndex := cleared.ivIndex
      found := getElem?_set_self bound
      src := addr
      dst := recvDst
      seqAuth := rfl
      hdr := rfl
      segN := rfl
      ctl := ctl
      marks := Marks.nil
      bound := nofun
      first := ?_
      only := ?_
      rpl := cleared.rpl
      inUse := rfl
      pieces := nofun
      len := nofun
      slots := ?_
      blocks := ?_ }
  · intro place other below present pair
    rw [getElem?_set_ne (ne_of_gt below)] at present
    obtain ⟨before, context, low, here, idle⟩ :=
      cleared.behind place other present pair.1 pair.2
    have inUse := freeRx_first scan before context (lt_of_le_of_lt low below)
      here
    rw [idle] at inUse
    cases inUse
  · intro place other elsewhere present
    rw [getElem?_set_ne (Ne.symm elsewhere)] at present
    exact cleared.older other (mem_of_getElem? present)
  · change sdu.segN < free.seg.length
    rw [cleared.sized free (mem_of_getElem? found)]
    exact fits
  · change lacking (sdu.segN + 1) 0 ≤ state.slab.length
    rw [lacking_zero]
    exact cleared.blocks

section

variable (some_bytes : sdu.bytes ≠ [])
include some_bytes

theorem segRxNew_stage
    (fits : sdu.segN < cfg.rxSegMax) (cleared : Cleared cfg sdu start state)
    (within : segO ≤ sdu.segN) (addr : netRx.addr = sdu.id.src)
    (recvDst : netRx.recvDst = sdu.id.dst) (ctl : netRx.ctl = sdu.ctl)
    {env : RxEnv} {rplSlot : Option Nat}
    (queue : netRx.localMatch = true ∨ env.queueHasSpace = true)
    (fresh : oldSeqAuth start.rpl rplSlot netRx (sdu.id.seqAuth % 2 ^ 24) = false) :
    Stage sdu start [segO]
        (segRxNew cfg env netRx sdu.hdr (sdu.head segO) sdu.id.seqAuth rplSlot
          (sdu.payload segO) state).2.1 ∧
      delivered (segRxNew cfg env netRx sdu.hdr (sdu.head segO)
          sdu.id.seqAuth rplSlot (sdu.payload segO) state).2.2 =
        if sdu.AllOf [segO] then sdu.handed else [] := by
  obtain ⟨slot, rx, opened, alloc, receiving⟩ := cleared.alloc fits addr recvDst ctl
  have missing : ¬ sdu.AllOf [] := fun all => nomatch all 0 (Nat.zero_le _)
  have few : (!decide ((sdu.head segO).segN < cfg.rxSegMax)) = false := by
    rw [decide_eq_true (show (sdu.head segO).segN < cfg.rxSegMax from fits)]
    rfl
  have space : (cfg.friend && netRx.friendMatch && !netRx.localMatch &&
      !env.queueHasSpace) = false := by
    rcases queue with here | space
    · simp [here]
    · simp [space]
  have taken : segRxAlloc netRx sdu.hdr sdu.id.seqAuth (sdu.head segO).segN
      state = some (slot, rx, opened) := alloc
  unfold segRxNew
  rw [few, space, cleared.rpl, fresh, taken]
  exact segRxStore_stage some_bytes fits receiving missing within addr recvDst
    ctl env rplSlot

theorem Arrives.transSeg {arrival : Arrival}
    (arrives : Arrives sdu state.ivIndex arrival) (env : RxEnv) :
    transSeg cfg env arrival.netRx arrival.pdu state =
      if (rplCheck cfg state.rpl arrival.netRx true).1.replay then
        (.error .inval, state, [])
      else
        segRxTake cfg env arrival.netRx sdu.hdr (sdu.head arrival.segO)
          sdu.id.seqAuth (rplCheck cfg state.rpl arrival.netRx true).1.slot
          (sdu.payload arrival.segO) state := by
  obtain ⟨_, _, _, pdu, head⟩ := arrives.isPdu
  obtain ⟨_, _, payload⟩ := exists_cons_of_ne_nil
    (SegSdu.payload_ne_nil some_bytes arrives.within)
  have inside : ¬ (sdu.head arrival.segO).segN < (sdu.head arrival.segO).segO :=
    not_lt.mpr arrives.within
  rw [pdu, payload]
  unfold Mesh.transSeg
  dsimp only
  rw [head, arrives.seqAuth, if_neg inside]

theorem reassembly_step {arrival : Arrival} (fits : sdu.segN < cfg.rxSegMax)
    (ready : Ready sdu start) (sized : Sized cfg.rxSegMax start)
    (stage : Stage sdu start seen state)
    (arrives : Arrives sdu start.ivIndex arrival)
    (passes : Passes cfg sdu start arrival) :
    Stage sdu start (arrival.segO :: seen)
        ((reassemblyMachine cfg).next state arrival.input) ∧
      (reassemblyMachine cfg).emit state arrival.input =
        if sdu.AllOf (arrival.segO :: seen) ∧ ¬ sdu.AllOf seen then sdu.handed
        else [] := by
  change Stage sdu start (arrival.segO :: seen)
      (transSeg cfg arrival.env arrival.netRx arrival.pdu state).2.1 ∧
    delivered (transSeg cfg arrival.env arrival.netRx arrival.pdu state).2.2 = _
  cases stage with
  | waiting =>
    have missing : ¬ sdu.AllOf [] := fun all => nomatch all 0 (Nat.zero_le _)
    obtain ⟨_, _, find, nothing, clear⟩ :=
      segRxFind_cleared ready sized arrives.addr arrives.recvDst
    obtain ⟨stage, handed⟩ := segRxNew_stage some_bytes fits clear
      arrives.within arrives.addr arrives.recvDst arrives.ctl passes.queue
      passes.fresh
    rw [arrives.transSeg some_bytes, passes.replay, if_neg Bool.false_ne_true]
    unfold segRxTake
    rw [find]
    rw [delivered_append, nothing, nil_append, handed]
    exact ⟨stage, by simp only [missing, not_false_eq_true, and_true]⟩
  | @receiving _ _ slot rx missing receiving =>
    have here : Arrives sdu state.ivIndex arrival :=
      receiving.ivIndex.symm ▸ arrives
    rw [here.transSeg some_bytes, receiving.rpl, passes.replay,
      if_neg Bool.false_ne_true]
    simp only [missing, not_false_eq_true, and_true]
    exact segRxTake_receiving some_bytes fits receiving missing here.within
      here.addr here.recvDst here.ctl arrival.env _
  | @complete _ _ slot rx all session closed =>
    have here : Arrives sdu state.ivIndex arrival := session.ivIndex.symm ▸ arrives
    have handedBefore : ¬ (sdu.AllOf (arrival.segO :: seen) ∧
        ¬ sdu.AllOf seen) := fun both => both.2 all
    rw [if_neg handedBefore, here.transSeg some_bytes]
    split
    · have known := (session.marks arrival.segO).mpr (all arrival.segO here.within)
      exact ⟨.complete (fun place inside => mem_cons_of_mem _ (all place inside))
        (session.again known) closed, rfl⟩
    · exact segRxTake_complete all session closed here.within here.addr
        here.recvDst here.ctl arrival.env _

end

end Reception

section Run

variable {cfg : Config} {sdu : SegSdu} {start : SegRxs}

theorem SegSdu.AllOf.mono {seen more : List Nat} (all : sdu.AllOf seen)
    (included : ∀ segO ∈ seen, segO ∈ more) : sdu.AllOf more :=
  fun segO within => included segO (all segO within)

theorem reassembly_run (some_bytes : sdu.bytes ≠ [])
    (fits : sdu.segN < cfg.rxSegMax) (ready : Ready sdu start)
    (sized : Sized cfg.rxSegMax start) (arrivals : List Arrival) :
    ∀ (seen : List Nat) (state : SegRxs), Stage sdu start seen state →
      (∀ arrival ∈ arrivals, Arrives sdu start.ivIndex arrival ∧
        Passes cfg sdu start arrival) →
      Stage sdu start ((arrivals.map Arrival.segO).reverse ++ seen)
          ((reassemblyMachine cfg).run state (arrivals.map Arrival.input)) ∧
        (reassemblyMachine cfg).trace state (arrivals.map Arrival.input) =
          if sdu.AllOf ((arrivals.map Arrival.segO).reverse ++ seen) ∧
              ¬ sdu.AllOf seen then
            sdu.handed
          else
            [] := by
  induction arrivals with
  | nil =>
    intro seen state stage _
    have nothing : ¬ (sdu.AllOf seen ∧ ¬ sdu.AllOf seen) :=
      fun both => both.2 both.1
    exact ⟨stage, (if_neg nothing).symm⟩
  | cons arrival rest ih =>
    intro seen state stage each
    obtain ⟨arrives, passes⟩ := each arrival mem_cons_self
    obtain ⟨next, emitted⟩ :=
      reassembly_step some_bytes fits ready sized stage arrives passes
    obtain ⟨last, later⟩ := ih (arrival.segO :: seen) _ next
      (fun other member => each other (mem_cons_of_mem _ member))
    have joined : ((arrival :: rest).map Arrival.segO).reverse ++ seen =
        (rest.map Arrival.segO).reverse ++ arrival.segO :: seen := by
      simp
    rw [joined]
    refine ⟨last, ?_⟩
    rw [map_cons, Machine.trace_cons, emitted, later]
    by_cases before : sdu.AllOf seen
    · have now : sdu.AllOf (arrival.segO :: seen) :=
        before.mono fun _ member => mem_cons_of_mem _ member
      simp only [before, now, not_true_eq_false, and_false, if_false, append_nil]
    · by_cases now : sdu.AllOf (arrival.segO :: seen)
      · have finally_ : sdu.AllOf
            ((rest.map Arrival.segO).reverse ++ arrival.segO :: seen) :=
          now.mono fun _ member => mem_append_right _ member
        simp only [before, now, finally_, not_true_eq_false,
          not_false_eq_true, and_false, and_true, if_true, if_false,
          append_nil]
      · simp only [before, now, not_false_eq_true, and_true, if_false, nil_append]

end Run

theorem seqZeroOf_seqAuthOf {ivIndex seq : Nat} (seq_lt : seq < 2 ^ 24) :
    seqZeroOf (seqAuthOf ivIndex seq) = seq % 2 ^ 13 := by
  unfold seqZeroOf seqAuthOf
  rw [← Nat.shiftLeft_add_eq_or_of_lt seq_lt, Nat.shiftLeft_eq]
  omega

theorem firstSeq_eq {first seq : Nat} (first_le : first ≤ seq)
    (le_last : seq ≤ first + 8191) (seq_lt : seq < 2 ^ 24) :
    firstSeq seq (first % 2 ^ 13) = first := by
  unfold firstSeq
  omega

/-- A copy of a segment reaches the receiver under the IV index of the sender,
with a sequence number that SeqZero leads back from. -/
structure Carried (env : SegEnv) (netTx : NetTx) (ctlOp : Option Nat)
    (ivIndex : Nat) (netRx : NetRx) : Prop where
  addr : netRx.addr = netTx.src
  recvDst : netRx.recvDst = netTx.addr
  ctl : netRx.ctl = ctlOp.isSome
  iv : netIviRx ivIndex netRx = env.iviTx
  first_le : env.seq ≤ netRx.seq
  le_last : netRx.seq ≤ env.seq + 8191

theorem Carried.seqAuth {env : SegEnv} {netTx : NetTx} {ctlOp : Option Nat}
    {ivIndex : Nat} {netRx : NetRx}
    (carried : Carried env netTx ctlOp ivIndex netRx) (bytes : List Byte)
    (segO : Nat) :
    seqAuthRx ivIndex netRx ((sentSdu env netTx ctlOp bytes).head segO) =
      (sentSdu env netTx ctlOp bytes).id.seqAuth := by
  have first_lt := lt_of_le_of_lt carried.first_le netRx.seq_lt
  change seqAuthOf (netIviRx ivIndex netRx)
    (firstSeq netRx.seq (seqZeroOf (seqAuthOf env.iviTx env.seq))) =
      seqAuthOf env.iviTx env.seq
  rw [carried.iv, seqZeroOf_seqAuthOf first_lt,
    firstSeq_eq carried.first_le carried.le_last netRx.seq_lt]

def SegRx.IsFor (rx : SegRx) (id : SduId) : Prop :=
  rx.src = id.src ∧ rx.dst = id.dst ∧ rx.seqAuth = id.seqAuth

def OneSession (state : SegRxs) (id : SduId) (seen : List Nat) : Prop :=
  ∃ (slot : Nat) (rx : SegRx), state.rxs[slot]? = some rx ∧ rx.IsFor id ∧
    Marks rx.block seen ∧
    ∀ (place : Nat) (other : SegRx), state.rxs[place]? = some other →
      other.IsFor id → place = slot

variable {seen : List Nat}

theorem Session.one {sdu : SegSdu} {start state : SegRxs}
    {slot : Nat} {rx : SegRx} (session : Session sdu start state seen slot rx) :
    OneSession state sdu.id seen := by
  refine ⟨slot, rx, session.found, ⟨session.src, session.dst, session.seqAuth⟩,
    session.marks, ?_⟩
  rintro place other found ⟨src, dst, seqAuth⟩
  by_contra elsewhere
  have older := session.only place other elsewhere found src dst
  rw [seqAuth] at older
  exact lt_irrefl _ older

theorem Stage.one {sdu : SegSdu} {start state : SegRxs}
    (stage : Stage sdu start seen state) (some_seen : seen ≠ []) :
    OneSession state sdu.id seen := by
  cases stage with
  | waiting => exact absurd rfl some_seen
  | receiving missing receiving => exact receiving.toSession.one
  | complete all session => exact session.one

theorem OneSession.reverse {state : SegRxs} {id : SduId}
    (one : OneSession state id seen.reverse) : OneSession state id seen := by
  obtain ⟨slot, rx, found, isFor, marks, only⟩ := one
  refine ⟨slot, rx, found, isFor, ?_, only⟩
  intro segO
  rw [marks segO, mem_reverse]

/-- `send_seg` builds all segments of an SDU that it accepts.  Whatever copies of
them arrive, and in whatever order, a receiver with any history opens one session
with the SeqAuth of the sender for them, and hands the SDU over once, when the last
missing segment arrives. -/
theorem sendSeg_reassembled (cfgTx cfgRx : Config) (env : SegEnv)
    (netTx : NetTx) (bytes : List Byte) (cb : Option SendCb)
    (ctlOp : Option Nat) (txs : SegTxs) (ivIndex crpl msgCount segBufs : Nat)
    (history : List SegRxInput) (start : SegRxs) (arrivals : List Arrival)
    (some_bytes : bytes ≠ [])
    (fitsTx : bytes.length ≤ cfgTx.txSegMax * segLen ctlOp.isSome)
    (fitsRx : bytes.length ≤ cfgRx.rxSegMax * segLen ctlOp.isSome)
    (arrays : ∀ tx ∈ txs.txs, tx.seg.length = cfgTx.txSegMax)
    (attempts : cfgTx.txSegRetransCount ≠ 0)
    (reached : start = (segRxMachine cfgRx).run
      (.boot cfgRx ivIndex crpl msgCount segBufs) history)
    (ready : Ready (sentSdu env netTx ctlOp bytes) start)
    (built : ∀ arrival ∈ arrivals,
      Built cfgTx env netTx bytes cb ctlOp txs arrival.segO arrival.pdu)
    (carried : ∀ arrival ∈ arrivals,
      Carried env netTx ctlOp start.ivIndex arrival.netRx)
    (passes : ∀ arrival ∈ arrivals,
      Passes cfgRx (sentSdu env netTx ctlOp bytes) start arrival) :
    ((sendSeg cfgTx env netTx bytes cb ctlOp txs).1 = .ok () →
        ∀ segO, segO ≤ (sentSdu env netTx ctlOp bytes).segN →
          ∃ pdu, Built cfgTx env netTx bytes cb ctlOp txs segO pdu) ∧
      (arrivals ≠ [] → OneSession
          ((reassemblyMachine cfgRx).run start (arrivals.map Arrival.input))
          ⟨netTx.src, netTx.addr, seqAuthOf env.iviTx env.seq⟩
          (arrivals.map Arrival.segO)) ∧
      (reassemblyMachine cfgRx).trace start (arrivals.map Arrival.input) =
        if (sentSdu env netTx ctlOp bytes).AllOf (arrivals.map Arrival.segO) then
          (sentSdu env netTx ctlOp bytes).handed
        else
          [] := by
  have fits : (sentSdu env netTx ctlOp bytes).segN < cfgRx.rxSegMax :=
    SegSdu.segN_lt (count_pos some_bytes fitsRx) fitsRx
  have sized : Sized cfgRx.rxSegMax start := by
    rw [reached]
    exact (Machine.always_of_kept (segRxStep_sized cfgRx)
      (boot_sized cfgRx ivIndex crpl msgCount segBufs)).last
  have each : ∀ arrival ∈ arrivals,
      Arrives (sentSdu env netTx ctlOp bytes) start.ivIndex arrival ∧
        Passes cfgRx (sentSdu env netTx ctlOp bytes) start arrival := by
    intro arrival member
    obtain ⟨within, isPdu⟩ := (built arrival member).isPdu some_bytes fitsTx
    have here := carried arrival member
    exact ⟨⟨within, isPdu, here.addr, here.recvDst, here.ctl,
      here.seqAuth bytes arrival.segO⟩, passes arrival member⟩
  obtain ⟨stage, trace⟩ := reassembly_run some_bytes fits ready sized arrivals []
    start .waiting each
  rw [append_nil] at stage trace
  refine ⟨fun accepted segO =>
    sendSeg_builds some_bytes fitsTx arrays attempts accepted, ?_, ?_⟩
  · intro some_arrivals
    apply OneSession.reverse
    apply stage.one
    simpa using some_arrivals
  · have missing : ¬ (sentSdu env netTx ctlOp bytes).AllOf [] :=
      fun all => nomatch all 0 (Nat.zero_le _)
    have same : (sentSdu env netTx ctlOp bytes).AllOf
        (arrivals.map Arrival.segO).reverse ↔
        (sentSdu env netTx ctlOp bytes).AllOf (arrivals.map Arrival.segO) := by
      simp only [SegSdu.AllOf, mem_reverse]
    rw [trace]
    simp only [missing, same, not_false_eq_true, and_true]

/-! An access SDU of 14 bytes with its short MIC: the second segment arrives
twice before the first. -/

def sampleEnv : SegEnv := ⟨5, 4, true, fun _ => false, fun _ => .sent, false⟩

def sampleNetTx : NetTx := ⟨0, 0, 0x0010, 7, 1, 0, 0, false, false⟩

def sampleBytes : List Byte := List.replicate 12 0xaa ++ [0x01, 0x02]

def sampleTxs : SegTxs := ⟨[.boot 3], [0, 1, 2]⟩

def swapped : List Arrival :=
  [⟨1, [0xc0, 0x00, 0x10, 0x21, 0x01, 0x02],
      unicastRx 1 6 false firstAddr_unicast sixthSeq_lt, quietEnv⟩,
    ⟨1, [0xc0, 0x00, 0x10, 0x21, 0x01, 0x02],
      unicastRx 1 5 false firstAddr_unicast fifthSeq_lt, quietEnv⟩,
    ⟨0, [0xc0, 0x00, 0x10, 0x01] ++ List.replicate 12 0xaa,
      unicastRx 1 4 false firstAddr_unicast, quietEnv⟩]

theorem sendSeg_reassembled_swapped :
    (reassemblyMachine ivTestConfig).trace (.boot ivTestConfig 5 2 2 4)
        (swapped.map Arrival.input) =
      [.sduRecv ⟨1, 0x0010, 0x5000004⟩ 0xc0 false (replicate 10 0xaa)] := by
  have built : ∀ arrival ∈ swapped, Built ivTestConfig sampleEnv sampleNetTx
      sampleBytes none none sampleTxs arrival.segO arrival.pdu := by
    intro arrival member
    apply @Built.sent ivTestConfig sampleEnv sampleNetTx sampleBytes none none
      sampleTxs arrival.segO 0 arrival.pdu
    revert arrival
    decide
  have carried : ∀ arrival ∈ swapped,
      Carried sampleEnv sampleNetTx none 5 arrival.netRx := by
    intro arrival member
    refine ⟨?_, ?_, ?_, ?_, ?_, ?_⟩ <;> revert arrival <;> decide
  have passes : ∀ arrival ∈ swapped, Passes ivTestConfig
      (sentSdu sampleEnv sampleNetTx none sampleBytes)
      (.boot ivTestConfig 5 2 2 4) arrival := by
    intro arrival member
    refine ⟨?_, ?_, ?_⟩ <;> revert arrival <;> decide
  have once := (sendSeg_reassembled ivTestConfig ivTestConfig sampleEnv
    sampleNetTx sampleBytes none none sampleTxs 5 2 2 4 []
    (.boot ivTestConfig 5 2 2 4) swapped (by decide) (by decide) (by decide)
    (by decide) (by decide) rfl ⟨by decide, by decide, by decide⟩ built carried
    passes).2.2
  rw [once]
  decide

end ZephyrBluetooth.Mesh
