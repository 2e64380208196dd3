import ZephyrBluetooth.Mesh.Rpl
import ZephyrBluetooth.Mesh.SegTx

namespace ZephyrBluetooth.Mesh

/-! Segmented reception (`transport.c`).  `unsigned long` has 32 bits, and the
delays of the acknowledgment timer are not tracked. -/

/-- `struct seg_rx`; `ack` tells whether its work is scheduled. -/
structure SegRx where
  sub : Option Nat
  seg : List (Option SegBuf)
  seqAuth : Nat
  src : Nat
  dst : Nat
  len : Nat
  hdr : Byte
  segN : Nat
  ctl : Bool
  inUse : Bool
  obo : Bool
  ttl : Nat
  block : Nat
  last : Nat
  ack : Bool

def SegRx.boot (rxSegMax : Nat) : SegRx where
  sub := none
  seg := List.replicate rxSegMax none
  seqAuth := 0
  src := 0
  dst := 0
  len := 0
  hdr := 0
  segN := 0
  ctl := false
  inUse := false
  obo := false
  ttl := 0
  block := 0
  last := 0
  ack := false

structure SegRxs where
  ivIndex : Nat
  rpl : ReplayList
  rxs : List SegRx
  slab : List Nat

structure SduId where
  src : Nat
  dst : Nat
  seqAuth : Nat
  deriving DecidableEq

inductive SegRxEvt where
  | ack (sub src dst ttl seqZero block : Nat) (obo : Bool)
  | clearIncomplete (src dst seqAuth : Nat)
  | ctlRecv (id : SduId) (hdr : Byte) (sdu : List Byte)
  | sduRecv (id : SduId) (hdr : Byte) (aszmic : Bool) (buf : List Byte)
  | unsegRecv (ctl : Bool) (hdr : Byte) (buf : List Byte)
  deriving DecidableEq

/-- What the layers around a reception answer.  `ctlErr` is the result of
`ctl_recv`. -/
structure RxEnv where
  uptime : Nat
  lpnEstablished : Bool
  queueHasSpace : Bool
  ctlErr : Option Errno

inductive FriendPduType where
  | single
  | incomplete
  | complete
  deriving DecidableEq

structure FriendPdu where
  type : FriendPduType
  seqAuth : Nat
  segCount : Nat

def blockComplete (segN : Nat) : Nat :=
  2 ^ (segN + 1) - 1

def appMicLen (aszmic : Bool) : Nat :=
  if aszmic then 8 else 4

def rxSduMax (cfg : Config) : Nat :=
  cfg.rxSegMax * 12

def sendAck (env : RxEnv) (sub src dst ttl seqAuth block : Nat) (obo : Bool) :
    List SegRxEvt :=
  if env.lpnEstablished || !addrIsUnicast src then []
  else [.ack sub src dst ttl (seqZeroOf seqAuth) block obo]

def SegRx.piece (rx : SegRx) (i : Nat) : List Byte :=
  match (rx.seg[i]?).join with
  | none => []
  | some buf => buf.data.take (min (segLen rx.ctl) (rx.len - i * segLen rx.ctl))

def SegRx.assemble (rx : SegRx) (aszmic : Bool) : List Byte :=
  let whole := (List.range (rx.segN + 1)).flatMap rx.piece
  if rx.ctl then whole else whole.take (whole.length - appMicLen aszmic)

def SegRx.heldBlocks (rx : SegRx) : List Nat :=
  (rx.seg.take (rx.segN + 1)).filterMap (Option.map SegBuf.block)

/-- `seg_rx_reset` of one context. -/
def SegRx.reset (full : Bool) (rx : SegRx) : SegRx :=
  let freed :=
    { rx with
      ack := false
      seg := List.replicate (min (rx.segN + 1) rx.seg.length) none ++
        rx.seg.drop (rx.segN + 1)
      inUse := false }
  if full then
    { freed with
      seqAuth := 0
      sub := none
      src := addrUnassigned
      dst := addrUnassigned }
  else
    freed

def segRxReset (cfg : Config) (state : SegRxs) (slot : Nat) (full : Bool) :
    SegRxs × List SegRxEvt :=
  match state.rxs[slot]? with
  | none => (state, [])
  | some rx =>
    ({ state with
        rxs := state.rxs.set slot (rx.reset full)
        slab := rx.heldBlocks.reverse ++ state.slab },
      if cfg.friend && rx.obo && rx.block != blockComplete rx.segN then
        [.clearIncomplete rx.src rx.dst rx.seqAuth]
      else
        [])

def segAck (cfg : Config) (env : RxEnv) (state : SegRxs) (slot : Nat) :
    SegRxs × List SegRxEvt :=
  match state.rxs[slot]? with
  | none => (state, [])
  | some rx =>
    if !rx.inUse || rx.block == blockComplete rx.segN then
      ({ state with rxs := state.rxs.set slot { rx with ack := false } }, [])
    else if 60 * 1000 < (env.uptime + 2 ^ 32 - rx.last) % 2 ^ 32 then
      segRxReset cfg state slot false
    else
      ({ state with rxs := state.rxs.set slot { rx with ack := true } },
        sendAck env (rx.sub.getD 0) rx.dst rx.src rx.ttl rx.seqAuth rx.block rx.obo)

/-- The loop of `seg_rx_find`: the context to go on with, or the one that is in
the way of a newer SDU. -/
def segRxScan (addr dst seqAuth : Nat) :
    List SegRx → Option (Nat × SegRx × Bool)
  | [] => none
  | rx :: rest =>
    if rx.src = addr ∧ rx.dst = dst ∧ seqAuth ≤ rx.seqAuth then
      some (0, rx, true)
    else if rx.src = addr ∧ rx.dst = dst ∧ rx.inUse then
      some (0, rx, false)
    else
      (segRxScan addr dst seqAuth rest).map fun found =>
        (found.1 + 1, found.2)

def segRxFind (cfg : Config) (netRx : NetRx) (seqAuth : Nat) (state : SegRxs) :
    Option (Nat × SegRx) × SegRxs × List SegRxEvt :=
  match segRxScan netRx.addr netRx.recvDst seqAuth state.rxs with
  | none => (none, state, [])
  | some (slot, rx, true) => (some (slot, rx), state, [])
  | some (slot, _, false) => (none, segRxReset cfg state slot true)

def segRxIsValid (rx : SegRx) (netRx : NetRx) (hdr : Byte) (segN : Nat) : Bool :=
  rx.hdr == hdr && rx.segN == segN && rx.src == netRx.addr &&
    rx.dst == netRx.recvDst && rx.ctl == netRx.ctl

def SegRx.alloc (netRx : NetRx) (hdr : Byte) (seqAuth segN : Nat) (rx : SegRx) :
    SegRx :=
  { rx with
    inUse := true
    sub := some netRx.sub
    ctl := netRx.ctl
    seqAuth := seqAuth
    segN := segN
    hdr := hdr
    ttl := netRx.sendTtl
    src := netRx.addr
    dst := netRx.recvDst
    block := 0 }

/-- The loop of `seg_rx_alloc`. -/
def freeRx : List SegRx → Option (Nat × SegRx)
  | [] => none
  | rx :: rest =>
    if rx.inUse then (freeRx rest).map fun found => (found.1 + 1, found.2)
    else some (0, rx)

def segRxAlloc (netRx : NetRx) (hdr : Byte) (seqAuth segN : Nat)
    (state : SegRxs) : Option (Nat × SegRx × SegRxs) :=
  if state.slab = [] then
    none
  else
    (freeRx state.rxs).map fun found =>
      let opened :=
        { found.2.alloc netRx hdr seqAuth segN with obo := netRx.friendMatch }
      (found.1, opened, { state with rxs := state.rxs.set found.1 opened })

structure SegHdr where
  aszmic : Bool
  seqZero : Nat
  segO : Nat
  segN : Nat

def segHdrOf (h1 h2 h3 : Byte) : SegHdr where
  aszmic := decide (2 ^ 7 ≤ h1.toNat)
  seqZero := be16Of h1 h2 / 2 ^ 2 % 2 ^ 13
  segO := be16Of h1 h2 % 2 ^ 2 * 2 ^ 3 + h3.toNat / 2 ^ 5
  segN := h3.toNat % 2 ^ 5

def firstSeq (seq seqZero : Nat) : Nat :=
  (seq + 2 ^ 32 - (seq % 2 ^ 14 + 2 ^ 32 - seqZero) % 2 ^ 13) % 2 ^ 32

/-- The SeqAuth that `trans_seg` computes. -/
def seqAuthRx (ivIndex : Nat) (netRx : NetRx) (head : SegHdr) : Nat :=
  seqAuthOf (netIviRx ivIndex netRx) (firstSeq netRx.seq head.seqZero)

/-- `bt_mesh_rpl_update` and the new `rpl->seg`, for the entry that
`bt_mesh_rpl_check` found. -/
def rplComplete (cfg : Config) (rl : ReplayList) (slot : Option Nat)
    (netRx : NetRx) (auth : Nat) : ReplayList :=
  match slot with
  | none => rl
  | some slot =>
    let updated := rplUpdate cfg rl slot netRx
    match updated.list[slot]? with
    | none => updated
    | some rpl =>
      { updated with
        list := updated.list.set slot { rpl with seg := max rpl.seg auth } }

/-- The SDU of a complete context is handed to `ctl_recv` or `sdu_recv`. -/
def handOver (env : RxEnv) (ctl : Bool) (id : SduId) (hdr : Byte)
    (aszmic : Bool) (rx : SegRx) : Except Errno Unit × List SegRxEvt :=
  if ctl then
    (match env.ctlErr with
      | none => .ok ()
      | some err => .error err,
      [.ctlRecv id hdr (rx.assemble false)])
  else if rx.len < 1 + appMicLen aszmic then
    (.error .inval, [])
  else
    (.ok (), [.sduRecv id hdr aszmic (rx.assemble aszmic)])

/-- The end of `trans_seg`, once no segment is missing. -/
def segRxDeliver (cfg : Config) (env : RxEnv) (netRx : NetRx) (hdr : Byte)
    (aszmic : Bool) (seqAuth : Nat) (rplSlot : Option Nat) (slot : Nat)
    (rx : SegRx) (state : SegRxs) :
    Except Errno FriendPdu × SegRxs × List SegRxEvt :=
  let updated :=
    { state with
      rpl := rplComplete cfg state.rpl rplSlot netRx (seqAuth % 2 ^ 24)
      rxs := state.rxs.set slot { rx with ack := false } }
  let handed :=
    handOver env netRx.ctl ⟨netRx.addr, netRx.recvDst, seqAuth⟩ hdr aszmic rx
  let reset := segRxReset cfg updated slot false
  (handed.1.map fun _ => ⟨.complete, seqAuth, rx.segN + 1⟩, reset.1,
    sendAck env netRx.sub netRx.recvDst netRx.addr netRx.sendTtl seqAuth rx.block
      rx.obo ++ handed.2 ++ reset.2)

def SegRx.sized (head : SegHdr) (payload : List Byte) (rx : SegRx) : SegRx :=
  if head.segO = head.segN then
    { rx with len := head.segN * segLen rx.ctl + payload.length }
  else
    rx

def SegRx.timed (env : RxEnv) (rx : SegRx) : SegRx :=
  { rx with last := env.uptime, ack := !env.lpnEstablished || rx.ack }

def SegRx.store (segO free : Nat) (payload : List Byte) (rx : SegRx) : SegRx :=
  { rx with
    seg := rx.seg.set segO (some ⟨free, payload⟩)
    block := rx.block ||| 1 <<< segO }

/-- `trans_seg` from its label `found_rx` on. -/
def segRxStore (cfg : Config) (env : RxEnv) (netRx : NetRx) (hdr : Byte)
    (head : SegHdr) (seqAuth : Nat) (rplSlot : Option Nat)
    (payload : List Byte) (slot : Nat) (rx : SegRx) (state : SegRxs) :
    Except Errno FriendPdu × SegRxs × List SegRxEvt :=
  let sized := rx.sized head payload
  if rx.block.testBit head.segO then
    (.error .already, state, [])
  else if head.segO = head.segN ∧ rxSduMax cfg < sized.len then
    let reset :=
      segRxReset cfg { state with rxs := state.rxs.set slot sized } slot true
    (.error .msgSize, reset.1,
      sendAck env netRx.sub netRx.recvDst netRx.addr netRx.sendTtl seqAuth 0
        rx.obo ++ reset.2)
  else if head.segO ≠ head.segN ∧ payload.length ≠ segLen rx.ctl then
    (.error .inval, state, [])
  else
    match state.slab with
    | [] =>
      (.error .noBufs,
        { state with rxs := state.rxs.set slot (sized.timed env) }, [])
    | free :: slab =>
      let stored := (sized.timed env).store head.segO free payload
      let filled :=
        { state with rxs := state.rxs.set slot stored, slab := slab }
      if stored.block ≠ blockComplete head.segN then
        (.ok ⟨.incomplete, seqAuth, head.segN + 1⟩, filled, [])
      else
        segRxDeliver cfg env netRx hdr head.aszmic seqAuth rplSlot slot stored filled

def segRxKnown (cfg : Config) (env : RxEnv) (netRx : NetRx) (hdr : Byte)
    (head : SegHdr) (seqAuth : Nat) (rplSlot : Option Nat)
    (payload : List Byte) (slot : Nat) (rx : SegRx) (state : SegRxs) :
    Except Errno FriendPdu × SegRxs × List SegRxEvt :=
  if seqAuth < rx.seqAuth then
    (.error .inval, state, [])
  else if !segRxIsValid rx netRx hdr head.segN then
    (.error .inval, state, [])
  else if rx.inUse then
    segRxStore cfg env netRx hdr head seqAuth rplSlot payload slot rx state
  else if rx.block = blockComplete rx.segN then
    (.error .already,
      { state with
        rpl := match rplSlot with
          | none => state.rpl
          | some entry => rplUpdate cfg state.rpl entry netRx },
      sendAck env netRx.sub netRx.recvDst netRx.addr netRx.sendTtl seqAuth
        rx.block rx.obo)
  else
    (.error .inval, state, [])

/-- The check of `rpl->seg` for a new SDU. -/
def oldSeqAuth (rl : ReplayList) (rplSlot : Option Nat) (netRx : NetRx)
    (auth : Nat) : Bool :=
  match rplSlot.bind fun entry => rl.list[entry]? with
  | none => false
  | some rpl =>
    rpl.src != 0 && decide (auth ≤ rpl.seg) && (!rpl.oldIv || netRx.oldIv)

def segRxNew (cfg : Config) (env : RxEnv) (netRx : NetRx) (hdr : Byte)
    (head : SegHdr) (seqAuth : Nat) (rplSlot : Option Nat)
    (payload : List Byte) (state : SegRxs) :
    Except Errno FriendPdu × SegRxs × List SegRxEvt :=
  let refusal :=
    sendAck env netRx.sub netRx.recvDst netRx.addr netRx.sendTtl seqAuth 0
      netRx.friendMatch
  if !decide (head.segN < cfg.rxSegMax) then
    (.error .msgSize, state, refusal)
  else if cfg.friend && netRx.friendMatch && !netRx.localMatch &&
      !env.queueHasSpace then
    (.error .noBufs, state, refusal)
  else if oldSeqAuth state.rpl rplSlot netRx (seqAuth % 2 ^ 24) then
    (.error .already, state, [])
  else
    match segRxAlloc netRx hdr seqAuth head.segN state with
    | none => (.error .noMem, state, [])
    | some (slot, rx, opened) =>
      segRxStore cfg env netRx hdr head seqAuth rplSlot payload slot rx opened

/-- `trans_seg` from its call of `seg_rx_find` on. -/
def segRxTake (cfg : Config) (env : RxEnv) (netRx : NetRx) (hdr : Byte)
    (head : SegHdr) (seqAuth : Nat) (rplSlot : Option Nat)
    (payload : List Byte) (state : SegRxs) :
    Except Errno FriendPdu × SegRxs × List SegRxEvt :=
  match segRxFind cfg netRx seqAuth state with
  | (some (slot, rx), found, evts) =>
    let (result, after, later) :=
      segRxKnown cfg env netRx hdr head seqAuth rplSlot payload slot rx found
    (result, after, evts ++ later)
  | (none, cleared, evts) =>
    let (result, after, later) :=
      segRxNew cfg env netRx hdr head seqAuth rplSlot payload cleared
    (result, after, evts ++ later)

def transSeg (cfg : Config) (env : RxEnv) (netRx : NetRx) (buf : List Byte)
    (state : SegRxs) : Except Errno FriendPdu × SegRxs × List SegRxEvt :=
  match buf with
  | hdr :: h1 :: h2 :: h3 :: first :: rest =>
    let check := (rplCheck cfg state.rpl netRx true).1
    let head := segHdrOf h1 h2 h3
    if check.replay then
      (.error .inval, state, [])
    else if head.segN < head.segO then
      (.error .inval, state, [])
    else
      segRxTake cfg env netRx hdr head (seqAuthRx state.ivIndex netRx head)
        check.slot (first :: rest) state
  | _ => (.error .inval, state, [])

/-- `trans_unseg`; what `ctl_recv` answers is in `ctlErr`. -/
def transUnseg (cfg : Config) (env : RxEnv) (netRx : NetRx) (buf : List Byte)
    (state : SegRxs) : Except Errno Unit × SegRxs × List SegRxEvt :=
  match buf with
  | [] => (.error .inval, state, [])
  | hdr :: rest =>
    let (check, rpl) := rplCheck cfg state.rpl netRx false
    if check.replay then
      (.error .inval, state, [])
    else
      let updated := { state with rpl := rpl }
      if netRx.ctl then
        (match env.ctlErr with
          | none => .ok ()
          | some err => .error err,
          updated, [.unsegRecv true hdr rest])
      else if rest.length < 1 + appMicLen false then
        (.error .inval, updated, [])
      else
        (.ok (), updated,
          [.unsegRecv false hdr (rest.take (rest.length - appMicLen false))])

def rxReset (cfg : Config) (state : SegRxs) : SegRxs × List SegRxEvt :=
  (List.range state.rxs.length).foldl
    (fun current slot =>
      let (reset, evts) := segRxReset cfg current.1 slot true
      (reset, current.2 ++ evts))
    (state, [])

end ZephyrBluetooth.Mesh
