import ZephyrBluetooth.Mesh.Basic

namespace ZephyrBluetooth.Mesh

/-! Segmented transmission (`transport.c`).  A slot of `seg` holds the block it
was given by the slab and the bytes copied there; the slab is the list of its
free blocks. -/

structure SegBuf where
  block : Nat
  data : List Byte

/-- `struct bt_mesh_send_cb` with its data: which callbacks are set. -/
structure SendCb where
  data : Nat
  hasStart : Bool
  hasEnd : Bool
  deriving DecidableEq

/-- `struct seg_tx`; `retransmit` tells whether its work is scheduled. -/
structure SegTx where
  sub : Option Nat
  seg : List (Option SegBuf)
  seqAuth : Nat
  src : Nat
  dst : Nat
  len : Nat
  hdr : Nat
  xmit : Nat
  segN : Nat
  segO : Nat
  nackCount : Nat
  attempts : Nat
  ttl : Nat
  segPending : Nat
  blocked : Bool
  ctl : Bool
  aszmic : Bool
  started : Bool
  sending : Bool
  friendCred : Bool
  cb : Option SendCb
  retransmit : Bool

def SegTx.boot (txSegMax : Nat) : SegTx where
  sub := none
  seg := List.replicate txSegMax none
  seqAuth := 0
  src := 0
  dst := 0
  len := 0
  hdr := 0
  xmit := 0
  segN := 0
  segO := 0
  nackCount := 0
  attempts := 0
  ttl := 0
  segPending := 0
  blocked := false
  ctl := false
  aszmic := false
  started := false
  sending := false
  friendCred := false
  cb := none
  retransmit := false

structure SegTxs where
  txs : List SegTx
  slab : List Nat

/-- The parts of `struct bt_mesh_net_tx` that a segmented transmission reads. -/
structure NetTx where
  sub : Nat
  appIdx : Nat
  addr : Nat
  sendTtl : Nat
  src : Nat
  xmit : Nat
  aid : Nat
  aszmic : Bool
  friendCred : Bool

/-- What `bt_mesh_adv_create` and `bt_mesh_net_send` make of one segment; a
loopback finishes the transmission before it returns. -/
inductive SegOutcome where
  | sent
  | loopback
  | noBuffer
  | failed
  deriving DecidableEq

/-- What the layers around a transmission answer.  `enqueueTx` is the result of
`bt_mesh_friend_enqueue_tx` for each segment. -/
structure SegEnv where
  iviTx : Nat
  seq : Nat
  queueHasSpace : Bool
  enqueueTx : Nat → Bool
  outcome : Nat → SegOutcome
  lpnEstablished : Bool

/-- `reset` stands where a pending IV update is resumed. -/
inductive SegTxEvt where
  | start (cb : SendCb) (failed : Bool)
  | stop (cb : SendCb) (err : Option Errno)
  | netSend (slot segO : Nat) (pdu : List Byte)
  | friendEnqueue (segO : Nat) (pdu : List Byte)
  | nextSeq
  | reset (slot : Nat)
  | lpnPoll
  deriving DecidableEq

def isDevKey (appIdx : Nat) : Bool :=
  appIdx == 0xfffe || appIdx == 0xfffd

def segLen (ctl : Bool) : Nat :=
  if ctl then 8 else 12

def seqAuthOf (ivIndex seq : Nat) : Nat :=
  (ivIndex <<< 24) ||| seq

def seqZeroOf (seqAuth : Nat) : Nat :=
  seqAuth % 2 ^ 13

def txInProgress (txs : List SegTx) : Bool :=
  txs.any fun tx => tx.nackCount != 0

def segTxDone (tx : SegTx) (slab : List Nat) (idx : Nat) : SegTx × List Nat :=
  match tx.seg[idx]? with
  | some (some buf) =>
    ({ tx with
        seg := tx.seg.set idx none
        nackCount := (tx.nackCount + 2 ^ 8 - 1) % 2 ^ 8 },
      buf.block :: slab)
  | _ => (tx, slab)

def segTxBlocks (tx : SegTx) (src dst : Nat) : Bool :=
  tx.src == src && tx.dst == dst

/-- The loop of `seg_tx_unblock_check`: the blocked context of the lowest
SeqAuth from index `i` on, or `best`. -/
def unblockScan (slot : Nat) (tx : SegTx) :
    Nat → Option (Nat × SegTx) → List SegTx → Option (Nat × SegTx)
  | _, best, [] => best
  | i, best, other :: rest =>
    unblockScan slot tx (i + 1)
      (if i ≠ slot ∧ other.blocked ∧ segTxBlocks tx other.src other.dst ∧
          (best.all fun first => other.seqAuth < first.2.seqAuth) then
        some (i, other)
      else
        best)
      rest

def segTxUnblockCheck (slot : Nat) (tx : SegTx) (txs : List SegTx) :
    List SegTx :=
  match unblockScan slot tx 0 none txs with
  | none => txs
  | some (next, blocked) =>
    txs.set next { blocked with blocked := false, retransmit := true }

/-- The loop of `seg_tx_reset` over the segments still held. -/
def freeSegments (tx : SegTx) (slab : List Nat) : SegTx × List Nat :=
  (List.range (tx.segN + 1)).foldl
    (fun current idx =>
      if current.1.nackCount = 0 then current
      else segTxDone current.1 current.2 idx)
    (tx, slab)

def segTxReset (state : SegTxs) (slot : Nat) : SegTxs × List SegTxEvt :=
  match state.txs[slot]? with
  | none => (state, [])
  | some tx =>
    let cleared :=
      { tx with
        cb := none
        seqAuth := 0
        sub := none
        src := addrUnassigned
        dst := addrUnassigned
        blocked := false
        retransmit := false }
    let (freed, slab) := freeSegments cleared state.slab
    ({ txs := state.txs.set slot { freed with nackCount := 0 }
       slab := slab },
      [.reset slot])

def segTxComplete (state : SegTxs) (slot : Nat) (err : Option Errno) :
    SegTxs × List SegTxEvt :=
  match state.txs[slot]? with
  | none => (state, [])
  | some tx =>
    let unblocked :=
      { state with txs := segTxUnblockCheck slot tx state.txs }
    let (reset, evts) := segTxReset unblocked slot
    (reset, evts ++ ((tx.cb.filter (·.hasEnd)).map (.stop · err)).toList)

def scheduleRetransmit (tx : SegTx) : SegTx :=
  if tx.nackCount = 0 then
    tx
  else
    let counted := { tx with segPending := (tx.segPending + 2 ^ 8 - 1) % 2 ^ 8 }
    if counted.segPending ≠ 0 ∨ counted.sending then counted
    else { counted with retransmit := true }

def SegTx.callStart (failed : Bool) (tx : SegTx) : SegTx × List SegTxEvt :=
  match tx.cb with
  | some cb =>
    if !tx.started && cb.hasStart then
      ({ tx with started := true }, [.start cb failed])
    else
      (tx, [])
  | none => (tx, [])

def segSendStart (failed : Bool) (tx : SegTx) : SegTx × List SegTxEvt :=
  let (called, evts) := tx.callStart failed
  (if failed then scheduleRetransmit called else called, evts)

def segSent (tx : SegTx) : SegTx :=
  scheduleRetransmit tx

/-- `seg_tx_buf_build`; the shifted fields of the header do not overlap. -/
def segTxBufBuild (tx : SegTx) (segO : Nat) (data : List Byte) : List Byte :=
  let seqZero := seqZeroOf tx.seqAuth
  let len := min (segLen tx.ctl) (tx.len - segLen tx.ctl * segO)
  [BitVec.ofNat 8 tx.hdr,
    BitVec.ofNat 8 (tx.aszmic.toNat * 2 ^ 7 + seqZero / 2 ^ 6),
    BitVec.ofNat 8 (seqZero % 2 ^ 6 * 2 ^ 2 + segO / 2 ^ 3),
    BitVec.ofNat 8 (segO % 2 ^ 3 * 2 ^ 5 + tx.segN)] ++ data.take len

/-- The loop of `seg_tx_send_unacked` over the `left` segments from `seg_o` on;
the flag tells whether it went through all of them. -/
def sendSegments (slot : Nat) (outcome : Nat → SegOutcome) :
    Nat → SegTx → SegTx × List SegTxEvt × Bool
  | 0, tx => (tx, [], true)
  | left + 1, tx =>
    match (tx.seg[tx.segO]?).join with
    | none => sendSegments slot outcome left { tx with segO := tx.segO + 1 }
    | some buf =>
      let pdu := segTxBufBuild tx tx.segO buf.data
      let pending := { tx with segPending := (tx.segPending + 1) % 2 ^ 8 }
      match outcome tx.segO with
      | .noBuffer | .failed => (tx, [], false)
      | .sent =>
        let (rest, evts, done) :=
          sendSegments slot outcome left { pending with segO := tx.segO + 1 }
        (rest, .netSend slot tx.segO pdu :: evts, done)
      | .loopback =>
        let (started, startEvts) := segSendStart false pending
        let finished := segSent started
        let (rest, evts, done) :=
          sendSegments slot outcome left { finished with segO := tx.segO + 1 }
        (rest, .netSend slot tx.segO pdu :: (startEvts ++ evts), done)

/-- One attempt of `seg_tx_send_unacked`. -/
def segTxAttempt (slot : Nat) (outcome : Nat → SegOutcome) (tx : SegTx) :
    SegTx × List SegTxEvt :=
  let (tried, evts, done) :=
    sendSegments slot outcome (tx.segN + 1 - tx.segO) { tx with sending := true }
  let counted :=
    if done then { tried with segO := 0, attempts := tried.attempts - 1 }
    else tried
  ({ counted with
      sending := false
      retransmit := counted.segPending == 0 || counted.retransmit },
    evts)

def segTxSendUnacked (env : SegEnv) (state : SegTxs) (slot : Nat) :
    SegTxs × List SegTxEvt :=
  match state.txs[slot]? with
  | none => (state, [])
  | some tx =>
    if tx.nackCount = 0 then
      (state, [])
    else if tx.attempts = 0 then
      segTxComplete state slot
        (if addrIsUnicast tx.dst then some .timedOut else none)
    else
      let (tried, evts) := segTxAttempt slot env.outcome tx
      ({ state with txs := state.txs.set slot tried }, evts)

def segRetransmit (env : SegEnv) (state : SegTxs) (slot : Nat) :
    SegTxs × List SegTxEvt :=
  match state.txs[slot]? with
  | none => (state, [])
  | some tx =>
    if tx.retransmit then
      segTxSendUnacked env
        { state with
          txs := state.txs.set slot { tx with retransmit := false } }
        slot
    else
      (state, [])

def segHdr (netTx : NetTx) (ctlOp : Option Nat) : Nat :=
  match ctlOp with
  | some op => op % 2 ^ 7 + 2 ^ 7
  | none =>
    if isDevKey netTx.appIdx then 2 ^ 7
    else 2 ^ 7 + 2 ^ 6 + netTx.aid % 2 ^ 6

/-- The context that `send_seg` fills in, before its segments. -/
def segTxOpen (cfg : Config) (env : SegEnv) (netTx : NetTx)
    (ctlOp : Option Nat) (cb : Option SendCb) (len : Nat) (blocked : Bool)
    (tx : SegTx) : SegTx :=
  let segN := (len - 1) / segLen ctlOp.isSome % 2 ^ 8
  { tx with
    hdr := segHdr netTx ctlOp
    src := netTx.src
    dst := netTx.addr
    segN := segN
    segO := 0
    len := len
    nackCount := (segN + 1) % 2 ^ 8
    seqAuth := seqAuthOf env.iviTx env.seq
    sub := some netTx.sub
    cb := cb
    attempts := cfg.txSegRetransCount
    segPending := 0
    xmit := netTx.xmit
    aszmic := netTx.aszmic
    friendCred := netTx.friendCred
    blocked := blocked
    started := false
    ctl := ctlOp.isSome
    ttl := netTx.sendTtl }

/-- The segments of an SDU, in the order of `seg_o`. -/
def sduSegments (len : Nat) : Nat → List Byte → List (List Byte)
  | 0, _ => []
  | fuel + 1, sdu =>
    if sdu = [] then [] else sdu.take len :: sduSegments len fuel (sdu.drop len)

/-- The loop of `send_seg` that copies the segments and offers them to the
Friend queues; the flag tells whether the slab had a block for each. -/
def fillSegments (cfg : Config) (env : SegEnv) (unicast : Bool) :
    Nat → List (List Byte) → SegTx × List Nat →
      Bool × SegTx × List Nat × List SegTxEvt
  | _, [], (tx, slab) => (true, tx, slab, [])
  | _, _ :: _, (tx, []) => (false, tx, [], [])
  | segO, data :: rest, (tx, block :: free) =>
    let stored := { tx with seg := tx.seg.set segO (some ⟨block, data⟩) }
    let offered :=
      if cfg.friend then [.friendEnqueue segO (segTxBufBuild stored segO data)]
      else []
    let (complete, filled, slab, evts) :=
      if cfg.friend && env.enqueueTx segO && unicast then
        fillSegments cfg env unicast (segO + 1) rest
          ({ tx with seg := tx.seg.set segO none }, block :: free)
      else
        fillSegments cfg env unicast (segO + 1) rest (stored, free)
    (complete, filled, slab, offered ++ evts)

def sendCbFinalize (cb : Option SendCb) : List SegTxEvt :=
  match cb with
  | none => []
  | some cb =>
    (if cb.hasStart then [.start cb false] else []) ++
      (if cb.hasEnd then [.stop cb none] else [])

def sendSeg (cfg : Config) (env : SegEnv) (netTx : NetTx) (sdu : List Byte)
    (cb : Option SendCb) (ctlOp : Option Nat) (state : SegTxs) :
    Except Errno Unit × SegTxs × List SegTxEvt :=
  let blocked := state.txs.any fun tx =>
    tx.nackCount != 0 && segTxBlocks tx netTx.src netTx.addr
  match state.txs.findIdx? fun tx => tx.nackCount == 0 with
  | none => (.error .busy, state, [])
  | some slot =>
    let opened :=
      segTxOpen cfg env netTx ctlOp cb sdu.length blocked
        (state.txs.getD slot (.boot cfg.txSegMax))
    let named := { state with txs := state.txs.set slot opened }
    if cfg.friend && !env.queueHasSpace && addrIsUnicast netTx.addr then
      let (reset, evts) := segTxReset named slot
      (.error .noBufs, reset, evts)
    else
      let segments := sduSegments (segLen ctlOp.isSome) sdu.length sdu
      let (complete, tx, slab, offered) :=
        fillSegments cfg env (addrIsUnicast netTx.addr) 0 segments
          (opened, state.slab)
      let filled := { txs := state.txs.set slot tx, slab := slab }
      if !complete then
        let (reset, evts) := segTxReset filled slot
        (.error .noBufs, reset, offered ++ evts)
      else if cfg.friend && (tx.seg[0]?).join.isNone then
        let (reset, evts) := segTxReset filled slot
        (.ok (), reset, offered ++ evts ++ sendCbFinalize cb)
      else if blocked then
        (.ok (), filled, offered ++ [.nextSeq])
      else
        let (sent, evts) := segTxSendUnacked env filled slot
        (.ok (), sent, offered ++ evts ++
          if cfg.lowPower && env.lpnEstablished then [.lpnPoll] else [])

/-- The context an acknowledgment is for, with the contexts after the lookup:
it may take the sender for a Friend and rewrite the destination. -/
def segTxLookup (seqZero : Nat) (obo : Bool) (addr : Nat) :
    List SegTx → Option (Nat × List SegTx)
  | [] => none
  | tx :: rest =>
    if seqZeroOf tx.seqAuth = seqZero ∧ tx.dst = addr then
      some (0, tx :: rest)
    else if seqZeroOf tx.seqAuth = seqZero ∧ obo ∧ tx.nackCount = tx.segN + 1 then
      some (0, { tx with dst := addr } :: rest)
    else
      (segTxLookup seqZero obo addr rest).map fun found =>
        (found.1 + 1, tx :: found.2)

/-- The loop of `trans_ack` over the bits of `ack`. -/
def ackSegments (ack : Nat) (tx : SegTx) (slab : List Nat) : SegTx × List Nat :=
  (List.range 32).foldl
    (fun current bit =>
      if ack.testBit bit then segTxDone current.1 current.2 bit else current)
    (tx, slab)

/-- `trans_ack` behind the lookup. -/
def ackContext (ack : Nat) (slot : Nat) (state : SegTxs) :
    Except Errno Nat × SegTxs × List SegTxEvt :=
  match state.txs[slot]? with
  | none => (.error .inval, state, [])
  | some tx =>
    if !addrIsUnicast tx.dst then
      (.error .inval, state, [])
    else if ack = 0 then
      let (done, evts) := segTxComplete state slot (some .canceled)
      (.ok tx.seqAuth, done, evts)
    else if tx.segN < Nat.log2 ack then
      (.error .inval, state, [])
    else
      let (acked, slab) := ackSegments ack tx state.slab
      if acked.nackCount ≠ 0 then
        (.ok tx.seqAuth,
          { txs := state.txs.set slot { acked with retransmit := true }
            slab := slab },
          [])
      else
        let (done, evts) :=
          segTxComplete { txs := state.txs.set slot acked, slab := slab } slot none
        (.ok tx.seqAuth, done, evts)

def be16Of (high low : Byte) : Nat :=
  high.toNat * 2 ^ 8 + low.toNat

def be32Of (b0 b1 b2 b3 : Byte) : Nat :=
  be16Of b0 b1 * 2 ^ 16 + be16Of b2 b3

/-- `trans_ack` of a message from `addr`; the result is the SeqAuth that the
Friend queue files it under. -/
def transAck (cfg : Config) (friendMatch : Bool) (iviRx addr : Nat)
    (buf : List Byte) (state : SegTxs) :
    Except Errno Nat × SegTxs × List SegTxEvt :=
  match buf with
  | z0 :: z1 :: b0 :: b1 :: b2 :: b3 :: _ =>
    let seqZero := be16Of z0 z1 / 2 ^ 2 % 2 ^ 13
    let obo := decide (2 ^ 15 ≤ be16Of z0 z1)
    if cfg.friend && friendMatch then
      (.ok (seqAuthOf iviRx seqZero), state, [])
    else
      match segTxLookup seqZero obo addr state.txs with
      | none => (.error .inval, state, [])
      | some (slot, txs) =>
        ackContext (be32Of b0 b1 b2 b3) slot { state with txs := txs }
  | _ => (.error .inval, state, [])

/-- The transmit half of `bt_mesh_trans_reset`. -/
def transResetTx (state : SegTxs) : SegTxs × List SegTxEvt :=
  (List.range state.txs.length).foldl
    (fun current slot =>
      let (reset, evts) := segTxReset current.1 slot
      (reset, current.2 ++ evts))
    (state, [])

end ZephyrBluetooth.Mesh
