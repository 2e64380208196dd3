import ZephyrBluetooth.Data.Machine
import ZephyrBluetooth.Mesh.Fcs

namespace ZephyrBluetooth.Mesh

open Data

/-! The provisioning bearer over advertising (`pb_adv.c`).  The memory behind
`rx_buf.data` is a function of the offset: the buffer proper ends at
`rxBufferMax`, and what a write puts in front of it is lost. -/

def startPayloadMax : Nat := 20

def contPayloadMax : Nat := 23

def rxBufferMax : Nat := 65

def xactIdMax : Byte := 0x7f

def xactIdNval : Byte := 0xff

def segNval : Byte := 0xff

def xactSegOffset (seg : Nat) : Int := 20 + (seg - 1) * 23

inductive ProvErr where
  | nvalFmt
  | unexpPdu

structure LinkRx where
  id : Byte
  seg : Byte
  lastSeg : Byte
  fcs : Byte
  len : Nat
  data : Nat → Byte

structure LinkTx where
  id : Byte
  pendingAck : Byte
  buf : List (List Byte)

structure LinkFlags where
  active : Bool
  ackRecvd : Bool
  closing : Bool
  invalid : Bool
  ackPending : Bool
  provisioner : Bool

def LinkFlags.clear : LinkFlags := ⟨false, false, false, false, false, false⟩

/-- `struct pb_adv`; `cb` tells whether the callbacks are set. -/
structure Link where
  id : BitVec 32
  flags : LinkFlags
  cb : Bool
  rx : LinkRx
  tx : LinkTx

/-- What the bearer does to its buffer, which is a `memcpy` or the FCS check over
its first bytes, and what others can see.  A hand-over carries the transaction and
the expected FCS next to the bytes. -/
inductive LinkEvt where
  | write (offset : Int) (bytes : List Byte)
  | check (count : Nat)
  | ack (xactId : Byte)
  | recv (xactId fcs : Byte) (msg : List Byte)
  | unexpected (xactId fcs : Byte) (msg : List Byte)
  | error (err : ProvErr)
  | linkOpened
  | linkClosed
  | advSend (pdu : List Byte)
  | txComplete

def lastSeg (len : Nat) : Nat :=
  if len ≤ startPayloadMax then 0
  else 1 + (len - startPayloadMax) / contPayloadMax

def nextTransactionId (id : Byte) : Byte :=
  ((id + 1) &&& xactIdMax) ||| (id &&& (xactIdMax + 1))

def provClearTx (link : Link) : Link :=
  { link with tx := { link.tx with buf := [] } }

def resetAdvLink (link : Link) : Link :=
  let cleared := provClearTx link
  if cleared.flags.provisioner then
    { id := 0
      flags := .clear
      cb := false
      rx :=
        { id := xactIdNval
          seg := 0
          lastSeg := 0
          fcs := 0
          len := 0
          data := cleared.rx.data }
      tx := ⟨0, xactIdNval, []⟩ }
  else
    { cleared with
      id := 0
      flags := .clear
      rx := { cleared.rx with id := xactIdMax, len := 0 }
      tx := ⟨xactIdNval, xactIdNval, []⟩ }

def closeLink (link : Link) : Link × List LinkEvt :=
  (resetAdvLink link, [.linkClosed])

def be32 (value : BitVec 32) : List Byte :=
  [(value >>> 24).setWidth 8, (value >>> 16).setWidth 8,
    (value >>> 8).setWidth 8, value.setWidth 8]

/-- `gen_prov_ack_send`; `alloc` tells whether an advertising buffer is free. -/
def genProvAckSend (alloc : Bool) (xactId : Byte) (link : Link) :
    Link × List LinkEvt :=
  let pending := link.flags.ackPending
  let marked := { link with flags := { link.flags with ackPending := true } }
  if pending && link.tx.pendingAck == xactId then
    (marked, [.ack xactId])
  else if !alloc then
    ({ link with flags := { link.flags with ackPending := false } }, [.ack xactId])
  else
    let sent :=
      if pending then marked
      else { marked with tx := { marked.tx with pendingAck := xactId } }
    (sent, [.ack xactId, .advSend (be32 link.id ++ [xactId, 0x01])])

def provFailed (err : ProvErr) (link : Link) : Link × List LinkEvt :=
  ({ link with flags := { link.flags with invalid := true } }, [.error err])

def LinkRx.msg (rx : LinkRx) : List Byte :=
  (List.range rx.len).map rx.data

def provMsgRecv (alloc : Bool) (link : Link) : Link × List LinkEvt :=
  if !fcsCheck link.rx.msg link.rx.fcs then
    (link, [.check link.rx.len])
  else
    let (acked, ackEvts) := genProvAckSend alloc link.rx.id link
    if acked.flags.invalid then
      let (failed, errEvts) := provFailed .unexpPdu acked
      (failed, .check link.rx.len :: (ackEvts ++
          .unexpected acked.rx.id acked.rx.fcs acked.rx.msg :: errEvts))
    else
      (acked, .check link.rx.len :: (ackEvts ++
          [.recv acked.rx.id acked.rx.fcs acked.rx.msg]))

/-- `prov_msg_recv` once no segment is missing. -/
def recvComplete (alloc : Bool) (link : Link) : Link × List LinkEvt :=
  if link.rx.seg = 0 then provMsgRecv alloc link else (link, [])

/-- `memcpy` to the reassembly buffer. -/
def writeAt (offset : Int) (bytes : List Byte) (data : Nat → Byte) : Nat → Byte :=
  fun place =>
    if offset ≤ place then bytes.getD (place - offset).toNat (data place)
    else data place

def afterWrite (offset : Int) (bytes : List Byte) (out : Link × List LinkEvt) :
    Link × List LinkEvt :=
  (out.1, .write offset bytes :: out.2)

def xactSegRecv (seg : Nat) (pending : Byte) : Byte :=
  pending &&& ~~~((1 : Byte) <<< seg)

/-- The expected length of the last segment, as `uint8_t`. -/
def expectLen (rx : LinkRx) : Nat :=
  (((rx.len : Int) - 20 - ((rx.lastSeg.toNat : Int) - 1) * 23) % 2 ^ 8).toNat

def LinkRx.storeCont (seg : Nat) (payload : List Byte) (rx : LinkRx) : LinkRx :=
  { rx with
    data := writeAt (xactSegOffset seg) payload rx.data
    seg := xactSegRecv seg rx.seg }

def lastSegMisfit (seg : Nat) (payload : List Byte) (rx : LinkRx) : Bool :=
  decide (seg = rx.lastSeg.toNat) && !rx.seg.getLsbD 0 &&
    decide (expectLen rx ≠ payload.length)

/-- `gen_prov_cont` behind its checks on the transaction. -/
def contSegment (alloc : Bool) (seg : Nat) (payload : List Byte) (link : Link) :
    Link × List LinkEvt :=
  if link.rx.lastSeg.toNat < seg then
    provFailed .nvalFmt link
  else if !link.rx.seg.getLsbD seg then
    (link, [])
  else if (rxBufferMax : Int) < xactSegOffset seg + payload.length then
    (link, [])
  else
    let stored := { link with rx := link.rx.storeCont seg payload }
    afterWrite (xactSegOffset seg) payload
      (if lastSegMisfit seg payload stored.rx then provFailed .nvalFmt stored
      else recvComplete alloc stored)

def LinkRx.startLost (xactId : Byte) (rx : LinkRx) : LinkRx :=
  { rx with id := xactId, len := 0, seg := segNval, lastSeg := segNval }

def genProvCont (alloc : Bool) (xactId gpc : Byte) (payload : List Byte)
    (link : Link) : Link × List LinkEvt :=
  let seg := gpc.toNat / 4
  if link.rx.seg = 0 ∧ link.rx.id = xactId then
    if !link.flags.ackPending then genProvAckSend alloc xactId link
    else (link, [])
  else if link.rx.seg = 0 ∧ nextTransactionId link.rx.id = xactId then
    contSegment alloc seg payload
      (provClearTx { link with rx := link.rx.startLost xactId })
  else if xactId ≠ link.rx.id then
    (link, [])
  else
    contSegment alloc seg payload link

def genProvAck (xactId : Byte) (link : Link) : Link × List LinkEvt :=
  if link.tx.buf = [] then
    (link, [])
  else if xactId = link.tx.id then
    (if link.flags.closing then link else provClearTx link, [.txComplete])
  else
    (link, [])

def findMsbSet (value : Nat) : Nat :=
  if value = 0 then 0 else Nat.log2 value + 1

/-- The header checks of `gen_prov_start` that end in `prov_failed`. -/
def startHeaderValid (gpc : Byte) (len : Nat) : Bool :=
  decide (1 ≤ len) && decide (len ≤ rxBufferMax) &&
    !(decide (0 < gpc.toNat / 4) && decide (len ≤ 20)) &&
    decide (gpc.toNat / 4 = lastSeg len)

def startMisfit (last : Nat) (seg : Byte) : Bool :=
  seg.getLsbD 0 && decide (last < (findMsbSet (~~~seg).toNat + 2 ^ 32 - 1) % 2 ^ 32)

def LinkRx.head (xactId fcs : Byte) (len : Nat) (rx : LinkRx) : LinkRx :=
  { rx with len := len, id := xactId, fcs := fcs }

def LinkRx.storeStart (last : Nat) (payload : List Byte) (rx : LinkRx) : LinkRx :=
  let seg := if rx.seg = 0 then segNval else rx.seg
  { rx with
    data := writeAt 0 payload rx.data
    seg := xactSegRecv 0 (seg &&& (((1 : Byte) <<< (last + 1)) - 1)) }

/-- `gen_prov_start` behind its checks on the transaction. -/
def startSegment (alloc : Bool) (xactId gpc : Byte) (len : Nat) (fcs : Byte)
    (payload : List Byte) (link : Link) : Link × List LinkEvt :=
  let last := gpc.toNat / 4
  let headed := { link with rx := link.rx.head xactId fcs len }
  if !startHeaderValid gpc len then
    provFailed .nvalFmt headed
  else
    let named :=
      provClearTx
        { headed with rx := { headed.rx with lastSeg := BitVec.ofNat 8 last } }
    if startMisfit last named.rx.seg then
      provFailed .nvalFmt named
    else
      afterWrite 0 payload
        (recvComplete alloc { named with rx := named.rx.storeStart last payload })

def genProvStart (alloc : Bool) (xactId gpc : Byte) (payload : List Byte)
    (link : Link) : Link × List LinkEvt :=
  match payload with
  | lenHigh :: lenLow :: fcs :: rest =>
    let accept :=
      startSegment alloc xactId gpc (lenHigh.toNat * 2 ^ 8 + lenLow.toNat) fcs
        rest link
    if xactId = link.rx.id then
      if link.rx.seg = 0 then
        if !link.flags.ackPending then genProvAckSend alloc xactId link
        else (link, [])
      else if link.rx.seg.getLsbD 0 = false then
        (link, [])
      else
        accept
    else if xactId ≠ nextTransactionId link.rx.id then
      (link, [])
    else
      accept
  | _ => (link, [])

def ctlPdu (link : Link) (op : Byte) (payload : List Byte) : List Byte :=
  be32 link.id ++ ((0x00 : Byte) :: ((op <<< 2) ||| 0x03) :: payload)

def bearerCtlSendUnacked (alloc : Bool) (op : Byte) (payload : List Byte)
    (link : Link) : Bool × Link × List LinkEvt :=
  if !alloc then
    (false, link, [])
  else
    (true, provClearTx link, [.advSend (ctlPdu link op payload)])

def linkOpenRx (alloc : Bool) (uuid : List Byte) (linkId : BitVec 32)
    (payload : List Byte) (link : Link) : Link × List LinkEvt :=
  if payload.length < 16 then
    (link, [])
  else if link.flags.active then
    if link.id ≠ linkId then
      (link, [])
    else
      (bearerCtlSendUnacked alloc 0x01 [] link).2
  else if payload.take 16 ≠ uuid then
    (link, [])
  else
    let opened :=
      { link with
        id := linkId
        flags := { link.flags with active := true }
        rx := { link.rx with len := 0 } }
    match bearerCtlSendUnacked alloc 0x01 [] opened with
    | (true, sent, evts) => (sent, evts ++ [.linkOpened])
    | (false, failed, evts) => (resetAdvLink failed, evts)

def linkAckRx (link : Link) : Link × List LinkEvt :=
  if link.flags.provisioner then
    if link.flags.ackRecvd then
      (link, [])
    else
      (provClearTx { link with flags := { link.flags with ackRecvd := true } },
        [.linkOpened])
  else
    (link, [])

def linkCloseRx (payload : List Byte) (link : Link) : Link × List LinkEvt :=
  if payload.length ≠ 1 then (link, []) else closeLink link

def genProvCtl (alloc : Bool) (uuid : List Byte) (linkId : BitVec 32)
    (gpc : Byte) (payload : List Byte) (link : Link) : Link × List LinkEvt :=
  match gpc.toNat / 4 with
  | 0x00 => linkOpenRx alloc uuid linkId payload link
  | 0x01 => if link.flags.active then linkAckRx link else (link, [])
  | 0x02 => if link.flags.active then linkCloseRx payload link else (link, [])
  | _ => (link, [])

/-- The dispatch table `gen_prov` with its length and link requirements. -/
def genProvRecv (alloc : Bool) (uuid : List Byte) (linkId : BitVec 32)
    (xactId gpc : Byte) (payload : List Byte) (link : Link) :
    Link × List LinkEvt :=
  match gpc.toNat % 4 with
  | 0 =>
    if payload.length < 3 then (link, [])
    else if !link.flags.active then (link, [])
    else genProvStart alloc xactId gpc payload link
  | 1 => if !link.flags.active then (link, []) else genProvAck xactId link
  | 2 =>
    if !link.flags.active then (link, [])
    else genProvCont alloc xactId gpc payload link
  | _ => genProvCtl alloc uuid linkId gpc payload link

def pbAdvRecv (alloc : Bool) (uuid : List Byte) (pdu : List Byte)
    (link : Link) : Link × List LinkEvt :=
  if !link.cb then
    (link, [])
  else
    match pdu with
    | b0 :: b1 :: b2 :: b3 :: xactId :: gpc :: payload =>
      let linkId : BitVec 32 := b0 ++ b1 ++ b2 ++ b3
      if link.flags.active ∧ link.id ≠ linkId then
        (link, [])
      else
        genProvRecv alloc uuid linkId xactId gpc payload link
    | _ => (link, [])

/-- The continuation PDUs of `prov_send_adv`, from segment `segId` on; the fuel
is at least the number of bytes left. -/
def contPdus (linkId : BitVec 32) (xactId : Byte) :
    Nat → Nat → List Byte → List (List Byte)
  | 0, _, _ => []
  | fuel + 1, segId, rest =>
    if rest = [] then
      []
    else
      (be32 linkId ++
          (xactId :: BitVec.ofNat 8 (segId * 4 + 2) :: rest.take contPayloadMax)) ::
        contPdus linkId xactId fuel (segId + 1) (rest.drop contPayloadMax)

def startPdu (linkId : BitVec 32) (xactId : Byte) (msg : List Byte) :
    List Byte :=
  be32 linkId ++ (xactId :: BitVec.ofNat 8 (lastSeg msg.length * 4) ::
      BitVec.ofNat 8 (msg.length / 2 ^ 8) :: BitVec.ofNat 8 msg.length ::
      fcsCalc msg :: msg.take startPayloadMax)

/-- `prov_send_adv`; `allocs` advertising buffers are free. -/
def provSendAdv (allocs : Nat) (msg : List Byte) (link : Link) :
    Except Errno Unit × Link × List LinkEvt :=
  let cleared := provClearTx link
  if allocs = 0 then
    (.error .noBufs, cleared, [])
  else
    let xactId := nextTransactionId cleared.tx.id
    let named := { cleared with tx := { cleared.tx with id := xactId } }
    let rest := msg.drop startPayloadMax
    let conts := contPdus named.id xactId rest.length 1 rest
    if allocs - 1 < min conts.length 2 then
      (.error .noBufs, named, [])
    else if 2 < conts.length then
      (.error .tooBig, named, [])
    else
      let pdus := startPdu named.id xactId msg :: conts
      (.ok (), { named with tx := { named.tx with buf := pdus } }, pdus.map .advSend)

def provLinkOpen (alloc : Bool) (linkId : BitVec 32) (uuid : List Byte)
    (link : Link) : Except Errno Unit × Link × List LinkEvt :=
  if link.flags.active then
    (.error .busy, link, [])
  else
    let opened :=
      { link with
        id := linkId
        flags := { link.flags with active := true, provisioner := true }
        cb := true
        rx := { link.rx with id := xactIdNval, len := 0 }
        tx := { link.tx with id := xactIdMax } }
    if !alloc then
      (.error .noMem, opened, [])
    else
      let pdu := ctlPdu opened 0x00 uuid
      (.ok (), { opened with tx := { opened.tx with buf := [pdu] } }, [.advSend pdu])

def provLinkAccept (link : Link) : Except Errno Unit × Link :=
  if link.flags.active then
    (.error .busy, link)
  else
    (.ok (),
      { link with
        cb := true
        rx := { link.rx with id := xactIdMax }
        tx := { link.tx with id := xactIdNval } })

def provLinkClose (alloc : Bool) (status : Byte) (link : Link) :
    Link × List LinkEvt :=
  if link.flags.closing then
    (link, [])
  else
    (bearerCtlSendUnacked alloc 0x02 [status]
      { link with flags := { link.flags with closing := true } }).2

/-- `prov_retransmit`; `busy` tells the buffers that are still being sent. -/
def provRetransmit (alloc expired : Bool) (busy : List Byte → Bool)
    (link : Link) : Link × List LinkEvt :=
  if !link.flags.active then
    (link, [])
  else if expired then
    provLinkClose alloc 0x02 link
  else
    (link, (link.tx.buf.filter fun pdu => !busy pdu).map .advSend)

def bufSent (link : Link) : Link × List LinkEvt :=
  if link.flags.closing then closeLink link else (link, [])

def ackComplete (link : Link) : Link :=
  { link with flags := { link.flags with ackPending := false } }

def protocolTimeout (alloc : Bool) (link : Link) : Link × List LinkEvt :=
  if !link.flags.active then
    (link, [])
  else
    provLinkClose alloc 0x01 { link with rx := { link.rx with seg := 0 } }

end ZephyrBluetooth.Mesh
