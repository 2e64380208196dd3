import ZephyrBluetooth.Host.Bytes
import ZephyrBluetooth.Osal.Queue

namespace ZephyrBluetooth.Host

open Data Osal

/-! One direction of an LE credit-based channel (`l2cap.c`): the sender's
segmentation, the link, and the receiver with `alloc_buf`. -/

/-- The MTU, MPS and initial credits the channel was connected with, and
`BT_L2CAP_CHAN_SEND_RESERVE`. -/
structure SduConfig where
  mtu : Nat
  mps : Nat
  initCredits : Nat
  reserve : Nat
  mtu_min : 23 ≤ mtu
  mtu_max : mtu ≤ 0xffff
  mps_min : 23 ≤ mps

structure SduFrag where
  headroom : Nat
  data : List Byte
  deriving DecidableEq

abbrev SduChain := List SduFrag

def SduChain.bytes (chain : SduChain) : List Byte :=
  chain.flatMap SduFrag.data

/-- A chain with the `data_sent` counter of its first buffer. -/
structure SduItem where
  chain : SduChain
  sent : Nat
  deriving DecidableEq

namespace SduItem

/-- What `net_buf_put` appends to a queue.  Only the first buffer's counter is
ever read. -/
def nodes (item : SduItem) : List (QueueNode (SduFrag × Nat)) :=
  match item.chain with
  | [] => []
  | frag :: rest => chainNodes (frag, item.sent) (rest.map fun frag => (frag, 0))

def ofBufs : List (SduFrag × Nat) → SduItem
  | [] => ⟨[], 0⟩
  | (frag, sent) :: rest => ⟨frag :: rest.map Prod.fst, sent⟩

end SduItem

/-- `l2cap_alloc_seg` gives a segment with this tailroom, and
`bt_l2cap_send_cb` finds a TX context.  Attempts of one step are told apart by
the credits that are left. -/
structure SendAnswers where
  room : Nat → Option Nat
  context : Nat → Bool

namespace Sdu

def hdrSize : Nat := 2

variable (config : SduConfig)

def pull (frag : SduFrag) (len : Nat) : SduFrag :=
  ⟨frag.headroom + len, frag.data.drop len⟩

/-- `l2cap_chan_create_seg`: the segment, the fragment that is left, and the
length of the data.  The original buffer is sent whole, and last. -/
def createSeg (room : Option Nat) (frag : SduFrag) (last : Bool)
    (hdr : List Byte) : Option (List Byte × SduFrag × Nat) :=
  if frag.data.length + hdr.length ≤ config.mps ∧
      config.reserve + hdr.length ≤ frag.headroom ∧ last then
    some (hdr ++ frag.data, frag, frag.data.length)
  else
    match room with
    | none => none
    | some tailroom =>
      let len := min frag.data.length
        (min (tailroom - hdr.length) (config.mps - hdr.length))
      some (hdr ++ frag.data.take len, pull frag len, len)

/-- `l2cap_chan_le_send`, which takes one credit; all its failures ask to try
again later and leave the fragment as it was. -/
def leSend (answers : SendAnswers) (credits : Nat) (frag : SduFrag)
    (last : Bool) (hdr : List Byte) :
    Option (List Byte × SduFrag × Nat) :=
  match createSeg config (answers.room credits) frag last hdr with
  | none => none
  | some segment => if answers.context credits then some segment else none

end Sdu

/-- How `l2cap_chan_le_send_sdu` ends, with the credits left and the frames it
sent.  `fault` is a null fragment. -/
inductive SduResult where
  | done (credits : Nat) (frames : List (List Byte))
  | again (credits : Nat) (frames : List (List Byte)) (item : SduItem)
  | tooLong
  | fault (frames : List (List Byte))
  deriving DecidableEq

namespace SduResult

def prepend (frame : List Byte) : SduResult → SduResult
  | done credits frames => done credits (frame :: frames)
  | again credits frames item => again credits (frame :: frames) item
  | tooLong => tooLong
  | fault frames => fault (frame :: frames)

end SduResult

namespace Sdu

variable (config : SduConfig) (answers : SendAnswers)

def nextFrag : SduChain → SduChain
  | [] => []
  | frag :: rest => if frag.data = [] then rest else frag :: rest

/-- The loop of `l2cap_chan_le_send_sdu`. -/
def sendRest (total : Nat) : Nat → SduChain → Nat → SduResult
  | credits, chain, sent =>
    if total ≤ sent then .done credits []
    else
      match nextFrag chain with
      | [] => .fault []
      | frag :: rest =>
        match credits with
        | 0 => .again 0 [] ⟨frag :: rest, sent⟩
        | left + 1 =>
          match leSend config answers (left + 1) frag rest.isEmpty [] with
          | none => .again (left + 1) [] ⟨frag :: rest, sent⟩
          | some (frame, remaining, len) =>
            (sendRest total left (remaining :: rest) (sent + len)).prepend frame

def skipHead : SduChain → SduChain
  | frag :: next :: rest =>
    if frag.data = [] then next :: rest else frag :: next :: rest
  | chain => chain

def sendSdu (credits : Nat) (item : SduItem) : SduResult :=
  let total := (SduChain.bytes item.chain).length + item.sent
  let chain := skipHead item.chain
  if config.mtu < total then .tooLong
  else if item.sent = 0 then
    match chain with
    | [] => .fault []
    | frag :: rest =>
      match credits with
      | 0 => .again 0 [] ⟨chain, 0⟩
      | left + 1 =>
        match leSend config answers (left + 1) frag rest.isEmpty
            (le16 (SduChain.bytes chain).length) with
        | none => .again (left + 1) [] ⟨chain, 0⟩
        | some (frame, remaining, len) =>
          (sendRest config answers total left (remaining :: rest) len).prepend frame
  else sendRest config answers total credits chain item.sent

end Sdu

/-- The sender: `tx_buf`, `tx_queue` and the credits. -/
structure SduTx where
  credits : Nat
  txBuf : Option SduItem
  txQueue : KQueue (SduFrag × Nat)
  halted : Bool

namespace SduTx

open Sdu

variable (config : SduConfig) (answers : SendAnswers)

/-- `l2cap_chan_le_get_tx_buf`.  A fragment that `net_buf_get` does not find is
a null pointer. -/
def leGetTxBuf (tx : SduTx) : SduTx × Option SduItem :=
  match tx.txBuf with
  | some item => ({ tx with txBuf := none }, some item)
  | none =>
    match tx.txQueue.bufGet with
    | (rest, .chain bufs) => ({ tx with txQueue := rest }, some (.ofBufs bufs))
    | (rest, .broken _) => ({ tx with txQueue := rest, halted := true }, none)
    | (rest, _) => ({ tx with txQueue := rest }, none)

/-- The loop of `l2cap_chan_tx_process`, with the frames it sent. -/
def process : Nat → SduTx → SduTx × List (List Byte)
  | 0, tx => (tx, [])
  | rounds + 1, tx =>
    match tx.leGetTxBuf with
    | (tx, none) => (tx, [])
    | (tx, some item) =>
      match sendSdu config answers tx.credits item with
      | .done left frames =>
        let (next, later) := process rounds { tx with credits := left }
        (next, frames ++ later)
      | .again left frames remaining =>
        ({ tx with credits := left, txBuf := some remaining }, frames)
      | .tooLong => (tx, [])
      | .fault frames => ({ tx with halted := true }, frames)

/-- A round for `tx_buf`, one for each buffer in the queue, and one that finds
none. -/
def rounds (tx : SduTx) : Nat := tx.txQueue.dataQ.length + 2

/-- `bt_l2cap_chan_send`, with the frames it sent and whether the SDU is taken
over. -/
def chanSend (tx : SduTx) (chain : SduChain) :
    SduTx × List (List Byte) × Bool :=
  if chain = [] then (tx, [], false)
  else if tx.txBuf.isSome ∨ tx.txQueue.dataQ ≠ [] ∨ tx.credits = 0 then
    ({ tx with txQueue := tx.txQueue.appendList (SduItem.nodes ⟨chain, 0⟩) },
      [], true)
  else
    match sendSdu config answers tx.credits ⟨chain, 0⟩ with
    | .done left frames => ({ tx with credits := left }, frames, true)
    | .again left frames remaining =>
      if remaining.sent = 0 then ({ tx with credits := left }, frames, false)
      else
        ({ tx with
            credits := left
            txQueue := tx.txQueue.appendList remaining.nodes }, frames, true)
    | .tooLong => (tx, [], false)
    | .fault frames => ({ tx with halted := true }, frames, false)

end SduTx

/-- `_sdu` with `_sdu_len` and the segment count in its user data. -/
structure RxSdu where
  got : List Byte
  total : Nat
  seg : Nat

/-- The receiver; `held` has the counts of the SDUs the application still
processes. -/
structure SduRx where
  credits : Nat
  queue : List (List Byte)
  sdu : Option RxSdu
  held : List Nat
  disconnecting : Bool
  shutdown : Bool

/-- What `ops->recv` returns. -/
inductive RecvResult where
  | done
  | inProgress
  | error

/-- `alloc_buf` for an SDU, how many bytes fit into the buffers it gives, and
the signalling buffers. -/
structure RecvAnswers where
  allocBuf : Bool
  stored : Nat
  recv : RecvResult
  creditsPdu : Bool
  disconnPdu : Bool

/-- What one call of the receiver does outside: SDUs handed to `ops->recv`,
credit packets, and whether it had no credit left. -/
structure RecvOutput where
  delivered : List (List Byte)
  grants : List Nat
  starved : Bool

namespace SduRx

variable (config : SduConfig) (answers : RecvAnswers)

def silent : RecvOutput := ⟨[], [], false⟩

def disconnect (rx : SduRx) : SduRx :=
  if answers.disconnPdu then { rx with disconnecting := true } else rx

/-- `l2cap_chan_send_credits`; without a buffer the channel is shut down. -/
def sendCredits (pdu : Bool) (rx : SduRx) (credits : Nat) :
    SduRx × List Nat :=
  if pdu then
    ({ rx with credits := rx.credits + min credits config.initCredits },
      [min credits config.initCredits])
  else ({ rx with shutdown := true, queue := [], sdu := none }, [])

def updateCredits (rx : SduRx) (total len : Nat) : SduRx × List Nat :=
  let credits := (total - len + (config.mps - 1)) / config.mps
  if credits < rx.credits then (rx, [])
  else sendCredits config answers.creditsPdu rx (credits - rx.credits)

def recvSdu (rx : SduRx) (bytes : List Byte) (seg : Nat) :
    SduRx × RecvOutput :=
  match answers.recv with
  | .done =>
    let (next, grants) := sendCredits config answers.creditsPdu rx seg
    (next, ⟨[bytes], grants, false⟩)
  | .inProgress => ({ rx with held := rx.held ++ [seg] }, ⟨[bytes], [], false⟩)
  | .error => (disconnect answers rx, ⟨[bytes], [], false⟩)

def recvSeg (rx : SduRx) (sdu : RxSdu) (buf : List Byte) :
    SduRx × RecvOutput :=
  let seg := ((if sdu.got = [] then 0 else sdu.seg) + 1) % 0x10000
  if sdu.total < sdu.got.length + buf.length then
    (disconnect answers { rx with sdu := some sdu }, silent)
  else
    let got := sdu.got ++ buf.take answers.stored
    let kept := { rx with sdu := some ⟨got, sdu.total, seg⟩ }
    if answers.stored < buf.length then (disconnect answers kept, silent)
    else if got.length < sdu.total then
      if kept.credits = 0 ∧ seg = config.initCredits then
        let (next, grants) := updateCredits config answers kept sdu.total buf.length
        (next, ⟨[], grants, false⟩)
      else (kept, silent)
    else recvSdu config answers { kept with sdu := none } got seg

def leRecv (rx : SduRx) (buf : List Byte) : SduRx × RecvOutput :=
  if rx.credits = 0 then (disconnect answers rx, ⟨[], [], true⟩)
  else
    let rx := { rx with credits := rx.credits - 1 }
    match rx.sdu with
    | some sdu => recvSeg config answers rx sdu buf
    | none =>
      match pullLe16 buf with
      | none => (disconnect answers rx, silent)
      | some (total, rest) =>
        if config.mtu < total then (disconnect answers rx, silent)
        else if !answers.allocBuf then (disconnect answers rx, silent)
        else recvSeg config answers rx ⟨[], total, 0⟩ rest

def recvQueue (rx : SduRx) (frame : List Byte) : SduRx :=
  if rx.disconnecting ∨ rx.shutdown then rx
  else { rx with queue := rx.queue ++ [frame] }

end SduRx

/-- Both ends and the link between them, in order and without loss.
`accepted` and `delivered` are no fields of the source: they are the SDUs taken
over from the sending application and those handed to the receiving one. -/
structure SduLink where
  tx : SduTx
  frames : List (List Byte)
  rx : SduRx
  grants : List Nat
  accepted : List (List Byte)
  delivered : List (List Byte)

inductive SduInput where
  | send (answers : SendAnswers) (chain : SduChain)
  | txWork (answers : SendAnswers)
  | frameArrives
  | rxWork (answers : RecvAnswers)
  | recvComplete (index : Nat) (creditsPdu : Bool)
  | creditsArrive

inductive SduEvent where
  | starved

namespace SduLink

variable (config : SduConfig) (link : SduLink)

def start : SduLink where
  tx := ⟨config.initCredits, none, .init, false⟩
  frames := []
  rx := ⟨config.initCredits, [], none, [], false, false⟩
  grants := []
  accepted := []
  delivered := []

def send (answers : SendAnswers) (chain : SduChain) : SduLink :=
  let (tx, frames, taken) := link.tx.chanSend config answers chain
  { link with
    tx
    frames := link.frames ++ frames
    accepted := if taken then link.accepted ++ [chain.bytes] else link.accepted }

def txWork (answers : SendAnswers) : SduLink :=
  let (tx, frames) := SduTx.process config answers link.tx.rounds link.tx
  { link with tx, frames := link.frames ++ frames }

def frameArrives : SduLink :=
  match link.frames with
  | [] => link
  | frame :: rest => { link with frames := rest, rx := link.rx.recvQueue frame }

/-- `l2cap_rx_process`, one buffer at a time. -/
def rxWork (answers : RecvAnswers) : SduLink × List SduEvent :=
  match link.rx.queue with
  | [] => (link, [])
  | buf :: rest =>
    let (rx, output) :=
      SduRx.leRecv config answers { link.rx with queue := rest } buf
    ({ link with
        rx
        grants := link.grants ++ output.grants
        delivered := link.delivered ++ output.delivered },
      if output.starved then [.starved] else [])

def recvComplete (index : Nat) (creditsPdu : Bool) : SduLink :=
  match link.rx.held[index]? with
  | none => link
  | some seg =>
    let (rx, grants) := SduRx.sendCredits config creditsPdu
      { link.rx with held := link.rx.held.eraseIdx index } seg
    { link with rx, grants := link.grants ++ grants }

/-- `le_credits`; on overflow the sender asks for a disconnection, which none
of the modelled functions looks at. -/
def creditsArrive : SduLink :=
  match link.grants with
  | [] => link
  | credits :: rest =>
    if 0xffff < link.tx.credits + credits then { link with grants := rest }
    else
      { link with
        grants := rest
        tx := { link.tx with credits := link.tx.credits + credits } }

def step : SduInput → SduLink × List SduEvent
  | .send answers chain => (link.send config answers chain, [])
  | .txWork answers => (link.txWork config answers, [])
  | .frameArrives => (link.frameArrives, [])
  | .rxWork answers => link.rxWork config answers
  | .recvComplete index creditsPdu =>
    (link.recvComplete config index creditsPdu, [])
  | .creditsArrive => (link.creditsArrive, [])

end SduLink

def sduMachine (config : SduConfig) : Machine SduLink SduInput SduEvent where
  step link input :=
    if link.tx.halted then (link, []) else link.step config input

end ZephyrBluetooth.Host
