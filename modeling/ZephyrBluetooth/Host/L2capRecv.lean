import ZephyrBluetooth.Data.Framed
import ZephyrBluetooth.Host.L2capSdu

namespace ZephyrBluetooth.Host

open Data

/-! The receiver of an LE credit-based channel (`l2cap.c`), with and without
`alloc_buf`. -/

/-- The parameters of the receiving side: `rx.mtu`, `rx.mps`,
`rx.init_credits`, whether `ops->alloc_buf` is set, and whether the PSM is a
dynamic one. -/
structure LeRxConf where
  mtu : Nat
  mps : Nat
  initCredits : Nat
  allocBuf : Bool
  dynPsm : Bool

/-- `l2cap_chan_rx_init` for the MTU and credits that the application has
preset; `rxMtu` is `BT_L2CAP_RX_MTU` and `maxCredits` is
`L2CAP_LE_MAX_CREDITS`. -/
def leRxInit (rxMtu maxCredits presetMtu presetCredits : Nat)
    (allocBuf dynPsm : Bool) : LeRxConf :=
  let mtu := if presetMtu = 0 then rxMtu - Sdu.hdrSize else presetMtu
  let mps := min (mtu + Sdu.hdrSize) rxMtu
  let truncated :=
    if !allocBuf && decide (mps < mtu + Sdu.hdrSize) then mps - Sdu.hdrSize
    else mtu
  { mtu := truncated
    mps := mps
    initCredits :=
      if presetCredits ≠ 0 then presetCredits
      else if allocBuf then (truncated + (rxMtu - 1)) / rxMtu
      else maxCredits
    allocBuf := allocBuf
    dynPsm := dynPsm }

/-- The receiving side of `struct bt_l2cap_le_chan`.  `held` has the segment
counts in the user data of the SDUs that the application still processes, and
`asked` tells whether `bt_l2cap_chan_disconnect` was called. -/
structure LeRx where
  credits : Nat
  queue : List (List Byte)
  sdu : Option RxSdu
  held : List Nat
  disconnecting : Bool
  shutdown : Bool
  asked : Bool

/-- SDUs handed to `ops->recv` and credit packets. -/
structure LeOut where
  delivered : List (List Byte)
  grants : List Nat

namespace LeRx

variable (conf : LeRxConf) (answers : RecvAnswers)

def start : LeRx where
  credits := conf.initCredits
  queue := []
  sdu := none
  held := []
  disconnecting := false
  shutdown := false
  asked := false

def quiet : LeOut := ⟨[], []⟩

def disconnect (rx : LeRx) : LeRx :=
  { rx with
    disconnecting := rx.disconnecting || answers.disconnPdu
    asked := true }

/-- `l2cap_chan_send_credits`; without a buffer the channel is shut down. -/
def sendCredits (pdu : Bool) (rx : LeRx) (credits : Nat) : LeRx × List Nat :=
  if pdu then
    ({ rx with credits := rx.credits + min credits conf.initCredits },
      [min credits conf.initCredits])
  else
    ({ rx with shutdown := true, queue := [], sdu := none }, [])

/-- `l2cap_chan_update_credits`; `len` is the length of the last segment. -/
def updateCredits (rx : LeRx) (total len : Nat) : LeRx × List Nat :=
  let credits := (total - len + (conf.mps - 1)) / conf.mps
  if credits < rx.credits then
    (rx, [])
  else
    sendCredits conf answers.creditsPdu rx (credits - rx.credits)

def recvSdu (rx : LeRx) (bytes : List Byte) (seg : Nat) : LeRx × LeOut :=
  match answers.recv with
  | .done =>
    let (next, grants) := sendCredits conf answers.creditsPdu rx seg
    (next, ⟨[bytes], grants⟩)
  | .inProgress => ({ rx with held := rx.held ++ [seg] }, ⟨[bytes], []⟩)
  | .error => (disconnect answers rx, ⟨[bytes], []⟩)

/-- The segment count that `l2cap_chan_le_recv_seg` stores: it is read back only
when the SDU has bytes. -/
def nextSeg (sdu : RxSdu) : Nat :=
  ((if sdu.got = [] then 0 else sdu.seg) + 1) % 2 ^ 16

def recvSeg (rx : LeRx) (sdu : RxSdu) (buf : List Byte) : LeRx × LeOut :=
  if sdu.total < sdu.got.length + buf.length then
    (disconnect answers { rx with sdu := some sdu }, quiet)
  else
    let got := sdu.got ++ buf.take answers.stored
    let kept := { rx with sdu := some ⟨got, sdu.total, nextSeg sdu⟩ }
    if answers.stored < buf.length then
      (disconnect answers kept, quiet)
    else if got.length < sdu.total then
      if kept.credits = 0 ∧ nextSeg sdu = conf.initCredits then
        let (next, grants) :=
          updateCredits conf answers kept sdu.total buf.length
        (next, ⟨[], grants⟩)
      else
        (kept, quiet)
    else
      recvSdu conf answers { kept with sdu := none } got (nextSeg sdu)

/-- The end of `l2cap_chan_le_recv` without `alloc_buf`; `userData` is what the
received buffer itself carries where a segment count would be. -/
def recvPlain (userData : Nat) (rx : LeRx) (rest : List Byte) : LeRx × LeOut :=
  match answers.recv with
  | .done =>
    let (next, grants) := sendCredits conf answers.creditsPdu rx 1
    (next, ⟨[rest], grants⟩)
  | .inProgress => ({ rx with held := rx.held ++ [userData] }, ⟨[rest], []⟩)
  | .error => (disconnect answers rx, ⟨[rest], []⟩)

/-- `l2cap_chan_le_recv` for a K-frame that begins an SDU. -/
def recvFirst (userData : Nat) (rx : LeRx) (buf : List Byte) : LeRx × LeOut :=
  match pullLe16 buf with
  | none => (disconnect answers rx, quiet)
  | some (total, rest) =>
    if conf.mtu < total then
      (disconnect answers rx, quiet)
    else if conf.allocBuf then
      if !answers.allocBuf then
        (disconnect answers rx, quiet)
      else
        recvSeg conf answers rx ⟨[], total, 0⟩ rest
    else
      recvPlain conf answers userData rx rest

def spend (rx : LeRx) : LeRx := { rx with credits := rx.credits - 1 }

def leRecv (userData : Nat) (rx : LeRx) (buf : List Byte) : LeRx × LeOut :=
  if rx.credits = 0 then
    (disconnect answers rx, quiet)
  else
    match rx.sdu with
    | some sdu => recvSeg conf answers rx.spend sdu buf
    | none => recvFirst conf answers userData rx.spend buf

/-- `bt_l2cap_chan_recv_complete` for one of the SDUs held. -/
def recvComplete (index : Nat) (creditsPdu : Bool) (rx : LeRx) :
    LeRx × List Nat :=
  match rx.held[index]? with
  | none => (rx, [])
  | some seg =>
    sendCredits conf creditsPdu { rx with held := rx.held.eraseIdx index } seg

def gathering (rx : LeRx) : Option (Gathering Byte) :=
  rx.sdu.map fun sdu => ⟨sdu.got, sdu.total⟩

end LeRx

/-- One K-frame that `l2cap_chan_le_recv` has processed: the SDU it found
begun, whether a disconnection had been asked for before and has been since,
and what it did. -/
structure LeRxFrame where
  before : Option (Gathering Byte)
  frame : List Byte
  late : Bool
  requested : Bool
  out : LeOut

inductive LeRxInput where
  | arrives (frame : List Byte) (complete : Bool) (answers : RecvAnswers)
      (userData : Nat)
  | rxWork (answers : RecvAnswers) (userData : Nat)
  | recvComplete (index : Nat) (creditsPdu : Bool)

namespace LeRx

variable (conf : LeRxConf)

def take (answers : RecvAnswers) (userData : Nat) (rx : LeRx)
    (frame : List Byte) : LeRx × List LeRxFrame :=
  let (next, out) := leRecv conf answers userData rx frame
  (next, [⟨rx.gathering, frame, rx.asked, next.asked, out⟩])

/-- `l2cap_chan_recv` and `l2cap_chan_recv_queue`. -/
def arrives (frame : List Byte) (complete : Bool) (answers : RecvAnswers)
    (userData : Nat) (rx : LeRx) : LeRx × List LeRxFrame :=
  if !complete then
    (disconnect answers rx, [])
  else if rx.disconnecting || rx.shutdown then
    (rx, [])
  else if !conf.dynPsm then
    take conf answers userData rx frame
  else
    ({ rx with queue := rx.queue ++ [frame] }, [])

/-- `l2cap_rx_process`, one buffer at a time. -/
def rxWork (answers : RecvAnswers) (userData : Nat) (rx : LeRx) :
    LeRx × List LeRxFrame :=
  match rx.queue with
  | [] => (rx, [])
  | frame :: rest => take conf answers userData { rx with queue := rest } frame

def step (rx : LeRx) : LeRxInput → LeRx × List LeRxFrame
  | .arrives frame complete answers userData =>
    arrives conf frame complete answers userData rx
  | .rxWork answers userData => rxWork conf answers userData rx
  | .recvComplete index creditsPdu =>
    ((recvComplete conf index creditsPdu rx).1, [])

end LeRx

def leRxMachine (conf : LeRxConf) : Machine LeRx LeRxInput LeRxFrame where
  step := LeRx.step conf

end ZephyrBluetooth.Host
