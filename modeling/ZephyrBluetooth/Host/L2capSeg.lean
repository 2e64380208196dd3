import ZephyrBluetooth.Host.L2cap
import ZephyrBluetooth.Host.Bytes

namespace ZephyrBluetooth.Host

open Data

/-! How an SDU is cut into K-frames and sent (`l2cap_chan_create_seg`,
`l2cap_chan_le_send` and `l2cap_chan_le_send_sdu`), with the references to its
buffers. -/

/-- `tx.mtu`, `tx.mps`, `tx.cid` and `BT_L2CAP_CHAN_SEND_RESERVE`, which has
room for the ACL and L2CAP headers. -/
structure LeTxConf where
  mtu : Nat
  mps : Nat
  cid : Nat
  reserve : Nat
  mps_lt : mps < 2 ^ 16
  reserve_min : 8 ≤ reserve

/-- One buffer of a chain: the bytes in front of its data, the data, and the
references to it that have not been handed on to the connection. -/
structure SendBuf where
  before : List Byte
  data : List Byte
  ref : Nat
  deriving DecidableEq

namespace SendBuf

def headroom (buf : SendBuf) : Nat := buf.before.length

/-- `net_buf_push` and what is then written there. -/
def push (buf : SendBuf) (bytes : List Byte) : SendBuf :=
  { buf with
    before := buf.before.take (buf.before.length - bytes.length)
    data := bytes ++ buf.data }

def pull (buf : SendBuf) (len : Nat) : SendBuf :=
  { buf with
    before := buf.before ++ buf.data.take len
    data := buf.data.drop len }

/-- `net_buf_simple_restore` to the offset and length of `state`. -/
def restore (buf state : SendBuf) : SendBuf :=
  { buf with
    before := (buf.before ++ buf.data).take state.headroom
    data := ((buf.before ++ buf.data).drop state.headroom).take
      state.data.length }

def addRef (buf : SendBuf) : SendBuf := { buf with ref := buf.ref + 1 }

def unref (buf : SendBuf) : SendBuf := { buf with ref := buf.ref - 1 }

end SendBuf

def fragsLen (chain : List SendBuf) : Nat :=
  (chain.map fun buf => buf.data.length).sum

/-- What `bt_l2cap_send_cb` returns. -/
inductive ConnSend where
  | ok
  | noBufs
  | notConn
  deriving DecidableEq

/-- `tx.credits`, the tailroom of the segment that `l2cap_alloc_seg` gives, and
the answer of the connection. -/
structure SegAnswers where
  credits : Nat
  room : Option Nat
  send : ConnSend

inductive Seg where
  | original
  | fresh (bytes : List Byte)

def sizeDiff (minuend subtrahend : Nat) : Nat :=
  (minuend + 2 ^ 32 - subtrahend) % 2 ^ 32

namespace LeTx

variable (conf : LeTxConf)

def sduHdr (buf : SendBuf) (restLen hdrLen : Nat) : List Byte :=
  if hdrLen = 0 then [] else le16 (buf.data.length + restLen)

def segLen (tailroom hdrLen dataLen : Nat) : Nat :=
  min dataLen (min (tailroom - hdrLen) (sizeDiff conf.mps hdrLen) % 2 ^ 16)

/-- The data fits into one segment and the buffer, which is the last of its
chain, has room for the headers. -/
def Whole (buf : SendBuf) (last : Bool) (hdrLen : Nat) : Prop :=
  buf.data.length + hdrLen ≤ conf.mps ∧
    conf.reserve + hdrLen ≤ buf.headroom ∧ last = true

instance decidableWhole (buf : SendBuf) (last : Bool) (hdrLen : Nat) :
    Decidable (Whole conf buf last hdrLen) :=
  inferInstanceAs (Decidable (_ ∧ _ ∧ _))

/-- `l2cap_chan_create_seg`; `restLen` is the length of the fragments behind the
buffer. -/
def createSeg (room : Option Nat) (buf : SendBuf) (restLen : Nat) (last : Bool)
    (hdrLen : Nat) : Option (Seg × SendBuf) :=
  if Whole conf buf last hdrLen then
    some (.original, (buf.push (sduHdr buf restLen hdrLen)).addRef)
  else
    match room with
    | none => none
    | some tailroom =>
      let len := segLen conf tailroom hdrLen buf.data.length
      some (.fresh (sduHdr buf restLen hdrLen ++ buf.data.take len), buf.pull len)

/-- The bytes of a segment, given the buffer that `createSeg` left. -/
def segBytes (left : SendBuf) : Seg → List Byte
  | .original => left.data
  | .fresh bytes => bytes

/-- `bt_l2cap_send_cb` puts its header in front of the segment. -/
def pushHdr (left : SendBuf) : Seg → SendBuf
  | .original => left.push (le16 left.data.length ++ le16 conf.cid)
  | .fresh _ => left

def handOn (left : SendBuf) : Seg → SendBuf
  | .original => left.unref
  | .fresh _ => left

end LeTx

inductive LeSent where
  | sent (len : Nat) (frame : List Byte)
  | again
  | failed
  deriving DecidableEq

namespace LeTx

variable (conf : LeTxConf)

/-- `l2cap_chan_le_send`, with `tx.credits` and the buffer after it.  A new
segment that could not be sent is released, the original buffer is not. -/
def leSend (answers : SegAnswers) (buf : SendBuf) (restLen : Nat) (last : Bool)
    (hdrLen : Nat) : LeSent × Nat × SendBuf :=
  if answers.credits = 0 then
    (.again, 0, buf)
  else
    match createSeg conf answers.room buf restLen last hdrLen with
    | none => (.again, answers.credits, buf)
    | some (seg, left) =>
      let frame := segBytes left seg
      let pushed := pushHdr conf left seg
      match answers.send with
      | .ok =>
        (.sent (frame.length - hdrLen) frame, answers.credits - 1, handOn pushed seg)
      | .noBufs => (.again, answers.credits, pushed.restore buf)
      | .notConn => (.failed, answers.credits, pushed)

def skipHead : List SendBuf → List SendBuf
  | frag :: next :: rest =>
    if frag.data = [] then next :: rest else frag :: next :: rest
  | chain => chain

/-- `net_buf_unref` of a whole chain, which ends at a buffer that is still
referenced. -/
def unrefAll : List SendBuf → List SendBuf
  | [] => []
  | frag :: rest =>
    if frag.ref ≤ 1 then frag.unref :: unrefAll rest else [frag.unref]

end LeTx

/-- Where the sending of an SDU is: its rest is kept for another call of
`l2cap_chan_le_send_sdu`, or the loop of the call goes on. -/
inductive SduPlace where
  | parked (chain : List SendBuf) (sent : Nat)
  | looping (chain : List SendBuf) (sent total : Nat)
  | done
  | dropped
  deriving DecidableEq

/-- `released` has the buffers that were released, as they were left. -/
structure SduSending where
  place : SduPlace
  released : List SendBuf

/-- The call of `l2cap_chan_le_send` that comes next. -/
structure SduDue where
  frag : SendBuf
  rest : List SendBuf
  sent : Nat
  total : Nat
  hdrLen : Nat

namespace LeTx

variable (conf : LeTxConf)

/-- The loop of `l2cap_chan_le_send_sdu` at its start: a fragment that is used
up is released. -/
def loopDue (released chain : List SendBuf) (sent total : Nat) :
    Option (List SendBuf × SduDue) :=
  match chain with
  | [] => none
  | frag :: rest =>
    if frag.data = [] then
      match rest with
      | [] => none
      | next :: more =>
        some (released ++ [frag.unref], ⟨next, more, sent, total, 0⟩)
    else
      some (released, ⟨frag, rest, sent, total, 0⟩)

open L2cap in
def due (state : SduSending) : Option (List SendBuf × SduDue) :=
  match state.place with
  | .parked chain sent =>
    if conf.mtu < fragsLen chain + sent then
      none
    else if sent = 0 then
      match skipHead chain with
      | [] => none
      | frag :: rest =>
        some (state.released, ⟨frag, rest, 0, fragsLen chain, sduHdrSize⟩)
    else
      loopDue state.released (skipHead chain) sent (fragsLen chain + sent)
  | .looping chain sent total => loopDue state.released chain sent total
  | _ => none

def SduDue.send (call : SduDue) (answers : SegAnswers) :
    LeSent × Nat × SendBuf :=
  leSend conf answers call.frag (fragsLen call.rest) call.rest.isEmpty call.hdrLen

def settle (released chain : List SendBuf) (sent total : Nat) : SduSending :=
  if total ≤ sent then
    ⟨.done, released ++ unrefAll chain⟩
  else
    ⟨.looping chain sent total, released⟩

/-- What a call of `l2cap_chan_le_send` leads to. -/
def attempt (released : List SendBuf) (call : SduDue) (answers : SegAnswers) :
    SduSending × List (List Byte) :=
  match SduDue.send conf call answers with
  | (.again, _, frag) => (⟨.parked (frag :: call.rest) call.sent, released⟩, [])
  | (.failed, _, _) => (⟨.dropped, released⟩, [])
  | (.sent len frame, _, left) =>
    (settle released (left :: call.rest) (call.sent + len) call.total, [frame])

def sendStep (state : SduSending) (answers : SegAnswers) :
    SduSending × List (List Byte) :=
  match due conf state with
  | none =>
    ({ state with
      place := if state.place = .done then .done else .dropped }, [])
  | some (released, call) => attempt conf released call answers

end LeTx

def sduSendMachine (conf : LeTxConf) :
    Machine SduSending SegAnswers (List Byte) where
  step := LeTx.sendStep conf

def SduSending.start (chain : List SendBuf) : SduSending :=
  ⟨.parked chain 0, []⟩

end ZephyrBluetooth.Host
