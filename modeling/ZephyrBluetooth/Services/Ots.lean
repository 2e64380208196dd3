import Mathlib.Algebra.GroupWithZero.Nat
import ZephyrBluetooth.Data.Machine

namespace ZephyrBluetooth.Services

open Data

/-! One instance of the Object Transfer Service: the Object Action Control Point
of `ots_oacp.c`, the channel of `ots_l2cap.c` and the selections of `ots_olcp.c`.
The write support is compiled in.  Bytes are named by their object and their place
in it. -/

structure OtsProps where
  read : Bool
  write : Bool
  patch : Bool

inductive OtsObjState where
  | idle
  | readOp
  | writeOp
  deriving DecidableEq

/-- The operation of an object.  The two members of the union keep their
parameters in the same place. -/
structure OtsOp where
  offset : Nat
  len : Nat
  sentLen : Nat
  recvLen : Nat

structure OtsObject where
  id : Nat
  props : OtsProps
  cur : Nat
  alloc : Nat
  state : OtsObjState
  op : OtsOp

/-- `struct bt_gatt_ots_l2cap_tx`, whose data lie at a place of an object. -/
structure OtsTx where
  obj : Nat
  pos : Nat
  len : Nat
  lenSent : Nat

def OtsTx.zero : OtsTx := ⟨0, 0, 0, 0⟩

/-- `struct bt_gatt_ots_l2cap`: the connection and the MTU of its channel, and
which callbacks are set. -/
structure OtsL2cap where
  conn : Option Nat
  mtu : Nat
  tx : OtsTx
  txDone : Bool
  rxDone : Bool
  closed : Bool

/-- `struct bt_ots`, the indications that wait for a confirmation, and the SDUs
that wait for their sent callback. -/
structure Ots where
  patch : Bool
  indEnabled : Bool
  cur : Option Nat
  objects : List OtsObject
  l2cap : OtsL2cap
  inds : Nat
  inFlight : Nat

/-- `CONFIG_BT_OTS_L2CAP_CHAN_TX_MTU` -/
structure OtsConfig where
  txMtu : Nat

/-- What is seen from outside: the operations that are accepted, the bytes that
are sent and written, and how an operation ends. -/
inductive OtsEvt where
  | acceptRead (obj offset len : Nat)
  | acceptWrite (obj offset len : Nat)
  | sdu (obj pos len : Nat)
  | objWrite (obj pos len : Nat)
  | finished (obj : Nat)
  | failed

namespace Ots

def setObj (ots : Ots) (slot : Nat) (obj : OtsObject) : Ots :=
  { ots with objects := ots.objects.set slot obj }

def setTx (ots : Ots) (tx : OtsTx) : Ots :=
  { ots with l2cap := { ots.l2cap with tx := tx } }

/-- `ots_l2cap_send`; `accepts` is what the channel answers while it is open. -/
def otsL2capSend (cfg : OtsConfig) (accepts : Bool) (ots : Ots) :
    Bool × Ots × List OtsEvt :=
  let tx := ots.l2cap.tx
  let len := min (min ots.l2cap.mtu cfg.txMtu) (tx.len - tx.lenSent)
  if ots.l2cap.conn.isSome && accepts then
    (true,
      { ots.setTx { tx with lenSent := tx.lenSent + len } with
        inFlight := ots.inFlight + 1 },
      [.sdu tx.obj (tx.pos + tx.lenSent) len])
  else
    (false, ots, [.failed])

def l2capSend (cfg : OtsConfig) (accepts : Bool) (ots : Ots)
    (obj pos len : Nat) : Bool × Ots × List OtsEvt :=
  if ots.l2cap.tx.len ≠ 0 then
    (false, ots, [])
  else
    (ots.setTx { ots.l2cap.tx with obj := obj, pos := pos, len := len }).otsL2capSend
      cfg accepts

/-- `oacp_read_proc_cb`; `ready` is how much `obj_read` has at hand, if it does
not fail. -/
def readProcCb (cfg : OtsConfig) (ready : Option Nat) (accepts : Bool)
    (ots : Ots) : Ots × List OtsEvt :=
  match ots.cur with
  | none => (ots, [])
  | some slot =>
    match ots.objects[slot]? with
    | none => (ots, [])
    | some obj =>
      if obj.op.len ≤ obj.op.sentLen then
        (ots.setObj slot { obj with state := .idle }, [.finished slot])
      else
        match ready with
        | none => (ots.setObj slot { obj with state := .idle }, [.failed])
        | some ready =>
          let len := min ready (obj.op.len - obj.op.sentLen)
          let pos := obj.op.offset + obj.op.sentLen
          let armed := { ots with l2cap := { ots.l2cap with txDone := true } }
          match armed.l2capSend cfg accepts slot pos len with
          | (true, sent, evts) =>
            (sent.setObj slot
              { obj with
                op := { obj.op with sentLen := obj.op.sentLen + len } },
              evts)
          | (false, sent, evts) =>
            (sent.setObj slot { obj with state := .idle }, evts)

/-- `oacp_ind_cb`, which reads the current object without looking whether there
is one. -/
def oacpIndCb (cfg : OtsConfig) (ready : Option Nat) (accepts : Bool)
    (ots : Ots) : Ots × List OtsEvt :=
  match ots.cur with
  | none => (ots, [])
  | some slot =>
    match ots.objects[slot]? with
    | none => (ots, [])
    | some obj =>
      match obj.state with
      | .readOp => ots.readProcCb cfg ready accepts
      | .writeOp => (ots, [])
      | .idle => (ots, [])

def l2capSent (cfg : OtsConfig) (ready : Option Nat) (accepts : Bool)
    (ots : Ots) : Ots × List OtsEvt :=
  let tx := ots.l2cap.tx
  if tx.len ≠ tx.lenSent then
    let (sent, after, evts) := ots.otsL2capSend cfg accepts
    -- a failure is not passed on
    (after, if sent then evts else [])
  else
    let quiet := ots.setTx .zero
    if quiet.l2cap.txDone then
      quiet.readProcCb cfg ready accepts
    else
      (quiet, [])

/-- `oacp_write_proc_cb` for a buffer of `len` bytes; `written` is how much
`obj_write` takes, if it does not fail. -/
def writeProcCb (len : Nat) (written : Option Nat) (ots : Ots) :
    Ots × List OtsEvt :=
  match ots.cur with
  | none => (ots, [])
  | some slot =>
    match ots.objects[slot]? with
    | none => (ots, [])
    | some obj =>
      let op := obj.op
      let pos := op.offset + op.recvLen
      let offered :=
        if op.len < (op.recvLen + len) % 2 ^ 32 then
          (op.len + 2 ^ 32 - op.recvLen) % 2 ^ 32
        else len
      match written with
      | none =>
        (ots.setObj slot { obj with state := .idle, cur := max obj.cur pos },
          [.objWrite slot pos offered, .failed])
      | some written =>
        let taken := min written offered
        let recvLen := op.recvLen + taken
        let done := recvLen = op.len
        (ots.setObj slot
          { obj with
            op := { op with recvLen := recvLen }
            state := if done then .idle else obj.state
            cur := max obj.cur (pos + taken) },
          .objWrite slot pos offered :: if done then [.finished slot] else [])

def l2capRecv (len : Nat) (written : Option Nat) (ots : Ots) :
    Ots × List OtsEvt :=
  if ots.l2cap.rxDone then ots.writeProcCb len written else (ots, [])

def oacpL2capClosed (ots : Ots) : Ots × List OtsEvt :=
  match ots.cur with
  | none => (ots, [])
  | some slot =>
    match ots.objects[slot]? with
    | none => (ots, [])
    | some obj =>
      let idle := ots.setObj slot { obj with state := .idle }
      ({ idle with l2cap := { idle.l2cap with rxDone := false, txDone := false } },
        if obj.state = .idle then [] else [.failed])

def l2capDisconnected (ots : Ots) : Ots × List OtsEvt :=
  let (after, evts) := if ots.l2cap.closed then ots.oacpL2capClosed else (ots, [])
  ({ after with l2cap := { after.l2cap with conn := none }, inFlight := 0 }, evts)

def l2capAccept (conn mtu : Nat) (ots : Ots) : Ots :=
  if ots.l2cap.conn.isSome then
    ots
  else
    { ots with
      l2cap := { ots.l2cap with conn := some conn, mtu := mtu, tx := .zero } }

def isOpen (ots : Ots) (conn : Nat) : Bool := ots.l2cap.conn == some conn

end Ots

inductive OacpProc where
  | create (uuidLen : Nat)
  | delete
  | csCalc
  | execute
  | read (offset len : Nat)
  | write (offset len mode : Nat)
  | abort
  | unknown

def pullLe32 (buf : List UInt8) : Nat :=
  (buf.getD 0 0).toNat + 2 ^ 8 * (buf.getD 1 0).toNat +
    2 ^ 16 * (buf.getD 2 0).toNat + 2 ^ 24 * (buf.getD 3 0).toNat

/-- `oacp_command_decode`, where a byte past the end of the buffer reads as 0. -/
def oacpCommandDecode (buf : List UInt8) : OacpProc :=
  let params := buf.drop 1
  match (buf.getD 0 0).toNat with
  | 0x01 => .create (params.drop 4).length
  | 0x02 => .delete
  | 0x03 => .csCalc
  | 0x04 => .execute
  | 0x05 => .read (pullLe32 params) (pullLe32 (params.drop 4))
  | 0x06 =>
    .write (pullLe32 params) (pullLe32 (params.drop 4)) (params.getD 8 0).toNat
  | 0x07 => .abort
  | _ => .unknown

def oacpCommandLenVerify (len : Nat) : OacpProc → Bool
  | .create 2 => len == 1 + 7
  | .create 4 => len == 1 + 9
  | .create 16 => len == 1 + 21
  | .create _ => false
  | .delete => len == 1
  | .csCalc => len == 1 + 8
  | .execute => len == 1
  | .read .. => len == 1 + 8
  | .write .. => len == 1 + 9
  | .abort => len == 1
  | .unknown => true

inductive OacpRes where
  | success
  | opcodeNotSup
  | invParam
  | invObj
  | chanUnavail
  | notPermitted
  | objLocked

namespace Ots

def readProcValidate (ots : Ots) (conn offset len : Nat) :
    OacpRes × Ots × List OtsEvt :=
  match ots.cur.bind fun slot => (ots.objects[slot]?).map fun obj => (slot, obj) with
  | none => (.invObj, ots, [])
  | some (slot, obj) =>
    if !obj.props.read then
      (.notPermitted, ots, [])
    else if !ots.isOpen conn then
      (.chanUnavail, ots, [])
    else if obj.cur < offset + len then
      (.invParam, ots, [])
    else if obj.state ≠ .idle then
      (.objLocked, ots, [])
    else
      (.success, ots.setObj slot
          { obj with
            state := .readOp
            op := { obj.op with offset := offset, len := len, sentLen := 0 } },
        [.acceptRead slot offset len])

/-- `BT_GATT_OTS_OACP_PROC_WRITE_MODE_GET_TRUNC` -/
def modeTrunc (mode : Nat) : Bool := mode.testBit 1

/-- `BT_GATT_OTS_OACP_PROC_WRITE_MODE_GET_RFU` -/
def modeRfu (mode : Nat) : Bool := mode != 0 && mode != 2

def writeProcValidate (ots : Ots) (conn offset len mode : Nat) :
    OacpRes × Ots × List OtsEvt :=
  match ots.cur.bind fun slot => (ots.objects[slot]?).map fun obj => (slot, obj) with
  | none => (.invObj, ots, [])
  | some (slot, obj) =>
    if !obj.props.write then
      (.notPermitted, ots, [])
    else if decide (offset < obj.cur) && !(ots.patch && obj.props.patch) then
      (.notPermitted, ots, [])
    else if modeTrunc mode then
      (.notPermitted, ots, [])
    else if !ots.isOpen conn then
      (.chanUnavail, ots, [])
    else if modeRfu mode then
      (.invParam, ots, [])
    else if obj.cur < offset then
      (.invParam, ots, [])
    else if obj.alloc < offset + len then
      (.invParam, ots, [])
    else if obj.state ≠ .idle then
      (.objLocked, ots, [])
    else
      let accepted := ots.setObj slot
        { obj with
          state := .writeOp
          op := { obj.op with offset := offset, len := len, recvLen := 0 } }
      (.success,
        { accepted with
          l2cap := { accepted.l2cap with rxDone := true, closed := true } },
        [.acceptWrite slot offset len])

def procValidate (ots : Ots) (conn : Nat) : OacpProc → OacpRes × Ots × List OtsEvt
  | .read offset len => ots.readProcValidate conn offset len
  | .write offset len mode => ots.writeProcValidate conn offset len mode
  | .create _ | .delete | .csCalc | .execute | .abort | .unknown =>
    (.opcodeNotSup, ots, [])

/-- `bt_gatt_ots_oacp_write`; `queued` indications go out with the response. -/
def oacpWrite (ots : Ots) (conn : Nat) (buf : List UInt8) (queued : Nat) :
    Ots × List OtsEvt :=
  if !ots.indEnabled then
    (ots, [])
  else
    let proc := oacpCommandDecode buf
    if !oacpCommandLenVerify buf.length proc then
      (ots, [])
    else
      let (_, after, evts) := ots.procValidate conn proc
      ({ after with inds := after.inds + queued }, evts)

end Ots

inductive OlcpProc where
  | first
  | last
  | prev
  | next
  | goto (id : Nat)

namespace Ots

/-- The object that `olcp_proc_execute` selects. -/
def olcpSelect (ots : Ots) : OlcpProc → Option Nat
  | .first => if ots.objects.isEmpty then none else some 0
  | .last => if ots.objects.isEmpty then none else some (ots.objects.length - 1)
  | .prev =>
    match ots.cur with
    | none => none
    | some slot => if slot = 0 then none else some (slot - 1)
  | .next =>
    match ots.cur with
    | none => none
    | some slot =>
      if slot + 1 < ots.objects.length then some (slot + 1) else none
  | .goto id => ots.objects.findIdx? fun obj => obj.id == id

def olcpWrite (ots : Ots) (proc : OlcpProc) : Ots :=
  match ots.olcpSelect proc with
  | none => ots
  | some slot => { ots with cur := some slot }

end Ots

inductive OtsInput where
  | cfgChanged (enabled : Bool)
  | connected (conn mtu : Nat)
  | disconnected
  | oacp (conn : Nat) (buf : List UInt8) (queued : Nat)
  | olcp (proc : OlcpProc)
  | confirmed (ready : Option Nat) (accepts : Bool)
  | sent (ready : Option Nat) (accepts : Bool)
  | received (len : Nat) (written : Option Nat)

def otsStep (cfg : OtsConfig) (ots : Ots) : OtsInput → Ots × List OtsEvt
  | .cfgChanged enabled => ({ ots with indEnabled := enabled }, [])
  | .connected conn mtu => (ots.l2capAccept conn mtu, [])
  | .disconnected => ots.l2capDisconnected
  | .oacp conn buf queued => ots.oacpWrite conn buf queued
  | .olcp proc => (ots.olcpWrite proc, [])
  | .confirmed ready accepts =>
    { ots with inds := ots.inds - 1 }.oacpIndCb cfg ready accepts
  | .sent ready accepts =>
    { ots with inFlight := ots.inFlight - 1 }.l2capSent cfg ready accepts
  | .received len written => ots.l2capRecv len written

end ZephyrBluetooth.Services
