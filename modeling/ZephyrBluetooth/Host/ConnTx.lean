import Mathlib.Algebra.GroupWithZero.Nat
import ZephyrBluetooth.Osal.Queue

namespace ZephyrBluetooth.Host

open Data Function Osal

/-! Sending over connections in `conn.c` and `hci_core.c`: the contexts of
`conn_tx[]` and `iso_tx[]`, the semaphores that count the free buffers of the
controller, and the completed packets.  A step of the machine is what one thread
does between two points where another thread or an event can come in. -/

/-- `bt_conn_state_t`; a connection that is being set up is not listed. -/
inductive BtConnState where
  | disconnected
  | connected
  | disconnect
  | disconnectComplete
  deriving DecidableEq

inductive BtConnType where
  | le
  | br
  | iso
  deriving DecidableEq

/-- `bt_dev.le.acl_pkts`, `bt_dev.le.iso_pkts` and `bt_dev.br.pkts`. -/
inductive PktsSem where
  | acl
  | iso
  | br
  deriving DecidableEq

structure ConnTxConfig where
  bredr : Bool
  iso : Bool
  aclMtu : Nat
  isoMtu : Nat
  brMtu : Nat
  buffers : PktsSem → Nat
  fragRoom : BtConnType → Nat
  contexts : Nat
  reported : ∀ sem, buffers sem < 2 ^ 16

/-- `struct bt_conn_tx`: the callback with its argument, and `pending_no_cb`. -/
structure BtConnTx where
  cb : Option Nat
  pendingNoCb : Nat

/-- A buffer of `tx_queue` with its `tx_data(buf)->tx`. -/
structure TxBuf where
  len : Nat
  tx : Option Nat
  deriving DecidableEq

/-- What sending uses of a `struct bt_conn`.  `flight` are the packets that the
controller holds for the connection, `finished` those that it has reported, and
`called` the callbacks that ran. -/
structure BtConn where
  inUse : Bool
  type : BtConnType
  state : BtConnState
  txQueue : KQueue TxBuf
  txPending : List Nat
  pendingNoCb : Nat
  txComplete : List Nat
  cleanup : Bool
  deferred : Bool
  flight : List (Option Nat)
  finished : List (Option Nat)
  called : List Nat

namespace BtConn

variable (conn : BtConn)

def unused : BtConn :=
  ⟨false, .le, .disconnected, .init, [], 0, [], false, false, [], [], []⟩

/-- `bt_conn_new` and the steps to `BT_CONN_CONNECTED`. -/
def opened (type : BtConnType) : BtConn :=
  { unused with inUse := true, type := type, state := .connected }

def linkUp : Bool :=
  conn.state = .connected ∨ conn.state = .disconnect

def withState (state : BtConnState) : BtConn :=
  { conn with state := state }

def withQueue (queue : KQueue TxBuf) : BtConn :=
  { conn with txQueue := queue }

def withPending (pending : List Nat) (count : Nat) : BtConn :=
  { conn with txPending := pending, pendingNoCb := count }

def withComplete (complete : List Nat) : BtConn :=
  { conn with txComplete := complete }

def withFlight (flight : List (Option Nat)) : BtConn :=
  { conn with flight := flight }

/-- The flag `BT_CONN_CLEANUP`, and whether `deferred_work` is to run. -/
def withCleanup (cleanup deferred : Bool) : BtConn :=
  { conn with cleanup := cleanup, deferred := deferred }

def callBack (cb : Option Nat) : BtConn :=
  { conn with called := conn.called ++ cb.toList }

def released : BtConn :=
  { conn with deferred := false, inUse := false }

def packetDone : BtConn :=
  { conn with
    flight := conn.flight.tail
    finished := conn.finished ++ conn.flight.head?.toList }

end BtConn

/-- A thread in `bt_conn_send_cb`. -/
inductive SendCbAt (slots : Nat) where
  | idle
  | alloc (conn : Fin slots) (len cb : Nat)
  | fill (conn : Fin slots) (len cb tx : Nat)
  | put (conn : Fin slots) (buf : TxBuf)
  deriving DecidableEq

/-- A call of `send_frag`.  `tx` is the context of its buffer; for a fragment,
`rest` is the packet that it was cut from. -/
structure TxPiece (slots : Nat) where
  conn : Fin slots
  tx : Option Nat
  rest : Option TxBuf
  deriving DecidableEq

/-- Where the call stands.  `saved` is the pointer `pending_no_cb`: the counter
of a context, or that of the connection. -/
inductive SendFragAt where
  | take
  | check
  | append
  | send (saved : Option Nat)
  | rollback (saved : Option Nat)
  | fail
  deriving DecidableEq

/-- The thread that runs `bt_conn_process_tx`. -/
inductive TxThreadAt (slots : Nat) where
  | idle
  | packet (conn : Fin slots) (buf : TxBuf)
  | piece (piece : TxPiece slots) (point : SendFragAt)
  deriving DecidableEq

/-- `tx_notify` runs in the receive thread and on the system work queue. -/
inductive NotifyRun where
  | rx
  | work
  deriving DecidableEq

/-- A run of `tx_notify`, with the context that it took out of `tx_complete`. -/
inductive TxNotifyAt (slots : Nat) where
  | idle
  | running (conn : Fin slots) (tx : Option Nat)
  deriving DecidableEq

structure TxState (slots threads : Nat) where
  pkts : PktsSem → Nat
  connTx : Nat → BtConnTx
  freeTx : List Nat
  conns : Fin slots → BtConn
  callers : Fin threads → SendCbAt slots
  txThread : TxThreadAt slots
  notify : NotifyRun → TxNotifyAt slots

inductive TxInput (slots threads : Nat) where
  | connect (conn : Fin slots) (type : BtConnType)
  | sendCb (thread : Fin threads) (conn : Fin slots) (len : Nat) (cb : Option Nat)
  | alloc (thread : Fin threads) (wait : Bool)
  | fill (thread : Fin threads)
  | put (thread : Fin threads)
  | processTx (conn : Fin slots)
  | txThread (accepted : Bool)
  | completedPackets (reports : List (Fin slots × Nat))
  | disconnecting (conn : Fin slots)
  | disconnComplete (conn : Fin slots)
  | disconnected (conn : Fin slots)
  | txCompleteWork (conn : Fin slots)
  | notify (run : NotifyRun)
  | deferredWork (conn : Fin slots)

namespace ConnTxConfig

variable (cfg : ConnTxConfig)

def btConnGetPkts (type : BtConnType) : PktsSem :=
  if cfg.bredr ∧ (type = .br ∨ cfg.aclMtu = 0) then .br
  else if cfg.iso ∧ (type = .iso ∨ cfg.isoMtu ≠ 0) ∧ cfg.buffers .iso ≠ 0 then
    .iso
  else .acl

def connMtu (type : BtConnType) : Nat :=
  if cfg.bredr ∧ (type = .br ∨ cfg.aclMtu = 0) then cfg.brMtu
  else if cfg.iso ∧ type = .iso ∧ cfg.isoMtu ≠ 0 then cfg.isoMtu
  else cfg.aclMtu

def fragLen (type : BtConnType) : Nat :=
  min (cfg.connMtu type) (cfg.fragRoom type)

end ConnTxConfig

namespace TxState

variable {slots threads : Nat} (cfg : ConnTxConfig)
variable (state : TxState slots threads)

def boot : TxState slots threads where
  pkts := cfg.buffers
  connTx := fun _ => ⟨none, 0⟩
  freeTx := List.range cfg.contexts
  conns := fun _ => .unused
  callers := fun _ => .idle
  txThread := .idle
  notify := fun _ => .idle

def setConn (slot : Fin slots) (conn : BtConn) : TxState slots threads :=
  { state with conns := update state.conns slot conn }

def setTx (tx : Nat) (context : BtConnTx) : TxState slots threads :=
  { state with connTx := update state.connTx tx context }

def setCaller (thread : Fin threads) (caller : SendCbAt slots) :
    TxState slots threads :=
  { state with callers := update state.callers thread caller }

def setNotify (run : NotifyRun) (now : TxNotifyAt slots) :
    TxState slots threads :=
  { state with notify := update state.notify run now }

def setTxThread (now : TxThreadAt slots) : TxState slots threads :=
  { state with txThread := now }

def setFreeTx (free : List Nat) : TxState slots threads :=
  { state with freeTx := free }

def setPkts (sem : PktsSem) (count : Nat) : TxState slots threads :=
  { state with pkts := update state.pkts sem count }

theorem conns_setConn (slot : Fin slots) (conn : BtConn) :
    (state.setConn slot conn).conns slot = conn :=
  update_self ..

theorem conns_setThread (slot : Fin slots) (conn : BtConn) (now : TxThreadAt slots) :
    ((state.setConn slot conn).setTxThread now).conns slot = conn :=
  update_self ..

theorem conns_setNotify (slot : Fin slots) (conn : BtConn) (run : NotifyRun)
    (now : TxNotifyAt slots) :
    ((state.setConn slot conn).setNotify run now).conns slot = conn :=
  update_self ..

/-- The semaphore of a connection, as `bt_conn_get_pkts` chooses it. -/
def semOf (slot : Fin slots) : PktsSem :=
  cfg.btConnGetPkts (state.conns slot).type

/-- `k_sem_give(bt_conn_get_pkts(conn))`. -/
def givePkts (slot : Fin slots) : TxState slots threads :=
  state.setPkts (state.semOf cfg slot) (min (state.pkts (state.semOf cfg slot) + 1)
      (cfg.buffers (state.semOf cfg slot)))

def txFree (tx : Nat) : TxState slots threads :=
  (state.setTx tx ⟨none, 0⟩).setFreeTx (state.freeTx ++ [tx])

def txFreeAll : List Nat → TxState slots threads → TxState slots threads
  | [], state => state
  | tx :: rest, state => txFreeAll rest (state.txFree tx)

/-- A decrement of a `uint32_t`. -/
def minusOne (count : Nat) : Nat :=
  if count = 0 then 2 ^ 32 - 1 else count - 1

/-- `bt_conn_send_cb` up to `conn_tx_alloc`. -/
def btConnSendCb (thread : Fin threads) (slot : Fin slots) (len : Nat)
    (cb : Option Nat) : TxState slots threads :=
  if state.callers thread ≠ .idle then state
  else if (state.conns slot).state ≠ .connected then state
  else
    match cb with
    | some cb => state.setCaller thread (.alloc slot len cb)
    | none => state.setCaller thread (.put slot ⟨len, none⟩)

/-- `conn_tx_alloc`; only the system work queue does not wait. -/
def connTxAlloc (thread : Fin threads) (wait : Bool) : TxState slots threads :=
  match state.callers thread with
  | .alloc slot len cb =>
    match state.freeTx with
    | tx :: rest => (state.setCaller thread (.fill slot len cb tx)).setFreeTx rest
    | [] => if wait then state else state.setCaller thread .idle
  | _ => state

/-- `bt_conn_send_cb` after the allocation, with its second look at the
connection. -/
def fillTx (thread : Fin threads) : TxState slots threads :=
  match state.callers thread with
  | .fill slot len cb tx =>
    if (state.conns slot).state ≠ .connected then
      (state.txFree tx).setCaller thread .idle
    else
      (state.setTx tx ⟨some cb, 0⟩).setCaller thread (.put slot ⟨len, some tx⟩)
  | _ => state

/-- `net_buf_put` into the queue of the connection. -/
def putBuf (thread : Fin threads) : TxState slots threads :=
  match state.callers thread with
  | .put slot buf =>
    (state.setConn slot ((state.conns slot).withQueue
      ((state.conns slot).txQueue.append buf))).setCaller thread .idle
  | _ => state

def connCleanup (slot : Fin slots) : TxState slots threads :=
  let (left, taken) := (state.conns slot).txQueue.drain
  txFreeAll (taken.filterMap TxBuf.tx) (state.setConn slot
    (((state.conns slot).withQueue left).withCleanup false true))

/-- `bt_conn_process_tx` up to `send_buf`, asserting that there is a buffer.
`conn_prepare_events` has no event for a connection that has been cleaned up. -/
def btConnProcessTx (slot : Fin slots) : TxState slots threads :=
  if state.txThread ≠ .idle ∨ (state.conns slot).deferred ∨
      ¬(state.conns slot).inUse then state
  else if (state.conns slot).state = .disconnected ∧ (state.conns slot).cleanup then
    state.connCleanup slot
  else
    match (state.conns slot).txQueue.get with
    | (rest, .item buf) =>
      (state.setConn slot ((state.conns slot).withQueue rest)).setTxThread
        (.packet slot buf)
    | _ => state

/-- `send_buf` decides about the next piece of a packet; without a fragment from
`create_frag` it gives the packet up. -/
def sendBuf (slot : Fin slots) (buf : TxBuf) : TxState slots threads :=
  let conn := state.conns slot
  if buf.len ≤ cfg.connMtu conn.type then
    state.setTxThread (.piece ⟨slot, buf.tx, none⟩ .take)
  else if conn.state ≠ .connected then state.setTxThread .idle
  else
    state.setTxThread (.piece
      ⟨slot, none, some ⟨buf.len - cfg.fragLen conn.type, buf.tx⟩⟩ .take)

def appendPending (piece : TxPiece slots) : TxState slots threads :=
  let conn := state.conns piece.conn
  match piece.tx with
  | some tx =>
    (state.setConn piece.conn (conn.withPending (conn.txPending ++ [tx])
      conn.pendingNoCb)).setTxThread (.piece piece (.send none))
  | none =>
    match conn.txPending.getLast? with
    | some tx =>
      (state.setTx tx ⟨(state.connTx tx).cb,
        ((state.connTx tx).pendingNoCb + 1) % 2 ^ 32⟩).setTxThread
        (.piece piece (.send (some tx)))
    | none =>
      (state.setConn piece.conn (conn.withPending conn.txPending
        ((conn.pendingNoCb + 1) % 2 ^ 32))).setTxThread
        (.piece piece (.send none))

def label (piece : TxPiece slots) : Option Nat :=
  piece.tx.bind fun tx => (state.connTx tx).cb

def afterPiece (piece : TxPiece slots) : TxThreadAt slots :=
  match piece.rest with
  | some buf => .packet piece.conn buf
  | none => .idle

def sent (piece : TxPiece slots) : TxState slots threads :=
  let conn := state.conns piece.conn
  (state.setConn piece.conn (conn.withFlight
    (if conn.linkUp then conn.flight ++ [state.label piece]
      else conn.flight))).setTxThread (afterPiece piece)

/-- `send_frag` takes the pending packet back. -/
def rollbackPending (piece : TxPiece slots) (saved : Option Nat) :
    TxState slots threads :=
  let conn := state.conns piece.conn
  match piece.tx, saved with
  | some tx, _ =>
    (state.setConn piece.conn (conn.withPending (conn.txPending.erase tx)
      conn.pendingNoCb)).setTxThread (.piece piece .fail)
  | none, some tx =>
    (state.setTx tx ⟨(state.connTx tx).cb,
      minusOne (state.connTx tx).pendingNoCb⟩).setTxThread (.piece piece .fail)
  | none, none =>
    (state.setConn piece.conn (conn.withPending conn.txPending
      (minusOne conn.pendingNoCb))).setTxThread (.piece piece .fail)

/-- The label `fail` of `send_frag`; the packet is given up with the piece. -/
def sendFail (piece : TxPiece slots) : TxState slots threads :=
  (txFreeAll piece.tx.toList (state.givePkts cfg piece.conn)).setTxThread .idle

/-- The next step of `send_buf` and `send_frag`. -/
def txThreadStep (accepted : Bool) : TxState slots threads :=
  match state.txThread with
  | .idle => state
  | .packet slot buf => state.sendBuf cfg slot buf
  | .piece piece .take =>
    if state.pkts (state.semOf cfg piece.conn) = 0 then state
    else
      (state.setPkts (state.semOf cfg piece.conn)
        (state.pkts (state.semOf cfg piece.conn) - 1)).setTxThread
        (.piece piece .check)
  | .piece piece .check =>
    if (state.conns piece.conn).state ≠ .connected then
      state.setTxThread (.piece piece .fail)
    else state.setTxThread (.piece piece .append)
  | .piece piece .append => state.appendPending piece
  | .piece piece (.send saved) =>
    if accepted then state.sent piece
    else state.setTxThread (.piece piece (.rollback saved))
  | .piece piece (.rollback saved) => state.rollbackPending piece saved
  | .piece piece .fail => state.sendFail cfg piece

/-- One completed packet: the controller is done with it, and a round of the loop
of `hci_num_completed_packets`. -/
def completedPacket (slot : Fin slots) : TxState slots threads :=
  let conn := (state.conns slot).packetDone
  if conn.pendingNoCb ≠ 0 then
    (state.setConn slot (conn.withPending conn.txPending
      (conn.pendingNoCb - 1))).givePkts cfg slot
  else
    match conn.txPending with
    | [] => state.setConn slot conn
    | tx :: rest =>
      ((state.setConn slot
        ((conn.withPending rest (state.connTx tx).pendingNoCb).withComplete
          (conn.txComplete ++ [tx]))).setTx tx
          ⟨(state.connTx tx).cb, 0⟩).givePkts cfg slot

def completedPackets (slot : Fin slots) :
    Nat → TxState slots threads → TxState slots threads
  | 0, state => state
  | count + 1, state => completedPackets slot count (state.completedPacket cfg slot)

/-- `hci_num_completed_packets`; the controller reports packets that it has. -/
def hciNumCompletedPackets :
    List (Fin slots × Nat) → TxState slots threads → TxState slots threads
  | [], state => state
  | (slot, count) :: rest, state =>
    hciNumCompletedPackets rest (completedPackets cfg slot
      (min count (state.conns slot).flight.length) state)

def givePktsTimes (slot : Fin slots) :
    Nat → TxState slots threads → TxState slots threads
  | 0, state => state
  | count + 1, state => givePktsTimes slot count (state.givePkts cfg slot)

def processUnackTx (slot : Fin slots) :
    List Nat → Nat → TxState slots threads → TxState slots threads
  | [], count, state => givePktsTimes cfg slot count state
  | tx :: rest, count, state =>
    processUnackTx slot rest (state.connTx tx).pendingNoCb
      (((givePktsTimes cfg slot count state).txFree tx).givePkts cfg slot)

/-- `hci_disconn_complete_prio`: the controller has dropped the link. -/
def hciDisconnCompletePrio (slot : Fin slots) : TxState slots threads :=
  let conn := state.conns slot
  if conn.linkUp then
    processUnackTx cfg slot conn.txPending conn.pendingNoCb (state.setConn slot
        (((conn.withState .disconnectComplete).withPending [] 0).withFlight []))
  else state

def hciDisconnComplete (slot : Fin slots) : TxState slots threads :=
  if state.notify .rx = .idle ∧ (state.conns slot).state = .disconnectComplete then
    (state.setConn slot ((state.conns slot).withState .disconnected)).setNotify
      .rx (.running slot none)
  else state

def txCompleteWork (slot : Fin slots) : TxState slots threads :=
  if state.notify .work = .idle then
    state.setNotify .work (.running slot none)
  else state

/-- A step of `tx_notify`; after it, the receive thread asks for the cleanup. -/
def txNotify (run : NotifyRun) : TxState slots threads :=
  match state.notify run with
  | .idle => state
  | .running slot (some tx) =>
    ((state.setConn slot
      ((state.conns slot).callBack (state.connTx tx).cb)).txFree tx).setNotify
      run (.running slot none)
  | .running slot none =>
    match (state.conns slot).txComplete with
    | tx :: rest =>
      (state.setConn slot ((state.conns slot).withComplete rest)).setNotify
        run (.running slot (some tx))
    | [] =>
      match run with
      | .rx =>
        (state.setConn slot ((state.conns slot).withCleanup true
          (state.conns slot).deferred)).setNotify .rx .idle
      | .work => state.setNotify .work .idle

def deferredWork (slot : Fin slots) : TxState slots threads :=
  if state.notify .work = .idle ∧ (state.conns slot).deferred ∧
      (state.conns slot).state = .disconnected then
    state.setConn slot (state.conns slot).released
  else state

def connect (slot : Fin slots) (type : BtConnType) : TxState slots threads :=
  if (state.conns slot).inUse ∨ (type = .br ∧ ¬cfg.bredr) then state
  else state.setConn slot (.opened type)

def disconnecting (slot : Fin slots) : TxState slots threads :=
  if (state.conns slot).state = .connected then
    state.setConn slot ((state.conns slot).withState .disconnect)
  else state

def step (state : TxState slots threads) :
    TxInput slots threads → TxState slots threads
  | .connect slot type => state.connect cfg slot type
  | .sendCb thread slot len cb => state.btConnSendCb thread slot len cb
  | .alloc thread wait => state.connTxAlloc thread wait
  | .fill thread => state.fillTx thread
  | .put thread => state.putBuf thread
  | .processTx slot => state.btConnProcessTx slot
  | .txThread accepted => state.txThreadStep cfg accepted
  | .completedPackets reports => hciNumCompletedPackets cfg reports state
  | .disconnecting slot => state.disconnecting slot
  | .disconnComplete slot => state.hciDisconnCompletePrio cfg slot
  | .disconnected slot => state.hciDisconnComplete slot
  | .txCompleteWork slot => state.txCompleteWork slot
  | .notify run => state.txNotify run
  | .deferredWork slot => state.deferredWork slot

end TxState

def connTxMachine (cfg : ConnTxConfig) (slots threads : Nat) :
    Machine (TxState slots threads) (TxInput slots threads) Unit where
  step state input := (TxState.step cfg state input, [])

end ZephyrBluetooth.Host
