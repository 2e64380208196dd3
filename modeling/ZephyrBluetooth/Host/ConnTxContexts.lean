import Mathlib.Tactic.DeriveFintype
import ZephyrBluetooth.Data.Ledger
import ZephyrBluetooth.Host.ConnTx

namespace ZephyrBluetooth.Host

open Data List Option Osal

/-! Where the transmit contexts are: every step moves them between the free list,
the lists of the connections and the functions that hold them. -/

instance : Fintype NotifyRun :=
  ⟨{.rx, .work}, by intro run; cases run <;> decide⟩

inductive TxPlace (slots threads : Nat) where
  | free
  | queue (conn : Fin slots)
  | pending (conn : Fin slots)
  | complete (conn : Fin slots)
  | caller (thread : Fin threads)
  | txThread
  | notify (run : NotifyRun)
  deriving DecidableEq, Fintype

variable {slots threads : Nat} {cfg : ConnTxConfig}

def SendCbAt.hand : SendCbAt slots → List Nat
  | .fill _ _ _ tx => [tx]
  | .put _ buf => buf.tx.toList
  | _ => []

/-- The context of the piece is not in `tx_pending`. -/
def SendFragAt.owns : SendFragAt → Bool
  | .send _ => false
  | .rollback _ => false
  | _ => true

def TxPiece.restTx (piece : TxPiece slots) : List Nat :=
  (piece.rest.bind TxBuf.tx).toList

def TxThreadAt.hand : TxThreadAt slots → List Nat
  | .idle => []
  | .packet _ buf => buf.tx.toList
  | .piece call point => (if point.owns then call.tx.toList else []) ++ call.restTx

def TxNotifyAt.hand : TxNotifyAt slots → List Nat
  | .running _ (some tx) => [tx]
  | _ => []

namespace BtConn

def queued (conn : BtConn) : List Nat :=
  conn.txQueue.items.filterMap TxBuf.tx

def owned (conn : BtConn) (tx : Nat) : Nat :=
  conn.queued.count tx + conn.txPending.count tx + conn.txComplete.count tx

variable (conn : BtConn) (tx : Nat)

theorem owned_withQueue (queue : KQueue TxBuf) :
    (conn.withQueue queue).owned tx = (queue.items.filterMap TxBuf.tx).count tx +
      conn.txPending.count tx + conn.txComplete.count tx := rfl

theorem owned_withPending (pending : List Nat) (count : Nat) :
    (conn.withPending pending count).owned tx = conn.queued.count tx +
      pending.count tx + conn.txComplete.count tx := rfl

theorem owned_withComplete (complete : List Nat) :
    (conn.withComplete complete).owned tx = conn.queued.count tx +
      conn.txPending.count tx + complete.count tx := rfl

theorem owned_withFlight (flight : List (Option Nat)) :
    (conn.withFlight flight).owned tx = conn.owned tx := rfl

theorem owned_withCleanup (cleanup deferred : Bool) :
    (conn.withCleanup cleanup deferred).owned tx = conn.owned tx := rfl

end BtConn

namespace TxState

variable {state : TxState slots threads}

def held (state : TxState slots threads) : TxPlace slots threads → List Nat
  | .free => state.freeTx
  | .queue slot => (state.conns slot).queued
  | .pending slot => (state.conns slot).txPending
  | .complete slot => (state.conns slot).txComplete
  | .caller thread => (state.callers thread).hand
  | .txThread => state.txThread.hand
  | .notify run => (state.notify run).hand

def count (state : TxState slots threads) (tx : Nat) : Nat :=
  total fun place => (state.held place).count tx

theorem count_congr {other : TxState slots threads} {tx : Nat}
    (same : ∀ place, other.held place = state.held place) :
    other.count tx = state.count tx :=
  total_congr fun place => by rw [same place]

theorem count_setConn (slot : Fin slots) (conn : BtConn) (tx : Nat) :
    (state.setConn slot conn).count tx + (state.conns slot).owned tx =
      state.count tx + conn.owned tx := by
  have touched := total_touched (fun place => (state.held place).count tx)
    (fun place => ((state.setConn slot conn).held place).count tx)
    {TxPlace.queue slot, .pending slot, .complete slot}
    (by
      intro place elsewhere
      simp only [Finset.mem_insert, Finset.mem_singleton, not_or] at elsewhere
      cases place <;> simp_all [held, setConn])
  simpa [held, setConn, count, BtConn.owned, add_assoc] using touched

theorem count_setCaller (thread : Fin threads) (caller : SendCbAt slots)
    (tx : Nat) : (state.setCaller thread caller).count tx +
        (state.callers thread).hand.count tx =
      state.count tx + caller.hand.count tx := by
  have changed := total_changed
    (fun place => (state.held place).count tx)
    (fun place => ((state.setCaller thread caller).held place).count tx) (.caller thread)
    (by
      intro place elsewhere
      cases place <;> simp_all [held, setCaller])
  simpa [held, setCaller, count] using changed

theorem count_setNotify (run : NotifyRun) (now : TxNotifyAt slots) (tx : Nat) :
    (state.setNotify run now).count tx + (state.notify run).hand.count tx =
      state.count tx + now.hand.count tx := by
  have changed := total_changed
    (fun place => (state.held place).count tx)
    (fun place => ((state.setNotify run now).held place).count tx) (.notify run)
    (by
      intro place elsewhere
      cases place <;> simp_all [held, setNotify])
  simpa [held, setNotify, count] using changed

theorem count_txThread (now : TxThreadAt slots) (tx : Nat) :
    (state.setTxThread now).count tx + state.txThread.hand.count tx =
      state.count tx + now.hand.count tx := by
  have changed := total_changed
    (fun place => (state.held place).count tx)
    (fun place => ((state.setTxThread now).held place).count tx) .txThread
    (by
      intro place elsewhere
      cases place <;> simp_all [held, setTxThread])
  simpa [held, setTxThread, count] using changed

theorem count_setConn_txThread (slot : Fin slots) (conn : BtConn)
    (now : TxThreadAt slots) (tx : Nat) :
    ((state.setConn slot conn).setTxThread now).count tx + (state.conns slot).owned tx +
        state.txThread.hand.count tx =
      state.count tx + conn.owned tx + now.hand.count tx := by
  have set := @count_setConn _ _ state slot conn tx
  have moved := @count_txThread _ _ (state.setConn slot conn) now tx
  have kept : (state.setConn slot conn).txThread.hand.count tx =
      state.txThread.hand.count tx := rfl
  omega

theorem count_freeTx (free : List Nat) (tx : Nat) :
    (state.setFreeTx free).count tx + state.freeTx.count tx =
      state.count tx + free.count tx := by
  have changed := total_changed
    (fun place => (state.held place).count tx)
    (fun place => ((state.setFreeTx free).held place).count tx) .free
    (by
      intro place elsewhere
      cases place <;> simp_all [held, setFreeTx])
  simpa [held, setFreeTx, count] using changed

theorem count_setTx (index : Nat) (context : BtConnTx) (tx : Nat) :
    (state.setTx index context).count tx = state.count tx :=
  count_congr fun place => by cases place <;> rfl

theorem count_givePkts (slot : Fin slots) (tx : Nat) :
    (state.givePkts cfg slot).count tx = state.count tx :=
  count_congr fun place => by cases place <;> rfl

theorem count_givePktsTimes (slot : Fin slots) (times tx : Nat) :
    (givePktsTimes cfg slot times state).count tx = state.count tx := by
  induction times generalizing state with
  | zero => rfl
  | succ times ih =>
    unfold givePktsTimes
    rw [ih, count_givePkts]

theorem count_txFree (freed tx : Nat) :
    (state.txFree freed).count tx = state.count tx + [freed].count tx := by
  have listed := @count_freeTx _ _ (state.setTx freed ⟨none, 0⟩)
    (state.freeTx ++ [freed]) tx
  have same : (state.setTx freed ⟨none, 0⟩).freeTx = state.freeTx := rfl
  rw [count_setTx, same, count_append] at listed
  unfold txFree
  omega

theorem count_txFreeAll (freed : List Nat) (tx : Nat) :
    (txFreeAll freed state).count tx = state.count tx + freed.count tx := by
  induction freed generalizing state with
  | nil => rfl
  | cons first rest ih =>
    unfold txFreeAll
    rw [ih, count_txFree, ← singleton_append (l := rest), count_append]
    omega

def lost (cfg : ConnTxConfig) (state : TxState slots threads) :
    TxInput slots threads → List Nat
  | .connect slot type =>
    if (state.conns slot).inUse ∨ (type = .br ∧ ¬cfg.bredr) then []
    else (state.conns slot).queued ++ (state.conns slot).txPending ++
      (state.conns slot).txComplete
  | .txThread _ =>
    match state.txThread with
    | .packet slot buf =>
      if cfg.connMtu (state.conns slot).type < buf.len ∧
          (state.conns slot).state ≠ .connected then
        buf.tx.toList
      else []
    | .piece piece .fail => piece.restTx
    | _ => []
  | _ => []

def Moves (before after : TxState slots threads) (dropped : List Nat) : Prop :=
  ∀ tx, after.count tx + dropped.count tx = before.count tx

theorem Moves.refl : Moves state state [] :=
  fun _ => rfl

theorem Moves.trans {between after : TxState slots threads}
    (first : Moves state between []) (second : Moves between after []) :
    Moves state after [] := by
  intro tx
  have before := first tx
  have next := second tx
  rw [count_nil] at before next ⊢
  omega

section

variable (thread : Fin threads)
include thread

theorem moves_btConnSendCb (slot : Fin slots) (len : Nat)
    (cb : Option Nat) : Moves state (state.btConnSendCb thread slot len cb) [] := by
  intro tx
  unfold btConnSendCb
  by_cases busy : state.callers thread ≠ .idle
  · rw [if_pos busy]
    rfl
  rw [if_neg busy]
  have idle : state.callers thread = .idle := not_not.mp busy
  split
  · rfl
  have none : (state.callers thread).hand = [] := by rw [idle]; rfl
  cases cb with
  | some cb =>
    have set := @count_setCaller _ _ state thread (.alloc slot len cb) tx
    rw [none] at set
    exact set
  | none =>
    have set := @count_setCaller _ _ state thread (.put slot ⟨len, .none⟩) tx
    rw [none] at set
    exact set

theorem moves_connTxAlloc (wait : Bool) :
    Moves state (state.connTxAlloc thread wait) [] := by
  intro tx
  unfold connTxAlloc
  cases caller : state.callers thread with
  | alloc slot len cb =>
    cases free : state.freeTx with
    | nil =>
      simp only
      split
      · rfl
      have set := @count_setCaller _ _ state thread .idle tx
      rw [caller] at set
      exact set
    | cons first rest =>
      have listed := @count_freeTx _ _
        (state.setCaller thread (.fill slot len cb first)) rest tx
      have set := @count_setCaller _ _ state thread (.fill slot len cb first) tx
      have same : (state.setCaller thread
          (.fill slot len cb first)).freeTx = first :: rest := free
      rw [same] at listed
      rw [caller] at set
      simp only [SendCbAt.hand, count_nil, count_cons] at listed set ⊢
      omega
  | _ => rfl

theorem moves_fillTx : Moves state (state.fillTx thread) [] := by
  intro tx
  unfold fillTx
  cases caller : state.callers thread with
  | fill slot len cb own =>
    simp only
    split
    · have set := @count_setCaller _ _ (state.txFree own) thread .idle tx
      have same : (state.txFree own).callers thread = .fill slot len cb own := caller
      rw [same, count_txFree] at set
      simp only [SendCbAt.hand, count_nil] at set ⊢
      omega
    · have set := @count_setCaller _ _ (state.setTx own ⟨some cb, 0⟩) thread
        (.put slot ⟨len, some own⟩) tx
      have same : (state.setTx own ⟨some cb, 0⟩).callers thread =
          .fill slot len cb own := caller
      rw [same, count_setTx] at set
      exact add_right_cancel set
  | _ => rfl

theorem moves_putBuf : Moves state (state.putBuf thread) [] := by
  intro tx
  unfold putBuf
  cases caller : state.callers thread with
  | put slot buf =>
    have set := @count_setCaller _ _ (state.setConn slot
      ((state.conns slot).withQueue ((state.conns slot).txQueue.append buf)))
      thread .idle tx
    have same : (state.setConn slot ((state.conns slot).withQueue
        ((state.conns slot).txQueue.append buf))).callers thread =
          .put slot buf := caller
    have placed := @count_setConn _ _ state slot
      ((state.conns slot).withQueue ((state.conns slot).txQueue.append buf)) tx
    have last : ([buf].filterMap TxBuf.tx).count tx = buf.tx.toList.count tx := by
      cases tag : buf.tx <;> simp [tag]
    rw [same] at set
    rw [BtConn.owned_withQueue, KQueue.append_items, filterMap_append, count_append,
      last] at placed
    simp only [SendCbAt.hand, BtConn.owned, BtConn.queued, count_nil] at set placed ⊢
    omega
  | _ => rfl

end

theorem moves_connCleanup (slot : Fin slots) :
    Moves state (state.connCleanup slot) [] := by
  intro tx
  unfold connCleanup
  have set := @count_setConn _ _ state slot (((state.conns slot).withQueue
    (state.conns slot).txQueue.drain.1).withCleanup false true) tx
  rw [BtConn.owned_withCleanup, BtConn.owned_withQueue] at set
  rw [count_txFreeAll]
  simp only [BtConn.owned, BtConn.queued, ← KQueue.drain_items (state.conns slot).txQueue,
    filterMap_append, count_append, count_nil] at set ⊢
  omega

theorem moves_btConnProcessTx (slot : Fin slots) :
    Moves state (state.btConnProcessTx slot) [] := by
  unfold btConnProcessTx
  split
  · exact .refl
  rename_i ready
  have idle : state.txThread = .idle := by
    by_contra busy
    exact ready (.inl busy)
  split
  · exact moves_connCleanup slot
  split
  · rename_i rest buf queue
    intro tx
    have moved := @count_setConn_txThread _ _ state slot
      ((state.conns slot).withQueue rest) (.packet slot buf) tx
    have first : (state.conns slot).queued.count tx =
        buf.tx.toList.count tx + (rest.items.filterMap TxBuf.tx).count tx := by
      unfold BtConn.queued
      rw [KQueue.get_items queue]
      cases tag : buf.tx with
      | none => simp [tag]
      | some => simp [tag, count_cons, add_comm]
    rw [idle, BtConn.owned_withQueue] at moved
    simp only [BtConn.owned, first, TxThreadAt.hand, count_nil] at moved ⊢
    omega
  · exact .refl

theorem moves_sendBuf (slot : Fin slots) (buf : TxBuf)
    (here : state.txThread = .packet slot buf) (accepted : Bool) :
    Moves state (state.sendBuf cfg slot buf)
      (state.lost cfg (.txThread accepted)) := by
  intro tx
  have hand : state.txThread.hand = buf.tx.toList := by rw [here]; rfl
  unfold sendBuf lost
  rw [here]
  simp only
  split
  · rename_i fits
    rw [if_neg (by omega)]
    have set := @count_txThread _ _ state (.piece ⟨slot, buf.tx, none⟩ .take) tx
    rw [hand] at set
    simp only [TxThreadAt.hand, SendFragAt.owns, TxPiece.restTx, if_true,
      bind_none, toList_none, append_nil,
      count_nil] at set ⊢
    omega
  · rename_i larger
    split
    · rename_i gone
      rw [if_pos ⟨by omega, gone⟩]
      have set := @count_txThread _ _ state .idle tx
      rw [hand] at set
      exact set
    · rename_i stays
      rw [if_neg fun both => stays both.2]
      have set := @count_txThread _ _ state (.piece ⟨slot, none,
        some ⟨buf.len - cfg.fragLen (state.conns slot).type, buf.tx⟩⟩ .take) tx
      rw [hand] at set
      exact add_right_cancel set

theorem moves_appendPending (piece : TxPiece slots)
    (here : state.txThread = .piece piece .append) :
    Moves state (state.appendPending piece) [] := by
  intro tx
  have hand : state.txThread.hand = piece.tx.toList ++ piece.restTx := by
    rw [here]
    rfl
  unfold appendPending
  cases own : piece.tx with
  | some index =>
    have moved := @count_setConn_txThread _ _ state piece.conn
      ((state.conns piece.conn).withPending
        ((state.conns piece.conn).txPending ++ [index])
        (state.conns piece.conn).pendingNoCb) (.piece piece (.send none)) tx
    rw [hand, own, BtConn.owned_withPending] at moved
    simp only [TxThreadAt.hand, SendFragAt.owns, BtConn.owned,
      count_append, toList_some, Bool.false_eq_true, if_false,
      count_nil] at moved ⊢
    omega
  | none =>
    have rest : ∀ saved, (TxThreadAt.piece piece (.send saved)).hand =
        state.txThread.hand := by
      intro saved
      rw [hand, own]
      rfl
    cases last : (state.conns piece.conn).txPending.getLast? with
    | some index =>
      have moved := @count_txThread _ _ (state.setTx index
        ⟨(state.connTx index).cb, ((state.connTx index).pendingNoCb + 1) % 2 ^ 32⟩)
        (.piece piece (.send (some index))) tx
      rw [rest, count_setTx] at moved
      simp only [last]
      exact add_right_cancel moved
    | none =>
      have moved := @count_setConn_txThread _ _ state piece.conn
        ((state.conns piece.conn).withPending (state.conns piece.conn).txPending
          (((state.conns piece.conn).pendingNoCb + 1) % 2 ^ 32))
        (.piece piece (.send none)) tx
      rw [rest, BtConn.owned_withPending] at moved
      simp only [BtConn.owned] at moved
      simp only [last, count_nil]
      omega

theorem moves_sent (piece : TxPiece slots) {saved : Option Nat}
    (here : state.txThread = .piece piece (.send saved)) :
    Moves state (state.sent piece) [] := by
  intro tx
  have hand : state.txThread.hand = piece.restTx := by rw [here]; rfl
  have next : (afterPiece piece).hand = piece.restTx := by
    unfold afterPiece TxPiece.restTx
    cases piece.rest <;> rfl
  have moved := @count_setConn_txThread _ _ state piece.conn
    ((state.conns piece.conn).withFlight (if (state.conns piece.conn).linkUp
        then (state.conns piece.conn).flight ++ [state.label piece]
        else (state.conns piece.conn).flight)) (afterPiece piece) tx
  rw [next, hand, BtConn.owned_withFlight] at moved
  unfold sent
  simp only [count_nil]
  omega

theorem moves_rollbackPending (piece : TxPiece slots) {saved : Option Nat}
    (here : state.txThread = .piece piece (.rollback saved))
    (listed : ∀ tx, piece.tx = some tx → tx ∈ (state.conns piece.conn).txPending) :
    Moves state (state.rollbackPending piece saved) [] := by
  intro tx
  have hand : state.txThread.hand = piece.restTx := by rw [here]; rfl
  have next : (TxThreadAt.piece piece .fail).hand =
      piece.tx.toList ++ piece.restTx := rfl
  unfold rollbackPending
  cases own : piece.tx with
  | some index =>
    have moved := @count_setConn_txThread _ _ state piece.conn
      ((state.conns piece.conn).withPending
        ((state.conns piece.conn).txPending.erase index)
        (state.conns piece.conn).pendingNoCb) (.piece piece .fail) tx
    have present := count_pos_iff.mpr (listed index own)
    rw [next, hand, own, count_append, BtConn.owned_withPending] at moved
    simp only [BtConn.owned, count_erase, toList_some] at moved
    simp only [count_nil]
    by_cases same : index = tx
    · subst same
      simp only [beq_self_eq_true, if_true, count_singleton_self] at moved
      omega
    · simp only [beq_iff_eq, same, if_false, count_singleton] at moved
      omega
  | none =>
    rw [own] at next
    cases saved with
    | some index =>
      have moved := @count_txThread _ _ (state.setTx index
        ⟨(state.connTx index).cb, minusOne (state.connTx index).pendingNoCb⟩)
        (.piece piece .fail) tx
      have old : (state.setTx index ⟨(state.connTx index).cb,
          minusOne (state.connTx index).pendingNoCb⟩).txThread.hand =
            piece.restTx := hand
      rw [next, old, count_setTx] at moved
      exact add_right_cancel moved
    | none =>
      have moved := @count_setConn_txThread _ _ state piece.conn
        ((state.conns piece.conn).withPending (state.conns piece.conn).txPending
          (minusOne (state.conns piece.conn).pendingNoCb))
        (.piece piece .fail) tx
      rw [next, hand, BtConn.owned_withPending] at moved
      simp only [BtConn.owned, toList_none, nil_append] at moved
      simp only [count_nil]
      omega

@[simp] theorem txFreeAll_txThread (freed : List Nat) :
    (txFreeAll freed state).txThread = state.txThread := by
  induction freed generalizing state with
  | nil => rfl
  | cons first rest ih =>
    unfold txFreeAll
    rw [ih]
    rfl

theorem moves_sendFail (piece : TxPiece slots)
    (here : state.txThread = .piece piece .fail) :
    Moves state (state.sendFail cfg piece) piece.restTx := by
  intro tx
  have kept : (state.givePkts cfg piece.conn).txThread = .piece piece .fail := here
  have moved := @count_txThread _ _
    (txFreeAll piece.tx.toList (state.givePkts cfg piece.conn)) .idle tx
  rw [txFreeAll_txThread, count_txFreeAll, count_givePkts, kept] at moved
  simp only [TxThreadAt.hand, SendFragAt.owns, if_true, count_append,
    count_nil] at moved
  unfold sendFail
  omega

theorem moves_completedPacket (slot : Fin slots) :
    Moves state (state.completedPacket cfg slot) [] := by
  intro tx
  unfold completedPacket
  simp only
  split
  · have set := @count_setConn _ _ state slot
      ((state.conns slot).packetDone.withPending
        (state.conns slot).packetDone.txPending
        ((state.conns slot).packetDone.pendingNoCb - 1)) tx
    rw [BtConn.owned_withPending] at set
    rw [count_givePkts]
    exact add_right_cancel set
  · cases pending : (state.conns slot).packetDone.txPending with
    | nil =>
      have set := @count_setConn _ _ state slot (state.conns slot).packetDone tx
      exact add_right_cancel set
    | cons first rest =>
      have set := @count_setConn _ _ state slot
        (((state.conns slot).packetDone.withPending rest
          (state.connTx first).pendingNoCb).withComplete
            ((state.conns slot).packetDone.txComplete ++ [first])) tx
      have own : (state.conns slot).owned tx =
          (state.conns slot).queued.count tx + (first :: rest).count tx +
            (state.conns slot).txComplete.count tx := by
        rw [← pending]
        rfl
      rw [BtConn.owned_withComplete, own, count_append,
        ← singleton_append (l := rest), count_append] at set
      simp only [count_givePkts, count_setTx, count_nil]
      have queue : ((state.conns slot).packetDone.withPending rest
          (state.connTx first).pendingNoCb).queued = (state.conns slot).queued := rfl
      have list : ((state.conns slot).packetDone.withPending rest
          (state.connTx first).pendingNoCb).txPending = rest := rfl
      have complete : (state.conns slot).packetDone.txComplete =
          (state.conns slot).txComplete := rfl
      rw [queue, list, complete] at set
      rw [complete]
      omega

theorem moves_completedPackets (slot : Fin slots) (count : Nat) :
    Moves state (completedPackets cfg slot count state) [] := by
  induction count generalizing state with
  | zero => exact .refl
  | succ count ih => exact (moves_completedPacket slot).trans ih

theorem moves_hciNumCompletedPackets (reports : List (Fin slots × Nat)) :
    Moves state (hciNumCompletedPackets cfg reports state) [] := by
  induction reports generalizing state with
  | nil => exact .refl
  | cons report rest ih => exact (moves_completedPackets report.1 _).trans ih

theorem count_processUnackTx (slot : Fin slots) (pending : List Nat)
    (count tx : Nat) : (processUnackTx cfg slot pending count state).count tx =
      state.count tx + pending.count tx := by
  induction pending generalizing state count with
  | nil =>
    unfold processUnackTx
    rw [count_givePktsTimes]
    rfl
  | cons first rest ih =>
    unfold processUnackTx
    rw [ih, count_givePkts, count_txFree, count_givePktsTimes,
      ← singleton_append (l := rest), count_append]
    omega

theorem moves_hciDisconnCompletePrio (slot : Fin slots) :
    Moves state (state.hciDisconnCompletePrio cfg slot) [] := by
  unfold hciDisconnCompletePrio
  simp only
  split
  · intro tx
    have set := @count_setConn _ _ state slot
      ((((state.conns slot).withState .disconnectComplete).withPending []
        0).withFlight []) tx
    rw [BtConn.owned_withFlight, BtConn.owned_withPending] at set
    rw [count_processUnackTx]
    have queue : ((state.conns slot).withState .disconnectComplete).queued =
        (state.conns slot).queued := rfl
    have complete : ((state.conns slot).withState
        .disconnectComplete).txComplete = (state.conns slot).txComplete := rfl
    rw [queue, complete] at set
    simp only [BtConn.owned, count_nil] at set ⊢
    omega
  · exact .refl

theorem moves_setConn {slot : Fin slots} {conn : BtConn}
    (same : ∀ tx, conn.owned tx = (state.conns slot).owned tx) :
    Moves state (state.setConn slot conn) [] := by
  intro tx
  have set := @count_setConn _ _ state slot conn tx
  rw [same tx] at set
  exact add_right_cancel set

theorem moves_setNotify {run : NotifyRun} {now : TxNotifyAt slots}
    (same : now.hand = (state.notify run).hand) :
    Moves state (state.setNotify run now) [] := by
  intro tx
  have set := @count_setNotify _ _ state run now tx
  rw [same] at set
  exact add_right_cancel set

theorem moves_hciDisconnComplete (slot : Fin slots) :
    Moves state (state.hciDisconnComplete slot) [] := by
  unfold hciDisconnComplete
  split
  · rename_i ready
    have set : Moves state (state.setConn slot
        ((state.conns slot).withState .disconnected)) [] :=
      moves_setConn fun _ => rfl
    refine set.trans (moves_setNotify ?_)
    rw [show (state.setConn slot ((state.conns slot).withState
      .disconnected)).notify .rx = state.notify .rx from rfl, ready.1]
    rfl
  · exact .refl

theorem moves_txCompleteWork (slot : Fin slots) :
    Moves state (state.txCompleteWork slot) [] := by
  unfold txCompleteWork
  split
  · rename_i idle
    apply moves_setNotify
    rw [idle]
    rfl
  · exact .refl

theorem moves_txNotify (run : NotifyRun) :
    Moves state (state.txNotify run) [] := by
  unfold txNotify
  cases running : state.notify run with
  | idle => exact .refl
  | running slot holds =>
    cases holds with
    | some own =>
      intro tx
      have called : Moves state (state.setConn slot
          ((state.conns slot).callBack (state.connTx own).cb)) [] :=
        moves_setConn fun _ => rfl
      have kept : (state.setConn slot ((state.conns slot).callBack
          (state.connTx own).cb)).count tx = state.count tx := called tx
      have set := @count_setNotify _ _ ((state.setConn slot
        ((state.conns slot).callBack (state.connTx own).cb)).txFree own) run
        (.running slot none) tx
      have same : ((state.setConn slot ((state.conns slot).callBack
          (state.connTx own).cb)).txFree own).notify run =
            .running slot (some own) := running
      rw [same, count_txFree, kept] at set
      exact add_right_cancel set
    | none =>
      cases complete : (state.conns slot).txComplete with
      | cons first rest =>
        intro tx
        have set := @count_setNotify _ _ (state.setConn slot
          ((state.conns slot).withComplete rest)) run
          (.running slot (some first)) tx
        have same : (state.setConn slot ((state.conns slot).withComplete
            rest)).notify run = .running slot none := running
        have taken := @count_setConn _ _ state slot
          ((state.conns slot).withComplete rest) tx
        have split : (first :: rest).count tx =
            [first].count tx + rest.count tx := by
          rw [← count_append]
          rfl
        have own : (state.conns slot).owned tx =
            (state.conns slot).queued.count tx +
              (state.conns slot).txPending.count tx +
                ([first].count tx + rest.count tx) := by
          rw [← split, ← complete]
          rfl
        rw [BtConn.owned_withComplete, own] at taken
        rw [same] at set
        simp only [TxNotifyAt.hand, count_nil, complete] at set ⊢
        omega
      | nil =>
        have quiet : ∀ now : TxState slots threads,
            now.notify run = .running slot none →
              Moves now (now.setNotify run .idle) [] := by
          intro now same
          apply moves_setNotify
          rw [same]
          rfl
        cases run with
        | work =>
          simp only [complete]
          exact quiet state running
        | rx =>
          simp only [complete]
          have set : Moves state (state.setConn slot
              ((state.conns slot).withCleanup true
                (state.conns slot).deferred)) [] :=
            moves_setConn fun _ => rfl
          exact set.trans (quiet _ running)

theorem moves_deferredWork (slot : Fin slots) :
    Moves state (state.deferredWork slot) [] := by
  unfold deferredWork
  split
  · exact moves_setConn fun _ => rfl
  · exact .refl

theorem moves_disconnecting (slot : Fin slots) :
    Moves state (state.disconnecting slot) [] := by
  unfold disconnecting
  split
  · exact moves_setConn fun _ => rfl
  · exact .refl

theorem moves_connect (slot : Fin slots) (type : BtConnType) :
    Moves state (state.connect cfg slot type)
      (state.lost cfg (.connect slot type)) := by
  unfold connect
  by_cases kept : (state.conns slot).inUse ∨ (type = .br ∧ ¬cfg.bredr)
  · have none : state.lost cfg (.connect slot type) = [] := if_pos kept
    rw [if_pos kept, none]
    exact .refl
  · have all : state.lost cfg (.connect slot type) =
        (state.conns slot).queued ++ (state.conns slot).txPending ++
          (state.conns slot).txComplete := if_neg kept
    rw [if_neg kept, all]
    intro tx
    have set := @count_setConn _ _ state slot (.opened type) tx
    have none : (BtConn.opened type).owned tx = 0 := rfl
    rw [none, BtConn.owned] at set
    rw [count_append, count_append]
    omega

def TakesBack (state : TxState slots threads) : TxInput slots threads → Prop
  | .txThread _ =>
    match state.txThread with
    | .piece piece (.rollback _) => ∀ tx, piece.tx = some tx →
        tx ∈ (state.conns piece.conn).txPending
    | _ => True
  | _ => True

theorem moves_txThreadStep (accepted : Bool)
    (back : state.TakesBack (.txThread accepted)) :
    Moves state (state.txThreadStep cfg accepted)
      (state.lost cfg (.txThread accepted)) := by
  unfold txThreadStep
  cases here : state.txThread with
  | idle =>
    simp only [lost, here]
    exact .refl
  | packet slot buf => exact moves_sendBuf slot buf here accepted
  | piece piece point =>
    have stays : ∀ now : SendFragAt, now.owns = point.owns →
        ∀ between : TxState slots threads, between.count = state.count →
        between.txThread = state.txThread →
        Moves state (between.setTxThread (.piece piece now)) [] := by
      intro now same between counts thread tx
      have moved := @count_txThread _ _ between (.piece piece now) tx
      rw [thread, here, counts] at moved
      simp only [TxThreadAt.hand, same] at moved
      exact add_right_cancel moved
    cases point with
    | take =>
      simp only [lost, here]
      split
      · exact .refl
      · exact stays .check rfl _ (funext fun _ => count_congr fun place => by
          cases place <;> rfl) rfl
    | check =>
      simp only [lost, here]
      split
      · exact stays .fail rfl _ rfl rfl
      · exact stays .append rfl _ rfl rfl
    | append =>
      simp only [lost, here]
      exact moves_appendPending piece here
    | send saved =>
      simp only [lost, here]
      split
      · exact moves_sent piece here
      · exact stays (.rollback saved) rfl _ rfl rfl
    | rollback =>
      simp only [TakesBack, here] at back
      simp only [lost, here]
      exact moves_rollbackPending piece here back
    | fail =>
      simp only [lost, here]
      exact moves_sendFail piece here

theorem moves_step (input : TxInput slots threads) (back : state.TakesBack input) :
    Moves state (step cfg state input) (state.lost cfg input) := by
  cases input with
  | connect slot type => exact moves_connect slot type
  | sendCb thread slot len cb => exact moves_btConnSendCb thread slot len cb
  | alloc thread wait => exact moves_connTxAlloc thread wait
  | fill thread => exact moves_fillTx thread
  | put thread => exact moves_putBuf thread
  | processTx slot => exact moves_btConnProcessTx slot
  | txThread accepted => exact moves_txThreadStep accepted back
  | completedPackets reports => exact moves_hciNumCompletedPackets reports
  | disconnecting slot => exact moves_disconnecting slot
  | disconnComplete slot => exact moves_hciDisconnCompletePrio slot
  | disconnected slot => exact moves_hciDisconnComplete slot
  | txCompleteWork slot => exact moves_txCompleteWork slot
  | notify run => exact moves_txNotify run
  | deferredWork slot => exact moves_deferredWork slot

end TxState

end ZephyrBluetooth.Host
