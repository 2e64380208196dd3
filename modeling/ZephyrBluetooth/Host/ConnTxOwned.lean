import ZephyrBluetooth.Host.ConnTxContexts

namespace ZephyrBluetooth.Host

open Data List Function Osal

/-! Every transmit context is in one place. -/

variable {slots threads : Nat} {cfg : ConnTxConfig}

variable {slot : Fin slots} {input : TxInput slots threads}
  {after : TxState slots threads}

structure BtConn.Tidy (conn : BtConn) (notifying : Prop) : Prop where
  down : conn.linkUp = false → conn.txPending = []
  drained : conn.state = .disconnected → conn.txComplete = [] ∨ notifying
  idle : conn.deferred = true ∨ conn.inUse = false →
    conn.state = .disconnected ∧ conn.cleanup = false ∧ ¬notifying
  waiting : conn.cleanup = true → conn.state = .disconnected ∧ ¬notifying
  gone : notifying → conn.state = .disconnected

variable {conn : BtConn}

namespace TxState

variable {state : TxState slots threads}

/-- `hci_disconn_complete` is in `tx_notify` for the connection. -/
def RxNotifies (state : TxState slots threads) (slot : Fin slots) : Prop :=
  ∃ tx, state.notify .rx = .running slot tx

def CleanedUp (state : TxState slots threads) (slot : Fin slots) : Prop :=
  (state.conns slot).state = .disconnected ∧
    (state.conns slot).cleanup = false ∧ ¬state.RxNotifies slot

def CallerKeeps (state : TxState slots threads) : SendCbAt slots → Prop
  | .put slot buf => buf.tx = none ∨ ¬state.CleanedUp slot
  | _ => True

/-- `conn_cleanup` gets at every buffer with a context: the semaphore of the queue
counts ten. -/
def CleanupKeeps (state : TxState slots threads) (slot : Fin slots) : Prop :=
  (state.conns slot).state = .disconnected → (state.conns slot).cleanup = true →
    (state.conns slot).txQueue.drain.1.items.filterMap TxBuf.tx = []

/-- A context is pending while the link is up, and still there when it is taken
back; a fragment does not fail before a context. -/
def PieceKeeps (state : TxState slots threads) (piece : TxPiece slots) :
    SendFragAt → Prop
  | .append => piece.tx = none ∨ (state.conns piece.conn).linkUp = true
  | .rollback _ => ∀ tx ∈ piece.tx, tx ∈ (state.conns piece.conn).txPending
  | .fail => piece.rest.bind TxBuf.tx = none
  | _ => True

def ThreadKeeps (cfg : ConnTxConfig) (state : TxState slots threads) :
    TxThreadAt slots → Prop
  | .idle => True
  | .packet slot buf => buf.tx = none ∨
      buf.len ≤ cfg.connMtu (state.conns slot).type ∨
      (state.conns slot).state = .connected
  | .piece piece point => state.PieceKeeps piece point

def KeepsContexts (cfg : ConnTxConfig) (state : TxState slots threads) :
    TxInput slots threads → Prop
  | .put thread => state.CallerKeeps (state.callers thread)
  | .processTx slot => state.CleanupKeeps slot
  | .txThread _ => state.ThreadKeeps cfg state.txThread
  | _ => True

def Tidy (state : TxState slots threads) : Prop :=
  ∀ slot, (state.conns slot).Tidy (state.RxNotifies slot)

theorem boot_tidy : (boot cfg : TxState slots threads).Tidy := by
  intro slot
  have quiet : ¬(boot cfg : TxState slots threads).RxNotifies slot :=
    fun ⟨_, running⟩ => nomatch running
  exact ⟨fun _ => rfl, fun _ => .inl rfl, fun _ => ⟨rfl, rfl, quiet⟩,
    fun flag => (nomatch flag), fun running => absurd running quiet⟩

theorem Tidy.congr {other : TxState slots threads} (tidy : state.Tidy)
    (conns : other.conns = state.conns) (notify : other.notify = state.notify) :
    other.Tidy := by
  intro slot
  have same : other.RxNotifies slot = state.RxNotifies slot := by
    unfold RxNotifies
    rw [notify]
  rw [conns, same]
  exact tidy slot

theorem Tidy.set (tidy : state.Tidy) (here : conn.Tidy (state.RxNotifies slot)) :
    (state.setConn slot conn).Tidy := by
  intro other
  unfold setConn
  by_cases same : other = slot
  · subst same
    simp only [update_self]
    exact here
  · simp only [update_of_ne same]
    exact tidy other

@[simp] theorem txFreeAll_conns (freed : List Nat) :
    (txFreeAll freed state).conns = state.conns := by
  induction freed generalizing state with
  | nil => rfl
  | cons first rest ih =>
    unfold txFreeAll
    rw [ih]
    rfl

@[simp] theorem txFreeAll_notify (freed : List Nat) :
    (txFreeAll freed state).notify = state.notify := by
  induction freed generalizing state with
  | nil => rfl
  | cons first rest ih =>
    unfold txFreeAll
    rw [ih]
    rfl

@[simp] theorem givePktsTimes_conns (slot : Fin slots) (times : Nat) :
    (givePktsTimes cfg slot times state).conns = state.conns := by
  induction times generalizing state with
  | zero => rfl
  | succ times ih =>
    unfold givePktsTimes
    rw [ih]
    rfl

@[simp] theorem givePktsTimes_notify (slot : Fin slots) (times : Nat) :
    (givePktsTimes cfg slot times state).notify = state.notify := by
  induction times generalizing state with
  | zero => rfl
  | succ times ih =>
    unfold givePktsTimes
    rw [ih]
    rfl

@[simp] theorem processUnackTx_conns (slot : Fin slots) (pending : List Nat)
    (count : Nat) :
    (processUnackTx cfg slot pending count state).conns = state.conns := by
  induction pending generalizing state count with
  | nil => exact givePktsTimes_conns slot count
  | cons first rest ih =>
    unfold processUnackTx
    rw [ih]
    exact givePktsTimes_conns slot count

@[simp] theorem processUnackTx_notify (slot : Fin slots) (pending : List Nat)
    (count : Nat) :
    (processUnackTx cfg slot pending count state).notify = state.notify := by
  induction pending generalizing state count with
  | nil => exact givePktsTimes_notify slot count
  | cons first rest ih =>
    unfold processUnackTx
    rw [ih]
    exact givePktsTimes_notify slot count

end TxState

namespace BtConn.Tidy

variable {conn : BtConn} {notifying : Prop}

theorem opened {type : BtConnType} (quiet : ¬notifying) :
    (BtConn.opened type).Tidy notifying where
  down := fun _ => rfl
  drained := fun _ => .inl rfl
  idle := fun either => either.elim nofun nofun
  waiting := nofun
  gone := fun running => absurd running quiet

section

variable (tidy : conn.Tidy notifying)
include tidy

theorem busy (here : conn.state ≠ .disconnected) :
    conn.cleanup = false ∧ ¬(conn.deferred = true ∨ conn.inUse = false) ∧
      ¬notifying := by
  refine ⟨?_, ?_, fun running => here (tidy.gone running)⟩
  · cases flag : conn.cleanup with
    | true => exact absurd (tidy.waiting flag).1 here
    | false => rfl
  · intro either
    exact here (tidy.idle either).1

theorem withQueue (queue : KQueue TxBuf) : (conn.withQueue queue).Tidy notifying :=
  ⟨tidy.down, tidy.drained, tidy.idle, tidy.waiting, tidy.gone⟩

theorem withPending {pending : List Nat} {count : Nat}
    (kept : conn.linkUp = false → pending = []) :
    (conn.withPending pending count).Tidy notifying :=
  ⟨kept, tidy.drained, tidy.idle, tidy.waiting, tidy.gone⟩

theorem withFlight (flight : List (Option Nat)) :
    (conn.withFlight flight).Tidy notifying :=
  ⟨tidy.down, tidy.drained, tidy.idle, tidy.waiting, tidy.gone⟩

theorem callBack (cb : Option Nat) : (conn.callBack cb).Tidy notifying :=
  ⟨tidy.down, tidy.drained, tidy.idle, tidy.waiting, tidy.gone⟩

theorem packetDone : conn.packetDone.Tidy notifying :=
  ⟨tidy.down, tidy.drained, tidy.idle, tidy.waiting, tidy.gone⟩

theorem withComplete {complete : List Nat}
    (kept : conn.state = .disconnected → complete = [] ∨ notifying) :
    (conn.withComplete complete).Tidy notifying :=
  ⟨tidy.down, kept, tidy.idle, tidy.waiting, tidy.gone⟩

theorem cleanedUp (left : KQueue TxBuf) (here : conn.state = .disconnected)
    (flag : conn.cleanup = true) :
    ((conn.withQueue left).withCleanup false true).Tidy notifying where
  down := tidy.down
  drained := tidy.drained
  idle := fun _ => ⟨here, rfl, (tidy.waiting flag).2⟩
  waiting := nofun
  gone := tidy.gone

theorem released (flag : conn.deferred = true) : conn.released.Tidy notifying :=
  ⟨tidy.down, tidy.drained, fun _ => tidy.idle (.inl flag), tidy.waiting, tidy.gone⟩

theorem withState {now : BtConnState} (here : conn.state ≠ .disconnected)
    (next : now ≠ .disconnected)
    (kept : (conn.withState now).linkUp = false → conn.txPending = []) :
    (conn.withState now).Tidy notifying := by
  obtain ⟨flag, inUse, quiet⟩ := tidy.busy here
  exact ⟨kept, fun gone => absurd gone next, fun either => absurd either inUse,
    fun set => absurd (flag.symm.trans set) (by decide),
    fun running => absurd running quiet⟩

end

end BtConn.Tidy

namespace TxState

variable {state : TxState slots threads}

section

variable (tidy : state.Tidy)
include tidy

theorem Tidy.putBuf (thread : Fin threads) : (state.putBuf thread).Tidy := by
  unfold TxState.putBuf
  cases caller : state.callers thread with
  | put slot buf =>
    have placed : (state.setConn slot ((state.conns slot).withQueue
        ((state.conns slot).txQueue.append buf))).Tidy :=
      tidy.set ((tidy slot).withQueue _)
    exact placed.congr rfl rfl
  | _ => exact tidy

theorem Tidy.btConnProcessTx (slot : Fin slots) :
    (state.btConnProcessTx slot).Tidy := by
  unfold TxState.btConnProcessTx
  split
  · exact tidy
  split
  · rename_i ended
    have cleaned : (state.setConn slot (((state.conns slot).withQueue
        (state.conns slot).txQueue.drain.1).withCleanup false true)).Tidy :=
      tidy.set ((tidy slot).cleanedUp _ ended.1 ended.2)
    exact cleaned.congr (txFreeAll_conns _) (txFreeAll_notify _)
  split
  · rename_i rest _ _
    have taken : (state.setConn slot ((state.conns slot).withQueue rest)).Tidy :=
      tidy.set ((tidy slot).withQueue _)
    exact taken.congr rfl rfl
  · exact tidy

theorem Tidy.appendPending (piece : TxPiece slots)
    (keeps : piece.tx = none ∨ (state.conns piece.conn).linkUp = true) :
    (state.appendPending piece).Tidy := by
  unfold TxState.appendPending
  cases own : piece.tx with
  | some index =>
    have placed : (state.setConn piece.conn ((state.conns piece.conn).withPending
          ((state.conns piece.conn).txPending ++ [index])
          (state.conns piece.conn).pendingNoCb)).Tidy := by
      refine tidy.set ((tidy piece.conn).withPending ?_)
      intro down
      rcases keeps with none | up
      · rw [own] at none
        cases none
      · rw [up] at down
        cases down
    exact placed.congr rfl rfl
  | none =>
    cases last : (state.conns piece.conn).txPending.getLast? with
    | some =>
      simp only [last]
      exact tidy.congr rfl rfl
    | none =>
      have counted : (state.setConn piece.conn ((state.conns piece.conn).withPending
            (state.conns piece.conn).txPending
            (((state.conns piece.conn).pendingNoCb + 1) % 2 ^ 32))).Tidy :=
        tidy.set ((tidy piece.conn).withPending (tidy piece.conn).down)
      simp only [last]
      exact counted.congr rfl rfl

theorem Tidy.rollbackPending (piece : TxPiece slots)
    (saved : Option Nat) : (state.rollbackPending piece saved).Tidy := by
  unfold TxState.rollbackPending
  cases own : piece.tx with
  | some index =>
    have erased : (state.setConn piece.conn ((state.conns piece.conn).withPending
          ((state.conns piece.conn).txPending.erase index)
          (state.conns piece.conn).pendingNoCb)).Tidy := by
      refine tidy.set ((tidy piece.conn).withPending ?_)
      intro down
      rw [(tidy piece.conn).down down]
      rfl
    exact erased.congr rfl rfl
  | none =>
    cases saved with
    | some => exact tidy.congr rfl rfl
    | none =>
      have counted : (state.setConn piece.conn ((state.conns piece.conn).withPending
            (state.conns piece.conn).txPending
            (minusOne (state.conns piece.conn).pendingNoCb))).Tidy :=
        tidy.set ((tidy piece.conn).withPending (tidy piece.conn).down)
      exact counted.congr rfl rfl

end

def AppendsUp (state : TxState slots threads) : TxInput slots threads → Prop
  | .txThread _ => ∀ piece, state.txThread = .piece piece .append →
      piece.tx = none ∨ (state.conns piece.conn).linkUp = true
  | _ => True

theorem Tidy.txThreadStep (tidy : state.Tidy) {accepted : Bool}
    (appends : state.AppendsUp (.txThread accepted)) :
    (state.txThreadStep cfg accepted).Tidy := by
  unfold TxState.txThreadStep
  cases here : state.txThread with
  | idle => exact tidy
  | packet =>
    simp only [sendBuf]
    split
    · exact tidy.congr rfl rfl
    split
    · exact tidy.congr rfl rfl
    · exact tidy.congr rfl rfl
  | piece piece point =>
    cases point with
    | take =>
      simp only
      split
      · exact tidy
      · exact tidy.congr rfl rfl
    | check =>
      simp only
      split
      · exact tidy.congr rfl rfl
      · exact tidy.congr rfl rfl
    | append => exact tidy.appendPending piece (appends piece here)
    | send =>
      simp only
      split
      · have flown : (state.setConn piece.conn
            ((state.conns piece.conn).withFlight (if (state.conns piece.conn).linkUp
                then (state.conns piece.conn).flight ++ [state.label piece]
                else (state.conns piece.conn).flight))).Tidy :=
          tidy.set ((tidy piece.conn).withFlight _)
        exact flown.congr rfl rfl
      · exact tidy.congr rfl rfl
    | rollback saved => exact tidy.rollbackPending piece saved
    | fail => exact tidy.congr (txFreeAll_conns _) (txFreeAll_notify _)

theorem Tidy.completedPacket (tidy : state.Tidy) (slot : Fin slots) :
    (state.completedPacket cfg slot).Tidy := by
  have done := (tidy slot).packetDone
  unfold TxState.completedPacket
  simp only
  split
  · have counted : (state.setConn slot ((state.conns slot).packetDone.withPending
          (state.conns slot).packetDone.txPending
          ((state.conns slot).packetDone.pendingNoCb - 1))).Tidy :=
      tidy.set (done.withPending done.down)
    exact counted.congr rfl rfl
  · cases pending : (state.conns slot).packetDone.txPending with
    | nil => exact tidy.set done
    | cons first rest =>
      have up : (state.conns slot).packetDone.linkUp ≠ false := by
        intro down
        rw [done.down down] at pending
        cases pending
      have moved : (state.setConn slot
          (((state.conns slot).packetDone.withPending rest
            (state.connTx first).pendingNoCb).withComplete
              ((state.conns slot).packetDone.txComplete ++ [first]))).Tidy := by
        refine tidy.set ((done.withPending fun down =>
          absurd down up).withComplete ?_)
        intro gone
        refine absurd ?_ up
        change (state.conns slot).state = .disconnected at gone
        unfold BtConn.linkUp
        simp [BtConn.packetDone, gone]
      exact moved.congr rfl rfl

theorem Tidy.hciNumCompletedPackets (tidy : state.Tidy)
    (reports : List (Fin slots × Nat)) :
    (hciNumCompletedPackets cfg reports state).Tidy := by
  have packets : ∀ (slot : Fin slots) (count : Nat)
      (now : TxState slots threads), now.Tidy →
        (completedPackets cfg slot count now).Tidy := by
    intro slot count
    induction count with
    | zero => exact fun _ kept => kept
    | succ count ih => exact fun now kept => ih _ (kept.completedPacket slot)
  induction reports generalizing state with
  | nil => exact tidy
  | cons report rest ih => exact ih (packets report.1 _ state tidy)

theorem BtConn.linkUp_connected (up : conn.linkUp = true) :
    conn.state ≠ .disconnected := by
  intro gone
  unfold BtConn.linkUp at up
  simp [gone] at up

section

variable (tidy : state.Tidy)
include tidy

theorem Tidy.hciDisconnCompletePrio (slot : Fin slots) :
    (state.hciDisconnCompletePrio cfg slot).Tidy := by
  unfold TxState.hciDisconnCompletePrio
  simp only
  split
  · rename_i up
    obtain ⟨flag, inUse, quiet⟩ := (tidy slot).busy (BtConn.linkUp_connected up)
    have down : ((((state.conns slot).withState
        .disconnectComplete).withPending [] 0).withFlight []).Tidy
          (state.RxNotifies slot) :=
      ⟨fun _ => rfl, nofun, fun either => absurd either inUse,
        fun set => absurd (flag.symm.trans set) (by decide),
        fun running => absurd running quiet⟩
    exact (tidy.set down).congr (processUnackTx_conns _ _ _)
      (processUnackTx_notify _ _ _)
  · exact tidy

theorem Tidy.hciDisconnComplete (slot : Fin slots) :
    (state.hciDisconnComplete slot).Tidy := by
  unfold TxState.hciDisconnComplete
  split
  · rename_i ready
    obtain ⟨idle, here⟩ := ready
    obtain ⟨flag, inUse, _⟩ := (tidy slot).busy (by rw [here]; decide)
    intro other
    have running : ∀ seen : Fin slots,
        ((state.setConn slot ((state.conns slot).withState
          .disconnected)).setNotify .rx (.running slot none)).RxNotifies seen ↔
            seen = slot := by
      intro seen
      simp [RxNotifies, setNotify, eq_comm]
    by_cases same : other = slot
    · subst same
      simp only [setNotify, setConn, update_self]
      exact ⟨fun _ => (tidy other).down (by simp [BtConn.linkUp, here]),
        fun _ => .inr ((running other).mpr rfl),
        fun either => absurd either inUse,
        fun set => absurd (flag.symm.trans set) (by decide), fun _ => rfl⟩
    · have quiet : ¬state.RxNotifies other := by
        rintro ⟨_, other⟩
        rw [idle] at other
        cases other
      have still := fun seen => same ((running other).mp seen)
      have kept := tidy other
      simp only [setNotify, setConn, update_of_ne same]
      exact ⟨kept.down, fun gone => .inl ((kept.drained gone).resolve_right quiet),
        fun either => ⟨(kept.idle either).1, (kept.idle either).2.1, still⟩,
        fun flag => ⟨(kept.waiting flag).1, still⟩,
        fun seen => absurd seen still⟩
  · exact tidy

theorem Tidy.setWork (now : TxNotifyAt slots) :
    (state.setNotify .work now).Tidy := by
  intro other
  have same : (state.setNotify .work now).RxNotifies other =
      state.RxNotifies other := by
    unfold RxNotifies setNotify
    simp
  rw [same]
  exact tidy other

theorem Tidy.setRx {tx next : Option Nat}
    (here : state.notify .rx = .running slot tx) :
    (state.setNotify .rx (.running slot next)).Tidy := by
  intro other
  have same : (state.setNotify .rx (.running slot next)).RxNotifies other =
      state.RxNotifies other := by
    unfold RxNotifies setNotify
    rw [here]
    simp
  rw [same]
  exact tidy other

theorem Tidy.setNotify {run : NotifyRun} {tx next : Option Nat}
    (here : state.notify run = .running slot tx) :
    (state.setNotify run (.running slot next)).Tidy := by
  cases run with
  | rx => exact tidy.setRx here
  | work => exact tidy.setWork _

theorem Tidy.txNotify (run : NotifyRun) : (state.txNotify run).Tidy := by
  unfold TxState.txNotify
  cases running : state.notify run with
  | idle => exact tidy
  | running slot holds =>
    cases holds with
    | some own =>
      have called : ((state.setConn slot ((state.conns slot).callBack
          (state.connTx own).cb)).txFree own).Tidy :=
        (tidy.set ((tidy slot).callBack _)).congr rfl rfl
      exact called.setNotify running
    | none =>
      cases complete : (state.conns slot).txComplete with
      | cons first rest =>
        have taken : (state.setConn slot
            ((state.conns slot).withComplete rest)).Tidy := by
          refine tidy.set ((tidy slot).withComplete ?_)
          intro gone
          have left := (tidy slot).drained gone
          rw [complete] at left
          exact .inr (left.resolve_left (by simp))
        simp only [complete]
        exact taken.setNotify running
      | nil =>
        cases run with
        | work =>
          simp only [complete]
          exact tidy.setWork .idle
        | rx =>
          simp only [complete]
          intro other
          have quiet : ¬((state.setConn slot ((state.conns slot).withCleanup true
                (state.conns slot).deferred)).setNotify .rx
                  .idle).RxNotifies other := by
            rintro ⟨tx, other⟩
            simp [TxState.setNotify] at other
          by_cases same : other = slot
          · subst same
            have gone := (tidy other).gone ⟨none, running⟩
            simp only [TxState.setNotify, setConn, update_self]
            refine ⟨(tidy other).down, fun _ => .inl complete, fun either => ?_,
              fun _ => ⟨gone, quiet⟩, fun seen => absurd seen quiet⟩
            exact absurd ⟨none, running⟩ ((tidy other).idle either).2.2
          · have before : ¬state.RxNotifies other := by
              rintro ⟨tx, seen⟩
              rw [running] at seen
              cases seen
              exact same rfl
            have kept := tidy other
            simp only [TxState.setNotify, setConn, update_of_ne same]
            exact ⟨kept.down, fun gone => .inl
                ((kept.drained gone).resolve_right before),
              fun either => ⟨(kept.idle either).1, (kept.idle either).2.1, quiet⟩,
              fun flag => ⟨(kept.waiting flag).1, quiet⟩,
              fun seen => absurd seen quiet⟩

theorem Tidy.step (appends : state.AppendsUp input) :
    (TxState.step cfg state input).Tidy := by
  cases input with
  | connect slot type =>
    simp only [TxState.step, connect]
    split
    · exact tidy
    rename_i free
    have unused : (state.conns slot).inUse = false := by
      cases used : (state.conns slot).inUse with
      | true => exact absurd (.inl used) free
      | false => rfl
    exact tidy.set (.opened ((tidy slot).idle (.inr unused)).2.2)
  | sendCb thread slot len cb =>
    simp only [TxState.step, btConnSendCb]
    split
    · exact tidy
    split
    · exact tidy
    · cases cb <;> exact tidy.congr rfl rfl
  | alloc =>
    simp only [TxState.step, connTxAlloc]
    split
    · split
      · exact tidy.congr rfl rfl
      split
      · exact tidy
      · exact tidy.congr rfl rfl
    · exact tidy
  | fill =>
    simp only [TxState.step, fillTx]
    split
    · split
      · exact tidy.congr rfl rfl
      · exact tidy.congr rfl rfl
    · exact tidy
  | put thread => exact tidy.putBuf thread
  | processTx slot => exact tidy.btConnProcessTx slot
  | txThread => exact tidy.txThreadStep appends
  | completedPackets reports => exact tidy.hciNumCompletedPackets reports
  | disconnecting slot =>
    simp only [TxState.step, disconnecting]
    split
    · rename_i here
      exact tidy.set ((tidy slot).withState (by rw [here]; decide) (by decide) nofun)
    · exact tidy
  | disconnComplete slot => exact tidy.hciDisconnCompletePrio slot
  | disconnected slot => exact tidy.hciDisconnComplete slot
  | txCompleteWork =>
    simp only [TxState.step, txCompleteWork]
    split
    · exact tidy.setWork _
    · exact tidy
  | notify run => exact tidy.txNotify run
  | deferredWork slot =>
    simp only [TxState.step, deferredWork]
    split
    · rename_i ready
      exact tidy.set ((tidy slot).released ready.2.1)
    · exact tidy

end

def Closed (state : TxState slots threads) : Prop :=
  ∀ slot, state.CleanedUp slot → (state.conns slot).queued = []

def Unqueued (before after : TxState slots threads) : Prop :=
  ∀ slot, after.CleanedUp slot →
    before.CleanedUp slot ∧ (after.conns slot).queued = (before.conns slot).queued

theorem Closed.of_unqueued (closed : state.Closed) (same : Unqueued state after) :
    after.Closed := by
  intro slot cleaned
  obtain ⟨before, queue⟩ := same slot cleaned
  rw [queue]
  exact closed slot before

theorem Unqueued.congr (conns : after.conns = state.conns)
    (notify : after.notify = state.notify) : Unqueued state after := by
  intro slot cleaned
  unfold CleanedUp RxNotifies at cleaned
  rw [conns, notify] at cleaned
  rw [conns]
  exact ⟨cleaned, rfl⟩

theorem Unqueued.trans {between : TxState slots threads}
    (first : Unqueued state between) (second : Unqueued between after) :
    Unqueued state after := by
  intro slot cleaned
  obtain ⟨before, queue⟩ := second slot cleaned
  obtain ⟨earlier, kept⟩ := first slot before
  exact ⟨earlier, queue.trans kept⟩

theorem Unqueued.set
    (here : conn.state = .disconnected → conn.cleanup = false →
      (state.conns slot).state = .disconnected ∧
        (state.conns slot).cleanup = false ∧
        conn.queued = (state.conns slot).queued) :
    Unqueued state (state.setConn slot conn) := by
  intro other cleaned
  by_cases same : other = slot
  · subst same
    obtain ⟨gone, flag, quiet⟩ := cleaned
    simp only [setConn, update_self] at gone flag ⊢
    obtain ⟨before, unset, queue⟩ := here gone flag
    exact ⟨⟨before, unset, quiet⟩, queue⟩
  · simp only [CleanedUp, setConn, update_of_ne same] at cleaned ⊢
    exact ⟨cleaned, trivial⟩

theorem unqueued_txThreadStep (accepted : Bool) :
    Unqueued state (state.txThreadStep cfg accepted) := by
  have kept : ∀ (slot : Fin slots) (conn : BtConn) (now : TxThreadAt slots),
      conn.state = (state.conns slot).state →
      conn.cleanup = (state.conns slot).cleanup →
      conn.queued = (state.conns slot).queued →
      Unqueued state ((state.setConn slot conn).setTxThread now) := by
    intro slot conn now same flag queue
    have set : Unqueued state (state.setConn slot conn) := by
      apply Unqueued.set
      rw [same, flag]
      exact fun gone unset => ⟨gone, unset, queue⟩
    exact set.trans (.congr rfl rfl)
  unfold txThreadStep
  cases here : state.txThread with
  | idle => exact .congr rfl rfl
  | packet =>
    simp only [sendBuf]
    split
    · exact .congr rfl rfl
    split
    · exact .congr rfl rfl
    · exact .congr rfl rfl
  | piece piece point =>
    cases point with
    | take =>
      simp only
      split
      · exact .congr rfl rfl
      · exact .congr rfl rfl
    | check =>
      simp only
      split
      · exact .congr rfl rfl
      · exact .congr rfl rfl
    | append =>
      simp only [appendPending]
      split
      · exact kept _ _ _ rfl rfl rfl
      split
      · exact .congr rfl rfl
      · exact kept _ _ _ rfl rfl rfl
    | send =>
      simp only
      split
      · exact kept _ _ _ rfl rfl rfl
      · exact .congr rfl rfl
    | rollback =>
      simp only [rollbackPending]
      split
      · exact kept _ _ _ rfl rfl rfl
      · exact .congr rfl rfl
      · exact kept _ _ _ rfl rfl rfl
    | fail => exact .congr (txFreeAll_conns _) (txFreeAll_notify _)

theorem unqueued_hciNumCompletedPackets (reports : List (Fin slots × Nat)) :
    Unqueued state (hciNumCompletedPackets cfg reports state) := by
  have packet : ∀ (slot : Fin slots) (now : TxState slots threads),
      Unqueued now (now.completedPacket cfg slot) := by
    intro slot now
    have kept : ∀ conn : BtConn, conn.state = (now.conns slot).state →
        conn.cleanup = (now.conns slot).cleanup →
        conn.queued = (now.conns slot).queued →
        Unqueued now (now.setConn slot conn) := by
      intro conn same flag queue
      apply Unqueued.set
      rw [same, flag]
      exact fun gone unset => ⟨gone, unset, queue⟩
    unfold completedPacket
    simp only
    split
    · have counted : Unqueued now (now.setConn slot
          ((now.conns slot).packetDone.withPending
            (now.conns slot).packetDone.txPending
            ((now.conns slot).packetDone.pendingNoCb - 1))) := kept _ rfl rfl rfl
      exact counted.trans (.congr rfl rfl)
    · split
      · exact kept _ rfl rfl rfl
      rename_i tx rest pending
      have moved : Unqueued now (now.setConn slot
          (((now.conns slot).packetDone.withPending rest
            (now.connTx tx).pendingNoCb).withComplete
              ((now.conns slot).packetDone.txComplete ++ [tx]))) :=
        kept _ rfl rfl rfl
      exact moved.trans (.congr rfl rfl)
  have packets : ∀ (slot : Fin slots) (count : Nat)
      (now : TxState slots threads),
        Unqueued now (completedPackets cfg slot count now) := by
    intro slot count
    induction count with
    | zero => exact fun _ => .congr rfl rfl
    | succ count ih => exact fun now => (packet slot now).trans (ih _)
  induction reports generalizing state with
  | nil => exact .congr rfl rfl
  | cons report rest ih => exact (packets report.1 _ state).trans ih

theorem unqueued_setNotify {run : NotifyRun} {now : TxNotifyAt slots}
    (kept : run = .rx → ∀ slot, state.RxNotifies slot → ∃ tx,
      now = .running slot tx) : Unqueued state (state.setNotify run now) := by
  intro slot cleaned
  obtain ⟨gone, flag, quiet⟩ := cleaned
  refine ⟨⟨gone, flag, ?_⟩, rfl⟩
  rintro ⟨tx, running⟩
  apply quiet
  cases run with
  | work => exact ⟨tx, running⟩
  | rx =>
    obtain ⟨tx, rfl⟩ := kept rfl slot ⟨tx, running⟩
    exact ⟨tx, by simp [setNotify]⟩

theorem unqueued_txNotify (run : NotifyRun) :
    Unqueued state (state.txNotify run) := by
  unfold txNotify
  cases running : state.notify run with
  | idle => exact .congr rfl rfl
  | running slot holds =>
    have goes : ∀ (between : TxState slots threads) (next : Option Nat),
        between.notify = state.notify →
        Unqueued between (between.setNotify run (.running slot next)) := by
      intro between next same
      apply unqueued_setNotify
      rintro rfl other ⟨tx, seen⟩
      rw [same, running] at seen
      cases seen
      exact ⟨next, rfl⟩
    have kept : ∀ conn : BtConn, conn.state = (state.conns slot).state →
        conn.cleanup = (state.conns slot).cleanup →
        conn.queued = (state.conns slot).queued →
        Unqueued state (state.setConn slot conn) := by
      intro conn same flag queue
      apply Unqueued.set
      rw [same, flag]
      exact fun gone unset => ⟨gone, unset, queue⟩
    cases holds with
    | some own =>
      have called : Unqueued state (state.setConn slot
          ((state.conns slot).callBack (state.connTx own).cb)) :=
        kept _ rfl rfl rfl
      have freed : Unqueued state ((state.setConn slot
          ((state.conns slot).callBack (state.connTx own).cb)).txFree own) :=
        called.trans (.congr rfl rfl)
      exact freed.trans (goes _ none rfl)
    | none =>
      cases complete : (state.conns slot).txComplete with
      | cons first rest =>
        have taken : Unqueued state (state.setConn slot
            ((state.conns slot).withComplete rest)) := kept _ rfl rfl rfl
        simp only [complete]
        exact taken.trans (goes _ (some first) rfl)
      | nil =>
        cases run with
        | work =>
          simp only [complete]
          exact unqueued_setNotify nofun
        | rx =>
          simp only [complete]
          intro other cleaned
          obtain ⟨gone, flag, _⟩ := cleaned
          by_cases same : other = slot
          · subst same
            simp only [setNotify, setConn, update_self] at flag
            cases flag
          · simp only [setNotify, setConn, update_of_ne same] at gone flag ⊢
            refine ⟨⟨gone, flag, ?_⟩, trivial⟩
            rintro ⟨tx, seen⟩
            rw [running] at seen
            cases seen
            exact same rfl

theorem Closed.step (closed : state.Closed) (keeps : state.KeepsContexts cfg input) :
    (TxState.step cfg state input).Closed := by
  cases input with
  | connect =>
    simp only [TxState.step, connect]
    split
    · exact closed
    · exact closed.of_unqueued (.set fun gone => by cases gone)
  | sendCb thread slot len cb =>
    simp only [TxState.step, btConnSendCb]
    split
    · exact closed
    split
    · exact closed
    · cases cb <;> exact closed.of_unqueued (.congr rfl rfl)
  | alloc =>
    simp only [TxState.step, connTxAlloc]
    split
    · split
      · exact closed.of_unqueued (.congr rfl rfl)
      split
      · exact closed
      · exact closed.of_unqueued (.congr rfl rfl)
    · exact closed
  | fill =>
    simp only [TxState.step, fillTx]
    split
    · split
      · exact closed.of_unqueued (.congr rfl rfl)
      · exact closed.of_unqueued (.congr rfl rfl)
    · exact closed
  | put thread =>
    simp only [TxState.step, putBuf]
    cases caller : state.callers thread with
    | put slot =>
      simp only [KeepsContexts, CallerKeeps, caller] at keeps
      intro other cleaned
      by_cases same : other = slot
      · subst same
        simp only [CleanedUp, RxNotifies, setCaller, setConn,
          update_self] at cleaned ⊢
        rcases keeps with none | served
        · have empty := closed other cleaned
          unfold BtConn.queued at empty ⊢
          simp [BtConn.withQueue, KQueue.append_items, filterMap_append, empty, none]
        · exact absurd cleaned served
      · simp only [CleanedUp, RxNotifies, setCaller, setConn,
          update_of_ne same] at cleaned ⊢
        exact closed other cleaned
    | _ => exact closed
  | processTx slot =>
    simp only [TxState.step, btConnProcessTx]
    split
    · exact closed
    split
    · rename_i ended
      intro other cleaned
      simp only [CleanedUp, RxNotifies, connCleanup, txFreeAll_conns,
        txFreeAll_notify] at cleaned ⊢
      by_cases same : other = slot
      · subst same
        simp only [setConn, update_self]
        exact keeps ended.1 ended.2
      · simp only [setConn, update_of_ne same] at cleaned ⊢
        exact closed other cleaned
    split
    · rename_i rest buf queue
      · intro other cleaned
        by_cases same : other = slot
        · subst same
          simp only [CleanedUp, RxNotifies, setTxThread, setConn,
            update_self] at cleaned ⊢
          have empty := closed other cleaned
          unfold BtConn.queued at empty ⊢
          rw [KQueue.get_items queue] at empty
          cases tag : buf.tx with
          | none => simpa [tag, BtConn.withQueue] using empty
          | some => simp [tag] at empty
        · simp only [CleanedUp, RxNotifies, setTxThread, setConn,
            update_of_ne same] at cleaned ⊢
          exact closed other cleaned
    · exact closed
  | txThread accepted => exact closed.of_unqueued (unqueued_txThreadStep accepted)
  | completedPackets reports =>
    exact closed.of_unqueued (unqueued_hciNumCompletedPackets reports)
  | disconnecting =>
    simp only [TxState.step, disconnecting]
    split
    · exact closed.of_unqueued (.set fun gone => by cases gone)
    · exact closed
  | disconnComplete slot =>
    simp only [TxState.step, hciDisconnCompletePrio]
    split
    · have set : Unqueued state (state.setConn slot
          ((((state.conns slot).withState .disconnectComplete).withPending []
            0).withFlight [])) :=
          .set fun gone => by cases gone
      exact closed.of_unqueued (set.trans
        (.congr (processUnackTx_conns _ _ _) (processUnackTx_notify _ _ _)))
    · exact closed
  | disconnected slot =>
    simp only [TxState.step, hciDisconnComplete]
    split
    · rename_i ready
      intro other cleaned
      obtain ⟨gone, flag, quiet⟩ := cleaned
      by_cases same : other = slot
      · subst same
        exact absurd ⟨none, by simp [setNotify]⟩ quiet
      simp only [setNotify, setConn, update_of_ne same] at gone flag ⊢
      refine closed other ⟨gone, flag, ?_⟩
      rintro ⟨_, seen⟩
      rw [ready.1] at seen
      cases seen
    · exact closed
  | txCompleteWork =>
    simp only [TxState.step, txCompleteWork]
    split
    · exact closed.of_unqueued (unqueued_setNotify (by simp))
    · exact closed
  | notify run => exact closed.of_unqueued (unqueued_txNotify run)
  | deferredWork =>
    simp only [TxState.step, deferredWork]
    split
    · exact closed.of_unqueued (.set fun gone flag => ⟨gone, flag, rfl⟩)
    · exact closed

theorem Tidy.lost_eq_nil (tidy : state.Tidy) (closed : state.Closed)
    (keeps : state.KeepsContexts cfg input) : state.lost cfg input = [] := by
  cases input with
  | connect slot type =>
    simp only [lost]
    split
    · rfl
    rename_i free
    have unused : (state.conns slot).inUse = false := by
      cases used : (state.conns slot).inUse with
      | true => exact absurd (.inl used) free
      | false => rfl
    obtain ⟨gone, flag, quiet⟩ := (tidy slot).idle (.inr unused)
    rw [closed slot ⟨gone, flag, quiet⟩,
      (tidy slot).down (by simp [BtConn.linkUp, gone]),
      ((tidy slot).drained gone).resolve_right quiet]
    rfl
  | txThread accepted =>
    cases here : state.txThread with
    | idle => simp only [lost, here]
    | packet slot buf =>
      simp only [KeepsContexts, ThreadKeeps, here] at keeps
      simp only [lost, here]
      split
      · rename_i gives
        rcases keeps with none | _ | up
        · rw [none]
          rfl
        · exact absurd gives.1 (by omega)
        · exact absurd up gives.2
      · rfl
    | piece piece point =>
      cases point with
      | fail =>
        simp only [KeepsContexts, ThreadKeeps, PieceKeeps, here] at keeps
        simp only [lost, here, TxPiece.restTx, keeps]
        rfl
      | _ => simp only [lost, here]
  | _ => rfl

theorem KeepsContexts.takesBack (keeps : state.KeepsContexts cfg input) :
    state.TakesBack input := by
  cases input with
  | txThread =>
    cases here : state.txThread with
    | piece piece point =>
      cases point with
      | rollback =>
        simp only [KeepsContexts, ThreadKeeps, PieceKeeps, here] at keeps
        simp only [TakesBack, here]
        exact keeps
      | _ => simp only [TakesBack, here]
    | _ => simp only [TakesBack, here]
  | _ => trivial

theorem KeepsContexts.appendsUp (keeps : state.KeepsContexts cfg input) :
    state.AppendsUp input := by
  cases input with
  | txThread =>
    intro piece here
    simp only [KeepsContexts, ThreadKeeps, PieceKeeps, here] at keeps
    exact keeps
  | _ => trivial

/-- The context is in one of the free list, the queues, the lists of the
connections and the hands of the threads, and there once. -/
def OwnedOnce (state : TxState slots threads) (tx : Nat) : Prop :=
  ∃ place, (state.held place).count tx = 1 ∧
    ∀ other, other ≠ place → tx ∉ state.held other

instance (tx : Nat) : Decidable (state.OwnedOnce tx) :=
  inferInstanceAs (Decidable (∃ place, (state.held place).count tx = 1 ∧
    ∀ other, other ≠ place → tx ∉ state.held other))

theorem ownedOnce_of_count {tx : Nat} (once : state.count tx = 1) :
    state.OwnedOnce tx := by
  obtain ⟨place, here, elsewhere⟩ := placed_once once
  refine ⟨place, here, ?_⟩
  intro other apart
  exact count_eq_zero.mp (elsewhere other apart)

theorem boot_count {tx : Nat} (known : tx < cfg.contexts) :
    (boot cfg : TxState slots threads).count tx = 1 := by
  have only : (boot cfg : TxState slots threads).count tx =
      ((boot cfg : TxState slots threads).held .free).count tx := by
    apply total_single
    intro place apart
    cases place with
    | free => exact absurd rfl apart
    | _ => rfl
  rw [only]
  exact count_eq_one_of_mem nodup_range (mem_range.mpr known)

end TxState

structure TxState.Accounted (cfg : ConnTxConfig)
    (state : TxState slots threads) : Prop where
  tidy : state.Tidy
  closed : state.Closed
  once : ∀ tx, tx < cfg.contexts → state.count tx = 1

theorem TxState.Accounted.step {state : TxState slots threads}
    (accounted : state.Accounted cfg) (keeps : state.KeepsContexts cfg input) :
    (TxState.step cfg state input).Accounted cfg := by
  refine ⟨accounted.tidy.step keeps.appendsUp, accounted.closed.step keeps, ?_⟩
  intro tx known
  have moved : (TxState.step cfg state input).count tx +
      (state.lost cfg input).count tx = state.count tx :=
    TxState.moves_step input keeps.takesBack tx
  rw [accounted.tidy.lost_eq_nil accounted.closed keeps, accounted.once tx known] at moved
  exact moved

theorem connTx_owned_once {inputs : List (TxInput slots threads)}
    (keeps : (connTxMachine cfg slots threads).Along
      (TxState.KeepsContexts cfg) (TxState.boot cfg) inputs) :
    (connTxMachine cfg slots threads).Always
      (fun state => ∀ tx, tx < cfg.contexts → state.OwnedOnce tx)
      (TxState.boot cfg) inputs := by
  have always : (connTxMachine cfg slots threads).Always
      (TxState.Accounted cfg) (TxState.boot cfg) inputs :=
    Machine.always_of_along (fun _ _ accounted kept => accounted.step kept)
      ⟨TxState.boot_tidy, fun _ _ => rfl,
        fun _ known => TxState.boot_count known⟩ keeps
  exact always.mono fun state accounted tx known =>
    TxState.ownedOnce_of_count (accounted.once tx known)

section Decidable

variable (state : TxState slots threads)

instance (slot : Fin slots) : Decidable (state.RxNotifies slot) :=
  match here : state.notify .rx with
  | .idle => .isFalse fun ⟨_, running⟩ => nomatch here.symm.trans running
  | .running other tx =>
    if same : other = slot then .isTrue ⟨tx, same ▸ here⟩
    else .isFalse fun ⟨_, running⟩ =>
      same (TxNotifyAt.running.inj (here.symm.trans running)).1

instance (slot : Fin slots) : Decidable (state.CleanedUp slot) :=
  inferInstanceAs (Decidable (_ ∧ _ ∧ _))

instance : ∀ caller, Decidable (state.CallerKeeps caller)
  | .put _ _ => inferInstanceAs (Decidable (_ ∨ _))
  | .idle | .alloc .. | .fill .. => .isTrue trivial

instance (piece : TxPiece slots) : ∀ point, Decidable (state.PieceKeeps piece point)
  | .append => inferInstanceAs (Decidable (_ ∨ _))
  | .rollback _ => inferInstanceAs (Decidable (∀ tx ∈ piece.tx,
      tx ∈ (state.conns piece.conn).txPending))
  | .fail => inferInstanceAs (Decidable (_ = _))
  | .take | .check | .send _ => .isTrue trivial

instance : ∀ point, Decidable (state.ThreadKeeps cfg point)
  | .idle => .isTrue trivial
  | .packet _ _ => inferInstanceAs (Decidable (_ ∨ _ ∨ _))
  | .piece piece point => inferInstanceAs (Decidable (state.PieceKeeps piece point))

instance : ∀ input, Decidable (state.KeepsContexts cfg input)
  | .put thread => inferInstanceAs
      (Decidable (state.CallerKeeps (state.callers thread)))
  | .txThread _ => inferInstanceAs (Decidable (state.ThreadKeeps cfg state.txThread))
  | .processTx _ => inferInstanceAs (Decidable (_ → _ → _ = _))
  | .connect .. | .sendCb .. | .alloc .. | .fill .. | .completedPackets .. |
    .disconnecting .. | .disconnComplete .. | .disconnected .. |
    .txCompleteWork .. | .notify .. | .deferredWork .. =>
      .isTrue trivial

end Decidable

def sampleConnTx : ConnTxConfig where
  bredr := false
  iso := true
  aclMtu := 27
  isoMtu := 40
  brMtu := 0
  buffers := fun sem =>
    match sem with
    | .acl => 3
    | .iso => 2
    | .br => 0
  fragRoom := fun _ => 27
  contexts := 2
  reported := by intro sem; cases sem <;> decide

def sampleTxRun : List (TxInput 1 1) :=
  [.connect 0 .le, .sendCb 0 0 60 (some 7), .alloc 0 true, .fill 0, .put 0,
    .processTx 0] ++ List.replicate 5 (.txThread true)

def sampleTxRest : List (TxInput 1 1) :=
  List.replicate 10 (.txThread true) ++
    [.completedPackets [(0, 3)], .txCompleteWork 0, .notify .work,
      .notify .work, .notify .work]

theorem connTx_owned_once_sample : (connTxMachine sampleConnTx 1 1).Always
      (fun state => ∀ tx, tx < sampleConnTx.contexts → state.OwnedOnce tx)
      (TxState.boot sampleConnTx) (sampleTxRun ++ sampleTxRest) :=
  connTx_owned_once (by decide +kernel)

theorem connTx_fragment_leak : ¬ (connTxMachine sampleConnTx 1 1).Always
      (fun state => ∀ tx, tx < sampleConnTx.contexts → state.OwnedOnce tx)
      (TxState.boot sampleConnTx)
      (sampleTxRun ++ [.disconnComplete 0, .txThread true]) := by
  intro always
  have owned : ((connTxMachine sampleConnTx 1 1).run (TxState.boot sampleConnTx)
      (sampleTxRun ++ [.disconnComplete 0, .txThread true])).OwnedOnce 0 :=
    always.last 0 (by decide)
  exact absurd owned (by decide)

end ZephyrBluetooth.Host
