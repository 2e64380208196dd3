import ZephyrBluetooth.Host.ConnTxOwned

namespace ZephyrBluetooth.Host

open Data List Function Option Osal

variable {tx : Nat} {saved : Option Nat} {point : SendFragAt} {rest : List Nat}
  {run : NotifyRun}

/-! The buffer credits of the controller, the packets that the connections count
and the callbacks of the completed ones. -/

variable {slots threads : Nat} {cfg : ConnTxConfig}

variable {now : TxNotifyAt slots} {slot : Fin slots} {place : TxPlace slots threads}

def TxNotifyAt.handFor (slot : Fin slots) : TxNotifyAt slots → List Nat
  | .running conn (some tx) => if conn = slot then [tx] else []
  | _ => []

theorem TxNotifyAt.hand_of_handFor (member : tx ∈ now.handFor slot) :
    tx ∈ now.hand := by
  cases now with
  | idle => cases member
  | running conn holds =>
    cases holds with
    | none => cases member
    | some =>
      by_cases same : conn = slot
      · simpa [TxNotifyAt.handFor, TxNotifyAt.hand, same] using member
      · simp [TxNotifyAt.handFor, same] at member

def TxThreadAt.unanswered : TxThreadAt slots → Option (TxPiece slots)
  | .piece call (.send _) => some call
  | .piece call (.rollback _) => some call
  | _ => none

/-- A call of `send_frag` has a credit from its `k_sem_take` until the controller
has the packet, the call gives it back, or the connection ends after the packet
was made pending. -/
def SendFragAt.credit (up : Bool) : SendFragAt → Nat
  | .take => 0
  | .send _ => if up then 1 else 0
  | .rollback _ => if up then 1 else 0
  | _ => 1

/-- The pointer `pending_no_cb` of a packet that is in the lists. -/
def SendFragAt.savedAt : SendFragAt → Option (Option Nat)
  | .send saved => some saved
  | .rollback saved => some saved
  | _ => none

def TxThreadAt.credit (slot : Fin slots) (up : Bool) : TxThreadAt slots → Nat
  | .piece call point => if call.conn = slot then point.credit up else 0
  | _ => 0

def TxThreadAt.Serves (slot : Fin slots) : TxThreadAt slots → Prop
  | .idle => False
  | .packet conn _ => conn = slot
  | .piece call _ => call.conn = slot

variable {conn : BtConn}

namespace BtConn

def counted (connTx : Nat → BtConnTx) (conn : BtConn) : List (Option Nat) :=
  List.replicate conn.pendingNoCb none ++ conn.txPending.flatMap fun tx =>
    (connTx tx).cb :: List.replicate (connTx tx).pendingNoCb none

/-- `pending_no_cb` and the entries of `tx_pending` with theirs. -/
def countedPackets (connTx : Nat → BtConnTx) (conn : BtConn) : Nat :=
  conn.pendingNoCb + (conn.txPending.map fun tx => 1 + (connTx tx).pendingNoCb).sum

theorem length_counted (connTx : Nat → BtConnTx) (conn : BtConn) :
    (conn.counted connTx).length = conn.countedPackets connTx := by
  unfold counted countedPackets
  rw [length_append, length_replicate, length_flatMap]
  simp [add_comm]

theorem counted_congr {connTx other : Nat → BtConnTx}
    (same : ∀ tx ∈ conn.txPending, other tx = connTx tx) :
    conn.counted other = conn.counted connTx := by
  unfold counted
  congr 1
  apply flatMap_congr
  intro tx member
  rw [same tx member]

end BtConn

theorem BtConn.counted_append (connTx : Nat → BtConnTx) (conn : BtConn)
    (front : List Nat) (tx count : Nat) :
    (conn.withPending (front ++ [tx]) count).counted connTx =
      (conn.withPending front count).counted connTx ++
        (connTx tx).cb :: replicate (connTx tx).pendingNoCb none := by
  unfold BtConn.counted BtConn.withPending
  simp

theorem BtConn.counted_update (connTx : Nat → BtConnTx)
    {front : List Nat} (listed : conn.txPending = front ++ [tx])
    (distinct : conn.txPending.Nodup) (context : BtConnTx) :
    conn.counted (update connTx tx context) =
      (conn.withPending front conn.pendingNoCb).counted connTx ++
        context.cb :: replicate context.pendingNoCb none := by
  rw [listed] at distinct
  have apart : tx ∉ front := fun before =>
    (disjoint_of_nodup_append distinct) before (mem_singleton_self tx)
  have split := BtConn.counted_append (update connTx tx context) conn
    front tx conn.pendingNoCb
  have same : (conn.withPending front conn.pendingNoCb).counted
      (update connTx tx context) =
        (conn.withPending front conn.pendingNoCb).counted connTx := by
    apply BtConn.counted_congr
    intro seen before
    have different : seen ≠ tx := by
      rintro rfl
      exact apart before
    exact update_of_ne different ..
  rw [← listed, same, update_self] at split
  exact split

variable {count : Nat}

theorem BtConnTx.cb_update {connTx : Nat → BtConnTx} (seen : Nat) :
    (update connTx tx ⟨(connTx tx).cb, count⟩ seen).cb = (connTx seen).cb := by
  by_cases same : seen = tx
  · rw [same, update_self]
  · rw [update_of_ne same]

structure BtConnTx.Ready (context : BtConnTx) : Prop where
  named : context.cb ≠ none
  alone : context.pendingNoCb = 0

namespace TxState

variable {state after : TxState slots threads}

def progress (state : TxState slots threads) (slot : Fin slots) :
    List (Option Nat) :=
  match state.txThread.unanswered with
  | some piece =>
    if piece.conn = slot ∧ (state.conns slot).linkUp then [state.label piece]
    else []
  | none => []

/-- The contexts that the runs of `tx_notify` hold for a connection. -/
def heldFor (state : TxState slots threads) (slot : Fin slots) : List Nat :=
  (state.notify .work).handFor slot ++ (state.notify .rx).handFor slot

def callbacks (state : TxState slots threads) (txs : List Nat) : List Nat :=
  txs.filterMap fun tx => (state.connTx tx).cb

/-- The packets of a connection that the controller has, with a credit that is
under way. -/
def outstanding (state : TxState slots threads) (slot : Fin slots) : Nat :=
  (state.conns slot).flight.length +
    state.txThread.credit slot (state.conns slot).linkUp

def share (cfg : ConnTxConfig) (state : TxState slots threads) (sem : PktsSem)
    (slot : Fin slots) : Nat :=
  if state.semOf cfg slot = sem then state.outstanding slot else 0

structure LinkOk (state : TxState slots threads) (slot : Fin slots) : Prop where
  counted : (state.conns slot).counted state.connTx =
    (state.conns slot).flight ++ state.progress slot
  down : (state.conns slot).linkUp = false → (state.conns slot).flight = []
  named : ∀ tx ∈ (state.conns slot).txPending ++
    (state.conns slot).txComplete ++ state.heldFor slot, (state.connTx tx).cb ≠ none
  ready : ∀ tx ∈ (state.conns slot).queued, (state.connTx tx).Ready
  calls : (state.conns slot).called ++ state.callbacks
    (state.heldFor slot ++ (state.conns slot).txComplete) =
      (state.conns slot).finished.filterMap id
  unused : (state.conns slot).inUse = false → state.heldFor slot = []

structure Appended (state : TxState slots threads) (piece : TxPiece slots)
    (saved : Option Nat) : Prop where
  own : ∀ tx ∈ piece.tx, (state.connTx tx).Ready ∧
    ∃ front, (state.conns piece.conn).txPending = front ++ [tx]
  first : piece.tx = none → saved = none → (state.conns piece.conn).txPending = []
  last : piece.tx = none → ∀ tx ∈ saved, (state.conns piece.conn).txPending = [] ∨
      ∃ front, (state.conns piece.conn).txPending = front ++ [tx]

def ReadyCallers (state : TxState slots threads) : Prop :=
  ∀ thread slot buf, state.callers thread = .put slot buf →
    ∀ tx ∈ buf.tx, (state.connTx tx).Ready

structure Linked (state : TxState slots threads) : Prop where
  links : ∀ slot, state.LinkOk slot
  callers : state.ReadyCallers
  prepared : ∀ tx ∈ state.txThread.hand, (state.connTx tx).Ready
  appended : ∀ piece point saved, state.txThread = .piece piece point →
    point.savedAt = some saved → (state.conns piece.conn).linkUp = true →
      state.Appended piece saved
  serves : ∀ slot, state.txThread.Serves slot →
    (state.conns slot).inUse = true ∧ (state.conns slot).deferred = false
  alone : ∀ slot, (state.notify .work).handFor slot = [] ∨
    (state.notify .rx).handFor slot = []

structure Balanced (cfg : ConnTxConfig) (state : TxState slots threads) :
    Prop where
  account : ∀ sem, state.pkts sem + total (state.share cfg sem) = cfg.buffers sem
  bredr : ∀ slot, (state.conns slot).type = .br → cfg.bredr = true

def SameAt (state after : TxState slots threads)
    (place : TxPlace slots threads) : Prop :=
  ∀ tx ∈ state.held place, after.connTx tx = state.connTx tx

section

variable (once : ∀ tx, state.count tx ≤ 1)
include once

theorem apart_of_held
    {other : TxPlace slots threads} (here : tx ∈ state.held place)
    (apart : other ≠ place) : tx ∉ state.held other :=
  count_eq_zero.mp (apart_of_once (once tx)
    (fun none => (count_eq_zero.mp none) here) apart)

theorem held_nodup
    (place : TxPlace slots threads) : (state.held place).Nodup := by
  rw [nodup_iff_count_le_one]
  intro tx
  have some := le_total (fun place => (state.held place).count tx) place
  exact le_trans some (once tx)

theorem sameAt_of_changed (here : tx ∈ state.held place)
    (others : ∀ other, other ≠ tx → after.connTx other = state.connTx other)
    {other : TxPlace slots threads} (apart : other ≠ place) :
    SameAt state after other := by
  intro seen member
  apply others
  rintro rfl
  exact apart_of_held once here apart member

end

theorem mem_heldFor (member : tx ∈ state.heldFor slot) :
    ∃ run, tx ∈ state.held (.notify run) := by
  rcases mem_append.mp member with work | rx
  · exact ⟨.work, TxNotifyAt.hand_of_handFor work⟩
  · exact ⟨.rx, TxNotifyAt.hand_of_handFor rx⟩

theorem mem_pending {front : List Nat}
    (listed : (state.conns slot).txPending = front ++ [tx]) :
    tx ∈ state.held (.pending slot) := by
  change tx ∈ (state.conns slot).txPending
  rw [listed]
  exact mem_append_right _ (mem_singleton_self tx)

theorem callbacks_congr {txs : List Nat}
    (same : ∀ tx ∈ txs, after.connTx tx = state.connTx tx) :
    after.callbacks txs = state.callbacks txs := by
  apply filterMap_congr
  intro tx member
  rw [same tx member]

theorem handed_of_notify (notify : ∀ run, SameAt state after (.notify run)) :
    ∀ tx ∈ state.heldFor slot, after.connTx tx = state.connTx tx := by
  intro tx member
  obtain ⟨run, here⟩ := mem_heldFor member
  exact notify run tx here

theorem LinkOk.frame (ok : state.LinkOk slot)
    (conn : after.conns slot = state.conns slot)
    (holds : after.heldFor slot = state.heldFor slot)
    (progress : after.progress slot = state.progress slot)
    (queue : SameAt state after (.queue slot))
    (pending : SameAt state after (.pending slot))
    (complete : SameAt state after (.complete slot))
    (handed : ∀ tx ∈ state.heldFor slot, after.connTx tx = state.connTx tx) :
    after.LinkOk slot := by
  constructor
  · rw [conn, progress, ← ok.counted]
    exact BtConn.counted_congr pending
  · rw [conn]
    exact ok.down
  · rw [conn, holds]
    intro tx member
    have named := ok.named tx member
    rcases mem_append.mp member with listed | handled
    · rcases mem_append.mp listed with here | here
      · rwa [pending tx here]
      · rwa [complete tx here]
    · rwa [handed tx handled]
  · rw [conn]
    intro tx member
    rw [queue tx member]
    exact ok.ready tx member
  · rw [conn, holds, ← ok.calls]
    congr 1
    apply callbacks_congr
    intro tx member
    rcases mem_append.mp member with handled | here
    · exact handed tx handled
    · exact complete tx here
  · rw [conn, holds]
    exact ok.unused

theorem progress_of_idle (idle : state.txThread.unanswered = none) :
    state.progress slot = [] := by
  unfold progress
  rw [idle]

theorem Linked.progress_frame (linked : state.Linked)
    (thread : after.txThread = state.txThread)
    (conn : (after.conns slot).linkUp = (state.conns slot).linkUp)
    (pending : SameAt state after (.pending slot)) :
    after.progress slot = state.progress slot := by
  unfold progress
  rw [thread, conn]
  cases waits : state.txThread.unanswered with
  | none => rfl
  | some piece =>
    simp only
    by_cases here : piece.conn = slot ∧ (state.conns slot).linkUp = true
    · rw [if_pos here, if_pos here]
      obtain ⟨rfl, up⟩ := here
      have appended : ∃ saved, state.Appended piece saved := by
        cases stands : state.txThread with
        | idle => rw [stands] at waits; cases waits
        | packet => rw [stands] at waits; cases waits
        | piece call point =>
          rw [stands] at waits
          cases point with
          | send saved =>
            cases waits
            exact ⟨saved, linked.appended _ _ saved stands rfl up⟩
          | rollback saved =>
            cases waits
            exact ⟨saved, linked.appended _ _ saved stands rfl up⟩
          | _ => cases waits
      obtain ⟨saved, appended⟩ := appended
      unfold label
      cases own : piece.tx with
      | none => rfl
      | some tx =>
        obtain ⟨_, _, listed⟩ := appended.own tx own
        simp only [bind_some, pending tx (mem_pending listed)]
    · rw [if_neg here, if_neg here]

theorem Appended.frame {piece : TxPiece slots}
    (appended : state.Appended piece saved)
    (conn : (after.conns piece.conn).txPending = (state.conns piece.conn).txPending)
    (pending : SameAt state after (.pending piece.conn)) :
    after.Appended piece saved := by
  constructor
  · intro tx own
    obtain ⟨ready, front, listed⟩ := appended.own tx own
    rw [conn, pending tx (mem_pending listed)]
    exact ⟨ready, front, listed⟩
  · rw [conn]
    exact appended.first
  · rw [conn]
    exact appended.last

structure CallerStep (state after : TxState slots threads) : Prop where
  conns : after.conns = state.conns
  thread : after.txThread = state.txThread
  notify : after.notify = state.notify
  pkts : after.pkts = state.pkts
  contexts : ∀ place, place ≠ .free → (∀ thread, place ≠ .caller thread) →
    SameAt state after place

theorem Linked.caller (linked : state.Linked) (same : CallerStep state after)
    (callers : after.ReadyCallers) : after.Linked := by
  have linkUp : ∀ slot, (after.conns slot).linkUp = (state.conns slot).linkUp :=
    fun slot => by rw [same.conns]
  have holds : ∀ slot, after.heldFor slot = state.heldFor slot := by
    intro slot
    unfold heldFor
    rw [same.notify]
  have pending : ∀ slot, SameAt state after (.pending slot) :=
    fun slot => same.contexts _ nofun nofun
  refine ⟨?_, callers, ?_, ?_, ?_, by rw [same.notify]; exact linked.alone⟩
  · intro slot
    exact (linked.links slot).frame (by rw [same.conns]) (holds slot)
      (linked.progress_frame same.thread (linkUp slot) (pending slot))
      (same.contexts _ nofun nofun) (pending slot)
      (same.contexts _ nofun nofun)
      (handed_of_notify fun _ => same.contexts _ nofun nofun)
  · intro tx member
    rw [same.thread] at member
    rw [same.contexts .txThread nofun nofun tx member]
    exact linked.prepared tx member
  · intro piece point saved here stands up
    rw [same.thread] at here
    rw [linkUp] at up
    exact (linked.appended piece point saved here stands up).frame
      (by rw [same.conns]) (pending _)
  · intro slot serves
    rw [same.thread] at serves
    rw [same.conns]
    exact linked.serves slot serves

theorem ReadyCallers.frame (ready : state.ReadyCallers)
    (callers : after.callers = state.callers)
    (contexts : ∀ thread, SameAt state after (.caller thread)) :
    after.ReadyCallers := by
  intro thread slot buf here tx own
  rw [callers] at here
  have member : tx ∈ state.held (.caller thread) := by
    change tx ∈ (state.callers thread).hand
    rw [here]
    exact mem_toList.mpr own
  rw [contexts thread tx member]
  exact ready thread slot buf here tx own

theorem ReadyCallers.set (ready : state.ReadyCallers) {thread : Fin threads}
    {caller : SendCbAt slots}
    (callers : after.callers = update state.callers thread caller)
    (others : ∀ other, other ≠ thread → SameAt state after (.caller other))
    (own : ∀ slot buf, caller = .put slot buf →
      ∀ tx ∈ buf.tx, (after.connTx tx).Ready) : after.ReadyCallers := by
  intro other slot buf here tx holds
  rw [callers] at here
  by_cases same : other = thread
  · subst same
    rw [update_self] at here
    exact own slot buf here tx holds
  · rw [update_of_ne same] at here
    have member : tx ∈ state.held (.caller other) := by
      change tx ∈ (state.callers other).hand
      rw [here]
      exact mem_toList.mpr holds
    rw [others other same tx member]
    exact ready other slot buf here tx holds

theorem Linked.btConnSendCb (linked : state.Linked)
    (thread : Fin threads) (slot : Fin slots) (len : Nat) (cb : Option Nat) :
    (state.btConnSendCb thread slot len cb).Linked := by
  have same : ∀ caller, CallerStep state (state.setCaller thread caller) :=
    fun _ => ⟨rfl, rfl, rfl, rfl, fun _ _ _ _ _ => rfl⟩
  unfold TxState.btConnSendCb
  split
  · exact linked
  split
  · exact linked
  cases cb with
  | some =>
    exact linked.caller (same _) (linked.callers.set rfl (fun _ _ _ _ => rfl) nofun)
  | none =>
    exact linked.caller (same _) (linked.callers.set rfl
      (fun _ _ _ _ => rfl) (by rintro _ _ ⟨⟩ tx ⟨⟩))

theorem Linked.connTxAlloc (linked : state.Linked) (thread : Fin threads)
    (wait : Bool) : (state.connTxAlloc thread wait).Linked := by
  unfold TxState.connTxAlloc
  cases caller : state.callers thread with
  | alloc =>
    cases free : state.freeTx with
    | nil =>
      simp only
      split
      · exact linked
      · exact linked.caller ⟨rfl, rfl, rfl, rfl, fun _ _ _ _ _ => rfl⟩
          (linked.callers.set rfl (fun _ _ _ _ => rfl) nofun)
    | cons =>
      exact linked.caller ⟨rfl, rfl, rfl, rfl, fun _ _ _ _ _ => rfl⟩
        (linked.callers.set rfl (fun _ _ _ _ => rfl) nofun)
  | _ => exact linked

theorem apart_caller (once : ∀ tx, state.count tx ≤ 1) {thread : Fin threads}
    {own : Nat} (here : own ∈ (state.callers thread).hand) {context : BtConnTx}
    (changed : after.connTx = update state.connTx own context) :
    ∀ place, place ≠ .caller thread → SameAt state after place := by
  intro place other
  have member : own ∈ state.held (.caller thread) := here
  apply sameAt_of_changed once member _ other
  intro seen different
  rw [changed, update_of_ne different]

theorem Linked.fillTx (linked : state.Linked) (once : ∀ tx, state.count tx ≤ 1)
    (thread : Fin threads) : (state.fillTx thread).Linked := by
  unfold TxState.fillTx
  cases caller : state.callers thread with
  | fill slot len cb own =>
    have here : own ∈ (state.callers thread).hand := by
      rw [caller]
      exact mem_singleton_self own
    simp only
    split
    · have apart : ∀ place, place ≠ .caller thread → SameAt state
          ((state.txFree own).setCaller thread .idle) place :=
        apart_caller once here rfl
      exact linked.caller
        ⟨rfl, rfl, rfl, rfl, fun place _ none => apart place (none _)⟩
        (linked.callers.set rfl
          (fun other different => apart _ (by simpa using different))
          (by rintro _ _ ⟨⟩))
    · have apart : ∀ place, place ≠ .caller thread → SameAt state
          ((state.setTx own ⟨some cb, 0⟩).setCaller thread
            (.put slot ⟨len, some own⟩)) place := apart_caller once here rfl
      refine linked.caller
        ⟨rfl, rfl, rfl, rfl, fun place _ none => apart place (none _)⟩ ?_
      apply linked.callers.set rfl
        (fun other different => apart _ (by simpa using different))
      rintro _ _ ⟨⟩ tx ⟨⟩
      simp only [setCaller, setTx, update_self]
      exact ⟨by simp, rfl⟩
  | _ => exact linked

structure QuietConn (before after : BtConn) : Prop where
  pending : after.txPending = before.txPending
  count : after.pendingNoCb = before.pendingNoCb
  complete : after.txComplete = before.txComplete
  flight : after.flight = before.flight
  finished : after.finished = before.finished
  called : after.called = before.called
  linkUp : after.linkUp = before.linkUp

theorem QuietConn.withQueue (conn : BtConn) (queue : KQueue TxBuf) :
    QuietConn conn (conn.withQueue queue) :=
  ⟨rfl, rfl, rfl, rfl, rfl, rfl, rfl⟩

theorem QuietConn.withCleanup (conn : BtConn) (cleanup deferred : Bool) :
    QuietConn conn (conn.withCleanup cleanup deferred) :=
  ⟨rfl, rfl, rfl, rfl, rfl, rfl, rfl⟩

theorem QuietConn.trans {before between after : BtConn}
    (first : QuietConn before between) (second : QuietConn between after) :
    QuietConn before after :=
  ⟨second.pending.trans first.pending, second.count.trans first.count,
    second.complete.trans first.complete, second.flight.trans first.flight,
    second.finished.trans first.finished, second.called.trans first.called,
    second.linkUp.trans first.linkUp⟩

theorem outstanding_congr
    (flight : (after.conns slot).flight = (state.conns slot).flight)
    (linkUp : (after.conns slot).linkUp = (state.conns slot).linkUp)
    (thread : after.txThread = state.txThread) :
    after.outstanding slot = state.outstanding slot := by
  unfold outstanding
  rw [flight, linkUp, thread]

theorem Linked.setConn (linked : state.Linked)
    (quiet : QuietConn (state.conns slot) conn)
    (queue : ∀ tx ∈ conn.queued, (state.connTx tx).Ready)
    (unused : conn.inUse = false → state.heldFor slot = [])
    (serves : state.txThread.Serves slot →
      conn.inUse = true ∧ conn.deferred = false) :
    (state.setConn slot conn).Linked := by
  have elsewhere : ∀ other, other ≠ slot →
      (state.setConn slot conn).conns other = state.conns other :=
    fun other different => update_of_ne different ..
  have here : (state.setConn slot conn).conns slot = conn := update_self ..
  have pending : ∀ other, ((state.setConn slot conn).conns other).txPending =
      (state.conns other).txPending := by
    intro other
    by_cases same : other = slot
    · rw [same, here, quiet.pending]
    · rw [elsewhere other same]
  have linkUp : ∀ other, ((state.setConn slot conn).conns other).linkUp =
      (state.conns other).linkUp := by
    intro other
    by_cases same : other = slot
    · rw [same, here, quiet.linkUp]
    · rw [elsewhere other same]
  have same : ∀ place, SameAt state (state.setConn slot conn) place :=
    fun _ _ _ => rfl
  have progress : ∀ other, (state.setConn slot conn).progress other =
      state.progress other := fun other =>
    linked.progress_frame rfl (linkUp other) (same _)
  refine ⟨?_, ?_, linked.prepared, ?_, ?_, linked.alone⟩
  · intro other
    by_cases mine : other = slot
    · subst mine
      have ok := linked.links other
      constructor
      · rw [here, progress, quiet.flight, ← ok.counted]
        unfold BtConn.counted
        rw [quiet.count, quiet.pending]
        rfl
      · rw [here, quiet.linkUp, quiet.flight]
        exact ok.down
      · rw [here, quiet.pending, quiet.complete]
        exact ok.named
      · rw [here]
        exact queue
      · rw [here, quiet.called, quiet.complete, quiet.finished]
        exact ok.calls
      · rw [here]
        exact unused
    · exact (linked.links other).frame (elsewhere other mine) rfl
        (progress other) (same _) (same _) (same _) fun _ _ => rfl
  · exact linked.callers.frame rfl fun _ => same _
  · intro piece point saved stands kept up
    rw [linkUp] at up
    exact (linked.appended piece point saved stands kept up).frame
      (pending _) (same _)
  · intro other serving
    by_cases mine : other = slot
    · subst mine
      rw [here]
      exact serves serving
    · rw [elsewhere other mine]
      exact linked.serves other serving

theorem Linked.putBuf (linked : state.Linked) (thread : Fin threads) :
    (state.putBuf thread).Linked := by
  unfold TxState.putBuf
  cases caller : state.callers thread with
  | put slot buf =>
    have queued : (state.setConn slot ((state.conns slot).withQueue
        ((state.conns slot).txQueue.append buf))).Linked := by
      refine linked.setConn (.withQueue _ _) ?_ (linked.links slot).unused
        (linked.serves slot)
      intro tx member
      unfold BtConn.queued BtConn.withQueue at member
      rw [KQueue.append_items, filterMap_append] at member
      rcases mem_append.mp member with before | new
      · exact (linked.links slot).ready tx before
      obtain ⟨_, single, own⟩ := mem_filterMap.mp new
      rw [mem_singleton.mp single] at own
      exact linked.callers thread slot buf caller tx own
    exact queued.caller ⟨rfl, rfl, rfl, rfl, fun _ _ _ _ _ => rfl⟩
      (queued.callers.set rfl (fun _ _ _ _ => rfl) nofun)
  | _ => exact linked

theorem Linked.setTxThread (linked : state.Linked) {now : TxThreadAt slots}
    (prepared : ∀ tx ∈ now.hand, (state.connTx tx).Ready)
    (quiet : state.txThread.unanswered = none) (next : now.unanswered = none)
    (serves : ∀ slot, now.Serves slot →
      (state.conns slot).inUse = true ∧ (state.conns slot).deferred = false) :
    (state.setTxThread now).Linked := by
  have progress : ∀ slot, (state.setTxThread now).progress slot =
      state.progress slot := by
    intro slot
    have after : (state.setTxThread now).progress slot = [] := progress_of_idle next
    rw [after, progress_of_idle quiet]
  refine ⟨?_, ?_, prepared, ?_, serves, linked.alone⟩
  · intro slot
    exact (linked.links slot).frame rfl rfl (progress slot) (fun _ _ => rfl)
      (fun _ _ => rfl) (fun _ _ => rfl) fun _ _ => rfl
  · exact linked.callers.frame rfl fun _ _ _ => rfl
  · intro piece point saved stands kept up
    change now = _ at stands
    rw [stands] at next
    cases point with
    | send saved => cases next
    | rollback saved => cases next
    | _ => cases kept

def Unplaced (state : TxState slots threads) (tx : Nat) : Prop :=
  ∀ place, place ≠ .free → tx ∉ state.held place

theorem Linked.txFree (linked : state.Linked) {own : Nat}
    (unplaced : state.Unplaced own) : (state.txFree own).Linked := by
  have same : ∀ place, place ≠ .free → SameAt state (state.txFree own) place := by
    intro place other tx member
    have different : tx ≠ own := by
      rintro rfl
      exact unplaced place other member
    exact update_of_ne different ..
  exact linked.caller ⟨rfl, rfl, rfl, rfl, fun place other _ => same place other⟩
    (linked.callers.frame rfl fun _ => same _ nofun)

theorem Linked.txFreeAll (linked : state.Linked) {freed : List Nat}
    (unplaced : ∀ tx ∈ freed, state.Unplaced tx) :
    (txFreeAll freed state).Linked := by
  induction freed generalizing state with
  | nil => exact linked
  | cons first rest ih =>
    apply ih (linked.txFree (unplaced first mem_cons_self))
    intro tx member place other
    have apart := unplaced tx (mem_cons_of_mem _ member) place other
    cases place with
    | free => exact absurd rfl other
    | _ => exact apart

theorem unplaced_of_left (once : ∀ tx, state.count tx ≤ 1)
    (here : tx ∈ state.held place) (left : tx ∉ after.held place)
    (others : ∀ other, other ≠ place → after.held other = state.held other) :
    after.Unplaced tx := by
  intro other _
  by_cases same : other = place
  · rwa [same]
  · rw [others other same]
    exact apart_of_held once here same

theorem held_setConn
    (queue : place ≠ .queue slot ∨ conn.queued = (state.conns slot).queued)
    (pending : place ≠ .pending slot ∨
      conn.txPending = (state.conns slot).txPending)
    (complete : place ≠ .complete slot ∨
      conn.txComplete = (state.conns slot).txComplete) :
    (state.setConn slot conn).held place = state.held place := by
  unfold setConn held
  cases place with
  | queue other =>
    by_cases same : other = slot
    · subst same
      simpa using queue
    · simp only [update_of_ne same]
  | pending other =>
    by_cases same : other = slot
    · subst same
      simpa using pending
    · simp only [update_of_ne same]
  | complete other =>
    by_cases same : other = slot
    · subst same
      simpa using complete
    · simp only [update_of_ne same]
  | _ => rfl

section

variable (linked : state.Linked)
include linked

theorem Linked.connCleanup
    (once : ∀ tx, state.count tx ≤ 1) (idle : state.txThread = .idle)
    (slot : Fin slots) : (state.connCleanup slot).Linked := by
  have parts : (state.conns slot).queued =
      (state.conns slot).txQueue.drain.2.filterMap TxBuf.tx ++
        (state.conns slot).txQueue.drain.1.items.filterMap TxBuf.tx := by
    unfold BtConn.queued
    rw [← KQueue.drain_items, filterMap_append]
  have emptied : (state.setConn slot (((state.conns slot).withQueue
      (state.conns slot).txQueue.drain.1).withCleanup false true)).Linked := by
    refine linked.setConn ((QuietConn.withQueue _ _).trans (.withCleanup _ _ _))
      ?_ (linked.links slot).unused ?_
    · intro tx member
      apply (linked.links slot).ready
      rw [parts]
      exact mem_append_right _ member
    · rw [idle]
      exact nofun
  apply emptied.txFreeAll
  intro tx member
  have here : tx ∈ state.held (.queue slot) := by
    change tx ∈ (state.conns slot).queued
    rw [parts]
    exact mem_append_left _ member
  apply unplaced_of_left once here
  · change tx ∉ ((update state.conns slot _) slot).queued
    rw [update_self]
    have apart : (state.conns slot).queued.Nodup := held_nodup once (.queue slot)
    rw [parts] at apart
    exact disjoint_of_nodup_append apart member
  · intro other apart
    exact held_setConn (.inl apart) (.inr rfl) (.inr rfl)

theorem Linked.btConnProcessTx (once : ∀ tx, state.count tx ≤ 1)
    (slot : Fin slots) : (state.btConnProcessTx slot).Linked := by
  unfold TxState.btConnProcessTx
  split
  · exact linked
  rename_i ready
  have idle : state.txThread = .idle := by
    by_contra busy
    exact ready (.inl busy)
  split
  · exact linked.connCleanup once idle slot
  split
  · rename_i rest buf queue
    have first : ∀ tx ∈ buf.tx, (state.connTx tx).Ready := by
      intro tx own
      apply (linked.links slot).ready
      unfold BtConn.queued
      rw [KQueue.get_items queue]
      exact mem_filterMap.mpr ⟨buf, mem_cons_self, own⟩
    have used : (state.conns slot).inUse = true ∧
        (state.conns slot).deferred = false := by
      simpa [not_or, and_comm] using (not_or.mp ready).2
    have taken : (state.setConn slot
        ((state.conns slot).withQueue rest)).Linked := by
      refine linked.setConn (.withQueue _ _) ?_ (linked.links slot).unused
        (linked.serves slot)
      intro tx member
      apply (linked.links slot).ready
      unfold BtConn.queued
      rw [KQueue.get_items queue]
      obtain ⟨later, listed, own⟩ := mem_filterMap.mp member
      exact mem_filterMap.mpr ⟨later, mem_cons_of_mem _ listed, own⟩
    refine taken.setTxThread ?_ (by rw [show (state.setConn slot _).txThread
      = state.txThread from rfl, idle]; rfl) rfl ?_
    · intro tx member
      exact first tx (mem_toList.mp member)
    · rintro _ rfl
      rw [conns_setConn]
      exact used
  · exact linked

theorem Linked.setPkts (sem : PktsSem) (count : Nat) :
    (state.setPkts sem count).Linked :=
  ⟨fun slot => (linked.links slot).frame rfl rfl rfl (fun _ _ => rfl)
      (fun _ _ => rfl) (fun _ _ => rfl) fun _ _ => rfl,
    linked.callers.frame rfl fun _ _ _ => rfl, linked.prepared,
    fun piece point saved stands kept up =>
      (linked.appended piece point saved stands kept up).frame rfl
        fun _ _ => rfl, linked.serves, linked.alone⟩

theorem Linked.sendBuf {buf : TxBuf}
    (here : state.txThread = .packet slot buf) :
    (state.sendBuf cfg slot buf).Linked := by
  have ready : ∀ tx ∈ buf.tx, (state.connTx tx).Ready := by
    intro tx own
    apply linked.prepared
    rw [here]
    exact mem_toList.mpr own
  have used := linked.serves slot (by rw [here]; rfl)
  have quiet : state.txThread.unanswered = none := by rw [here]; rfl
  unfold TxState.sendBuf
  simp only
  split
  · refine linked.setTxThread ?_ quiet rfl ?_
    · intro tx member
      simp only [TxThreadAt.hand, SendFragAt.owns, TxPiece.restTx, if_true,
        bind_none, toList_none, append_nil] at member
      exact ready tx (mem_toList.mp member)
    · rintro other rfl
      exact used
  · split
    · exact linked.setTxThread (by rintro _ ⟨⟩) quiet rfl (by rintro _ ⟨⟩)
    refine linked.setTxThread ?_ quiet rfl ?_
    · intro tx member
      exact ready tx (mem_toList.mp member)
    · rintro other rfl
      exact used

theorem Linked.setPoint {piece : TxPiece slots} {next : SendFragAt}
    (here : state.txThread = .piece piece point) (owns : next.owns = point.owns)
    (before : point.savedAt = none) (after : next.savedAt = none) :
    (state.setTxThread (.piece piece next)).Linked := by
  have silent : ∀ now : SendFragAt, now.savedAt = none →
      (TxThreadAt.piece piece now).unanswered = none := by
    intro now none
    cases now with
    | send => cases none
    | rollback => cases none
    | _ => rfl
  refine linked.setTxThread ?_ (by rw [here]; exact silent _ before)
    (silent _ after) ?_
  · intro tx member
    apply linked.prepared
    rw [here]
    simp only [TxThreadAt.hand, owns] at member ⊢
    exact member
  · intro slot serving
    apply linked.serves
    rw [here]
    exact serving

end

theorem progress_elsewhere {piece : TxPiece slots}
    (here : state.txThread = .piece piece point) (apart : slot ≠ piece.conn) :
    state.progress slot = [] := by
  unfold progress
  rw [here]
  cases point with
  | send => exact if_neg fun both => apart both.1.symm
  | rollback => exact if_neg fun both => apart both.1.symm
  | _ => rfl

theorem progress_up {piece : TxPiece slots}
    (here : state.txThread = .piece piece point)
    (listed : point.savedAt = some saved)
    (up : (state.conns piece.conn).linkUp = true) :
    state.progress piece.conn = [state.label piece] := by
  unfold progress
  rw [here]
  cases point with
  | send => exact if_pos ⟨rfl, up⟩
  | rollback => exact if_pos ⟨rfl, up⟩
  | _ => cases listed

theorem progress_down {piece : TxPiece slots}
    (here : state.txThread = .piece piece point)
    (down : (state.conns piece.conn).linkUp = false) :
    state.progress piece.conn = [] := by
  unfold progress
  rw [here]
  cases point with
  | send => exact if_neg fun both => by rw [down] at both; cases both.2
  | rollback => exact if_neg fun both => by rw [down] at both; cases both.2
  | _ => rfl

structure Recount (before after : BtConn) : Prop where
  queue : after.queued = before.queued
  complete : after.txComplete = before.txComplete
  called : after.called = before.called
  finished : after.finished = before.finished
  linkUp : after.linkUp = before.linkUp
  inUse : after.inUse = before.inUse
  deferred : after.deferred = before.deferred

theorem LinkOk.recount (ok : state.LinkOk slot)
    (conn : Recount (state.conns slot) (after.conns slot))
    (notify : after.notify = state.notify)
    (contexts : ∀ place, place ≠ .pending slot → place ≠ .txThread →
      SameAt state after place)
    (counted : (after.conns slot).counted after.connTx =
      (after.conns slot).flight ++ after.progress slot)
    (down : (after.conns slot).linkUp = false → (after.conns slot).flight = [])
    (named : ∀ tx ∈ (after.conns slot).txPending, (after.connTx tx).cb ≠ none) :
    after.LinkOk slot := by
  have holds : after.heldFor slot = state.heldFor slot := by
    unfold heldFor
    rw [notify]
  have handed : ∀ tx ∈ state.heldFor slot, after.connTx tx = state.connTx tx :=
    handed_of_notify fun _ => contexts _ nofun nofun
  have complete : SameAt state after (.complete slot) := contexts _ nofun nofun
  refine ⟨counted, down, ?_, ?_, ?_, ?_⟩
  · rw [conn.complete, holds]
    intro tx member
    rcases mem_append.mp member with listed | handled
    · rcases mem_append.mp listed with here | here
      · exact named tx here
      · rw [complete tx here]
        exact ok.named tx (mem_append_left _ (mem_append_right _ here))
    · rw [handed tx handled]
      exact ok.named tx (mem_append_right _ handled)
  · rw [conn.queue]
    intro tx member
    have same : SameAt state after (.queue slot) := contexts _ nofun nofun
    rw [same tx member]
    exact ok.ready tx member
  · rw [conn.called, conn.complete, conn.finished, holds, ← ok.calls]
    congr 1
    apply callbacks_congr
    intro tx member
    rcases mem_append.mp member with handled | here
    · exact handed tx handled
    · exact complete tx here
  · rw [conn.inUse, holds]
    exact ok.unused

theorem Linked.piece (linked : state.Linked) {piece : TxPiece slots}
    (here : state.txThread = .piece piece point)
    (conns : ∀ other, other ≠ piece.conn → after.conns other = state.conns other)
    (conn : Recount (state.conns piece.conn) (after.conns piece.conn))
    (notify : after.notify = state.notify) (callers : after.callers = state.callers)
    (contexts : ∀ place, place ≠ .pending piece.conn → place ≠ .txThread →
      SameAt state after place)
    (elsewhere : ∀ other, other ≠ piece.conn → after.progress other = [])
    (ok : after.LinkOk piece.conn)
    (prepared : ∀ tx ∈ after.txThread.hand, (after.connTx tx).Ready)
    (appended : ∀ call point saved, after.txThread = .piece call point →
      point.savedAt = some saved → (after.conns call.conn).linkUp = true →
        after.Appended call saved)
    (serves : ∀ slot, after.txThread.Serves slot → slot = piece.conn) :
    after.Linked := by
  refine ⟨?_, ?_, prepared, appended, ?_, by rw [notify]; exact linked.alone⟩
  · intro slot
    by_cases same : slot = piece.conn
    · rwa [same]
    have holds : after.heldFor slot = state.heldFor slot := by
      unfold heldFor
      rw [notify]
    refine (linked.links slot).frame (conns slot same) holds ?_
      (contexts _ nofun nofun) (contexts _ ?_ nofun) (contexts _ nofun nofun)
      (handed_of_notify fun _ => contexts _ nofun nofun)
    · rw [elsewhere slot same, progress_elsewhere here same]
    · intro place
      cases place
      exact same rfl
  · exact linked.callers.frame callers fun _ => contexts _ nofun nofun
  · intro slot serving
    rw [serves slot serving, conn.inUse, conn.deferred]
    apply linked.serves
    rw [here]
    rfl

/-- The list of pending contexts changes together with the packet that the
thread has put on it or takes off it. -/
theorem Linked.repended (linked : state.Linked) {piece : TxPiece slots}
    {before : SendFragAt} (here : state.txThread = .piece piece before)
    (up : (state.conns piece.conn).linkUp = true)
    (thread : after.txThread = .piece piece point)
    (conns : ∀ other, other ≠ piece.conn → after.conns other = state.conns other)
    (conn : Recount (state.conns piece.conn) (after.conns piece.conn))
    (flight : (after.conns piece.conn).flight = (state.conns piece.conn).flight)
    (notify : after.notify = state.notify) (callers : after.callers = state.callers)
    (contexts : ∀ place, place ≠ .pending piece.conn → SameAt state after place)
    (counted : (after.conns piece.conn).counted after.connTx =
      (state.conns piece.conn).flight ++ after.progress piece.conn)
    (named : ∀ tx ∈ (after.conns piece.conn).txPending, (after.connTx tx).cb ≠ none)
    (prepared : ∀ tx ∈ after.txThread.hand,
      tx ∈ state.txThread.hand ∨ (after.connTx tx).Ready)
    (appended : ∀ saved, point.savedAt = some saved → after.Appended piece saved) :
    after.Linked := by
  refine linked.piece here conns conn notify callers
    (fun place other _ => contexts place other) ?_ ?_ ?_ ?_ ?_
  · intro other apart
    exact progress_elsewhere thread apart
  · refine (linked.links piece.conn).recount conn notify
      (fun place other _ => contexts place other) ?_ ?_ named
    · rw [counted, flight]
    · rw [conn.linkUp, up]
      exact nofun
  · intro tx member
    rcases prepared tx member with hand | ready
    · rw [contexts .txThread nofun tx hand]
      exact linked.prepared tx hand
    · exact ready
  · intro call point kept stands list _
    rw [thread] at stands
    cases stands
    exact appended kept list
  · intro slot serving
    rw [thread] at serving
    exact serving.symm

theorem Linked.appendPending (linked : state.Linked)
    (once : ∀ tx, state.count tx ≤ 1) {piece : TxPiece slots}
    (here : state.txThread = .piece piece .append)
    (up : (state.conns piece.conn).linkUp = true)
    (room : (state.conns piece.conn).countedPackets state.connTx + 1 < 2 ^ 32) :
    (state.appendPending piece).Linked := by
  have named : ∀ tx ∈ (state.conns piece.conn).txPending,
      (state.connTx tx).cb ≠ none := fun tx member =>
    (linked.links piece.conn).named tx (mem_append_left _ (mem_append_left _ member))
  have counted : (state.conns piece.conn).counted state.connTx =
      (state.conns piece.conn).flight := by
    rw [(linked.links piece.conn).counted, progress_of_idle (by rw [here]; rfl),
      append_nil]
  have prepared : ∀ tx ∈ piece.restTx,
      tx ∈ state.txThread.hand ∨ (state.connTx tx).Ready := fun tx member =>
    .inl (here ▸ mem_append_right _ member)
  have elsewhere : ∀ (conn : BtConn) (other : Fin slots), other ≠ piece.conn →
      update state.conns piece.conn conn other = state.conns other :=
    fun conn other apart => update_of_ne apart ..
  unfold TxState.appendPending
  cases own : piece.tx with
  | some tx =>
    have ready : (state.connTx tx).Ready := by
      apply linked.prepared
      rw [here]
      apply mem_append_left
      rw [own]
      exact mem_singleton_self tx
    refine linked.repended here up rfl (elsewhere _) ?_ ?_ rfl rfl
      (fun _ _ _ _ => rfl) ?_ ?_ prepared ?_
    · rw [conns_setThread]
      exact ⟨rfl, rfl, rfl, rfl, rfl, rfl, rfl⟩
    · rw [conns_setThread]
      rfl
    · rw [progress_up rfl rfl (by rw [conns_setThread]; exact up), ← counted,
        conns_setThread]
      have alone := ready.alone
      have split := BtConn.counted_append state.connTx
        (state.conns piece.conn) (state.conns piece.conn).txPending tx
        (state.conns piece.conn).pendingNoCb
      rw [alone] at split
      simp only [label, own, bind_some]
      exact split
    · rw [conns_setThread]
      intro seen member
      rcases mem_append.mp member with before | new
      · exact named seen before
      · rw [mem_singleton.mp new]
        exact ready.named
    · rintro _ ⟨⟩
      refine ⟨?_, ?_, nofun⟩
      · intro seen same
        rw [own] at same
        cases same
        exact ⟨ready, _, by rw [conns_setThread]; rfl⟩
      · intro none
        rw [own] at none
        cases none
  | none =>
    cases last : (state.conns piece.conn).txPending.getLast? with
    | some tx =>
      obtain ⟨front, listed⟩ := getLast?_eq_some_iff.mp last
      have member : tx ∈ state.held (.pending piece.conn) := mem_pending listed
      have small : (state.connTx tx).pendingNoCb + 1 < 2 ^ 32 := by
        unfold BtConn.countedPackets at room
        rw [listed, map_append, sum_append] at room
        simp only [map_cons, map_nil, sum_cons, sum_nil] at room
        omega
      simp only [last]
      refine linked.repended here up rfl (fun _ _ => rfl)
        ⟨rfl, rfl, rfl, rfl, rfl, rfl, rfl⟩ rfl rfl rfl ?_ ?_ ?_
        (fun tx member => .inl (here ▸ mem_append_right _ member)) ?_
      · intro place other
        apply sameAt_of_changed once member _ other
        intro seen different
        exact update_of_ne different ..
      · have distinct : (state.conns piece.conn).txPending.Nodup :=
          held_nodup once (.pending piece.conn)
        have before := BtConn.counted_append state.connTx
          (state.conns piece.conn) front tx
          (state.conns piece.conn).pendingNoCb
        rw [← listed] at before
        rw [progress_up rfl rfl (by exact up), ← counted]
        change (state.conns piece.conn).counted (update state.connTx
          tx ⟨(state.connTx tx).cb, ((state.connTx tx).pendingNoCb + 1) % 2 ^ 32⟩) =
          ((state.conns piece.conn).withPending (state.conns piece.conn).txPending
            (state.conns piece.conn).pendingNoCb).counted state.connTx ++ _
        rw [BtConn.counted_update _ listed distinct, before,
          Nat.mod_eq_of_lt small, replicate_succ']
        simp only [label, own, bind_none, append_assoc, cons_append]
      · intro seen shown
        exact ne_of_eq_of_ne (BtConnTx.cb_update seen) (named seen shown)
      · rintro _ ⟨⟩
        refine ⟨?_, nofun, ?_⟩
        · intro seen same
          rw [own] at same
          cases same
        · intro _ seen same
          cases same
          exact .inr ⟨front, listed⟩
    | none =>
      have empty : (state.conns piece.conn).txPending = [] :=
        getLast?_eq_none_iff.mp last
      have small : (state.conns piece.conn).pendingNoCb + 1 < 2 ^ 32 := by
        unfold BtConn.countedPackets at room
        omega
      simp only [last]
      refine linked.repended here up rfl (elsewhere _) ?_ ?_ rfl rfl
        (fun _ _ _ _ => rfl) ?_ ?_ prepared ?_
      · rw [conns_setThread]
        exact ⟨rfl, rfl, rfl, rfl, rfl, rfl, rfl⟩
      · rw [conns_setThread]
        rfl
      · rw [progress_up rfl rfl (by rw [conns_setThread]; exact up), ← counted,
          conns_setThread]
        simp only [label, own, bind_none]
        unfold BtConn.counted BtConn.withPending
        rw [Nat.mod_eq_of_lt small, empty, replicate_succ']
        simp
      · rw [conns_setThread]
        exact named
      · rintro _ ⟨⟩
        refine ⟨?_, ?_, nofun⟩
        · intro seen same
          rw [own] at same
          cases same
        · intro _ _
          rw [conns_setThread]
          exact empty

theorem afterPiece_unanswered (piece : TxPiece slots) :
    (afterPiece piece).unanswered = none := by
  unfold afterPiece
  cases piece.rest <;> rfl

variable {piece : TxPiece slots}

section

variable (linked : state.Linked)
include linked

section

variable {saved : Option Nat}
  (here : state.txThread = .piece piece (.send saved))
include here

theorem Linked.sent : (state.sent piece).Linked := by
  have ok := linked.links piece.conn
  have mine : (state.sent piece).conns piece.conn =
      (state.conns piece.conn).withFlight (if (state.conns piece.conn).linkUp
          then (state.conns piece.conn).flight ++ [state.label piece]
          else (state.conns piece.conn).flight) := update_self ..
  have silent : ∀ slot, (state.sent piece).progress slot = [] :=
    fun slot => progress_of_idle (afterPiece_unanswered piece)
  have hand : (afterPiece piece).hand = piece.restTx := by
    unfold afterPiece TxPiece.restTx
    cases piece.rest <;> rfl
  refine linked.piece here (fun other apart => update_of_ne apart ..)
    ?_ rfl rfl (fun _ _ _ _ _ => rfl) (fun other _ => silent other) ?_ ?_ ?_ ?_
  · rw [mine]
    exact ⟨rfl, rfl, rfl, rfl, rfl, rfl, rfl⟩
  · refine ok.recount (by rw [mine]; exact ⟨rfl, rfl, rfl, rfl, rfl, rfl, rfl⟩)
      rfl (fun _ _ _ _ _ => rfl) ?_ ?_ ?_
    · rw [silent, mine, append_nil]
      have counted := ok.counted
      cases up : (state.conns piece.conn).linkUp with
      | true =>
        rw [progress_up here rfl up] at counted
        exact counted
      | false =>
        rw [progress_down here up, append_nil] at counted
        exact counted
    · rw [mine]
      intro down
      change (state.conns piece.conn).linkUp = false at down
      simp only [down]
      exact ok.down down
    · rw [mine]
      exact fun tx member => ok.named tx
        (mem_append_left _ (mem_append_left _ member))
  · intro tx member
    change tx ∈ (afterPiece piece).hand at member
    rw [hand] at member
    apply linked.prepared
    rw [here]
    exact member
  · intro call point kept stands listed _
    change afterPiece piece = _ at stands
    have none := afterPiece_unanswered piece
    rw [stands] at none
    cases point with
    | send => cases none
    | rollback => cases none
    | _ => cases listed
  · intro slot serving
    change (afterPiece piece).Serves slot at serving
    unfold afterPiece at serving
    cases rest : piece.rest with
    | none => rw [rest] at serving; cases serving
    | some => rw [rest] at serving; exact serving.symm

theorem Linked.refused :
    (state.setTxThread (.piece piece (.rollback saved))).Linked := by
  have progress : ∀ slot, (state.setTxThread
      (.piece piece (.rollback saved))).progress slot = state.progress slot := by
    intro slot
    unfold progress
    rw [here]
    rfl
  refine ⟨?_, linked.callers.frame rfl fun _ _ _ => rfl, ?_, ?_, ?_, linked.alone⟩
  · intro slot
    exact (linked.links slot).frame rfl rfl (progress slot) (fun _ _ => rfl)
      (fun _ _ => rfl) (fun _ _ => rfl) fun _ _ => rfl
  · intro tx member
    apply linked.prepared
    rw [here]
    exact member
  · intro call point kept stands listed up
    cases stands
    cases listed
    exact (linked.appended piece (.send saved) saved here rfl up).frame rfl
      fun _ _ => rfl
  · intro slot serving
    apply linked.serves
    rw [here]
    exact serving

end

theorem Linked.rollbackPending (once : ∀ tx, state.count tx ≤ 1)
    (here : state.txThread = .piece piece (.rollback saved))
    (up : (state.conns piece.conn).linkUp = true) (still : piece.tx = none →
      ∀ tx ∈ saved, tx ∈ (state.conns piece.conn).txPending) :
    (state.rollbackPending piece saved).Linked := by
  have ok := linked.links piece.conn
  have counted := ok.counted
  rw [progress_up here rfl up] at counted
  have prepared : ∀ tx ∈ piece.restTx, tx ∈ state.txThread.hand := fun tx member =>
    here ▸ mem_append_right _ member
  have appended := linked.appended piece _ saved here rfl up
  have named : ∀ tx ∈ (state.conns piece.conn).txPending,
      (state.connTx tx).cb ≠ none := fun tx member =>
    ok.named tx (mem_append_left _ (mem_append_left _ member))
  have distinct : (state.conns piece.conn).txPending.Nodup :=
    held_nodup once (.pending piece.conn)
  have elsewhere : ∀ (conn : BtConn) (other : Fin slots), other ≠ piece.conn →
      update state.conns piece.conn conn other = state.conns other :=
    fun conn other apart => update_of_ne apart ..
  unfold TxState.rollbackPending
  cases own : piece.tx with
  | some tx =>
    obtain ⟨ready, front, listed⟩ := appended.own tx own
    have erased : (state.conns piece.conn).txPending.erase tx = front := by
      rw [listed] at distinct ⊢
      have apart : tx ∉ front := fun before =>
        (disjoint_of_nodup_append distinct) before (mem_singleton_self tx)
      rw [erase_append_right _ apart, erase_cons_head, append_nil]
    refine linked.repended here up rfl (elsewhere _) ?_ ?_ rfl rfl
      (fun _ _ _ _ => rfl) ?_ ?_ ?_ ?_
    · rw [conns_setThread]
      exact ⟨rfl, rfl, rfl, rfl, rfl, rfl, rfl⟩
    · rw [conns_setThread]
      rfl
    · have split := BtConn.counted_append state.connTx
        (state.conns piece.conn) front tx (state.conns piece.conn).pendingNoCb
      rw [conns_setThread, erased, progress_of_idle rfl, append_nil]
      rw [← listed, ready.alone] at split
      rw [label, own] at counted
      exact append_cancel_right (split.symm.trans counted)
    · rw [conns_setThread, erased]
      intro seen member
      apply named
      rw [listed]
      exact mem_append_left _ member
    · intro seen member
      rcases mem_append.mp member with same | rest
      · rw [own] at same
        cases mem_singleton.mp same
        exact .inr ready
      · exact .inl (prepared seen rest)
    · exact nofun
  | none =>
    have label : state.label piece = none := by
      unfold label
      rw [own]
      rfl
    rw [label] at counted
    have prepared : ∀ tx ∈ piece.tx.toList ++ piece.restTx, tx ∈ state.txThread.hand :=
      own ▸ prepared
    cases saved with
    | some tx =>
      have member := still own tx rfl
      obtain ⟨front, listed⟩ : ∃ front,
          (state.conns piece.conn).txPending = front ++ [tx] := by
        rcases appended.last own tx rfl with none | last
        · rw [none] at member
          cases member
        · exact last
      have split := BtConn.counted_append state.connTx
        (state.conns piece.conn) front tx
        (state.conns piece.conn).pendingNoCb
      rw [← listed] at split
      change (state.conns piece.conn).counted state.connTx = _ at split
      obtain ⟨count, several⟩ : ∃ count,
          (state.connTx tx).pendingNoCb = count + 1 := by
        cases some : (state.connTx tx).pendingNoCb with
        | zero =>
          rw [some, counted] at split
          have last := append_inj_right' split rfl
          exact absurd (cons.inj last).1.symm (named tx member)
        | succ count => exact ⟨count, rfl⟩
      refine linked.repended here up rfl (fun _ _ => rfl)
        ⟨rfl, rfl, rfl, rfl, rfl, rfl, rfl⟩ rfl rfl rfl ?_ ?_ ?_
        (fun tx member => .inl (prepared tx member)) ?_
      · intro place other
        apply sameAt_of_changed once (mem_pending listed) _ other
        intro seen different
        exact update_of_ne different ..
      · rw [progress_of_idle rfl, append_nil]
        apply @append_cancel_right _ _ [none]
        rw [← counted]
        change (state.conns piece.conn).counted (update
          state.connTx tx ⟨(state.connTx tx).cb,
            minusOne (state.connTx tx).pendingNoCb⟩) ++ _ = _
        rw [BtConn.counted_update _ listed distinct, split, several, replicate_succ']
        simp only [minusOne, Nat.add_one_ne_zero, if_false,
          Nat.add_sub_cancel, append_assoc, cons_append]
      · intro seen shown
        exact ne_of_eq_of_ne (BtConnTx.cb_update seen) (named seen shown)
      · exact nofun
    | none =>
      have empty := appended.first own rfl
      obtain ⟨count, several⟩ : ∃ count,
          (state.conns piece.conn).pendingNoCb = count + 1 := by
        cases some : (state.conns piece.conn).pendingNoCb with
        | zero =>
          unfold BtConn.counted at counted
          rw [some, empty] at counted
          simp at counted
        | succ count => exact ⟨count, rfl⟩
      refine linked.repended here up rfl (elsewhere _) ?_ ?_ rfl rfl
        (fun _ _ _ _ => rfl) ?_ ?_
        (fun tx member => .inl (prepared tx member)) ?_
      · rw [conns_setThread]
        exact ⟨rfl, rfl, rfl, rfl, rfl, rfl, rfl⟩
      · rw [conns_setThread]
        rfl
      · rw [conns_setThread, progress_of_idle rfl, append_nil]
        apply @append_cancel_right _ _ [none]
        rw [← counted]
        unfold BtConn.counted BtConn.withPending
        rw [several, empty, replicate_succ']
        simp [minusOne]
      · rw [conns_setThread]
        exact named
      · exact nofun

theorem Linked.sendFail (once : ∀ tx, state.count tx ≤ 1)
    (here : state.txThread = .piece piece .fail) :
    (state.sendFail cfg piece).Linked := by
  have given : (state.givePkts cfg piece.conn).Linked := linked.setPkts _ _
  have kept : (state.givePkts cfg piece.conn).txThread = .piece piece .fail := here
  have idle : ((state.givePkts cfg piece.conn).setTxThread .idle).Linked :=
    given.setTxThread nofun (by rw [kept]; rfl) rfl nofun
  have freed : (TxState.txFreeAll piece.tx.toList
      ((state.givePkts cfg piece.conn).setTxThread .idle)).Linked := by
    apply idle.txFreeAll
    intro tx member
    have hand : tx ∈ state.held .txThread := by
      change tx ∈ state.txThread.hand
      rw [here]
      exact mem_append_left _ member
    apply unplaced_of_left once hand not_mem_nil
    intro other apart
    cases other with
    | txThread => exact absurd rfl apart
    | _ => rfl
  unfold TxState.sendFail
  cases own : piece.tx with
  | none =>
    rw [own] at freed
    exact freed
  | some =>
    rw [own] at freed
    exact freed

theorem Linked.atConn
    (conns : ∀ other, other ≠ slot → after.conns other = state.conns other)
    (inUse : (after.conns slot).inUse = (state.conns slot).inUse)
    (deferred : (after.conns slot).deferred = (state.conns slot).deferred)
    (thread : after.txThread = state.txThread)
    (notify : after.notify = state.notify) (callers : after.callers = state.callers)
    (contexts : ∀ place, place ≠ .pending slot → SameAt state after place)
    (ok : after.LinkOk slot)
    (appended : ∀ piece point saved, state.txThread = .piece piece point →
      point.savedAt = some saved → piece.conn = slot →
      (after.conns slot).linkUp = true → after.Appended piece saved) :
    after.Linked := by
  have elsewhere : ∀ other, other ≠ slot → SameAt state after (.pending other) := by
    intro other apart
    apply contexts
    intro same
    cases same
    exact apart rfl
  refine ⟨?_, ?_, ?_, ?_, ?_, by rw [notify]; exact linked.alone⟩
  · intro other
    by_cases same : other = slot
    · rwa [same]
    have holds : after.heldFor other = state.heldFor other := by
      unfold heldFor
      rw [notify]
    exact (linked.links other).frame (conns other same) holds
      (linked.progress_frame thread (by rw [conns other same])
        (elsewhere other same))
      (contexts _ nofun) (elsewhere other same) (contexts _ nofun)
      (handed_of_notify fun _ => contexts _ nofun)
  · exact linked.callers.frame callers fun _ => contexts _ nofun
  · intro tx member
    rw [thread] at member
    rw [contexts .txThread nofun tx member]
    exact linked.prepared tx member
  · intro piece point saved stands listed up
    rw [thread] at stands
    by_cases same : piece.conn = slot
    · subst same
      exact appended piece point saved stands listed rfl up
    rw [conns _ same] at up
    exact (linked.appended piece point saved stands listed up).frame
      (by rw [conns _ same]) (elsewhere _ same)
  · intro other serving
    rw [thread] at serving
    by_cases same : other = slot
    · subst same
      rw [inUse, deferred]
      exact linked.serves other serving
    · rw [conns other same]
      exact linked.serves other serving

theorem Linked.completedCount (slot : Fin slots)
    (several : (state.conns slot).pendingNoCb = count + 1)
    (some : (state.conns slot).flight ≠ []) :
    (state.setConn slot ((state.conns slot).packetDone.withPending
      (state.conns slot).txPending count)).Linked := by
  have ok := linked.links slot
  obtain ⟨_, _, flight⟩ := exists_cons_of_ne_nil some
  have counted := ok.counted
  unfold BtConn.counted at counted
  rw [flight, several, replicate_succ, cons_append, cons_append] at counted
  obtain ⟨same, counted⟩ := cons.inj counted
  have progress : (state.setConn slot
      ((state.conns slot).packetDone.withPending (state.conns slot).txPending
        count)).progress slot = state.progress slot :=
    linked.progress_frame rfl (by rw [conns_setConn]; rfl) fun _ _ => rfl
  refine linked.atConn (fun other apart => update_of_ne apart ..)
    (by rw [conns_setConn]; rfl) (by rw [conns_setConn]; rfl) rfl rfl rfl
    (fun _ _ _ _ => rfl) ?_ ?_
  · refine ⟨?_, ?_, ?_, ?_, ?_, ?_⟩
    · rw [progress, conns_setConn]
      unfold BtConn.packetDone BtConn.withPending BtConn.counted
      rw [flight]
      exact counted
    · rw [conns_setConn]
      intro down
      have none := ok.down down
      rw [flight] at none
      cases none
    · rw [conns_setConn]
      exact ok.named
    · rw [conns_setConn]
      exact ok.ready
    · rw [conns_setConn]
      change (state.conns slot).called ++ state.callbacks (state.heldFor slot ++
        (state.conns slot).txComplete) = ((state.conns slot).finished ++
            (state.conns slot).flight.head?.toList).filterMap id
      rw [ok.calls, flight, ← same]
      simp
    · rw [conns_setConn]
      exact ok.unused
  · rintro piece point saved stands listed rfl up
    have before : (state.conns piece.conn).linkUp = true := by
      rw [conns_setConn] at up
      exact up
    exact (linked.appended piece point saved stands listed before).frame
      (by rw [conns_setConn]; rfl) fun _ _ => rfl

end

def contextDone (state : TxState slots threads) (slot : Fin slots) (tx : Nat)
    (rest : List Nat) : TxState slots threads :=
  (state.setConn slot (((state.conns slot).packetDone.withPending rest
      (state.connTx tx).pendingNoCb).withComplete
        ((state.conns slot).packetDone.txComplete ++ [tx]))).setTx tx
          ⟨(state.connTx tx).cb, 0⟩

theorem Appended.later {first : Option Nat} {more : List (Option Nat)}
    (appended : state.Appended piece saved)
    (here : piece.conn = slot) (distinct : (state.conns slot).txPending.Nodup)
    (counted : (state.conns slot).counted state.connTx =
      first :: more ++ [state.label piece])
    (zero : (state.conns slot).pendingNoCb = 0)
    (pending : (state.conns slot).txPending = tx :: rest) :
    ∀ own ∈ piece.tx, own ≠ tx ∧ ∃ front, rest = front ++ [own] := by
  intro own mine
  obtain ⟨ready, front, listed⟩ := appended.own own mine
  rw [here, pending] at listed
  cases front with
  | nil =>
    obtain ⟨rfl, rfl⟩ := cons.inj listed
    unfold BtConn.counted at counted
    rw [zero, pending] at counted
    simp [ready.alone] at counted
  | cons head front =>
    obtain ⟨rfl, split⟩ := cons.inj listed
    refine ⟨?_, front, split⟩
    rintro rfl
    rw [pending, split] at distinct
    exact (nodup_cons.mp distinct).1
      (mem_append_right _ (mem_singleton_self own))

theorem Linked.contextDone (linked : state.Linked) (once : ∀ tx, state.count tx ≤ 1)
    (zero : (state.conns slot).pendingNoCb = 0)
    (pending : (state.conns slot).txPending = tx :: rest)
    (some : (state.conns slot).flight ≠ []) :
    (state.contextDone slot tx rest).Linked := by
  have ok := linked.links slot
  have listed : tx ∈ state.held (.pending slot) := by
    change tx ∈ (state.conns slot).txPending
    rw [pending]
    exact mem_cons_self
  have distinct : (state.conns slot).txPending.Nodup :=
    held_nodup once (.pending slot)
  have apart : tx ∉ rest := by
    rw [pending] at distinct
    exact (nodup_cons.mp distinct).1
  have named : (state.connTx tx).cb ≠ none := by
    apply ok.named
    rw [pending]
    exact mem_append_left _ (mem_append_left _ mem_cons_self)
  obtain ⟨first, later, flight⟩ := exists_cons_of_ne_nil some
  have counted := ok.counted
  rw [flight] at counted
  have other : ∀ seen, seen ≠ tx →
      (state.contextDone slot tx rest).connTx seen = state.connTx seen :=
    fun seen different => update_of_ne different ..
  have callback : ∀ seen, ((state.contextDone slot tx rest).connTx seen).cb =
      (state.connTx seen).cb := BtConnTx.cb_update
  have contexts : ∀ place, place ≠ .pending slot →
      SameAt state (state.contextDone slot tx rest) place :=
    fun place elsewhere => sameAt_of_changed once listed other elsewhere
  have mine : (state.contextDone slot tx rest).conns slot =
      ((state.conns slot).packetDone.withPending rest
        (state.connTx tx).pendingNoCb).withComplete
          ((state.conns slot).packetDone.txComplete ++ [tx]) :=
    update_self ..
  have progress : (state.contextDone slot tx rest).progress slot =
      state.progress slot := by
    unfold TxState.progress
    rw [mine]
    change (match state.txThread.unanswered with
      | Option.some piece => if piece.conn = slot ∧
          (state.conns slot).linkUp = true then
            [(state.contextDone slot tx rest).label piece] else []
      | none => []) = _
    cases waits : state.txThread.unanswered with
    | none => rfl
    | some =>
      unfold label
      simp only [callback]
  have split : first = (state.connTx tx).cb ∧
      replicate (state.connTx tx).pendingNoCb none ++
        (rest.flatMap fun seen => (state.connTx seen).cb ::
          replicate (state.connTx seen).pendingNoCb none) =
        later ++ state.progress slot := by
    unfold BtConn.counted at counted
    rw [zero, pending, flatMap_cons] at counted
    obtain ⟨same, rest⟩ := cons.inj counted
    exact ⟨same.symm, rest⟩
  refine linked.atConn (fun seen different => update_of_ne different ..)
    (by rw [mine]; rfl) (by rw [mine]; rfl) rfl rfl rfl contexts ?_ ?_
  · refine ⟨?_, ?_, ?_, ?_, ?_, ?_⟩
    · rw [progress, mine]
      have same : (((state.conns slot).packetDone.withPending rest
          (state.connTx tx).pendingNoCb).withComplete
            ((state.conns slot).packetDone.txComplete ++ [tx])).counted
              (state.contextDone slot tx rest).connTx =
          (((state.conns slot).packetDone.withPending rest
            (state.connTx tx).pendingNoCb).withComplete
              ((state.conns slot).packetDone.txComplete ++ [tx])).counted
                state.connTx := by
        apply BtConn.counted_congr
        intro seen member
        exact other seen fun same => apart (same ▸ member)
      rw [same]
      unfold BtConn.packetDone
      rw [flight]
      exact split.2
    · rw [mine]
      intro down
      have none := ok.down down
      rw [flight] at none
      cases none
    · rw [mine]
      intro seen member
      rw [callback]
      have places : seen = tx ∨ seen ∈ (state.conns slot).txPending ++
          (state.conns slot).txComplete ++ state.heldFor slot := by
        rcases mem_append.mp member with listed | handled
        · rcases mem_append.mp listed with here | here
          · right
            rw [pending]
            exact mem_append_left _ (mem_append_left _ (mem_cons_of_mem _ here))
          · rcases mem_append.mp here with before | new
            · right
              exact mem_append_left _ (mem_append_right _ before)
            · exact .inl (mem_singleton.mp new)
        · right
          exact mem_append_right _ handled
      rcases places with rfl | member
      · exact named
      · exact ok.named seen member
    · rw [mine]
      intro seen member
      have same : SameAt state (state.contextDone slot tx rest) (.queue slot) :=
        contexts _ nofun
      rw [same seen member]
      exact ok.ready seen member
    · rw [mine]
      have calls : (state.contextDone slot tx rest).callbacks =
          state.callbacks := by
        funext txs
        exact filterMap_congr fun seen _ => callback seen
      obtain ⟨_, named⟩ := ne_none_iff_exists'.mp named
      rw [calls]
      change (state.conns slot).called ++ state.callbacks (state.heldFor slot ++
        ((state.conns slot).txComplete ++ [tx])) = ((state.conns slot).finished ++
            (state.conns slot).flight.head?.toList).filterMap id
      rw [filterMap_append, ← ok.calls, flight, split.1]
      unfold callbacks
      simp [named]
    · rw [mine]
      exact ok.unused
  · rintro piece point saved stands entered rfl up
    have before : (state.conns piece.conn).linkUp = true := by
      rw [mine] at up
      exact up
    have appended := linked.appended piece point saved stands entered before
    rw [progress_up stands entered before] at counted
    have after := appended.later rfl distinct counted zero pending
    refine ⟨?_, ?_, ?_⟩
    · intro seen holds
      obtain ⟨different, front, split⟩ := after seen holds
      rw [other seen different, mine]
      exact ⟨(appended.own seen holds).1, front, split⟩
    · intro none first
      have empty := appended.first none first
      rw [pending] at empty
      cases empty
    · intro none seen kept
      rw [mine]
      rcases appended.last none seen kept with empty | ⟨front, split⟩
      · rw [pending] at empty
        cases empty
      rw [pending] at split
      cases front with
      | nil => exact .inl (cons.inj split).2
      | cons head front => exact .inr ⟨front, (cons.inj split).2⟩

theorem Linked.completedPacket (linked : state.Linked)
    (once : ∀ tx, state.count tx ≤ 1) (slot : Fin slots)
    (some : (state.conns slot).flight ≠ []) :
    (state.completedPacket cfg slot).Linked := by
  unfold TxState.completedPacket
  simp only
  split
  · rename_i several
    change (state.conns slot).pendingNoCb ≠ 0 at several
    obtain ⟨count, plus⟩ := Nat.exists_eq_succ_of_ne_zero several
    have counted := linked.completedCount slot plus some
    have less : (state.conns slot).packetDone.pendingNoCb - 1 = count := by
      change (state.conns slot).pendingNoCb - 1 = count
      omega
    rw [less]
    exact counted.setPkts _ _
  · rename_i zero
    have zero : (state.conns slot).pendingNoCb = 0 := not_not.mp zero
    cases pending : (state.conns slot).packetDone.txPending with
    | nil =>
      change (state.conns slot).txPending = [] at pending
      have counted := (linked.links slot).counted
      unfold BtConn.counted at counted
      rw [zero, pending] at counted
      exact absurd (append_eq_nil_iff.mp counted.symm).1 some
    | cons => exact (linked.contextDone once zero pending some).setPkts _ _

theorem completedPacket_flight (slot : Fin slots) :
    ((state.completedPacket cfg slot).conns slot).flight =
      (state.conns slot).flight.tail := by
  unfold TxState.completedPacket
  simp only
  split
  · change ((update state.conns slot _) slot).flight = _
    rw [update_self]
    rfl
  · split
    · change ((update state.conns slot _) slot).flight = _
      rw [update_self]
      rfl
    · change ((update state.conns slot _) slot).flight = _
      rw [update_self]
      rfl

section

variable (holds : TxState slots threads → Prop)
  (step : ∀ state slot, holds state → (∀ tx, state.count tx ≤ 1) →
    (state.conns slot).flight ≠ [] → holds (state.completedPacket cfg slot))
include step

theorem completedPackets_keeps (slot : Fin slots) (once : ∀ tx, state.count tx ≤ 1)
    (some : count ≤ (state.conns slot).flight.length) (start : holds state) :
    holds (completedPackets cfg slot count state) := by
  induction count generalizing state with
  | zero => exact start
  | succ count ih =>
    have nonempty : (state.conns slot).flight ≠ [] := by
      intro none
      rw [none] at some
      simp at some
    apply ih _ _ (step state slot start once nonempty)
    · intro tx
      have moved : (state.completedPacket cfg slot).count tx + 0 =
          state.count tx := moves_completedPacket slot tx
      have one := once tx
      omega
    · rw [completedPacket_flight, length_tail]
      omega

theorem hciNumCompletedPackets_keeps (once : ∀ tx, state.count tx ≤ 1)
    (reports : List (Fin slots × Nat)) (start : holds state) :
    holds (hciNumCompletedPackets cfg reports state) := by
  induction reports generalizing state with
  | nil => exact start
  | cons report rest ih =>
    apply ih _ (completedPackets_keeps holds step report.1 once
      (min_le_right _ _) start)
    intro tx
    have moved : (TxState.completedPackets cfg report.1 (min report.2
        (state.conns report.1).flight.length) state).count tx + 0 =
          state.count tx := moves_completedPackets report.1 _ tx
    have one := once tx
    omega

end

theorem Linked.hciNumCompletedPackets (linked : state.Linked)
    (once : ∀ tx, state.count tx ≤ 1) (reports : List (Fin slots × Nat)) :
    (hciNumCompletedPackets cfg reports state).Linked :=
  hciNumCompletedPackets_keeps _ (fun _ slot linked once some =>
    linked.completedPacket once slot some) once reports linked

theorem Linked.dropped (linked : state.Linked) (slot : Fin slots) :
    (state.setConn slot ((((state.conns slot).withState
      .disconnectComplete).withPending [] 0).withFlight [])).Linked := by
  have ok := linked.links slot
  have silent : (state.setConn slot ((((state.conns slot).withState
      .disconnectComplete).withPending [] 0).withFlight [])).progress slot = [] := by
    unfold progress
    cases (state.setConn slot ((((state.conns slot).withState
      .disconnectComplete).withPending [] 0).withFlight [])).txThread.unanswered
      with
    | none => rfl
    | some piece =>
      apply if_neg
      rw [conns_setConn]
      exact fun both => nomatch both.2
  refine linked.atConn (fun other apart => update_of_ne apart ..)
    (by rw [conns_setConn]; rfl) (by rw [conns_setConn]; rfl) rfl rfl rfl
    (fun _ _ _ _ => rfl) ?_ ?_
  · refine ⟨?_, ?_, ?_, ?_, ?_, ?_⟩
    · rw [silent, conns_setConn]
      rfl
    · rw [conns_setConn]
      exact fun _ => rfl
    · rw [conns_setConn]
      intro tx member
      apply ok.named
      rcases mem_append.mp member with listed | handled
      · exact mem_append_left _ (mem_append_right _ listed)
      · exact mem_append_right _ handled
    · rw [conns_setConn]
      exact ok.ready
    · rw [conns_setConn]
      exact ok.calls
    · rw [conns_setConn]
      exact ok.unused
  · rintro piece _ _ _ _ rfl up
    rw [conns_setConn] at up
    cases up

theorem Linked.givePktsTimes (linked : state.Linked) (slot : Fin slots)
    (times : Nat) : (givePktsTimes cfg slot times state).Linked := by
  induction times generalizing state with
  | zero => exact linked
  | succ times ih => exact ih (linked.setPkts _ _)

theorem givePktsTimes_held (slot : Fin slots) (times : Nat)
    (place : TxPlace slots threads) :
    (givePktsTimes cfg slot times state).held place = state.held place := by
  induction times generalizing state with
  | zero => rfl
  | succ times ih =>
    unfold TxState.givePktsTimes
    rw [ih]
    cases place <;> rfl

section

variable (linked : state.Linked)
include linked

theorem Linked.processUnackTx (slot : Fin slots) {pending : List Nat}
    (unplaced : ∀ tx ∈ pending, state.Unplaced tx) :
    (processUnackTx cfg slot pending count state).Linked := by
  induction pending generalizing state count with
  | nil => exact linked.givePktsTimes slot count
  | cons first rest ih =>
    have given : (TxState.givePktsTimes cfg slot count state).Linked :=
      linked.givePktsTimes slot count
    have away : ∀ tx ∈ first :: rest,
        (TxState.givePktsTimes cfg slot count state).Unplaced tx := by
      intro tx member place other
      rw [givePktsTimes_held]
      exact unplaced tx member place other
    refine ih ((given.txFree (away first mem_cons_self)).setPkts _ _) ?_
    intro tx member place other
    have apart := away tx (mem_cons_of_mem _ member) place other
    cases place with
    | free => exact absurd rfl other
    | _ => exact apart

theorem Linked.hciDisconnCompletePrio (once : ∀ tx, state.count tx ≤ 1)
    (slot : Fin slots) : (state.hciDisconnCompletePrio cfg slot).Linked := by
  unfold TxState.hciDisconnCompletePrio
  simp only
  split
  · apply (linked.dropped slot).processUnackTx
    intro tx member
    have here : tx ∈ state.held (.pending slot) := member
    apply unplaced_of_left once here
    · change tx ∉ ((update state.conns slot _) slot).txPending
      rw [update_self]
      exact not_mem_nil
    · intro other apart
      exact held_setConn (.inr rfl) (.inl apart) (.inr rfl)
  · exact linked

theorem Linked.setNotify
    (same : ∀ slot, now.handFor slot = (state.notify run).handFor slot) :
    (state.setNotify run now).Linked := by
  have each : ∀ (other : NotifyRun) (slot : Fin slots),
      ((state.setNotify run now).notify other).handFor slot =
        (state.notify other).handFor slot := by
    intro other slot
    by_cases mine : other = run
    · subst mine
      change ((update state.notify other now) other).handFor slot = _
      rw [update_self, same]
    · change ((update state.notify run now) other).handFor slot = _
      rw [update_of_ne mine]
  have holds : ∀ slot, (state.setNotify run now).heldFor slot =
      state.heldFor slot := by
    intro slot
    unfold heldFor
    rw [each, each]
  refine ⟨?_, linked.callers.frame rfl fun _ _ _ => rfl, linked.prepared, ?_,
    linked.serves, ?_⟩
  · intro slot
    exact (linked.links slot).frame rfl (holds slot) rfl (fun _ _ => rfl)
      (fun _ _ => rfl) (fun _ _ => rfl) fun _ _ => rfl
  · intro piece point saved stands listed up
    exact (linked.appended piece point saved stands listed up).frame rfl
      fun _ _ => rfl
  · intro slot
    rw [each, each]
    exact linked.alone slot

theorem Linked.disconnecting (slot : Fin slots) :
    (state.disconnecting slot).Linked := by
  unfold TxState.disconnecting
  split
  · rename_i here
    exact linked.setConn
      ⟨rfl, rfl, rfl, rfl, rfl, rfl, by simp [BtConn.linkUp, here, BtConn.withState]⟩
      (linked.links slot).ready (linked.links slot).unused (linked.serves slot)
  · exact linked

theorem Linked.hciDisconnComplete (slot : Fin slots) :
    (state.hciDisconnComplete slot).Linked := by
  unfold TxState.hciDisconnComplete
  split
  · rename_i ready
    have gone : (state.setConn slot
        ((state.conns slot).withState .disconnected)).Linked :=
      linked.setConn ⟨rfl, rfl, rfl, rfl, rfl, rfl, by simp [BtConn.linkUp,
        ready.2, BtConn.withState]⟩
        (linked.links slot).ready (linked.links slot).unused
        (linked.serves slot)
    apply gone.setNotify
    intro other
    rw [show (state.setConn slot ((state.conns slot).withState
      .disconnected)).notify .rx = state.notify .rx from rfl, ready.1]
    rfl
  · exact linked

theorem Linked.txCompleteWork (slot : Fin slots) :
    (state.txCompleteWork slot).Linked := by
  unfold TxState.txCompleteWork
  split
  · rename_i idle
    apply linked.setNotify
    intro other
    rw [idle]
    rfl
  · exact linked

theorem Linked.deferredWork (tidy : state.Tidy) (slot : Fin slots) :
    (state.deferredWork slot).Linked := by
  unfold TxState.deferredWork
  split
  · rename_i ready
    obtain ⟨idle, flag, _⟩ := ready
    have quiet := ((tidy slot).idle (.inl flag)).2.2
    refine linked.setConn ⟨rfl, rfl, rfl, rfl, rfl, rfl, rfl⟩
      (linked.links slot).ready ?_ ?_
    · intro _
      unfold heldFor
      rw [idle]
      cases running : state.notify .rx with
      | idle => rfl
      | running conn tx =>
        have other : conn ≠ slot := by
          rintro rfl
          exact quiet ⟨tx, running⟩
        cases tx with
        | none => rfl
        | some => simp [TxNotifyAt.handFor, other]
    · intro serving
      have used := (linked.serves slot serving).2
      rw [flag] at used
      cases used
  · exact linked

theorem Linked.not_serves_of_unused (unused : (state.conns slot).inUse = false) :
    ¬state.txThread.Serves slot := by
  intro serving
  have used := (linked.serves slot serving).1
  rw [unused] at used
  cases used

theorem Linked.connect (slot : Fin slots) (type : BtConnType) :
    (state.connect cfg slot type).Linked := by
  unfold TxState.connect
  split
  · exact linked
  rename_i free
  have unused : (state.conns slot).inUse = false := by
    cases used : (state.conns slot).inUse with
    | true => exact absurd (.inl used) free
    | false => rfl
  have away := linked.not_serves_of_unused unused
  have others : ∀ other, other ≠ slot →
      (state.setConn slot (.opened type)).conns other = state.conns other :=
    fun other apart => update_of_ne apart ..
  have silent : (state.setConn slot (.opened type)).progress slot = [] := by
    change (match state.txThread.unanswered with
      | some piece => if piece.conn = slot ∧ _ then _ else []
      | none => []) = []
    cases stands : state.txThread with
    | idle => rfl
    | packet => rfl
    | piece piece point =>
      rw [stands] at away
      cases point with
      | send => exact if_neg fun both => away both.1
      | rollback => exact if_neg fun both => away both.1
      | _ => rfl
  have none : state.heldFor slot = [] := (linked.links slot).unused unused
  refine ⟨?_, linked.callers.frame rfl fun _ _ _ => rfl, linked.prepared, ?_,
    ?_, linked.alone⟩
  · intro other
    by_cases same : other = slot
    · subst same
      have still : (state.setConn other (.opened type)).heldFor other = [] := none
      refine ⟨?_, ?_, ?_, ?_, ?_, ?_⟩
      · rw [silent, conns_setConn]
        rfl
      · rw [conns_setConn]
        exact fun _ => rfl
      · rw [still, conns_setConn]
        exact nofun
      · rw [conns_setConn]
        exact nofun
      · rw [still, conns_setConn]
        rfl
      · exact fun _ => still
    · exact (linked.links other).frame (others other same) rfl
        (linked.progress_frame rfl (by rw [others other same]) fun _ _ => rfl)
        (fun _ _ => rfl) (fun _ _ => rfl) (fun _ _ => rfl) fun _ _ => rfl
  · intro piece point saved stands listed up
    by_cases same : piece.conn = slot
    · refine absurd ?_ away
      change state.txThread = _ at stands
      rw [stands]
      exact same
    · rw [others _ same] at up
      exact (linked.appended piece point saved stands listed up).frame
        (by rw [others _ same]) fun _ _ => rfl
  · intro other serving
    by_cases same : other = slot
    · rw [same] at serving
      exact absurd serving away
    · rw [others other same]
      exact linked.serves other serving

end

theorem handFor_elsewhere {other : NotifyRun} (apart : other ≠ run) :
    ((state.setNotify run now).notify other).handFor slot =
      (state.notify other).handFor slot := by
  change ((update state.notify run now) other).handFor slot = _
  rw [update_of_ne apart]

theorem handFor_here :
    ((state.setNotify run now).notify run).handFor slot = now.handFor slot := by
  change ((update state.notify run now) run).handFor slot = _
  rw [update_self]

theorem heldFor_alone
    (alone : ∀ other, other ≠ run → (state.notify other).handFor slot = []) :
    state.heldFor slot = (state.notify run).handFor slot := by
  unfold heldFor
  cases run with
  | work => rw [alone .rx nofun, append_nil]
  | rx => rw [alone .work nofun, nil_append]

theorem Linked.notifyStep (linked : state.Linked)
    (conns : ∀ other, other ≠ slot → after.conns other = state.conns other)
    (queue : (after.conns slot).queued = (state.conns slot).queued)
    (pending : (after.conns slot).txPending = (state.conns slot).txPending)
    (count : (after.conns slot).pendingNoCb = (state.conns slot).pendingNoCb)
    (flight : (after.conns slot).flight = (state.conns slot).flight)
    (linkUp : (after.conns slot).linkUp = (state.conns slot).linkUp)
    (inUse : (after.conns slot).inUse = (state.conns slot).inUse)
    (deferred : (after.conns slot).deferred = (state.conns slot).deferred)
    (thread : after.txThread = state.txThread)
    (callers : after.callers = state.callers)
    (contexts : ∀ place, (∀ run, place ≠ .notify run) → SameAt state after place)
    (others : ∀ other, other ≠ slot → after.heldFor other = state.heldFor other)
    (handed : ∀ other, other ≠ slot → ∀ tx ∈ state.heldFor other,
      after.connTx tx = state.connTx tx)
    (named : ∀ tx ∈ (after.conns slot).txComplete ++ after.heldFor slot,
      (after.connTx tx).cb ≠ none)
    (calls : (after.conns slot).called ++ after.callbacks
      (after.heldFor slot ++ (after.conns slot).txComplete) =
        (after.conns slot).finished.filterMap id)
    (unused : (after.conns slot).inUse = false → after.heldFor slot = [])
    (alone : ∀ other, (after.notify .work).handFor other = [] ∨
      (after.notify .rx).handFor other = []) : after.Linked := by
  have up : ∀ other, (after.conns other).linkUp = (state.conns other).linkUp := by
    intro other
    by_cases same : other = slot
    · rw [same, linkUp]
    · rw [conns other same]
  have progress : ∀ other, after.progress other = state.progress other :=
    fun other => linked.progress_frame thread (up other) (contexts _ nofun)
  refine ⟨?_, linked.callers.frame callers fun _ => contexts _ nofun, ?_, ?_, ?_,
    alone⟩
  · intro other
    by_cases same : other = slot
    · subst same
      have ok := linked.links other
      have stay : SameAt state after (.pending other) := contexts _ nofun
      refine ⟨?_, ?_, ?_, ?_, calls, unused⟩
      · rw [progress, flight, ← ok.counted]
        unfold BtConn.counted
        rw [count, pending]
        congr 1
        apply flatMap_congr
        intro tx member
        rw [stay tx member]
      · rw [linkUp, flight]
        exact ok.down
      · intro tx member
        rw [append_assoc] at member
        rcases mem_append.mp member with listed | rest
        · rw [pending] at listed
          rw [stay tx listed]
          exact ok.named tx (mem_append_left _ (mem_append_left _ listed))
        · exact named tx rest
      · rw [queue]
        intro tx member
        have same : SameAt state after (.queue other) := contexts _ nofun
        rw [same tx member]
        exact ok.ready tx member
    · exact (linked.links other).frame (conns other same) (others other same)
        (progress other) (contexts _ nofun) (contexts _ nofun) (contexts _ nofun)
        (handed other same)
  · intro tx member
    rw [thread] at member
    rw [contexts .txThread nofun tx member]
    exact linked.prepared tx member
  · intro piece point saved stands listed still
    rw [thread] at stands
    rw [up] at still
    refine (linked.appended piece point saved stands listed still).frame ?_
      (contexts _ nofun)
    by_cases same : piece.conn = slot
    · rw [same, pending]
    · rw [conns _ same]
  · intro other serving
    rw [thread] at serving
    by_cases same : other = slot
    · subst same
      rw [inUse, deferred]
      exact linked.serves other serving
    · rw [conns other same]
      exact linked.serves other serving

theorem Linked.takeComplete (linked : state.Linked) (tidy : state.Tidy)
    (running : state.notify run = .running slot none)
    (complete : (state.conns slot).txComplete = tx :: rest)
    (others : ∀ other, other ≠ run → (state.notify other).handFor slot = []) :
    ((state.setConn slot ((state.conns slot).withComplete rest)).setNotify run
      (.running slot (some tx))).Linked := by
  have ok := linked.links slot
  have before : state.heldFor slot = [] := by
    rw [heldFor_alone others, running]
    rfl
  have after : ((state.setConn slot
      ((state.conns slot).withComplete rest)).setNotify run
        (.running slot (some tx))).heldFor slot = [tx] := by
    have alone : ∀ other, other ≠ run → (((state.setConn slot
        ((state.conns slot).withComplete rest)).setNotify run
          (.running slot (some tx))).notify other).handFor slot = [] :=
      fun other apart => (handFor_elsewhere apart).trans (others other apart)
    rw [heldFor_alone alone, handFor_here]
    exact if_pos rfl
  have same : ∀ (other : NotifyRun) (conn : Fin slots), conn ≠ slot →
      (((state.setConn slot ((state.conns slot).withComplete rest)).setNotify
        run (.running slot (some tx))).notify other).handFor conn =
          (state.notify other).handFor conn := by
    intro other conn apart
    by_cases here : other = run
    · rw [here, handFor_here, running]
      exact if_neg (Ne.symm apart)
    · exact handFor_elsewhere here
  refine linked.notifyStep (fun other apart => update_of_ne apart ..)
    (by rw [conns_setNotify]; rfl) (by rw [conns_setNotify]; rfl)
    (by rw [conns_setNotify]; rfl) (by rw [conns_setNotify]; rfl)
    (by rw [conns_setNotify]; rfl) (by rw [conns_setNotify]; rfl)
    (by rw [conns_setNotify]; rfl) rfl rfl (fun _ _ _ _ => rfl) ?_ (fun _ _ _ _ => rfl) ?_
    ?_ ?_ ?_
  · intro other apart
    unfold heldFor
    rw [same _ other apart, same _ other apart]
  · rw [after, conns_setNotify]
    intro seen member
    apply ok.named
    rw [complete]
    rcases mem_append.mp member with listed | new
    · exact mem_append_left _ (mem_append_right _ (mem_cons_of_mem _ listed))
    · rw [mem_singleton.mp new]
      exact mem_append_left _ (mem_append_right _ mem_cons_self)
  · have calls := ok.calls
    rw [before, complete] at calls
    rw [after, conns_setNotify]
    exact calls
  · rw [conns_setNotify]
    intro unused
    obtain ⟨gone, _, quiet⟩ := (tidy slot).idle (.inr unused)
    have empty := ((tidy slot).drained gone).resolve_right quiet
    rw [complete] at empty
    cases empty
  · intro other
    by_cases here : other = slot
    · subst here
      cases run with
      | work =>
        exact .inr ((handFor_elsewhere (by decide)).trans (others .rx (by decide)))
      | rx =>
        exact .inl ((handFor_elsewhere (by decide)).trans (others .work (by decide)))
    · rw [same _ other here, same _ other here]
      exact linked.alone other

theorem Linked.callBack (linked : state.Linked) (once : ∀ tx, state.count tx ≤ 1)
    (running : state.notify run = .running slot (some tx)) : (((state.setConn slot
      ((state.conns slot).callBack (state.connTx tx).cb)).txFree tx).setNotify run
        (.running slot none)).Linked := by
  have ok := linked.links slot
  have hand : (state.notify run).handFor slot = [tx] := by
    rw [running]
    exact if_pos rfl
  have others : ∀ other, other ≠ run → (state.notify other).handFor slot = [] := by
    intro other apart
    rcases linked.alone slot with none | none
    · cases run with
      | work => rw [none] at hand; cases hand
      | rx => cases other with
        | work => exact none
        | rx => exact absurd rfl apart
    · cases run with
      | rx => rw [none] at hand; cases hand
      | work => cases other with
        | rx => exact none
        | work => exact absurd rfl apart
  have before : state.heldFor slot = [tx] := by rw [heldFor_alone others, hand]
  have mine : (((state.setConn slot ((state.conns slot).callBack
      (state.connTx tx).cb)).txFree tx).setNotify run
        (.running slot none)).conns slot =
          (state.conns slot).callBack (state.connTx tx).cb :=
    update_self ..
  have after : (((state.setConn slot ((state.conns slot).callBack
      (state.connTx tx).cb)).txFree tx).setNotify run
        (.running slot none)).heldFor slot = [] := by
    have alone : ∀ other, other ≠ run → ((((state.setConn slot
        ((state.conns slot).callBack (state.connTx tx).cb)).txFree tx).setNotify
          run (.running slot none)).notify other).handFor slot = [] :=
      fun other apart => (handFor_elsewhere apart).trans (others other apart)
    rw [heldFor_alone alone, handFor_here]
    rfl
  have same : ∀ (other : NotifyRun) (conn : Fin slots), conn ≠ slot →
      ((((state.setConn slot ((state.conns slot).callBack
        (state.connTx tx).cb)).txFree tx).setNotify run
          (.running slot none)).notify other).handFor conn =
            (state.notify other).handFor conn := by
    intro other conn apart
    by_cases here : other = run
    · rw [here, handFor_here, running]
      exact (if_neg (Ne.symm apart)).symm
    · exact handFor_elsewhere here
  have listed : tx ∈ state.held (.notify run) := by
    change tx ∈ (state.notify run).hand
    rw [running]
    exact mem_singleton_self tx
  have contexts : ∀ place, place ≠ .notify run → SameAt state
      (((state.setConn slot ((state.conns slot).callBack
        (state.connTx tx).cb)).txFree tx).setNotify run (.running slot none))
          place := by
    intro place apart
    apply sameAt_of_changed once listed _ apart
    intro seen different
    exact update_of_ne different ..
  have complete := contexts (.complete slot) nofun
  refine linked.notifyStep (fun other apart => update_of_ne apart ..)
    (by rw [mine]; rfl) (by rw [mine]; rfl) (by rw [mine]; rfl)
    (by rw [mine]; rfl) (by rw [mine]; rfl) (by rw [mine]; rfl)
    (by rw [mine]; rfl) rfl rfl (fun place none => contexts place (none run)) ?_
    ?_ ?_ ?_ (fun _ => after) ?_
  · intro other apart
    unfold heldFor
    rw [same _ other apart, same _ other apart]
  · intro other apart seen member
    have elsewhere : ∃ place, place ≠ TxPlace.notify run ∧
        seen ∈ state.held place := by
      rcases mem_append.mp member with work | rx
      · refine ⟨.notify .work, ?_, TxNotifyAt.hand_of_handFor work⟩
        rintro ⟨⟩
        rw [running] at work
        simp [TxNotifyAt.handFor, Ne.symm apart] at work
      · refine ⟨.notify .rx, ?_, TxNotifyAt.hand_of_handFor rx⟩
        rintro ⟨⟩
        rw [running] at rx
        simp [TxNotifyAt.handFor, Ne.symm apart] at rx
    obtain ⟨place, away, here⟩ := elsewhere
    exact contexts place away seen here
  · rw [after, mine, append_nil]
    intro seen member
    have still : seen ∈ state.held (.complete slot) := member
    rw [complete seen still]
    exact ok.named seen (mem_append_left _ (mem_append_right _ member))
  · have calls := ok.calls
    rw [before] at calls
    rw [after, mine, nil_append]
    change ((state.conns slot).called ++ (state.connTx tx).cb.toList) ++
      TxState.callbacks _ (state.held (.complete slot)) = _
    rw [append_assoc, callbacks_congr complete]
    refine Eq.trans ?_ calls
    congr 1
    unfold callbacks
    rw [filterMap_append]
    cases named : (state.connTx tx).cb <;> simp [named] <;> rfl
  · intro other
    by_cases here : other = slot
    · subst here
      cases run with
      | work =>
        exact .inr ((handFor_elsewhere (by decide)).trans (others .rx (by decide)))
      | rx =>
        exact .inl ((handFor_elsewhere (by decide)).trans (others .work (by decide)))
    · rw [same _ other here, same _ other here]
      exact linked.alone other

/-- Packets become pending while the link is up, and are taken back while it is
up and their counter is still in its place; two runs of `tx_notify` do not hold
contexts of one connection. -/
def PieceCounts (state : TxState slots threads) (piece : TxPiece slots) :
    SendFragAt → Prop
  | .append => (state.conns piece.conn).linkUp = true
  | .rollback saved => (state.conns piece.conn).linkUp = true ∧
      (piece.tx = none → ∀ tx ∈ saved, tx ∈ (state.conns piece.conn).txPending)
  | _ => True

def ThreadCounts (state : TxState slots threads) : TxThreadAt slots → Prop
  | .piece piece point => state.PieceCounts piece point
  | _ => True

def NotifyCounts (state : TxState slots threads) (run : NotifyRun) :
    TxNotifyAt slots → Prop
  | .running slot none => ∀ other, other ≠ run →
      (state.notify other).handFor slot = []
  | _ => True

def KeepsCredits (state : TxState slots threads) :
    TxInput slots threads → Prop
  | .txThread _ => state.ThreadCounts state.txThread
  | .notify run => state.NotifyCounts run (state.notify run)
  | _ => True

theorem Linked.txNotify (linked : state.Linked) (tidy : state.Tidy)
    (once : ∀ tx, state.count tx ≤ 1) (keeps : state.KeepsCredits (.notify run)) :
    (state.txNotify run).Linked := by
  unfold TxState.txNotify
  cases running : state.notify run with
  | idle => exact linked
  | running slot holds =>
    have silent : ∀ (now : TxState slots threads),
        now.notify run = .running slot none → now.Linked →
          (now.setNotify run .idle).Linked := by
      intro now same linked
      apply linked.setNotify
      intro other
      rw [same]
      rfl
    cases holds with
    | some => exact linked.callBack once running
    | none =>
      cases complete : (state.conns slot).txComplete with
      | cons =>
        simp only [KeepsCredits, NotifyCounts, running] at keeps
        simp only [complete]
        exact linked.takeComplete tidy running complete keeps
      | nil =>
        cases run with
        | work =>
          simp only [complete]
          exact silent state running linked
        | rx =>
          simp only [complete]
          have flagged : (state.setConn slot ((state.conns slot).withCleanup true
                (state.conns slot).deferred)).Linked :=
            linked.setConn (.withCleanup _ _ _)
              (linked.links slot).ready (linked.links slot).unused
              (linked.serves slot)
          exact silent _ running flagged

end TxState

end ZephyrBluetooth.Host
