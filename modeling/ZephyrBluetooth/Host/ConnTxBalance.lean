import ZephyrBluetooth.Host.ConnTxCredits

namespace ZephyrBluetooth.Host

open Data List Function

variable {conn : BtConn}

/-! The account of the controller's buffers: what a step takes from a semaphore
is outstanding on one connection afterwards, and the other way round. -/

variable {slots threads : Nat} {cfg : ConnTxConfig}

variable {slot : Fin slots} {piece : TxPiece slots} {input : TxInput slots threads}

namespace TxState

variable {state between after : TxState slots threads}

structure Steady (before after : TxState slots threads) : Prop where
  pkts : after.pkts = before.pkts
  types : ∀ slot, (after.conns slot).type = (before.conns slot).type
  outstanding : ∀ slot, after.outstanding slot = before.outstanding slot

theorem Steady.refl : Steady state state :=
  ⟨rfl, fun _ => rfl, fun _ => rfl⟩

theorem Steady.trans (first : Steady state between)
    (second : Steady between after) : Steady state after :=
  ⟨second.pkts.trans first.pkts,
    fun slot => (second.types slot).trans (first.types slot),
    fun slot => (second.outstanding slot).trans (first.outstanding slot)⟩

theorem Steady.same (pkts : after.pkts = state.pkts)
    (conns : after.conns = state.conns)
    (thread : after.txThread = state.txThread) : Steady state after := by
  refine ⟨pkts, fun slot => by rw [conns], fun slot => ?_⟩
  exact outstanding_congr (by rw [conns]) (by rw [conns]) thread

theorem Steady.setConn (type : conn.type = (state.conns slot).type)
    (flight : conn.flight = (state.conns slot).flight)
    (linkUp : conn.linkUp = (state.conns slot).linkUp) :
    Steady state (state.setConn slot conn) := by
  have kept : ∀ {Kind : Type} (read : BtConn → Kind),
      read conn = read (state.conns slot) → ∀ other,
        read ((state.setConn slot conn).conns other) = read (state.conns other) := by
    intro Kind read same other
    by_cases here : other = slot
    · subst here
      rw [show (state.setConn other conn).conns other = conn from
        update_self .., same]
    · rw [show (state.setConn slot conn).conns other = state.conns other from
        update_of_ne here ..]
  exact ⟨rfl, kept _ type, fun other => outstanding_congr
    (kept _ flight other) (kept _ linkUp other) rfl⟩

theorem Steady.setTxThread {now : TxThreadAt slots}
    (credit : ∀ slot, now.credit slot (state.conns slot).linkUp =
      state.txThread.credit slot (state.conns slot).linkUp) :
    Steady state (state.setTxThread now) :=
  ⟨rfl, fun _ => rfl, fun slot =>
    congrArg ((state.conns slot).flight.length + ·) (credit slot)⟩

theorem Steady.txFreeAll (freed : List Nat) :
    Steady state (txFreeAll freed state) := by
  induction freed generalizing state with
  | nil => exact .refl
  | cons tx rest ih =>
    have one : Steady state (state.txFree tx) := .same rfl rfl rfl
    exact one.trans ih

structure Gives (cfg : ConnTxConfig) (slot : Fin slots) (count : Nat)
    (before after : TxState slots threads) : Prop where
  pkts : after.pkts = update before.pkts (before.semOf cfg slot)
    (before.pkts (before.semOf cfg slot) + count)
  conns : after.conns = before.conns
  thread : after.txThread = before.txThread

theorem Gives.of_steady (pkts : after.pkts = state.pkts)
    (conns : after.conns = state.conns) (thread : after.txThread = state.txThread) :
    Gives cfg slot 0 state after :=
  ⟨by rw [add_zero, update_eq_self, pkts], conns, thread⟩

theorem Gives.semOf {count : Nat} (gives : Gives cfg slot count state after) :
    after.semOf cfg slot = state.semOf cfg slot := by
  unfold TxState.semOf
  rw [gives.conns]

theorem Gives.count {count : Nat} (gives : Gives cfg slot count state after) :
    after.pkts (after.semOf cfg slot) =
      state.pkts (state.semOf cfg slot) + count := by
  rw [gives.semOf, gives.pkts, update_self]

theorem Gives.trans {first second : Nat} (one : Gives cfg slot first state between)
    (two : Gives cfg slot second between after) :
    Gives cfg slot (first + second) state after := by
  refine ⟨?_, two.conns.trans one.conns, two.thread.trans one.thread⟩
  rw [two.pkts, one.count, one.semOf, one.pkts, update_idem, add_assoc]

theorem gives_givePkts (slot : Fin slots)
    (room : state.pkts (state.semOf cfg slot) + 1 ≤
      cfg.buffers (state.semOf cfg slot)) :
    Gives cfg slot 1 state (state.givePkts cfg slot) := by
  refine ⟨?_, rfl, rfl⟩
  change update _ _ (min _ _) = _
  rw [min_eq_left room]

theorem gives_givePktsTimes (slot : Fin slots) (count : Nat)
    (room : state.pkts (state.semOf cfg slot) + count ≤
      cfg.buffers (state.semOf cfg slot)) :
    Gives cfg slot count state (givePktsTimes cfg slot count state) := by
  induction count generalizing state with
  | zero => exact .of_steady rfl rfl rfl
  | succ count ih =>
    have one : Gives cfg slot 1 state (state.givePkts cfg slot) :=
      gives_givePkts slot (by omega)
    have rest : Gives cfg slot count (state.givePkts cfg slot)
        (givePktsTimes cfg slot count (state.givePkts cfg slot)) :=
      ih (by rw [one.count, one.semOf]; omega)
    have both := one.trans rest
    rwa [add_comm] at both

theorem givePktsTimes_connTx (slot : Fin slots) (count : Nat) :
    (givePktsTimes cfg slot count state).connTx = state.connTx := by
  induction count generalizing state with
  | zero => rfl
  | succ count ih => exact ih

theorem gives_processUnackTx (slot : Fin slots) {pending : List Nat}
    {count : Nat} (distinct : pending.Nodup)
    (room : state.pkts (state.semOf cfg slot) + (count +
      (pending.map fun tx => 1 + (state.connTx tx).pendingNoCb).sum) ≤
        cfg.buffers (state.semOf cfg slot)) : Gives cfg slot
      (count + (pending.map fun tx => 1 + (state.connTx tx).pendingNoCb).sum)
      state (processUnackTx cfg slot pending count state) := by
  induction pending generalizing state count with
  | nil => exact gives_givePktsTimes slot count room
  | cons tx rest ih =>
    rw [map_cons, sum_cons] at room ⊢
    have counted : Gives cfg slot count state
        (givePktsTimes cfg slot count state) :=
      gives_givePktsTimes slot count (by omega)
    have freed : Gives cfg slot 0 (givePktsTimes cfg slot count state)
        ((givePktsTimes cfg slot count state).txFree tx) :=
      .of_steady rfl rfl rfl
    have front := counted.trans freed
    have given := front.trans
      (gives_givePkts slot (by rw [front.count, front.semOf]; omega))
    have others : (rest.map fun seen => 1 +
        ((((givePktsTimes cfg slot count state).txFree tx).givePkts cfg
          slot).connTx seen).pendingNoCb) =
        rest.map fun seen => 1 + (state.connTx seen).pendingNoCb := by
      apply map_congr_left
      intro seen member
      have different : seen ≠ tx := by
        rintro rfl
        exact (nodup_cons.mp distinct).1 member
      rw [show (((givePktsTimes cfg slot count state).txFree tx).givePkts cfg
        slot).connTx seen = (givePktsTimes cfg slot count state).connTx seen
          from update_of_ne different .., givePktsTimes_connTx]
    have fits : (((givePktsTimes cfg slot count state).txFree tx).givePkts cfg
        slot).pkts ((((givePktsTimes cfg slot count state).txFree tx).givePkts
          cfg slot).semOf cfg slot) + ((state.connTx tx).pendingNoCb +
            (rest.map fun seen => 1 +
              ((((givePktsTimes cfg slot count state).txFree tx).givePkts cfg
                slot).connTx seen).pendingNoCb).sum) ≤
        cfg.buffers ((((givePktsTimes cfg slot count state).txFree
          tx).givePkts cfg slot).semOf cfg slot) := by
      rw [others, given.count, given.semOf]
      omega
    have later := ih (nodup_cons.mp distinct).2 fits
    rw [others] at later
    have all := given.trans later
    have sum : count + 0 + 1 + ((state.connTx tx).pendingNoCb +
        (rest.map fun seen => 1 + (state.connTx seen).pendingNoCb).sum) =
        count + (1 + (state.connTx tx).pendingNoCb +
          (rest.map fun seen => 1 + (state.connTx seen).pendingNoCb).sum) := by
      omega
    rwa [sum] at all

section

variable (balanced : state.Balanced cfg)
include balanced

theorem Balanced.congr (pkts : after.pkts = state.pkts)
    (shares : ∀ sem slot, after.share cfg sem slot = state.share cfg sem slot)
    (bredr : ∀ slot, (after.conns slot).type = .br → cfg.bredr = true) :
    after.Balanced cfg := by
  refine ⟨fun sem => ?_, bredr⟩
  rw [pkts, total_congr (shares sem)]
  exact balanced.account sem

theorem Balanced.steady (steady : Steady state after) : after.Balanced cfg := by
  refine balanced.congr steady.pkts (fun sem slot => ?_) fun slot type => ?_
  · unfold share TxState.semOf
    rw [steady.types, steady.outstanding]
  · rw [steady.types] at type
    exact balanced.bredr slot type

theorem Balanced.changed
    (types : ∀ other, (after.conns other).type = (state.conns other).type)
    (others : ∀ other, other ≠ slot →
      after.outstanding other = state.outstanding other)
    (elsewhere : ∀ sem, sem ≠ state.semOf cfg slot → after.pkts sem = state.pkts sem)
    (here : after.pkts (state.semOf cfg slot) + after.outstanding slot =
      state.pkts (state.semOf cfg slot) + state.outstanding slot) :
    after.Balanced cfg := by
  have sems : ∀ other, after.semOf cfg other = state.semOf cfg other := by
    intro other
    unfold TxState.semOf
    rw [types other]
  refine ⟨fun sem => ?_, fun other type => balanced.bredr other
    ((types other).symm.trans type)⟩
  rw [← balanced.account sem]
  by_cases own : sem = state.semOf cfg slot
  · have moved := total_changed (state.share cfg sem) (after.share cfg sem) slot
      (fun other apart => by
        unfold share
        rw [sems, others other apart])
    have before : state.share cfg sem slot = state.outstanding slot :=
      if_pos own.symm
    have now : after.share cfg sem slot = after.outstanding slot :=
      if_pos ((sems slot).trans own.symm)
    rw [before, now] at moved
    rw [← own] at here
    omega
  · rw [elsewhere sem own]
    congr 1
    apply total_congr
    intro other
    unfold share
    rw [sems]
    by_cases same : other = slot
    · rw [same, if_neg (Ne.symm own), if_neg (Ne.symm own)]
    · rw [others other same]

theorem Balanced.room (slot : Fin slots) :
    state.pkts (state.semOf cfg slot) + state.outstanding slot ≤
      cfg.buffers (state.semOf cfg slot) := by
  have whole := balanced.account (state.semOf cfg slot)
  have own := le_total (state.share cfg (state.semOf cfg slot)) slot
  have mine : state.share cfg (state.semOf cfg slot) slot =
      state.outstanding slot := if_pos rfl
  omega

theorem Balanced.gives {count : Nat}
    (gives : between.pkts (between.semOf cfg slot) + count ≤
      cfg.buffers (between.semOf cfg slot) → Gives cfg slot count between after)
    (pkts : between.pkts = state.pkts)
    (types : ∀ other, (between.conns other).type = (state.conns other).type)
    (others : ∀ other, other ≠ slot →
      between.outstanding other = state.outstanding other)
    (here : between.outstanding slot + count = state.outstanding slot) :
    after.Balanced cfg := by
  have sem : between.semOf cfg slot = state.semOf cfg slot := by
    unfold TxState.semOf
    rw [types]
  have room := balanced.room slot
  have given := gives (by rw [pkts, sem]; omega)
  have used : ∀ other, after.outstanding other = between.outstanding other := by
    intro other
    unfold outstanding
    rw [given.conns, given.thread]
  refine balanced.changed (fun other => by rw [given.conns, types])
    (fun other apart => by rw [used, others other apart]) ?_ ?_
  · intro other apart
    rw [given.pkts, sem, update_of_ne apart, pkts]
  · rw [given.pkts, sem, update_self, used, pkts]
    omega

end

theorem outstanding_setConn : (state.setConn slot conn).outstanding slot =
      conn.flight.length + state.txThread.credit slot conn.linkUp := by
  unfold outstanding
  rw [conns_setConn]
  rfl

theorem outstanding_setConn_of_ne {other : Fin slots} (apart : other ≠ slot) :
    (state.setConn slot conn).outstanding other = state.outstanding other := by
  unfold outstanding
  rw [show (state.setConn slot conn).conns other = state.conns other from
    update_of_ne apart ..]
  rfl

theorem type_setConn (same : conn.type = (state.conns slot).type)
    (other : Fin slots) :
    ((state.setConn slot conn).conns other).type = (state.conns other).type := by
  by_cases here : other = slot
  · subst here
    rw [conns_setConn, same]
  · rw [show (state.setConn slot conn).conns other = state.conns other from
      update_of_ne here ..]

theorem Balanced.completedPacket (balanced : state.Balanced cfg)
    (linked : state.Linked) (some : (state.conns slot).flight ≠ []) :
    (state.completedPacket cfg slot).Balanced cfg := by
  have fewer : (state.conns slot).packetDone.flight.length + 1 =
      (state.conns slot).flight.length := by
    change (state.conns slot).flight.tail.length + 1 = _
    rw [length_tail]
    have := length_pos_iff.mpr some
    omega
  have used : ∀ conn : BtConn, conn.flight = (state.conns slot).packetDone.flight →
        conn.linkUp = (state.conns slot).linkUp →
          (state.setConn slot conn).outstanding slot + 1 =
            state.outstanding slot := by
    intro conn flight linkUp
    rw [outstanding_setConn, flight, linkUp]
    unfold outstanding
    omega
  unfold TxState.completedPacket
  simp only
  split
  · exact balanced.gives (gives_givePkts slot) rfl (type_setConn rfl)
      (fun _ => outstanding_setConn_of_ne) (used _ rfl rfl)
  rename_i zero
  have zero : (state.conns slot).pendingNoCb = 0 := not_not.mp zero
  cases pending : (state.conns slot).packetDone.txPending with
  | nil =>
    change (state.conns slot).txPending = [] at pending
    have counted := (linked.links slot).counted
    unfold BtConn.counted at counted
    rw [zero, pending] at counted
    exact absurd (append_eq_nil_iff.mp counted.symm).1 some
  | cons =>
    exact balanced.gives (gives_givePkts slot) rfl (type_setConn rfl)
      (fun _ => outstanding_setConn_of_ne) (used _ rfl rfl)

theorem Balanced.hciNumCompletedPackets (balanced : state.Balanced cfg)
    (linked : state.Linked) (once : ∀ tx, state.count tx ≤ 1)
    (reports : List (Fin slots × Nat)) :
    (hciNumCompletedPackets cfg reports state).Balanced cfg :=
  (hciNumCompletedPackets_keeps (fun state => state.Balanced cfg ∧ state.Linked)
    (fun _ slot both once some => ⟨both.1.completedPacket both.2 some,
      both.2.completedPacket once slot some⟩) once reports ⟨balanced, linked⟩).1

theorem credit_up (up : (state.conns slot).linkUp = true) :
    state.txThread.credit slot true =
      (state.progress slot).length + state.txThread.credit slot false := by
  unfold progress
  cases state.txThread with
  | idle => rfl
  | packet => rfl
  | piece piece point =>
    by_cases here : piece.conn = slot
    · cases point <;>
        simp [TxThreadAt.credit, SendFragAt.credit, TxThreadAt.unanswered, here, up]
    · cases point <;> simp [TxThreadAt.credit, TxThreadAt.unanswered, here]

theorem LinkOk.packets (ok : state.LinkOk slot) :
    (state.conns slot).countedPackets state.connTx =
      (state.conns slot).flight.length + (state.progress slot).length := by
  rw [← BtConn.length_counted, ok.counted, length_append]

theorem Balanced.hciDisconnCompletePrio (balanced : state.Balanced cfg)
    (linked : state.Linked) (once : ∀ tx, state.count tx ≤ 1) (slot : Fin slots) :
    (state.hciDisconnCompletePrio cfg slot).Balanced cfg := by
  unfold TxState.hciDisconnCompletePrio
  simp only
  split
  · rename_i up
    refine balanced.gives
      (gives_processUnackTx slot (held_nodup once (.pending slot))) rfl
      (type_setConn rfl) (fun _ => outstanding_setConn_of_ne) ?_
    change _ + (state.conns slot).countedPackets state.connTx = _
    rw [outstanding_setConn, (linked.links slot).packets]
    have credit := credit_up up
    change 0 + state.txThread.credit slot false + _ =
      (state.conns slot).flight.length +
        state.txThread.credit slot (state.conns slot).linkUp
    rw [up]
    omega
  · exact balanced

theorem credit_of_apart {point : SendFragAt} {up : Bool} (apart : slot ≠ piece.conn) :
    (TxThreadAt.piece piece point).credit slot up = 0 :=
  if_neg (Ne.symm apart)

theorem credit_here (piece : TxPiece slots) (point : SendFragAt) (up : Bool) :
    (TxThreadAt.piece piece point).credit piece.conn up = point.credit up :=
  if_pos rfl

variable {point next : SendFragAt}

theorem Steady.setPoint (here : state.txThread = .piece piece point)
    (credit : next.credit (state.conns piece.conn).linkUp =
      point.credit (state.conns piece.conn).linkUp) :
    Steady state (state.setTxThread (.piece piece next)) := by
  apply Steady.setTxThread
  intro slot
  rw [here]
  by_cases same : slot = piece.conn
  · rw [same, credit_here, credit_here, credit]
  · rw [credit_of_apart same, credit_of_apart same]

theorem steady_sendBuf {buf : TxBuf} (here : state.txThread = .packet slot buf) :
    Steady state (state.sendBuf cfg slot buf) := by
  have none : ∀ (piece : TxPiece slots) (other : Fin slots) (up : Bool),
      (TxThreadAt.piece piece .take).credit other up = 0 := by
    intro piece other up
    simp [TxThreadAt.credit, SendFragAt.credit]
  unfold TxState.sendBuf
  simp only
  split
  · apply Steady.setTxThread
    intro other
    rw [here, none]
    rfl
  · split
    · apply Steady.setTxThread
      intro other
      rw [here]
      rfl
    · apply Steady.setTxThread
      intro other
      rw [here, none]
      rfl

theorem Balanced.takePkts (balanced : state.Balanced cfg)
    (here : state.txThread = .piece piece .take)
    (free : state.pkts (state.semOf cfg piece.conn) ≠ 0) :
    ((state.setPkts (state.semOf cfg piece.conn)
      (state.pkts (state.semOf cfg piece.conn) - 1)).setTxThread
        (.piece piece .check)).Balanced cfg := by
  refine balanced.changed (fun _ => rfl) ?_ (fun _ apart => update_of_ne apart ..) ?_
  · intro other apart
    unfold outstanding
    rw [here, credit_of_apart apart]
    exact congrArg (_ + ·) (credit_of_apart apart)
  · change update state.pkts _ _ _ + _ = _
    rw [update_self]
    have before : state.outstanding piece.conn =
        (state.conns piece.conn).flight.length := by
      unfold outstanding
      rw [here, credit_here]
      rfl
    have after : ((state.setPkts (state.semOf cfg piece.conn)
        (state.pkts (state.semOf cfg piece.conn) - 1)).setTxThread
          (.piece piece .check)).outstanding piece.conn =
            (state.conns piece.conn).flight.length + 1 :=
      congrArg (_ + ·) (credit_here piece .check _)
    rw [before, after]
    omega

theorem Steady.setPoint_up (here : state.txThread = .piece piece point)
    (up : (state.conns piece.conn).linkUp = true)
    (credit : next.credit true = point.credit true) :
    Steady state (state.setTxThread (.piece piece next)) := by
  apply Steady.setPoint here
  rw [up]
  exact credit

theorem Steady.withPending (here : state.txThread = .piece piece point)
    (up : (state.conns piece.conn).linkUp = true)
    (credit : next.credit true = point.credit true) (pending : List Nat)
    (count : Nat) :
    Steady state ((state.setConn piece.conn ((state.conns piece.conn).withPending
      pending count)).setTxThread (.piece piece next)) := by
  have put : Steady state (state.setConn piece.conn
      ((state.conns piece.conn).withPending pending count)) := .setConn rfl rfl rfl
  refine put.trans (setPoint_up here ?_ credit)
  rw [conns_setConn]
  exact up

theorem steady_appendPending (here : state.txThread = .piece piece .append)
    (up : (state.conns piece.conn).linkUp = true) :
    Steady state (state.appendPending piece) := by
  unfold TxState.appendPending
  simp only
  cases piece.tx with
  | some => exact .withPending here up (by rfl) _ _
  | none =>
    cases (state.conns piece.conn).txPending.getLast? with
    | some tx =>
      have put : Steady state (state.setTx tx ⟨(state.connTx tx).cb,
          ((state.connTx tx).pendingNoCb + 1) % 2 ^ 32⟩) :=
        .same rfl rfl rfl
      exact put.trans (.setPoint_up here up rfl)
    | none => exact .withPending here up (by rfl) _ _

theorem steady_sent {saved : Option Nat}
    (here : state.txThread = .piece piece (.send saved)) :
    Steady state (state.sent piece) := by
  have silent : ∀ (slot : Fin slots) (up : Bool),
      (afterPiece piece).credit slot up = 0 := by
    intro slot up
    unfold afterPiece
    cases piece.rest <;> rfl
  unfold TxState.sent
  refine ⟨rfl, type_setConn rfl, ?_⟩
  intro slot
  by_cases same : slot = piece.conn
  · subst same
    unfold outstanding
    rw [conns_setThread, here, credit_here]
    change _ + (afterPiece piece).credit _ _ = _
    rw [silent]
    unfold SendFragAt.credit BtConn.withFlight
    cases (state.conns piece.conn).linkUp with
    | true => simp
    | false => simp
  · unfold outstanding
    rw [show ((state.setConn piece.conn _).setTxThread _).conns slot =
      state.conns slot from update_of_ne same .., here,
      credit_of_apart same]
    exact congrArg (_ + ·) (silent _ _)

theorem steady_rollbackPending {saved : Option Nat}
    (here : state.txThread = .piece piece (.rollback saved))
    (up : (state.conns piece.conn).linkUp = true) :
    Steady state (state.rollbackPending piece saved) := by
  unfold TxState.rollbackPending
  split
  · exact .withPending here up (by rfl) _ _
  · have put : ∀ tx context, Steady state (state.setTx tx context) :=
      fun _ _ => .same rfl rfl rfl
    exact (put _ _).trans (.setPoint_up here up rfl)
  · exact .withPending here up (by rfl) _ _

section

variable (balanced : state.Balanced cfg)
include balanced

theorem Balanced.sendFail (here : state.txThread = .piece piece .fail) :
    (state.sendFail cfg piece).Balanced cfg := by
  have given : (state.setTxThread .idle).pkts
      ((state.setTxThread .idle).semOf cfg piece.conn) + 1 ≤
        cfg.buffers ((state.setTxThread .idle).semOf cfg piece.conn) →
          Gives cfg piece.conn 1 (state.setTxThread .idle)
            (state.sendFail cfg piece) := by
    intro room
    have one := gives_givePkts piece.conn room
    have freed : Steady (state.givePkts cfg piece.conn)
        (TxState.txFreeAll piece.tx.toList (state.givePkts cfg piece.conn)) :=
      .txFreeAll piece.tx.toList
    refine ⟨freed.pkts.trans one.pkts, ?_, rfl⟩
    cases own : piece.tx with
    | none =>
      unfold TxState.sendFail
      rw [own]
      rfl
    | some =>
      unfold TxState.sendFail
      rw [own]
      rfl
  refine balanced.gives given rfl (fun _ => rfl) ?_ ?_
  · intro other apart
    unfold outstanding
    rw [here, credit_of_apart apart]
    rfl
  · unfold outstanding
    rw [here, credit_here]
    rfl

theorem Balanced.txThreadStep
    {accepted : Bool} (keeps : state.KeepsCredits (.txThread accepted)) :
    (state.txThreadStep cfg accepted).Balanced cfg := by
  unfold TxState.txThreadStep
  cases here : state.txThread with
  | idle => exact balanced
  | packet => exact balanced.steady (steady_sendBuf here)
  | piece piece point =>
    simp only [KeepsCredits, ThreadCounts, here] at keeps
    cases point with
    | take =>
      simp only
      split
      · exact balanced
      · rename_i free
        exact balanced.takePkts here free
    | check =>
      simp only
      split
      · exact balanced.steady (.setPoint here rfl)
      · exact balanced.steady (.setPoint here rfl)
    | append => exact balanced.steady (steady_appendPending here keeps)
    | send =>
      simp only
      split
      · exact balanced.steady (steady_sent here)
      · exact balanced.steady (.setPoint here rfl)
    | rollback => exact balanced.steady (steady_rollbackPending here keeps.1)
    | fail => exact balanced.sendFail here

theorem Balanced.connect (linked : state.Linked)
    (tidy : state.Tidy) (slot : Fin slots) (type : BtConnType) :
    (state.connect cfg slot type).Balanced cfg := by
  unfold TxState.connect
  split
  · exact balanced
  rename_i free
  have unused : (state.conns slot).inUse = false := by
    cases used : (state.conns slot).inUse with
    | true => exact absurd (.inl used) free
    | false => rfl
  have away := linked.not_serves_of_unused unused
  have credit : ∀ up, state.txThread.credit slot up = 0 := by
    intro up
    cases stands : state.txThread with
    | idle => rfl
    | packet => rfl
    | piece =>
      rw [stands] at away
      exact credit_of_apart fun same => away same.symm
  have down : (state.conns slot).linkUp = false := by
    unfold BtConn.linkUp
    rw [((tidy slot).idle (.inr unused)).1]
    rfl
  have before : state.outstanding slot = 0 := by
    unfold outstanding
    rw [(linked.links slot).down down, credit]
    rfl
  have after : (state.setConn slot (.opened type)).outstanding slot = 0 := by
    rw [outstanding_setConn, credit]
    rfl
  have others : ∀ other, other ≠ slot →
      (state.setConn slot (.opened type)).conns other = state.conns other :=
    fun other apart => update_of_ne apart ..
  refine balanced.congr rfl (fun sem other => ?_) fun other now => ?_
  · unfold share
    by_cases same : other = slot
    · rw [same, before, after, ite_self, ite_self]
    rw [outstanding_setConn_of_ne same]
    unfold TxState.semOf
    rw [others other same]
  · by_cases same : other = slot
    · rw [same, conns_setConn] at now
      by_contra lacks
      exact free (.inr ⟨now, lacks⟩)
    · rw [others other same] at now
      exact balanced.bredr other now

end

section

variable (thread : Fin threads)
include thread

theorem steady_btConnSendCb (slot : Fin slots) (len : Nat) (cb : Option Nat) :
    Steady state (state.btConnSendCb thread slot len cb) := by
  unfold TxState.btConnSendCb
  split
  · exact .refl
  split
  · exact .refl
  · cases cb <;> exact .same rfl rfl rfl

theorem steady_connTxAlloc (wait : Bool) :
    Steady state (state.connTxAlloc thread wait) := by
  unfold TxState.connTxAlloc
  split
  · split
    · exact .same rfl rfl rfl
    split
    · exact .refl
    · exact .same rfl rfl rfl
  · exact .refl

theorem steady_fillTx : Steady state (state.fillTx thread) := by
  unfold TxState.fillTx
  split
  · split <;> exact .same rfl rfl rfl
  · exact .refl

theorem steady_putBuf : Steady state (state.putBuf thread) := by
  unfold TxState.putBuf
  split
  · rename_i slot buf _
    have put : Steady state (state.setConn slot ((state.conns slot).withQueue
        ((state.conns slot).txQueue.append buf))) := .setConn rfl rfl rfl
    exact put.trans (.same rfl rfl rfl)
  · exact .refl

end

theorem steady_btConnProcessTx (slot : Fin slots) :
    Steady state (state.btConnProcessTx slot) := by
  unfold TxState.btConnProcessTx
  split
  · exact .refl
  rename_i served
  have idle : state.txThread = .idle := by
    by_contra busy
    exact served (.inl busy)
  split
  · have cleaned : Steady state (state.setConn slot (((state.conns slot).withQueue
        (state.conns slot).txQueue.drain.1).withCleanup false true)) :=
      .setConn rfl rfl rfl
    exact cleaned.trans (.txFreeAll _)
  split
  · rename_i rest _ _
    have taken : Steady state (state.setConn slot
        ((state.conns slot).withQueue rest)) := .setConn rfl rfl rfl
    refine taken.trans (.setTxThread ?_)
    intro other
    change 0 = state.txThread.credit other _
    rw [idle]
    rfl
  · exact .refl

theorem steady_txNotify (run : NotifyRun) :
    Steady state (state.txNotify run) := by
  have now : ∀ (slot : Fin slots) (conn : BtConn) (running : TxNotifyAt slots),
      conn.type = (state.conns slot).type → conn.flight = (state.conns slot).flight →
          conn.linkUp = (state.conns slot).linkUp →
            Steady state ((state.setConn slot conn).setNotify run running) := by
    intro slot conn running type flight linkUp
    exact (Steady.setConn type flight linkUp).trans (.same rfl rfl rfl)
  unfold TxState.txNotify
  split
  · exact .refl
  · rename_i slot tx _
    have called : Steady state (state.setConn slot
        ((state.conns slot).callBack (state.connTx tx).cb)) :=
      .setConn rfl rfl rfl
    exact called.trans (.same rfl rfl rfl)
  · split
    · exact now _ _ _ rfl rfl rfl
    cases run with
    | rx => exact now _ _ _ rfl rfl rfl
    | work => exact .same rfl rfl rfl

theorem Balanced.step (balanced : state.Balanced cfg) (linked : state.Linked)
    (tidy : state.Tidy) (once : ∀ tx, state.count tx ≤ 1)
    (keeps : state.KeepsCredits input) :
    (TxState.step cfg state input).Balanced cfg := by
  cases input with
  | connect slot type => exact balanced.connect linked tidy slot type
  | sendCb thread slot len cb =>
    exact balanced.steady (steady_btConnSendCb thread slot len cb)
  | alloc thread wait => exact balanced.steady (steady_connTxAlloc thread wait)
  | fill thread => exact balanced.steady (steady_fillTx thread)
  | put thread => exact balanced.steady (steady_putBuf thread)
  | processTx slot => exact balanced.steady (steady_btConnProcessTx slot)
  | txThread => exact balanced.txThreadStep keeps
  | completedPackets reports =>
    exact balanced.hciNumCompletedPackets linked once reports
  | disconnecting slot =>
    simp only [TxState.step, TxState.disconnecting]
    split
    · rename_i connected
      have up : (state.conns slot).linkUp = true := by
        unfold BtConn.linkUp
        rw [connected]
        rfl
      exact balanced.steady (.setConn rfl rfl up.symm)
    · exact balanced
  | disconnComplete slot => exact balanced.hciDisconnCompletePrio linked once slot
  | disconnected slot =>
    simp only [TxState.step, TxState.hciDisconnComplete]
    split
    · rename_i ready
      have down : (state.conns slot).linkUp = false := by
        unfold BtConn.linkUp
        rw [ready.2]
        rfl
      have gone : Steady state (state.setConn slot
          ((state.conns slot).withState .disconnected)) :=
        .setConn rfl rfl down.symm
      exact balanced.steady (gone.trans (.same rfl rfl rfl))
    · exact balanced
  | txCompleteWork =>
    simp only [TxState.step, TxState.txCompleteWork]
    split
    · exact balanced.steady (.same rfl rfl rfl)
    · exact balanced
  | notify run => exact balanced.steady (steady_txNotify run)
  | deferredWork =>
    simp only [TxState.step, TxState.deferredWork]
    split
    · exact balanced.steady (.setConn rfl rfl rfl)
    · exact balanced

theorem Balanced.appendRoom (balanced : state.Balanced cfg) (linked : state.Linked)
    (here : state.txThread = .piece piece .append) :
    (state.conns piece.conn).countedPackets state.connTx + 1 < 2 ^ 32 := by
  have none : state.progress piece.conn = [] := progress_of_idle (by rw [here]; rfl)
  have packets := (linked.links piece.conn).packets
  rw [none, length_nil] at packets
  have room := balanced.room piece.conn
  have few := cfg.reported (state.semOf cfg piece.conn)
  have flying : (state.conns piece.conn).flight.length ≤
      state.outstanding piece.conn := Nat.le_add_right _ _
  omega

theorem Linked.txThreadStep (linked : state.Linked)
    (balanced : state.Balanced cfg) (once : ∀ tx, state.count tx ≤ 1)
    {accepted : Bool} (keeps : state.KeepsCredits (.txThread accepted)) :
    (state.txThreadStep cfg accepted).Linked := by
  unfold TxState.txThreadStep
  cases here : state.txThread with
  | idle => exact linked
  | packet => exact linked.sendBuf here
  | piece piece point =>
    simp only [KeepsCredits, ThreadCounts, here] at keeps
    cases point with
    | take =>
      simp only
      split
      · exact linked
      · exact (linked.setPkts _ _).setPoint here rfl rfl rfl
    | check =>
      simp only
      split
      · exact linked.setPoint here rfl rfl rfl
      · exact linked.setPoint here rfl rfl rfl
    | append =>
      exact linked.appendPending once here keeps (balanced.appendRoom linked here)
    | send =>
      simp only
      split
      · exact linked.sent here
      · exact linked.refused here
    | rollback => exact linked.rollbackPending once here keeps.1 keeps.2
    | fail => exact linked.sendFail once here

theorem Linked.step (linked : state.Linked) (balanced : state.Balanced cfg)
    (tidy : state.Tidy) (once : ∀ tx, state.count tx ≤ 1)
    (keeps : state.KeepsCredits input) :
    (TxState.step cfg state input).Linked := by
  cases input with
  | connect slot type => exact linked.connect slot type
  | sendCb thread slot len cb => exact linked.btConnSendCb thread slot len cb
  | alloc thread wait => exact linked.connTxAlloc thread wait
  | fill thread => exact linked.fillTx once thread
  | put thread => exact linked.putBuf thread
  | processTx slot => exact linked.btConnProcessTx once slot
  | txThread => exact linked.txThreadStep balanced once keeps
  | completedPackets reports => exact linked.hciNumCompletedPackets once reports
  | disconnecting slot => exact linked.disconnecting slot
  | disconnComplete slot => exact linked.hciDisconnCompletePrio once slot
  | disconnected slot => exact linked.hciDisconnComplete slot
  | txCompleteWork slot => exact linked.txCompleteWork slot
  | notify => exact linked.txNotify tidy once keeps
  | deferredWork slot => exact linked.deferredWork tidy slot

theorem KeepsCredits.appendsUp (keeps : state.KeepsCredits input) :
    state.AppendsUp input := by
  cases input with
  | txThread =>
    intro piece here
    simp only [KeepsCredits, ThreadCounts, PieceCounts, here] at keeps
    exact .inr keeps
  | _ => trivial

theorem Linked.takesBack (linked : state.Linked) (keeps : state.KeepsCredits input) :
    state.TakesBack input := by
  cases input with
  | txThread =>
    cases here : state.txThread with
    | piece piece point =>
      cases point with
      | rollback saved =>
        simp only [KeepsCredits, ThreadCounts, PieceCounts, here] at keeps
        simp only [TakesBack, here]
        intro tx own
        have listed := linked.appended piece (.rollback saved) saved here rfl keeps.1
        obtain ⟨_, _, pending⟩ := listed.own tx own
        exact mem_pending pending
      | _ => simp only [TakesBack, here]
    | _ => simp only [TakesBack, here]
  | _ => trivial

structure Credited (cfg : ConnTxConfig) (state : TxState slots threads) :
    Prop where
  tidy : state.Tidy
  once : ∀ tx, state.count tx ≤ 1
  linked : state.Linked
  balanced : state.Balanced cfg

theorem boot_credited : (boot cfg : TxState slots threads).Credited cfg := by
  have quiet : ∀ slot, (boot cfg : TxState slots threads).outstanding slot = 0 :=
    fun _ => rfl
  refine ⟨boot_tidy, ?_, ?_, ⟨?_, nofun⟩⟩
  · intro tx
    by_cases known : tx < cfg.contexts
    · exact (boot_count known).le
    have none : (boot cfg : TxState slots threads).count tx = 0 := by
      apply total_eq_zero.mpr
      intro place
      cases place with
      | free =>
        apply count_eq_zero.mpr
        exact fun member => known (mem_range.mp member)
      | _ => rfl
    omega
  · refine ⟨?_, nofun, nofun, nofun, nofun, fun _ => .inl rfl⟩
    intro slot
    exact ⟨rfl, fun _ => rfl, nofun, nofun, rfl, fun _ => rfl⟩
  · intro sem
    have none : total ((boot cfg : TxState slots threads).share cfg sem) = 0 := by
      apply total_eq_zero.mpr
      intro slot
      unfold share
      rw [quiet, ite_self]
    rw [none]
    rfl

theorem Credited.step (credited : state.Credited cfg)
    (keeps : state.KeepsCredits input) :
    (TxState.step cfg state input).Credited cfg := by
  refine ⟨credited.tidy.step keeps.appendsUp, ?_, ?_, ?_⟩
  · intro tx
    have moved : (TxState.step cfg state input).count tx +
        (state.lost cfg input).count tx = state.count tx :=
      moves_step input (credited.linked.takesBack keeps) tx
    have before := credited.once tx
    omega
  · exact credited.linked.step credited.balanced credited.tidy credited.once keeps
  · exact credited.balanced.step credited.linked credited.tidy credited.once keeps

def outstandingOn (state : TxState slots threads) (type : BtConnType) : Nat :=
  total fun slot =>
    if (state.conns slot).type = type then state.outstanding slot else 0

end TxState

structure ConnTxConfig.Separate (cfg : ConnTxConfig) : Prop where
  iso : cfg.iso = true
  aclMtu : cfg.aclMtu ≠ 0
  isoMtu : cfg.isoMtu ≠ 0
  isoPkts : cfg.buffers .iso ≠ 0

theorem ConnTxConfig.Separate.le (separate : cfg.Separate) :
    cfg.btConnGetPkts .le = .iso := by
  simp [ConnTxConfig.btConnGetPkts, separate.iso, separate.aclMtu,
    separate.isoMtu, separate.isoPkts]

theorem ConnTxConfig.Separate.iso_iso (separate : cfg.Separate) :
    cfg.btConnGetPkts .iso = .iso := by
  simp [ConnTxConfig.btConnGetPkts, separate.iso, separate.aclMtu, separate.isoPkts]

theorem ConnTxConfig.btConnGetPkts_br (bredr : cfg.bredr = true) :
    cfg.btConnGetPkts .br = .br := by
  simp [ConnTxConfig.btConnGetPkts, bredr]

namespace TxState

variable {state : TxState slots threads}

structure Conserved (cfg : ConnTxConfig) (state : TxState slots threads) :
    Prop where
  acl : state.pkts .acl + state.outstandingOn .le = cfg.buffers .acl
  iso : state.pkts .iso + state.outstandingOn .iso = cfg.buffers .iso

structure Reported (state : TxState slots threads) (slot : Fin slots) :
    Prop where
  counted : (state.conns slot).countedPackets state.connTx =
    (state.conns slot).flight.length + (state.progress slot).length
  called : (state.conns slot).called ++ state.callbacks
    (state.heldFor slot ++ (state.conns slot).txComplete) =
      (state.conns slot).finished.filterMap id

theorem Balanced.conserved_iff (balanced : state.Balanced cfg)
    (separate : cfg.Separate) :
    state.Conserved cfg ↔ state.outstandingOn .le = 0 := by
  have acl : total (state.share cfg .acl) = 0 := by
    apply total_eq_zero.mpr
    intro slot
    unfold share TxState.semOf
    cases type : (state.conns slot).type with
    | le => rw [separate.le]; rfl
    | br =>
      rw [ConnTxConfig.btConnGetPkts_br (balanced.bredr slot type)]
      rfl
    | iso => rw [separate.iso_iso]; rfl
  have iso : total (state.share cfg .iso) =
      state.outstandingOn .le + state.outstandingOn .iso := by
    unfold outstandingOn
    rw [← total_add]
    apply total_congr
    intro slot
    unfold share TxState.semOf
    cases type : (state.conns slot).type with
    | le => rw [separate.le]; rfl
    | br =>
      rw [ConnTxConfig.btConnGetPkts_br (balanced.bredr slot type)]
      rfl
    | iso =>
      rw [separate.iso_iso]
      exact (zero_add _).symm
  have aclPkts := balanced.account .acl
  have isoPkts := balanced.account .iso
  rw [acl] at aclPkts
  rw [iso] at isoPkts
  constructor
  · intro conserved
    have here := conserved.acl
    omega
  · intro none
    refine ⟨?_, ?_⟩ <;> omega

theorem Credited.reported (credited : state.Credited cfg) (slot : Fin slots) :
    state.Reported slot :=
  ⟨(credited.linked.links slot).packets, (credited.linked.links slot).calls⟩

end TxState

theorem connTx_credits {inputs : List (TxInput slots threads)}
    (separate : cfg.Separate) (keeps : (connTxMachine cfg slots threads).Along
      (fun state input => state.KeepsCredits input) (TxState.boot cfg) inputs) :
    (connTxMachine cfg slots threads).Always
      (fun state => (state.Conserved cfg ↔ state.outstandingOn .le = 0) ∧
        ∀ slot, state.Reported slot) (TxState.boot cfg) inputs := by
  have always : (connTxMachine cfg slots threads).Always
      (TxState.Credited cfg) (TxState.boot cfg) inputs :=
    Machine.always_of_along (fun _ _ credited kept => credited.step kept)
      TxState.boot_credited keeps
  exact always.mono fun state credited =>
    ⟨credited.balanced.conserved_iff separate, credited.reported⟩

section Decidable

variable (state : TxState slots threads)

instance (piece : TxPiece slots) : ∀ point,
    Decidable (state.PieceCounts piece point)
  | .append => inferInstanceAs (Decidable (_ = _))
  | .rollback saved => inferInstanceAs (Decidable (_ ∧
      (piece.tx = none → ∀ tx ∈ saved, tx ∈ (state.conns piece.conn).txPending)))
  | .take | .check | .send _ | .fail => .isTrue trivial

instance : ∀ point, Decidable (state.ThreadCounts point)
  | .idle | .packet .. => .isTrue trivial
  | .piece piece point => inferInstanceAs (Decidable (state.PieceCounts piece point))

instance (run : NotifyRun) : ∀ now, Decidable (state.NotifyCounts run now)
  | .running slot none => inferInstanceAs (Decidable (∀ other, other ≠ run →
      (state.notify other).handFor slot = []))
  | .idle | .running _ (some _) => .isTrue trivial

instance : ∀ input, Decidable (state.KeepsCredits input)
  | .txThread _ => inferInstanceAs (Decidable (state.ThreadCounts state.txThread))
  | .notify run => inferInstanceAs
      (Decidable (state.NotifyCounts run (state.notify run)))
  | .connect .. | .sendCb .. | .alloc .. | .fill .. | .put .. | .processTx .. |
    .completedPackets .. | .disconnecting .. | .disconnComplete .. |
    .disconnected .. | .txCompleteWork .. | .deferredWork .. => .isTrue trivial

end Decidable

theorem sampleConnTx_separate : sampleConnTx.Separate :=
  ⟨rfl, by decide, by decide, by decide⟩

theorem connTx_credits_sample : (connTxMachine sampleConnTx 1 1).Always
      (fun state => (state.Conserved sampleConnTx ↔ state.outstandingOn .le = 0) ∧
          ∀ slot, state.Reported slot)
      (TxState.boot sampleConnTx) (sampleTxRun ++ sampleTxRest) :=
  connTx_credits sampleConnTx_separate (by decide +kernel)

theorem connTx_acl_uses_iso : ¬ (connTxMachine sampleConnTx 1 1).Always
      (fun state => state.Conserved sampleConnTx ∧ ∀ slot, state.Reported slot)
      (TxState.boot sampleConnTx) sampleTxRun := by
  intro always
  have conserved : ((connTxMachine sampleConnTx 1 1).run
      (TxState.boot sampleConnTx) sampleTxRun).Conserved sampleConnTx :=
    always.last.1
  exact absurd conserved.acl (by decide +kernel)

end ZephyrBluetooth.Host
