import Mathlib.Data.List.Perm.Basic
import ZephyrBluetooth.Mesh.SegTransfer

namespace ZephyrBluetooth.Mesh

open Bool Data List Option

variable {tx : SegTx} {evts : List SegTxEvt}

/-! The advertising buffers that `seg_pending` counts, with their callbacks
(`adv.h`, `adv.c`, and `bt_mesh_net_send` for the buffers that go to Proxy
Clients first). -/

/-- The `struct bt_mesh_adv` of a segment: the context that its callbacks are
for, whether the start callback was called and whether the callbacks are set.
It is the context's own until `send_seg` takes the context again, and told once
its end or its failed start was called. -/
structure SegFlight where
  slot : Nat
  started : Bool
  hasCb : Bool
  own : Bool
  told : Bool

def SegFlight.created (slot : Nat) : SegFlight where
  slot := slot
  started := false
  hasCb := true
  own := true
  told := false

/-- `bt_mesh_adv_send_start` of a buffer that was not started before. -/
def SegFlight.start (failed : Bool) (flight : SegFlight) : SegFlight :=
  { flight with
    started := true
    hasCb := flight.hasCb && !failed
    told := flight.told || (flight.hasCb && failed) }

/-- `wrapped` tells that `seg_pending` was counted down from zero. -/
structure SegFlights where
  segTx : SegTxs
  flights : List SegFlight
  wrapped : Bool

def SegFlights.boot (cfg : Config) (msgCount segBufs : Nat) : SegFlights where
  segTx := .boot cfg msgCount segBufs
  flights := []
  wrapped := false

namespace SegTxInput

def IsCall : SegTxInput → Prop
  | .segSendStart _ _ => False
  | .segSent _ => False
  | _ => True

def outcome : SegTxInput → Nat → SegOutcome
  | .send env _ _ _ _ => env.outcome
  | .retransmit env _ => env.outcome
  | _ => fun _ => .failed

def taken (txs : List SegTx) : SegTxInput → Option Nat
  | .send .. => txs.findIdx? fun tx => tx.nackCount == 0
  | _ => none

end SegTxInput

def takeOff (outcome : Nat → SegOutcome) : SegTxEvt → Option SegFlight
  | .netSend slot segO _ =>
    if outcome segO = .sent then some (.created slot) else none
  | _ => none

def disown (taken : Option Nat) (flights : List SegFlight) : List SegFlight :=
  flights.map fun flight =>
    if taken = some flight.slot then { flight with own := false } else flight

def activeAt (txs : List SegTx) (slot : Nat) : Bool :=
  (txs[slot]?).any fun tx => tx.nackCount != 0

/-- `schedule_retransmit` would count `seg_pending` down from zero. -/
def wrapsAt (txs : List SegTx) (slot : Nat) : Bool :=
  (txs[slot]?).any fun tx => tx.nackCount != 0 && tx.segPending == 0

/-- `advStart` stands for `bt_mesh_adv_send_start`, called for a Proxy Client or
by the advertiser, `advSend` for `bt_mesh_adv_send` and `advEnd` for the end of
a buffer, which was started before. -/
inductive FlightInput where
  | call (input : SegTxInput) (isCall : input.IsCall)
  | advStart (place : Nat) (failed : Bool)
  | advSend (place : Nat)
  | advEnd (place : Nat)

def FlightInput.Fits (cfg : Config) : FlightInput → Prop
  | .call input _ => input.Fits cfg
  | _ => True

instance (cfg : Config) : ∀ input : FlightInput, Decidable (input.Fits cfg)
  | .call input _ => inferInstanceAs (Decidable (input.Fits cfg))
  | .advStart _ _ | .advSend _ | .advEnd _ => .isTrue trivial

def flightStep (cfg : Config) (state : SegFlights) :
    FlightInput → SegFlights × List SegTxEvt
  | .call input _ =>
    let (after, evts) := segTxStep cfg state.segTx input
    ({ state with
        segTx := after
        flights := disown (input.taken state.segTx.txs) state.flights ++
          evts.filterMap (takeOff input.outcome) },
      evts)
  | .advStart place failed =>
    match state.flights[place]? with
    | none => (state, [])
    | some flight =>
      let flown :=
        { state with
          flights := state.flights.set place (flight.start failed) }
      if flight.started then
        (state, [])
      else if flight.hasCb then
        let (after, evts) :=
          segTxStep cfg state.segTx (.segSendStart flight.slot failed)
        ({ flown with
            segTx := after
            wrapped := state.wrapped ||
              (failed && wrapsAt state.segTx.txs flight.slot) },
          evts)
      else
        (flown, [])
  | .advSend place =>
    match state.flights[place]? with
    | none => (state, [])
    | some flight =>
      ({ state with
          flights := state.flights.set place { flight with hasCb := true } },
        [])
  | .advEnd place =>
    match state.flights[place]? with
    | none => (state, [])
    | some flight =>
      let gone := { state with flights := state.flights.eraseIdx place }
      if !flight.started then
        (state, [])
      else if flight.hasCb then
        let (after, evts) :=
          segTxStep cfg state.segTx (.segSent flight.slot)
        ({ gone with
            segTx := after
            wrapped := state.wrapped || wrapsAt state.segTx.txs flight.slot },
          evts)
      else
        (gone, [])

def flightMachine (cfg : Config) :
    Machine SegFlights FlightInput SegTxEvt where
  step := flightStep cfg

def counts (slot : Nat) (flight : SegFlight) : Bool :=
  flight.slot == slot && flight.own && !flight.told

/-- The segments of the context's transfer whose end or failed start is still
outstanding. -/
def outstanding (flights : List SegFlight) (slot : Nat) : Nat :=
  flights.countP (counts slot)

structure PendingCounted (state : SegFlights) : Prop where
  counted : ∀ (slot : Nat) (tx : SegTx), state.segTx.txs[slot]? = some tx →
    tx.nackCount ≠ 0 → tx.segPending = outstanding state.flights slot
  unwrapped : state.wrapped = false

/-- The segments that `bt_mesh_net_send` hands to the advertiser, of the `left`
ones from `segO` on. -/
def takeoffs (seg : List (Option SegBuf)) (outcome : Nat → SegOutcome) :
    Nat → Nat → Nat
  | 0, _ => 0
  | left + 1, segO =>
    if (seg[segO]?).join.isNone then takeoffs seg outcome left (segO + 1)
    else
      match outcome segO with
      | .sent => takeoffs seg outcome left (segO + 1) + 1
      | .loopback => takeoffs seg outcome left (segO + 1)
      | .noBuffer | .failed => 0

def SegTx.takeoffs (outcome : Nat → SegOutcome) (tx : SegTx) : Nat :=
  Mesh.takeoffs tx.seg outcome (tx.segN + 1 - tx.segO) tx.segO

/-- A callback that counts down finds its own transfer, or none, and a
retransmission does not take `seg_pending` past 255. -/
def OwnCallbacks (state : SegFlights) : FlightInput → Prop
  | .call (.retransmit env slot) _ =>
    ∀ tx, state.segTx.txs[slot]? = some tx → tx.retransmit = true →
      tx.nackCount ≠ 0 → tx.attempts ≠ 0 →
      tx.segPending + tx.takeoffs env.outcome < 2 ^ 8
  | .call _ _ => True
  | .advStart place failed =>
    ∀ flight, state.flights[place]? = some flight → flight.started = false →
      failed = true → activeAt state.segTx.txs flight.slot = true →
      flight.own = true
  | .advSend _ => True
  | .advEnd place =>
    ∀ flight, state.flights[place]? = some flight → flight.started = true →
      flight.hasCb = true → activeAt state.segTx.txs flight.slot = true →
      flight.own = true ∧ flight.told = false

def Steady (before after : SegTx) : Prop :=
  after.nackCount ≠ 0 → before.nackCount ≠ 0 ∧ after.segPending = before.segPending

theorem Steady.refl (tx : SegTx) : Steady tx tx :=
  fun active => ⟨active, rfl⟩

theorem Steady.trans {first second third : SegTx} (one : Steady first second)
    (two : Steady second third) : Steady first third := by
  intro active
  obtain ⟨middle, same⟩ := two active
  obtain ⟨old, alike⟩ := one middle
  exact ⟨old, same.trans alike⟩

abbrev AllSteady (before after : List SegTx) : Prop :=
  List.Forall₂ Steady before after

theorem AllSteady.refl (txs : List SegTx) : AllSteady txs txs :=
  forall₂_same.mpr fun tx _ => .refl tx

theorem AllSteady.trans {before middle after : List SegTx}
    (one : AllSteady before middle) (two : AllSteady middle after) :
    AllSteady before after :=
  forall₂_trans (fun _ _ _ => .trans) one two

variable {slot : Nat}

theorem AllSteady.set {txs : List SegTx} {updated : SegTx}
    (found : txs[slot]? = some tx) (steady : Steady tx updated) :
    AllSteady txs (txs.set slot updated) :=
  forall₂_set .refl found steady

section Calls

variable {cfg : Config} {state : SegTxs} {outcome : Nat → SegOutcome}

theorem segTxUnblockCheck_steady (slot : Nat) (tx : SegTx) (txs : List SegTx) :
    AllSteady txs (segTxUnblockCheck slot tx txs) := by
  unfold segTxUnblockCheck
  cases scan : unblockScan slot tx 0 none txs with
  | none => exact .refl txs
  | some best =>
    obtain ⟨_, _⟩ := best
    rcases unblockScan_some scan with empty | ⟨k, place, found, _⟩
    · cases empty
    rw [zero_add] at place
    subst place
    exact .set found fun active => ⟨active, rfl⟩

theorem segTxReset_steady (state : SegTxs) (slot : Nat) :
    AllSteady state.txs (segTxReset state slot).1.txs := by
  unfold segTxReset
  cases found : state.txs[slot]? with
  | none => exact .refl state.txs
  | some => exact .set found fun active => absurd rfl active

theorem segTxComplete_steady (state : SegTxs) (slot : Nat) (err : Option Errno) :
    AllSteady state.txs (segTxComplete state slot err).1.txs := by
  unfold segTxComplete
  cases state.txs[slot]? with
  | none => exact .refl state.txs
  | some tx =>
    exact (segTxUnblockCheck_steady slot tx state.txs).trans (segTxReset_steady
        { state with txs := segTxUnblockCheck slot tx state.txs } slot)

theorem segTxReset_flights (state : SegTxs) (slot : Nat) :
    (segTxReset state slot).2.filterMap (takeOff outcome) = [] := by
  unfold segTxReset
  cases state.txs[slot]? <;> rfl

theorem segTxComplete_flights (state : SegTxs) (slot : Nat) (err : Option Errno) :
    (segTxComplete state slot err).2.filterMap (takeOff outcome) = [] := by
  unfold segTxComplete
  cases state.txs[slot]? with
  | none => rfl
  | some tx =>
    rw [filterMap_append, segTxReset_flights, nil_append]
    cases tx.cb.filter fun cb => cb.hasEnd <;> rfl

theorem segTxDone_pending (tx : SegTx) (slab : List Nat) (idx : Nat) :
    (segTxDone tx slab idx).1.segPending = tx.segPending := by
  unfold segTxDone
  split <;> rfl

theorem ackSegments_steady (active : tx.nackCount ≠ 0) (ack : Nat) (slab : List Nat) :
    Steady tx (ackSegments ack tx slab).1 :=
  fun _ => ⟨active, ackSegments_same _ segTxDone_pending ack tx slab⟩

theorem ackContext_steady (ack : Nat) (found : state.txs[slot]? = some tx)
    (active : addrIsUnicast tx.dst = true → tx.nackCount ≠ 0) :
    AllSteady state.txs (ackContext ack slot state).2.1.txs := by
  unfold ackContext
  rw [found]
  dsimp only
  split
  · exact .refl state.txs
  rename_i unicast
  have active := active (by simpa using unicast)
  have acked := ackSegments_steady active ack state.slab
  split
  · exact segTxComplete_steady state slot _
  split
  · exact .refl state.txs
  split
  · have scheduled : Steady tx
        { (ackSegments ack tx state.slab).1 with retransmit := true } :=
      acked
    exact .set found scheduled
  · have placed := AllSteady.set found acked
    exact placed.trans (segTxComplete_steady
      ⟨state.txs.set slot (ackSegments ack tx state.slab).1,
        (ackSegments ack tx state.slab).2⟩ slot none)

theorem ackContext_flights (ack slot : Nat) (state : SegTxs) :
    (ackContext ack slot state).2.2.filterMap (takeOff outcome) = [] := by
  unfold ackContext
  cases state.txs[slot]? with
  | none => rfl
  | some =>
    dsimp only
    split
    · rfl
    split
    · exact segTxComplete_flights state slot _
    split
    · rfl
    split
    · rfl
    · exact segTxComplete_flights _ slot none

theorem transAck_steady (tidy : TidyTxs state.txs) (friendMatch : Bool)
    (iviRx addr : Nat) (buf : List Byte) :
    AllSteady state.txs (transAck cfg friendMatch iviRx addr buf state).2.1.txs := by
  unfold transAck
  split
  · dsimp only
    split
    · exact .refl state.txs
    split
    · exact .refl state.txs
    rename_i slot txs lookup
    obtain ⟨tx, found, rfl, active⟩ := segTxLookup_active tidy lookup
    have bound := (List.getElem?_eq_some_iff.mp found).1
    have moved : AllSteady state.txs
        (state.txs.set slot { tx with dst := addr }) :=
      .set found fun active => ⟨active, rfl⟩
    have placed : ({ state with
        txs := state.txs.set slot { tx with dst := addr } } :
        SegTxs).txs[slot]? = some { tx with dst := addr } :=
      getElem?_set_self bound
    exact moved.trans (ackContext_steady _ placed active)
  · exact .refl state.txs

theorem transAck_flights (friendMatch : Bool) (iviRx addr : Nat)
    (buf : List Byte) (state : SegTxs) :
    (transAck cfg friendMatch iviRx addr buf state).2.2.filterMap
      (takeOff outcome) = [] := by
  unfold transAck
  split
  · dsimp only
    split
    · rfl
    split
    · rfl
    · exact ackContext_flights _ _ _
  · rfl

theorem transResetTx_steady (state : SegTxs) :
    AllSteady state.txs (transResetTx state).1.txs ∧
      (transResetTx state).2.filterMap (takeOff outcome) = [] := by
  apply foldlRecOn (motive := fun current : SegTxs × List SegTxEvt =>
    AllSteady state.txs current.1.txs ∧ current.2.filterMap (takeOff outcome) = [])
  · exact ⟨.refl state.txs, rfl⟩
  · intro current kept slot _
    refine ⟨kept.1.trans (segTxReset_steady current.1 slot), ?_⟩
    rw [filterMap_append, kept.2, segTxReset_flights]
    rfl

theorem scheduleRetransmit_nackCount (tx : SegTx) :
    (scheduleRetransmit tx).nackCount = tx.nackCount :=
  (scheduleRetransmit_same tx).nackCount

theorem scheduleRetransmit_pending (active : tx.nackCount ≠ 0) :
    (scheduleRetransmit tx).segPending = (tx.segPending + 2 ^ 8 - 1) % 2 ^ 8 := by
  unfold scheduleRetransmit
  rw [if_neg active]
  dsimp only
  split <;> rfl

theorem callStart_pending (failed : Bool) (tx : SegTx) :
    (tx.callStart failed).1.segPending = tx.segPending := by
  unfold SegTx.callStart
  split
  · split <;> rfl
  · rfl

theorem callStart_flights (failed : Bool) (tx : SegTx) :
    (tx.callStart failed).2.filterMap (takeOff outcome) = [] := by
  unfold SegTx.callStart
  split
  · split <;> rfl
  · rfl

theorem sendSegments_flies (slot : Nat) (outcome : Nat → SegOutcome)
    (left : Nat) : ∀ tx : SegTx, tx.nackCount ≠ 0 → tx.segPending < 2 ^ 8 →
      (sendSegments slot outcome left tx).1.segPending =
          (tx.segPending + takeoffs tx.seg outcome left tx.segO) % 2 ^ 8 ∧
        (sendSegments slot outcome left tx).2.1.filterMap (takeOff outcome) =
          replicate (takeoffs tx.seg outcome left tx.segO) (.created slot) := by
  induction left with
  | zero =>
    intro tx _ small
    exact ⟨(Nat.mod_eq_of_lt small).symm, rfl⟩
  | succ left ih =>
    intro tx active small
    rw [sendSegments, takeoffs]
    cases held : (tx.seg[tx.segO]?).join with
    | none => exact ih { tx with segO := tx.segO + 1 } active small
    | some =>
      rw [isNone_some, if_neg Bool.false_ne_true]
      cases answer : outcome tx.segO with
      | noBuffer => exact ⟨(Nat.mod_eq_of_lt small).symm, rfl⟩
      | failed => exact ⟨(Nat.mod_eq_of_lt small).symm, rfl⟩
      | sent =>
        obtain ⟨pending, flights⟩ := ih
          { tx with
            segPending := (tx.segPending + 1) % 2 ^ 8
            segO := tx.segO + 1 } active (Nat.mod_lt _ (by decide))
        dsimp only at pending flights ⊢
        constructor
        · rw [pending]
          omega
        · rw [filterMap_cons_some (b := .created slot) (by
            rw [takeOff, if_pos answer]), flights]
          rfl
      | loopback =>
        generalize sending : ({ tx with
          segPending := (tx.segPending + 1) % 2 ^ 8 } : SegTx) = counted
        have same : SameTransfer tx counted := by
          rw [← sending]
          exact ⟨rfl, rfl, rfl, rfl⟩
        have called := same.trans (callStart_same false counted)
        have sent := called.trans (scheduleRetransmit_same _)
        have back : (scheduleRetransmit
            (counted.callStart false).1).segPending = tx.segPending := by
          rw [scheduleRetransmit_pending (by
            rw [called.nackCount]; exact active), callStart_pending,
            ← sending]
          dsimp only
          omega
        obtain ⟨pending, flights⟩ := ih
          { scheduleRetransmit (counted.callStart false).1 with
            segO := tx.segO + 1 }
          (by dsimp only; rw [sent.nackCount]; exact active)
          (by dsimp only; rw [back]; exact small)
        refine ⟨pending.trans ?_, ?_⟩
        · dsimp only
          rw [back, sent.seg]
        · dsimp only
          rw [filterMap_cons_none (by
            rw [takeOff, if_neg (by rw [answer]; decide)]),
            filterMap_append]
          change (counted.callStart false).2.filterMap _ ++ _ = _
          rw [callStart_flights]
          exact flights.trans (by dsimp only; rw [sent.seg])

theorem segTxAttempt_flies (slot : Nat) {tx : SegTx} (active : tx.nackCount ≠ 0)
    (small : tx.segPending < 2 ^ 8) :
    (segTxAttempt slot outcome tx).1.segPending =
        (tx.segPending + tx.takeoffs outcome) % 2 ^ 8 ∧
      (segTxAttempt slot outcome tx).2.filterMap (takeOff outcome) =
        replicate (tx.takeoffs outcome) (.created slot) := by
  obtain ⟨pending, flights⟩ := sendSegments_flies slot outcome
    (tx.segN + 1 - tx.segO) { tx with sending := true } active small
  refine ⟨?_, flights⟩
  unfold segTxAttempt
  dsimp only
  split <;> exact pending

inductive Round (outcome : Nat → SegOutcome) (slot : Nat) (before after : SegTxs)
    (evts : List SegTxEvt) : Prop where
  | none
      (rest : ∀ tx, before.txs[slot]? = some tx → tx.nackCount ≠ 0 → tx.attempts = 0)
      (steady : AllSteady before.txs after.txs)
      (flights : evts.filterMap (takeOff outcome) = [])
  | sent (tx tried : SegTx)
      (found : before.txs[slot]? = some tx) (active : tx.nackCount ≠ 0)
      (attempts : tx.attempts ≠ 0) (goes : tried.nackCount ≠ 0)
      (txs : after.txs = before.txs.set slot tried)
      (pending : tried.segPending = (tx.segPending + tx.takeoffs outcome) % 2 ^ 8)
      (flights : evts.filterMap (takeOff outcome) =
        List.replicate (tx.takeoffs outcome) (.created slot))

def SmallPending (txs : List SegTx) : Prop :=
  ∀ tx ∈ txs, tx.nackCount ≠ 0 → tx.segPending < 2 ^ 8

theorem SmallPending.steady {before after : List SegTx}
    (small : SmallPending before) (steady : AllSteady before after) :
    SmallPending after := by
  intro tx member active
  obtain ⟨old, among, step⟩ := forall₂_mem steady member
  obtain ⟨was, same⟩ := step active
  rw [same]
  exact small old among was

theorem SmallPending.set {txs : List SegTx} (small : SmallPending txs)
    (slot : Nat) {updated : SegTx}
    (here : updated.nackCount ≠ 0 → updated.segPending < 2 ^ 8) :
    SmallPending (txs.set slot updated) := by
  intro tx member active
  rcases mem_or_eq_of_mem_set member with old | rfl
  · exact small tx old active
  · exact here active

theorem segTxSendUnacked_round (small : SmallPending state.txs) (env : SegEnv)
    (slot : Nat) :
    Round env.outcome slot state (segTxSendUnacked env state slot).1
      (segTxSendUnacked env state slot).2 := by
  unfold segTxSendUnacked
  cases found : state.txs[slot]? with
  | none =>
    exact .none (fun tx here => by rw [found] at here; cases here)
      (.refl state.txs) rfl
  | some tx =>
    have same (other : SegTx) (here : state.txs[slot]? = some other) :
        other = tx := by
      rw [found] at here
      exact (some.inj here).symm
    dsimp only
    split
    · rename_i idle
      exact .none (fun other here active => absurd (same other here ▸ idle)
        active) (.refl state.txs) rfl
    · rename_i active
      split
      · rename_i last
        exact .none (fun other here _ => same other here ▸ last)
          (segTxComplete_steady state slot _)
          (segTxComplete_flights state slot _)
      · rename_i attempts
        obtain ⟨pending, flights⟩ := @segTxAttempt_flies env.outcome slot tx
          active (small tx (mem_of_getElem? found) active)
        have goes := (segTxAttempt_same slot env.outcome tx).nackCount
        exact .sent tx _ found active attempts (by rw [goes]; exact active) rfl
          pending flights

theorem segRetransmit_round (small : SmallPending state.txs) (env : SegEnv)
    (slot : Nat) : (∀ tx, state.txs[slot]? = some tx → tx.retransmit = false) ∧
        segRetransmit env state slot = (state, []) ∨
      (∀ tx, state.txs[slot]? = some tx → tx.retransmit = true) ∧
        Round env.outcome slot state (segRetransmit env state slot).1
          (segRetransmit env state slot).2 := by
  unfold segRetransmit
  cases found : state.txs[slot]? with
  | none => exact .inl ⟨fun tx here => (by cases here), rfl⟩
  | some tx =>
    dsimp only
    split
    · rename_i scheduled
      refine .inr ⟨fun other here => ?_, ?_⟩
      · cases here
        exact scheduled
      · have bound := (List.getElem?_eq_some_iff.mp found).1
        have cleared : AllSteady state.txs
            (state.txs.set slot { tx with retransmit := false }) :=
          .set found fun active => ⟨active, rfl⟩
        have placed : (state.txs.set slot { tx with retransmit := false })[slot]? =
              some { tx with retransmit := false } :=
          getElem?_set_self bound
        cases @segTxSendUnacked_round
          { state with txs := state.txs.set slot { tx with retransmit := false } }
          (small.steady cleared) env slot with
        | none rest steady flights =>
          refine .none (fun other here active => ?_) (cleared.trans steady) flights
          rw [found] at here
          cases here
          have last := rest _ placed active
          exact last
        | sent other tried here active attempts goes txs pending flights =>
          cases placed.symm.trans here
          exact .sent tx tried found active attempts goes
            (by rw [txs, set_set]) pending flights
    · rename_i idle
      refine .inl ⟨fun other here => ?_, rfl⟩
      cases here
      exact eq_false_of_ne_true idle

theorem fillSegments_flights (env : SegEnv) (unicast : Bool)
    (segments : List (List Byte)) : ∀ (segO : Nat) (tx : SegTx) (slab : List Nat),
      (fillSegments cfg env unicast segO segments
        (tx, slab)).2.2.2.filterMap (takeOff outcome) = [] := by
  induction segments with
  | nil =>
    intro segO tx slab
    rfl
  | cons data rest ih =>
    intro segO tx slab
    cases slab with
    | nil => rfl
    | cons =>
      have offered (pdu : List Byte) : (if cfg.friend = true then
          [SegTxEvt.friendEnqueue segO pdu] else []).filterMap
            (takeOff outcome) = [] := by
        split <;> rfl
      rw [fillSegments]
      rw [filterMap_append, offered, nil_append]
      split
      · exact ih (segO + 1) _ _
      · exact ih (segO + 1) _ _

theorem takeoffs_le (seg : List (Option SegBuf)) (outcome : Nat → SegOutcome)
    (left segO : Nat) : takeoffs seg outcome left segO ≤ left := by
  induction left generalizing segO with
  | zero => exact Nat.le_refl 0
  | succ left ih =>
    have later := ih (segO + 1)
    rw [takeoffs]
    split
    · omega
    · split <;> omega

/-- What `send_seg` does: nothing, or a context is filled in and the transfer
of it is begun, waits or is given up. -/
inductive Sending (outcome : Nat → SegOutcome) (before after : SegTxs)
    (evts : List SegTxEvt) : Option Nat → Prop where
  | busy (same : after.txs = before.txs)
      (flights : evts.filterMap (takeOff outcome) = []) :
      Sending outcome before after evts none
  | taken (slot : Nat) (tx copied : SegTx) (slab : List Nat)
      (found : before.txs[slot]? = some tx)
      (fresh : copied.segPending = 0)
      (few : copied.takeoffs outcome < 2 ^ 8)
      (round : Round outcome slot ⟨before.txs.set slot copied, slab⟩ after evts ∨
        AllSteady (before.txs.set slot copied) after.txs ∧
          evts.filterMap (takeOff outcome) = []) :
      Sending outcome before after evts (some slot)

theorem Round.append {before after : SegTxs}
    {first last : List SegTxEvt} (round : Round outcome slot before after evts)
    (silent : first.filterMap (takeOff outcome) = [])
    (quiet : last.filterMap (takeOff outcome) = []) :
    Round outcome slot before after (first ++ evts ++ last) := by
  have same : (first ++ evts ++ last).filterMap (takeOff outcome) =
      evts.filterMap (takeOff outcome) := by
    rw [filterMap_append, filterMap_append, silent, quiet, nil_append, append_nil]
  cases round with
  | none rest steady flights => exact .none rest steady (same.trans flights)
  | sent tx tried found active attempts goes txs pending flights =>
    exact .sent tx tried found active attempts goes txs pending (same.trans flights)

theorem sendSeg_sending (small : SmallPending state.txs) (env : SegEnv)
    (netTx : NetTx) {sdu : List Byte} (cb : Option SendCb) (ctlOp : Option Nat)
    (fits : sdu.length ≤ cfg.txSegMax * segLen ctlOp.isSome) :
    Sending env.outcome state (sendSeg cfg env netTx sdu cb ctlOp state).2.1
      (sendSeg cfg env netTx sdu cb ctlOp state).2.2
      (state.txs.findIdx? fun tx => tx.nackCount == 0) := by
  unfold sendSeg
  generalize (state.txs.any fun tx =>
    tx.nackCount != 0 && segTxBlocks tx netTx.src netTx.addr) = blocked
  cases search : state.txs.findIdx? fun tx => tx.nackCount == 0 with
  | none => exact .busy rfl rfl
  | some slot =>
    obtain ⟨tx, found, _, taken⟩ := idle_slot (.boot cfg.txSegMax) search
    dsimp only
    rw [taken]
    have few : (sdu.length - 1) / segLen ctlOp.isSome % 2 ^ 8 + 1 ≤ 2 ^ 7 := by
      have limit := cfg.txSegMax_le
      have long : sdu.length ≤ 32 * segLen ctlOp.isSome :=
        Nat.le_trans fits (Nat.mul_le_mul_right _ limit)
      have last : (sdu.length - 1) / segLen ctlOp.isSome ≤ 32 := by
        apply Nat.div_le_of_le_mul
        rw [Nat.mul_comm]
        omega
      generalize (sdu.length - 1) / segLen ctlOp.isSome = segN at last
      omega
    have room (filled : SegTx)
        (segN : filled.segN = (sdu.length - 1) / segLen ctlOp.isSome % 2 ^ 8) :
        filled.takeoffs env.outcome < 2 ^ 8 := by
      have most := takeoffs_le filled.seg env.outcome
        (filled.segN + 1 - filled.segO) filled.segO
      unfold SegTx.takeoffs
      omega
    split
    · exact .taken slot tx _ state.slab found rfl (room _ rfl)
        (.inr ⟨segTxReset_steady ⟨_, state.slab⟩ slot, segTxReset_flights _ slot⟩)
    · have silent := @fillSegments_flights cfg env.outcome env
        (addrIsUnicast netTx.addr)
        (sduSegments (segLen ctlOp.isSome) sdu.length sdu) 0
        (segTxOpen cfg env netTx ctlOp cb sdu.length blocked tx) state.slab
      have filled := fillSegments_seg cfg env (addrIsUnicast netTx.addr)
        (sduSegments (segLen ctlOp.isSome) sdu.length sdu) 0
        (segTxOpen cfg env netTx ctlOp cb sdu.length blocked tx) state.slab
      generalize fillSegments cfg env (addrIsUnicast netTx.addr) 0
        (sduSegments (segLen ctlOp.isSome) sdu.length sdu)
        (segTxOpen cfg env netTx ctlOp cb sdu.length blocked tx, state.slab) =
          result at silent filled ⊢
      obtain ⟨_, copied, slab, _⟩ := result
      have pending : copied.segPending = 0 := by
        rw [show copied = _ from filled]
        rfl
      have segN : copied.segN = (sdu.length - 1) / segLen ctlOp.isSome % 2 ^ 8 := by
        rw [show copied = _ from filled]
        rfl
      have placed : SmallPending (state.txs.set slot copied) :=
        small.set slot fun _ => by rw [pending]; decide
      refine .taken slot tx copied slab found pending (room copied segN) ?_
      split
      · refine .inr ⟨segTxReset_steady ⟨_, slab⟩ slot, ?_⟩
        rw [filterMap_append, silent, segTxReset_flights]
        rfl
      · split
        · refine .inr ⟨segTxReset_steady ⟨_, slab⟩ slot, ?_⟩
          rw [filterMap_append, filterMap_append, silent, segTxReset_flights]
          unfold sendCbFinalize
          cases cb with
          | none => rfl
          | some =>
            dsimp only
            split <;> split <;> rfl
        · split
          · refine .inr ⟨.refl _, ?_⟩
            rw [filterMap_append, silent]
            rfl
          · refine .inl ((segTxSendUnacked_round placed env slot).append silent ?_)
            split <;> rfl

end Calls

section Buffers

variable {flights : List SegFlight} {place slot : Nat} {flight : SegFlight}

theorem outstanding_found (found : flights[place]? = some flight) (slot : Nat) :
    outstanding flights slot = (counts slot flight).toNat +
        outstanding (flights.eraseIdx place) slot := by
  obtain ⟨bound, here⟩ := List.getElem?_eq_some_iff.mp found
  have apart := getElem_cons_eraseIdx_perm bound
  unfold outstanding
  rw [← apart.countP_eq, countP_cons, here, add_comm]
  cases counts slot flight <;> rfl

theorem outstanding_set (found : flights[place]? = some flight)
    (updated : SegFlight) (slot : Nat) :
    outstanding (flights.set place updated) slot = (counts slot updated).toNat +
        outstanding (flights.eraseIdx place) slot := by
  obtain ⟨bound, _⟩ := List.getElem?_eq_some_iff.mp found
  have apart := set_perm_cons_eraseIdx bound updated
  unfold outstanding
  rw [apart.countP_eq, countP_cons, add_comm]
  cases counts slot updated <;> rfl

theorem outstanding_append (flights : List SegFlight) (count slot other : Nat) :
    outstanding (flights ++ replicate count (.created slot)) other =
      outstanding flights other + if other = slot then count else 0 := by
  unfold outstanding
  rw [countP_append, countP_replicate]
  by_cases same : other = slot
  · simp [same, counts, SegFlight.created]
  · simp [same, Ne.symm same, counts, SegFlight.created]

theorem outstanding_disown_taken (flights : List SegFlight) (slot : Nat) :
    outstanding (disown (some slot) flights) slot = 0 := by
  unfold outstanding disown
  rw [countP_map, countP_eq_zero]
  intro flight _ counted
  simp only [Function.comp_apply, counts] at counted
  split at counted
  · simp at counted
  rename_i apart
  simp only [and_eq_true, beq_iff_eq] at counted
  exact apart (congrArg some counted.1.1.symm)

theorem outstanding_disown_other (flights : List SegFlight)
    {taken : Option Nat} (apart : taken ≠ some slot) :
    outstanding (disown taken flights) slot = outstanding flights slot := by
  unfold outstanding disown
  rw [countP_map]
  congr 1
  funext flight
  simp only [Function.comp_apply, counts]
  split
  · rename_i same
    have other : (flight.slot == slot) = false := by
      rw [beq_eq_false_iff_ne]
      intro here
      exact apart (by rw [same, here])
    rw [other]
    rfl
  · rfl

theorem disown_none (flights : List SegFlight) :
    disown none flights = flights := by
  refine (map_congr_left fun flight _ => ?_).trans (map_id flights)
  rw [if_neg (by simp)]
  rfl

end Buffers

section Counting

variable {outcome : Nat → SegOutcome} {slot : Nat} {before after : SegTxs}
variable {flights left : List SegFlight} {wrapped : Bool}

theorem PendingCounted.steady
    (counted : PendingCounted ⟨before, flights, wrapped⟩)
    (steady : AllSteady before.txs after.txs)
    (same : ∀ slot, outstanding left slot = outstanding flights slot) :
    PendingCounted ⟨after, left, wrapped⟩ := by
  refine ⟨?_, counted.unwrapped⟩
  intro slot tx found active
  obtain ⟨old, there, step⟩ := forall₂_found steady found
  obtain ⟨was, alike⟩ := step active
  rw [alike, same slot]
  exact counted.counted slot old there was

theorem Round.counted_iff (counted : PendingCounted ⟨before, flights, wrapped⟩)
    (round : Round outcome slot before after evts) :
    PendingCounted ⟨after, flights ++ evts.filterMap (takeOff outcome), wrapped⟩ ↔
      ∀ tx, before.txs[slot]? = some tx → tx.nackCount ≠ 0 →
        tx.attempts ≠ 0 → tx.segPending + tx.takeoffs outcome < 2 ^ 8 := by
  cases round with
  | none rest steady quiet =>
    rw [quiet, append_nil]
    constructor
    · intro _ tx found active attempts
      exact absurd (rest tx found active) attempts
    · intro _
      exact counted.steady steady fun _ => rfl
  | sent tx tried found active attempts goes txs pending launched =>
    rw [launched]
    have bound := (List.getElem?_eq_some_iff.mp found).1
    have count := counted.counted slot tx found active
    dsimp only at count
    constructor
    · intro kept other here _ _
      cases here.symm.trans found
      have now := kept.counted slot tried
        (by dsimp only; rw [txs]; exact getElem?_set_self bound) goes
      rw [outstanding_append, if_pos rfl, pending] at now
      omega
    · intro room
      have fits := room tx found active attempts
      refine ⟨?_, counted.unwrapped⟩
      intro other context there going
      rw [txs] at there
      rw [outstanding_append]
      rcases getElem?_set_cases there with ⟨rfl, rfl⟩ | ⟨apart, stored⟩
      · rw [if_pos rfl, pending, Nat.mod_eq_of_lt fits, count]
      · rw [if_neg apart, add_zero]
        exact counted.counted other context stored going

theorem PendingCounted.taken {tx copied : SegTx} {slab : List Nat}
    (counted : PendingCounted ⟨before, flights, wrapped⟩)
    (found : before.txs[slot]? = some tx) (fresh : copied.segPending = 0) :
    PendingCounted ⟨⟨before.txs.set slot copied, slab⟩,
      disown (some slot) flights, wrapped⟩ := by
  refine ⟨?_, counted.unwrapped⟩
  intro other context there active
  rcases getElem?_set_cases there with ⟨rfl, rfl⟩ | ⟨apart, stored⟩
  · rw [outstanding_disown_taken, fresh]
  rw [outstanding_disown_other flights
    (by rw [ne_eq, some.injEq]; exact Ne.symm apart)]
  exact counted.counted other context stored active

theorem PendingCounted.countDown_iff {tx updated : SegTx} {flight : SegFlight}
    (counted : PendingCounted ⟨before, flights, wrapped⟩)
    (small : SmallPending before.txs)
    (found : before.txs[slot]? = some tx)
    (nack : updated.nackCount = tx.nackCount)
    (pending : tx.nackCount ≠ 0 →
      updated.segPending = (tx.segPending + 2 ^ 8 - 1) % 2 ^ 8)
    (txs : after.txs = before.txs.set slot updated)
    (here : flight.slot = slot)
    (gone : ∀ other, outstanding flights other =
      (counts other flight).toNat + outstanding left other) :
    PendingCounted ⟨after, left, wrapped || wrapsAt before.txs slot⟩ ↔
      (activeAt before.txs slot = true →
        flight.own = true ∧ flight.told = false) := by
  have bound := (List.getElem?_eq_some_iff.mp found).1
  have placed : after.txs[slot]? = some updated := by
    rw [txs]
    exact getElem?_set_self bound
  have active_iff : activeAt before.txs slot = true ↔ tx.nackCount ≠ 0 := by
    simp [activeAt, found]
  have counts_iff : counts slot flight = true ↔
      flight.own = true ∧ flight.told = false := by
    simp [counts, here]
  have elsewhere (other : Nat) (apart : other ≠ slot) :
      outstanding left other = outstanding flights other := by
    have uncounted : counts other flight = false := by
      simp [counts, here, Ne.symm apart]
    rw [gone other, uncounted]
    exact (zero_add _).symm
  rw [active_iff, ← counts_iff]
  constructor
  · intro kept active
    have now := kept.counted slot updated placed (by rw [nack]; exact active)
    have was := counted.counted slot tx found active
    have limit := small tx (mem_of_getElem? found) active
    have unwrapped := kept.unwrapped
    dsimp only at now was unwrapped
    rw [pending active] at now
    rw [gone slot] at was
    cases counting : counts slot flight with
    | true => rfl
    | false =>
      rw [counting, toNat_false, zero_add] at was
      omega
  · intro counting
    constructor
    · intro other context there going
      dsimp only at there ⊢
      rw [txs] at there
      rcases getElem?_set_cases there with ⟨rfl, rfl⟩ | ⟨apart, stored⟩
      · rw [nack] at going
        have was := counted.counted other tx found going
        have limit := small tx (mem_of_getElem? found) going
        rw [gone other, counting going, toNat_true] at was
        rw [pending going]
        omega
      · rw [elsewhere other apart]
        exact counted.counted other context stored going
    · have unwrapped := counted.unwrapped
      dsimp only at unwrapped ⊢
      rw [unwrapped, Bool.false_or]
      by_cases active : tx.nackCount = 0
      · simp [wrapsAt, found, active]
      have was := counted.counted slot tx found active
      rw [gone slot, counting active, toNat_true] at was
      have positive : tx.segPending ≠ 0 := by omega
      simp [wrapsAt, found, positive]

end Counting

structure FlightsOk (state : SegFlights) : Prop where
  tidy : TidyTxs state.segTx.txs
  small : SmallPending state.segTx.txs
  unstarted : ∀ flight ∈ state.flights, flight.started = false →
    flight.hasCb = true ∧ flight.told = false
  silent : ∀ flight ∈ state.flights, flight.hasCb = false → flight.told = true

section Steps

variable {cfg : Config} {state : SegFlights}

theorem callStart_nackCount (failed : Bool) (tx : SegTx) :
    (tx.callStart failed).1.nackCount = tx.nackCount :=
  (callStart_same failed tx).nackCount

theorem scheduleRetransmit_small (active : tx.nackCount ≠ 0) :
    (scheduleRetransmit tx).segPending < 2 ^ 8 := by
  rw [scheduleRetransmit_pending active]
  exact Nat.mod_lt _ (by decide)

theorem Round.small {outcome : Nat → SegOutcome}
    {before after : SegTxs} (round : Round outcome slot before after evts)
    (small : SmallPending before.txs) : SmallPending after.txs := by
  cases round with
  | none rest steady => exact small.steady steady
  | sent tx tried found active attempts goes txs pending =>
    rw [txs]
    exact small.set slot fun _ => by
      rw [pending]
      exact Nat.mod_lt _ (by decide)

theorem segTxStep_small {state : SegTxs} (tidy : TidyTxs state.txs)
    (small : SmallPending state.txs) (input : SegTxInput) (fits : input.Fits cfg) :
    SmallPending (segTxStep cfg state input).1.txs := by
  cases input with
  | send env netTx sdu cb ctlOp =>
    have sending := sendSeg_sending small env netTx cb ctlOp fits
    change SmallPending (sendSeg cfg env netTx sdu cb ctlOp state).2.1.txs
    generalize (state.txs.findIdx? fun tx => tx.nackCount == 0) = taken at sending
    cases sending with
    | busy same =>
      rw [same]
      exact small
    | taken slot tx copied slab found fresh few round =>
      have placed : SmallPending (state.txs.set slot copied) :=
        small.set slot fun _ => by rw [fresh]; decide
      rcases round with round | ⟨steady, _⟩
      · exact round.small placed
      · exact placed.steady steady
  | retransmit env slot =>
    change SmallPending (segRetransmit env state slot).1.txs
    rcases segRetransmit_round small env slot with ⟨_, same⟩ | ⟨_, round⟩
    · rw [same]
      exact small
    · exact round.small small
  | ack friendMatch iviRx addr buf =>
    exact small.steady (transAck_steady tidy friendMatch iviRx addr buf)
  | segSendStart slot failed =>
    simp only [segTxStep]
    cases found : state.txs[slot]? with
    | none => exact small
    | some tx =>
      refine small.set slot fun active => ?_
      have was := small tx (mem_of_getElem? found)
      cases failed with
      | false =>
        change (tx.callStart false).1.nackCount ≠ 0 at active
        change (tx.callStart false).1.segPending < 2 ^ 8
        rw [callStart_nackCount] at active
        rw [callStart_pending]
        exact was active
      | true =>
        change (scheduleRetransmit _).nackCount ≠ 0 at active
        rw [scheduleRetransmit_nackCount] at active
        exact scheduleRetransmit_small active
  | segSent slot =>
    simp only [segTxStep]
    cases found : state.txs[slot]? with
    | none => exact small
    | some =>
      refine small.set slot fun active => ?_
      change (scheduleRetransmit _).nackCount ≠ 0 at active
      rw [scheduleRetransmit_nackCount] at active
      exact scheduleRetransmit_small active
  | reset => exact small.steady (@transResetTx_steady (fun _ => .failed) state).1

theorem flightStep_ok (input : FlightInput) (fits : input.Fits cfg)
    (ok : FlightsOk state) : FlightsOk ((flightMachine cfg).next state input) := by
  have tidy (call : SegTxInput) (fits : call.Fits cfg) :
      TidyTxs (segTxStep cfg state.segTx call).1.txs :=
    (segTxStep_exact ok.tidy call fits).tidy
  have small (call : SegTxInput) (fits : call.Fits cfg) :
      SmallPending (segTxStep cfg state.segTx call).1.txs :=
    segTxStep_small ok.tidy ok.small call fits
  change FlightsOk (flightStep cfg state input).1
  cases input with
  | call input isCall =>
    have kept (holds : SegFlight → Prop)
        (disowned : ∀ flight, holds flight → holds { flight with own := false })
        (created : ∀ slot, holds (.created slot))
        (every : ∀ flight ∈ state.flights, holds flight) :
        ∀ flight ∈ (flightStep cfg state (.call input isCall)).1.flights,
          holds flight := by
      intro flight member
      rcases mem_append.mp member with old | new
      · obtain ⟨source, among, rfl⟩ := mem_map.mp old
        split
        · exact disowned source (every source among)
        · exact every source among
      · obtain ⟨_, _, launched⟩ := mem_filterMap.mp new
        unfold takeOff at launched
        split at launched
        · split at launched
          · cases launched
            exact created _
          · cases launched
        · cases launched
    exact ⟨tidy input fits, small input fits, kept (fun flight => flight.started = false →
        flight.hasCb = true ∧ flight.told = false)
        (fun _ holds => holds) (fun _ _ => ⟨rfl, rfl⟩) ok.unstarted,
      kept (fun flight => flight.hasCb = false → flight.told = true)
        (fun _ holds => holds) (fun _ no => by cases no) ok.silent⟩
  | advStart place failed =>
    simp only [flightStep]
    cases found : state.flights[place]? with
    | none => exact ok
    | some flight =>
      dsimp only
      split
      · exact ok
      rename_i unstarted
      have fresh := ok.unstarted flight (mem_of_getElem? found)
        (eq_false_of_ne_true unstarted)
      have unstarted : ∀ other ∈ state.flights.set place
          (flight.start failed), other.started = false →
            other.hasCb = true ∧ other.told = false := by
        intro other member
        rcases mem_or_eq_of_mem_set member with old | rfl
        · exact ok.unstarted other old
        · intro no
          cases no
      have silent : ∀ other ∈ state.flights.set place
          (flight.start failed), other.hasCb = false → other.told = true := by
        intro other member
        rcases mem_or_eq_of_mem_set member with old | rfl
        · exact ok.silent other old
        intro quiet
        simp only [SegFlight.start, fresh.1, Bool.true_and,
          Bool.not_eq_false'] at quiet
        simp [SegFlight.start, fresh.1, quiet]
      split
      · exact ⟨tidy _ trivial, small _ trivial, unstarted, silent⟩
      · exact { ok with unstarted := unstarted, silent := silent }
  | advSend place =>
    simp only [flightStep]
    cases found : state.flights[place]? with
    | none => exact ok
    | some flight =>
      refine { ok with unstarted := ?_, silent := ?_ }
      · intro other member
        rcases mem_or_eq_of_mem_set member with old | rfl
        · exact ok.unstarted other old
        intro no
        exact ⟨rfl, (ok.unstarted flight (mem_of_getElem? found) no).2⟩
      · intro other member
        rcases mem_or_eq_of_mem_set member with old | rfl
        · exact ok.silent other old
        · intro no
          cases no
  | advEnd place =>
    have unstarted : ∀ other ∈ state.flights.eraseIdx place,
        other.started = false → other.hasCb = true ∧ other.told = false :=
      fun other member => ok.unstarted other (mem_of_mem_eraseIdx member)
    have silent : ∀ other ∈ state.flights.eraseIdx place,
        other.hasCb = false → other.told = true :=
      fun other member => ok.silent other (mem_of_mem_eraseIdx member)
    simp only [flightStep]
    cases found : state.flights[place]? with
    | none => exact ok
    | some =>
      dsimp only
      split
      · exact ok
      split
      · exact ⟨tidy _ trivial, small _ trivial, unstarted, silent⟩
      · exact { ok with unstarted := unstarted, silent := silent }

theorem call_exact (ok : FlightsOk state) (counted : PendingCounted state)
    (input : SegTxInput) (isCall : input.IsCall) (fits : input.Fits cfg) :
    PendingCounted ((flightMachine cfg).next state (.call input isCall)) ↔
      OwnCallbacks state (.call input isCall) := by
  change PendingCounted (flightStep cfg state (.call input isCall)).1 ↔ _
  cases input with
  | send env netTx sdu cb ctlOp =>
    have sending := sendSeg_sending ok.small env netTx cb ctlOp fits
    refine iff_of_true ?_ trivial
    unfold flightStep SegTxInput.taken
    dsimp only [SegTxInput.outcome]
    change PendingCounted ⟨(sendSeg cfg env netTx sdu cb ctlOp
      state.segTx).2.1, _ ++ (sendSeg cfg env netTx sdu cb ctlOp
      state.segTx).2.2.filterMap _, state.wrapped⟩
    generalize (state.segTx.txs.findIdx? fun tx => tx.nackCount == 0) = taken
      at sending ⊢
    cases sending with
    | busy same flights =>
      rw [flights, disown_none, append_nil]
      exact counted.steady (by rw [same]; exact .refl _) fun _ => rfl
    | taken slot tx copied slab found fresh few round =>
      have mid := @PendingCounted.taken slot state.segTx state.flights
        state.wrapped tx copied slab counted found fresh
      rcases round with round | ⟨steady, flights⟩
      · refine (round.counted_iff mid).mpr ?_
        intro other there _ _
        have bound := (List.getElem?_eq_some_iff.mp found).1
        obtain rfl := some.inj ((getElem?_set_self bound).symm.trans there)
        rw [fresh, zero_add]
        exact few
      · rw [flights, append_nil]
        exact mid.steady steady fun _ => rfl
  | retransmit env slot =>
    unfold flightStep
    dsimp only [SegTxInput.outcome, SegTxInput.taken, OwnCallbacks]
    rw [disown_none]
    change PendingCounted ⟨(segRetransmit env state.segTx slot).1, _ ++
      (segRetransmit env state.segTx slot).2.filterMap _, state.wrapped⟩ ↔ _
    rcases segRetransmit_round ok.small env slot with
      ⟨idle, same⟩ | ⟨scheduled, round⟩
    · rw [same]
      refine iff_of_true ?_ ?_
      · exact counted.steady (.refl _) fun _ => by
          rw [filterMap_nil, append_nil]
      · intro tx found on
        rw [idle tx found] at on
        cases on
    · rw [round.counted_iff counted]
      constructor
      · intro room tx found _
        exact room tx found
      · intro room tx found
        exact room tx found (scheduled tx found)
  | ack friendMatch iviRx addr buf =>
    refine iff_of_true ?_ trivial
    unfold flightStep
    dsimp only [SegTxInput.outcome, SegTxInput.taken]
    rw [disown_none]
    refine counted.steady
      (transAck_steady ok.tidy friendMatch iviRx addr buf) fun slot => ?_
    rw [show (segTxStep cfg state.segTx (.ack friendMatch iviRx addr
      buf)).2.filterMap (takeOff fun _ => .failed) = [] from
        transAck_flights friendMatch iviRx addr buf state.segTx,
      append_nil]
  | segSendStart => cases isCall
  | segSent => cases isCall
  | reset =>
    obtain ⟨steady, flights⟩ := @transResetTx_steady (fun _ => .failed) state.segTx
    refine iff_of_true ?_ trivial
    unfold flightStep
    dsimp only [SegTxInput.outcome, SegTxInput.taken]
    rw [disown_none]
    refine counted.steady steady fun slot => ?_
    rw [show (segTxStep cfg state.segTx .reset).2.filterMap
      (takeOff fun _ => .failed) = [] from flights, append_nil]

variable {flight : SegFlight}

theorem counts_elsewhere {other : Nat}
    (apart : other ≠ flight.slot) : counts other flight = false := by
  simp [counts, Ne.symm apart]

theorem PendingCounted.absent_iff {met : Prop}
    (counted : PendingCounted ⟨before, flights, wrapped⟩)
    (absent : before.txs[flight.slot]? = none)
    (gone : ∀ other, outstanding flights other =
      (counts other flight).toNat + outstanding left other) :
    PendingCounted ⟨before, left, wrapped || wrapsAt before.txs flight.slot⟩ ↔
      (activeAt before.txs flight.slot = true → met) := by
  have idle : activeAt before.txs flight.slot = false := by
    simp [activeAt, absent]
  have unwrapped : wrapsAt before.txs flight.slot = false := by
    simp [wrapsAt, absent]
  rw [idle, unwrapped, Bool.or_false]
  refine iff_of_true ⟨?_, counted.unwrapped⟩ nofun
  intro other tx found active
  have apart : other ≠ flight.slot := by
    intro here
    subst here
    rw [absent] at found
    cases found
  rw [counted.counted other tx found active, gone other, counts_elsewhere apart]
  exact zero_add _

theorem counts_told (told : flight.told = true)
    (slot : Nat) : counts slot flight = false := by
  simp [counts, told]

theorem advStart_exact (ok : FlightsOk state) (counted : PendingCounted state)
    (place : Nat) (failed : Bool) :
    PendingCounted ((flightMachine cfg).next state (.advStart place failed)) ↔
      OwnCallbacks state (.advStart place failed) := by
  change PendingCounted (flightStep cfg state (.advStart place failed)).1 ↔ _
  simp only [flightStep, OwnCallbacks]
  cases found : state.flights[place]? with
  | none => exact iff_of_true counted fun flight here => by cases here
  | some flight =>
    have set := outstanding_set found (flight.start failed)
    have was := outstanding_found found
    dsimp only
    split
    · rename_i started
      refine iff_of_true counted fun other here unstarted => ?_
      cases here
      rw [started] at unstarted
      cases unstarted
    · rename_i unstarted
      obtain ⟨hasCb, told⟩ := ok.unstarted flight
        (mem_of_getElem? found) (eq_false_of_ne_true unstarted)
      have admitted_iff :
          (∀ other, some flight = some other → other.started = false →
            failed = true → activeAt state.segTx.txs other.slot = true →
              other.own = true) ↔
            (failed = true → activeAt state.segTx.txs flight.slot = true →
              flight.own = true ∧ flight.told = false) := by
        constructor
        · intro admitted fails active
          exact ⟨admitted flight rfl (eq_false_of_ne_true unstarted) fails
            active, told⟩
        · intro own other here _ fails active
          cases here
          exact (own fails active).1
      rw [if_pos hasCb, admitted_iff]
      simp only [segTxStep]
      cases failed with
      | false =>
        have same (slot : Nat) :
            outstanding (state.flights.set place (flight.start false))
              slot = outstanding state.flights slot := by
          have alike : counts slot (flight.start false) = counts slot flight := by
            simp [counts, SegFlight.start]
          rw [set, was, alike]
        refine iff_of_true ?_ fun no => by cases no
        rw [Bool.false_and, Bool.or_false]
        cases here : state.segTx.txs[flight.slot]? with
        | none => exact counted.steady (.refl _) same
        | some tx =>
          have steady : Steady tx (tx.callStart false).1 := by
            intro active
            rw [callStart_nackCount] at active
            exact ⟨active, callStart_pending false tx⟩
          have kept : AllSteady state.segTx.txs
              (state.segTx.txs.set flight.slot (tx.callStart false).1) :=
            .set here steady
          exact counted.steady kept same
      | true =>
        have left (slot : Nat) : outstanding state.flights slot =
            (counts slot flight).toNat + outstanding
              (state.flights.set place (flight.start true)) slot := by
          have ended : counts slot (flight.start true) = false :=
            counts_told (by simp [SegFlight.start, hasCb]) slot
          rw [set, ended, was]
          exact congrArg _ (zero_add _).symm
        rw [Bool.true_and]
        cases here : state.segTx.txs[flight.slot]? with
        | none =>
          exact (counted.absent_iff here left).trans
            ⟨fun own _ => own, fun own => own rfl⟩
        | some tx =>
          have called := callStart_same true tx
          have counts_down := @PendingCounted.countDown_iff flight.slot
            state.segTx
            ⟨state.segTx.txs.set flight.slot (segSendStart true tx).1,
              state.segTx.slab⟩
            state.flights _ state.wrapped tx (segSendStart true tx).1
            flight counted ok.small here
            (called.trans (scheduleRetransmit_same _)).nackCount
            (fun active => by
              change (scheduleRetransmit (tx.callStart true).1).segPending = _
              rw [scheduleRetransmit_pending (by
                rw [callStart_nackCount]; exact active),
                callStart_pending])
            rfl rfl left
          exact counts_down.trans ⟨fun own _ => own, fun own => own rfl⟩

theorem advEnd_exact (ok : FlightsOk state) (counted : PendingCounted state)
    (place : Nat) :
    PendingCounted ((flightMachine cfg).next state (.advEnd place)) ↔
      OwnCallbacks state (.advEnd place) := by
  change PendingCounted (flightStep cfg state (.advEnd place)).1 ↔ _
  simp only [flightStep, OwnCallbacks]
  cases found : state.flights[place]? with
  | none => exact iff_of_true counted fun flight here => by cases here
  | some flight =>
    have left := outstanding_found found
    dsimp only
    split
    · rename_i unstarted
      refine iff_of_true counted fun other here started => ?_
      cases here
      rw [started] at unstarted
      cases unstarted
    · rename_i started
      rw [not_eq_true, not_eq_false'] at started
      cases hasCb : flight.hasCb with
      | false =>
        have told := ok.silent flight (mem_of_getElem? found) hasCb
        refine iff_of_true ?_ fun other here _ set => ?_
        · refine counted.steady (.refl _) fun slot => ?_
          rw [left slot, counts_told told]
          exact (zero_add _).symm
        · cases here
          rw [hasCb] at set
          cases set
      | true =>
        have admitted_iff :
            (∀ other, some flight = some other → other.started = true →
              other.hasCb = true → activeAt state.segTx.txs other.slot = true →
                  other.own = true ∧ other.told = false) ↔
              (activeAt state.segTx.txs flight.slot = true →
                flight.own = true ∧ flight.told = false) := by
          constructor
          · intro admitted active
            exact admitted flight rfl started hasCb active
          · intro own other here _ _ active
            cases here
            exact own active
        rw [admitted_iff, if_pos rfl]
        simp only [segTxStep]
        cases here : state.segTx.txs[flight.slot]? with
        | none => exact counted.absent_iff here left
        | some tx =>
          exact @PendingCounted.countDown_iff flight.slot state.segTx
            ⟨state.segTx.txs.set flight.slot (segSent tx), state.segTx.slab⟩
            state.flights _ state.wrapped tx (segSent tx) flight counted
            ok.small here (scheduleRetransmit_nackCount tx)
            scheduleRetransmit_pending rfl rfl left

theorem flightStep_exact (input : FlightInput) (fits : input.Fits cfg)
    (ok : FlightsOk state) (counted : PendingCounted state) :
    PendingCounted ((flightMachine cfg).next state input) ↔
      OwnCallbacks state input := by
  cases input with
  | call input isCall => exact call_exact ok counted input isCall fits
  | advStart place failed => exact advStart_exact ok counted place failed
  | advSend place =>
    refine iff_of_true ?_ trivial
    change PendingCounted (flightStep cfg state (.advSend place)).1
    simp only [flightStep]
    cases found : state.flights[place]? with
    | none => exact counted
    | some =>
      refine counted.steady (.refl _) fun slot => ?_
      rw [outstanding_set found, outstanding_found found]
      rfl
  | advEnd place => exact advEnd_exact ok counted place

end Steps

theorem SegFlights.boot_ok (cfg : Config) (msgCount segBufs : Nat) :
    FlightsOk (.boot cfg msgCount segBufs) := by
  refine ⟨.boot cfg msgCount segBufs, ?_, ?_, ?_⟩
  · intro tx member active
    rw [eq_of_mem_replicate member] at active
    exact absurd rfl active
  · intro flight member
    cases member
  · intro flight member
    cases member

theorem SegFlights.boot_counted (cfg : Config) (msgCount segBufs : Nat) :
    PendingCounted (.boot cfg msgCount segBufs) := by
  refine ⟨?_, rfl⟩
  intro slot tx found active
  rw [eq_of_mem_replicate (mem_of_getElem? found)] at active
  exact absurd rfl active

/-- In a run `seg_pending` counts the own segments whose callback is
outstanding exactly while no callback counts down for another transfer or a
second time. -/
theorem segPending_counted_iff (cfg : Config) (msgCount segBufs : Nat)
    (inputs : List FlightInput)
    (fit : (flightMachine cfg).Along (fun _ input => input.Fits cfg)
      (.boot cfg msgCount segBufs) inputs) :
    (flightMachine cfg).Always PendingCounted (.boot cfg msgCount segBufs)
        inputs ↔
      (flightMachine cfg).Along OwnCallbacks (.boot cfg msgCount segBufs) inputs :=
  Machine.always_iff_along_of (fun _ input ok fits => flightStep_ok input fits ok)
    (fun _ input ok counted fits => flightStep_exact input fits ok counted) inputs
    fit (SegFlights.boot_ok cfg msgCount segBufs)
    (SegFlights.boot_counted cfg msgCount segBufs)

theorem segPending_counted_two :
    (flightMachine sampleConfig).Always PendingCounted (.boot sampleConfig 1 64)
      [.call (sampleSend 0x100) trivial, .advSend 0] :=
  (segPending_counted_iff sampleConfig 1 64 _ (by decide)).mpr
    ⟨trivial, trivial, trivial⟩

def sampleFullAck : SegTxInput :=
  .ack false 0 5 [0x04, 0x00, 0x00, 0x00, 0x00, 0x03]

theorem lateEnd_counted : ¬ (flightMachine sampleConfig).Always PendingCounted
      (.boot sampleConfig 1 64)
      [.call (sampleSend 0x100) trivial, .call sampleFullAck trivial,
        .call (sampleSend 0x110) trivial, .advStart 0 false, .advEnd 0] := by
  intro always
  have count := always.last.counted 0 _ rfl (by decide)
  revert count
  decide

end ZephyrBluetooth.Mesh
