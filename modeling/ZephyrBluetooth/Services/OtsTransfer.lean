import ZephyrBluetooth.Services.Ots

namespace ZephyrBluetooth.Services

open Data List Option

variable {slot : Nat} {obj : OtsObject}

/-! The transfers of the service: what the accepted operations promise, and the
runs in which the service keeps it. -/

/-- The operation that the events so far leave unfinished, and how much of a
Read has been sent. -/
inductive Ongoing where
  | idle
  | reading (slot offset len sent : Nat)
  | writing (slot offset len : Nat)
  deriving DecidableEq

namespace Ongoing

def follow : Ongoing → OtsEvt → Option Ongoing
  | .idle, .acceptRead slot offset len => some (.reading slot offset len 0)
  | .idle, .acceptWrite slot offset len => some (.writing slot offset len)
  | .reading slot offset len sent, .sdu obj pos count =>
    if obj = slot ∧ pos = offset + sent ∧ sent + count ≤ len then
      some (.reading slot offset len (sent + count))
    else none
  | .reading slot _ len sent, .finished obj =>
    if obj = slot ∧ sent = len then some .idle else none
  | .reading .., .failed => some .idle
  | .writing slot offset len, .objWrite obj pos count =>
    if obj = slot ∧ offset ≤ pos ∧ pos + count ≤ offset + len then
      some (.writing slot offset len)
    else none
  | .writing slot .., .finished obj => if obj = slot then some .idle else none
  | .writing .., .failed => some .idle
  | _, _ => none

def followAll : Ongoing → List OtsEvt → Option Ongoing
  | ongoing, [] => some ongoing
  | ongoing, evt :: rest =>
    match ongoing.follow evt with
    | none => none
    | some next => next.followAll rest

def Matches (ongoing : Ongoing) (ots : Ots) : Prop :=
  match ongoing with
  | .idle => ∀ obj ∈ ots.objects, obj.state = .idle
  | .reading slot .. => ∃ obj, ots.objects[slot]? = some obj ∧ obj.state = .readOp
  | .writing slot .. => ∃ obj, ots.objects[slot]? = some obj ∧ obj.state = .writeOp

end Ongoing

/-- The instance and what its events leave unfinished, as long as every event was
allowed. -/
structure OtsRun where
  ots : Ots
  ongoing : Option Ongoing

def otsMachine (cfg : OtsConfig) : Machine OtsRun OtsInput OtsEvt where
  step run input :=
    let (ots, evts) := otsStep cfg run.ots input
    (⟨ots, run.ongoing.bind fun ongoing => ongoing.followAll evts⟩, evts)

namespace Ots

structure Fresh (ots : Ots) : Prop where
  idle : ∀ obj ∈ ots.objects, obj.state = .idle
  unsent : ots.inFlight = 0
  clear : ots.l2cap.tx = .zero

def curObj (ots : Ots) : Option OtsObject := ots.cur.bind (ots.objects[·]?)

/-- An indication, an SDU in flight or an open channel can still finish the
operation of an object. -/
def Finishable (ots : Ots) (slot : Nat) : OtsObjState → Prop
  | .idle => True
  | .readOp =>
    ots.cur = some slot ∧ (0 < ots.inds ∨ 0 < ots.inFlight ∧ ots.l2cap.txDone = true)
  | .writeOp =>
    ots.cur = some slot ∧ ots.l2cap.conn.isSome = true ∧ ots.l2cap.rxDone = true

/-- The layers below call back only for what is there: an indication that was
sent, an SDU in flight, an open channel. -/
def Delivers (ots : Ots) : OtsInput → Prop
  | .confirmed .. => 0 < ots.inds
  | .sent .. => 0 < ots.inFlight
  | .received .. | .disconnected => ots.l2cap.conn.isSome = true
  | .cfgChanged _ | .connected .. | .oacp .. | .olcp _ => True

/-- The Read that `oacp_read_proc_validate` accepts. -/
def Readable (ots : Ots) (conn offset len : Nat) : Prop :=
  ∃ obj, ots.curObj = some obj ∧ obj.props.read = true ∧
    ots.isOpen conn = true ∧ offset + len ≤ obj.cur ∧ obj.state = .idle

def Spared (ots : Ots) : OtsInput → Prop
  | .cfgChanged _ | .connected .. => True
  | .disconnected => ots.l2cap.closed = true ∨ ots.inFlight = 0
  | .oacp conn buf queued =>
    ∀ offset len, ots.indEnabled = true → oacpCommandDecode buf = .read offset len →
      oacpCommandLenVerify buf.length (.read offset len) = true →
      ots.Readable conn offset len → 0 < ots.inds + queued
  | .olcp proc =>
    ∀ slot, ots.olcpSelect proc = some slot → ots.cur ≠ some slot →
      ∀ obj, ots.curObj = some obj → obj.state = .idle
  | .confirmed .. =>
    ∃ obj, ots.curObj = some obj ∧
      (obj.state = .readOp → ots.inFlight = 0 ∧ ots.l2cap.tx.len = 0)
  | .sent _ accepts => ots.l2cap.tx.len ≠ ots.l2cap.tx.lenSent → accepts = true
  | .received len _ =>
    ots.l2cap.rxDone = true → ∃ obj, ots.curObj = some obj ∧
      obj.state = .writeOp ∧ obj.op.recvLen + len < 2 ^ 32

end Ots

structure OtsRun.Served (run : OtsRun) : Prop where
  allowed : ∃ ongoing, run.ongoing = some ongoing ∧ ongoing.Matches run.ots
  finishes : ∀ slot obj, run.ots.objects[slot]? = some obj →
    run.ots.Finishable slot obj.state

namespace Ots

structure Busy (ots : Ots) (slot : Nat) (obj : OtsObject) : Prop where
  cur : ots.cur = some slot
  here : ots.objects[slot]? = some obj
  others : ∀ other object, ots.objects[other]? = some object → other ≠ slot →
    object.state = .idle

structure Awaiting (ots : Ots) (obj : OtsObject) (sent : Nat) : Prop where
  indicated : 0 < ots.inds
  unsent : ots.inFlight = 0
  start : sent = 0
  sentLen : obj.op.sentLen = 0

structure Sending (ots : Ots) (slot : Nat) (obj : OtsObject) (sent : Nat) : Prop where
  inFlight : ots.inFlight = 1
  opened : ots.l2cap.conn.isSome = true
  txDone : ots.l2cap.txDone = true
  object : ots.l2cap.tx.obj = slot
  place : ots.l2cap.tx.pos + ots.l2cap.tx.lenSent = obj.op.offset + sent
  rest : sent + (ots.l2cap.tx.len - ots.l2cap.tx.lenSent) = obj.op.sentLen
  sentLen : obj.op.sentLen ≤ obj.op.len

structure Receiving (ots : Ots) (obj : OtsObject) : Prop where
  opened : ots.l2cap.conn.isSome = true
  rxDone : ots.l2cap.rxDone = true
  closed : ots.l2cap.closed = true
  unsent : ots.inFlight = 0
  recvLen : obj.op.recvLen ≤ obj.op.len

def Stage (ots : Ots) : Ongoing → Prop
  | .idle => (∀ obj ∈ ots.objects, obj.state = .idle) ∧ ots.inFlight = 0
  | .reading slot offset len sent =>
    ∃ obj, ots.Busy slot obj ∧ obj.state = .readOp ∧ obj.op.offset = offset ∧
      obj.op.len = len ∧ (ots.Awaiting obj sent ∨ ots.Sending slot obj sent)
  | .writing slot offset len =>
    ∃ obj, ots.Busy slot obj ∧ obj.state = .writeOp ∧ obj.op.offset = offset ∧
      obj.op.len = len ∧ ots.Receiving obj

structure Holds (ots : Ots) (ongoing : Ongoing) : Prop where
  within : ots.l2cap.tx.lenSent ≤ ots.l2cap.tx.len
  stage : ots.Stage ongoing

def Leads (ongoing : Ongoing) (result : Ots × List OtsEvt) : Prop :=
  ∃ next, ongoing.followAll result.2 = some next ∧ result.1.Holds next

variable {cfg : OtsConfig} {ots : Ots} {ongoing : Ongoing} {after : Ots}

theorem Leads.silent (holds : after.Holds ongoing) : Leads ongoing (after, []) :=
  ⟨ongoing, rfl, holds⟩

section

variable (busy : ots.Busy slot obj)
include busy

theorem Busy.idle_after {object : OtsObject} (idle : object.state = .idle) :
    ∀ other ∈ ots.objects.set slot object, other.state = .idle := by
  intro other member
  obtain ⟨index, found⟩ := mem_iff_getElem?.mp member
  rw [getElem?_set] at found
  split at found
  · split at found
    · cases found
      exact idle
    · cases found
  · rename_i apart
    exact busy.others index other found (Ne.symm apart)

theorem Busy.set (object : OtsObject) :
    (ots.setObj slot object).Busy slot object where
  cur := busy.cur
  here := by
    have bound := (List.getElem?_eq_some_iff.mp busy.here).1
    show (ots.objects.set slot object)[slot]? = some object
    rw [getElem?_set_self bound]
  others := by
    intro other found at_other apart
    have untouched : (ots.objects.set slot object)[other]? = ots.objects[other]? :=
      getElem?_set_ne (Ne.symm apart)
    exact busy.others other found (untouched.symm.trans at_other) apart

theorem Busy.frame
    (cur : after.cur = ots.cur) (objects : after.objects = ots.objects) :
    after.Busy slot obj where
  cur := cur.trans busy.cur
  here := by rw [objects]; exact busy.here
  others := by rw [objects]; exact busy.others

theorem readProcCb_leads (reading : obj.state = .readOp)
    (unsent : ots.inFlight = 0) (clear : ots.l2cap.tx.len = 0)
    (within : ots.l2cap.tx.lenSent ≤ ots.l2cap.tx.len)
    (sentLen : obj.op.sentLen ≤ obj.op.len) (ready : Option Nat) (accepts : Bool) :
    Leads (.reading slot obj.op.offset obj.op.len obj.op.sentLen)
      (ots.readProcCb cfg ready accepts) := by
  have first : ots.l2cap.tx.lenSent = 0 := by omega
  unfold readProcCb
  simp only [busy.cur, busy.here]
  split
  · rename_i complete
    have all : obj.op.sentLen = obj.op.len := by omega
    refine ⟨.idle, by simp [Ongoing.followAll, Ongoing.follow, all], within, ?_, unsent⟩
    exact busy.idle_after rfl
  · rename_i partly
    cases ready with
    | none =>
      refine ⟨.idle, rfl, within, ?_, unsent⟩
      exact busy.idle_after rfl
    | some ready =>
      have armed : ({ ots with l2cap := { ots.l2cap with txDone := true } } :
          Ots).Busy slot obj := busy.frame rfl rfl
      simp only [l2capSend, clear, ne_eq, not_true_eq_false, if_false,
        otsL2capSend, setTx, first]
      by_cases taken : (ots.l2cap.conn.isSome && accepts) = true
      · simp only [taken, if_true]
        generalize size : min (min ots.l2cap.mtu cfg.txMtu)
          (min ready (obj.op.len - obj.op.sentLen) - 0) = count
        have small : count ≤ min ready (obj.op.len - obj.op.sentLen) := by omega
        refine ⟨.reading slot obj.op.offset obj.op.len (obj.op.sentLen + count),
          ?_, ?_, ?_⟩
        · simp only [Ongoing.followAll, Ongoing.follow, Nat.add_zero, true_and]
          rw [if_pos (by omega)]
        · show 0 + count ≤ min ready (obj.op.len - obj.op.sentLen)
          omega
        · refine ⟨_, (armed.set _).frame busy.cur.symm rfl, reading, rfl, rfl, .inr ?_⟩
          rw [Bool.and_eq_true] at taken
          exact
            { inFlight := by show ots.inFlight + 1 = 1; rw [unsent]
              opened := taken.1
              txDone := rfl
              object := rfl
              place := by
                show obj.op.offset + obj.op.sentLen + (0 + count) =
                  obj.op.offset + (obj.op.sentLen + count)
                omega
              rest := by
                show obj.op.sentLen + count +
                  (min ready (obj.op.len - obj.op.sentLen) - (0 + count)) =
                    obj.op.sentLen + min ready (obj.op.len - obj.op.sentLen)
                omega
              sentLen := by
                show obj.op.sentLen + min ready (obj.op.len - obj.op.sentLen) ≤
                  obj.op.len
                omega }
      · simp only [taken]
        refine ⟨.idle, rfl, ?_, ?_, unsent⟩
        · exact Nat.zero_le _
        · exact armed.idle_after rfl

theorem Busy.current : ots.curObj = some obj := by
  unfold curObj
  rw [busy.cur]
  exact busy.here

end

theorem curObj_mem (found : ots.curObj = some obj) : obj ∈ ots.objects := by
  obtain ⟨_, _, here⟩ := bind_eq_some_iff.mp found
  exact mem_of_getElem? here

theorem curObj_split (found : ots.curObj = some obj) :
    ∃ slot, ots.cur = some slot ∧ ots.objects[slot]? = some obj :=
  bind_eq_some_iff.mp found

theorem busy_of_idle (idle : ∀ obj ∈ ots.objects, obj.state = .idle)
    (cur : ots.cur = some slot) (here : ots.objects[slot]? = some obj) :
    ots.Busy slot obj where
  cur := cur
  here := here
  others := fun _ object found _ => idle object (mem_of_getElem? found)

theorem oacpIndCb_current (current : ots.curObj = some obj) (ready : Option Nat)
    (accepts : Bool) :
    ots.oacpIndCb cfg ready accepts =
      if obj.state = .readOp then ots.readProcCb cfg ready accepts
      else (ots, []) := by
  obtain ⟨_, cur, here⟩ := curObj_split current
  simp only [oacpIndCb, cur, here]
  cases obj.state with
  | idle => rfl
  | readOp => rfl
  | writeOp => rfl

section

variable (holds : ots.Holds ongoing)
include holds

theorem Holds.answered
    (current : ots.curObj = some obj) (other : obj.state ≠ .readOp) :
    ({ ots with inds := ots.inds - 1 } : Ots).Holds ongoing := by
  obtain ⟨within, stage⟩ := holds
  cases ongoing with
  | idle => exact ⟨within, stage⟩
  | reading =>
    obtain ⟨target, busy, reading, _⟩ := stage
    obtain rfl : target = obj := some.inj (busy.current.symm.trans current)
    exact absurd reading other
  | writing =>
    obtain ⟨target, busy, writing, rfl, rfl, receiving⟩ := stage
    refine ⟨within, target, busy.frame rfl rfl, writing, rfl, rfl, ?_⟩
    exact ⟨receiving.opened, receiving.rxDone, receiving.closed,
      receiving.unsent, receiving.recvLen⟩

theorem confirmed_leads (ready : Option Nat) (accepts : Bool)
    (spared : ots.Spared (.confirmed ready accepts)) :
    Leads ongoing (otsStep cfg ots (.confirmed ready accepts)) := by
  obtain ⟨obj, current, quiet⟩ := spared
  have current' : ({ ots with inds := ots.inds - 1 } : Ots).curObj = some obj :=
    current
  simp only [otsStep]
  rw [oacpIndCb_current current']
  split
  · rename_i reading
    obtain ⟨within, stage⟩ := holds
    obtain ⟨unsent, clear⟩ := quiet reading
    cases ongoing with
    | idle =>
      have idle := stage.1 obj (curObj_mem current)
      rw [idle] at reading
      cases reading
    | writing =>
      obtain ⟨target, busy, writing, _⟩ := stage
      obtain rfl : target = obj := some.inj (busy.current.symm.trans current)
      rw [writing] at reading
      cases reading
    | reading slot =>
      obtain ⟨target, busy, _, rfl, rfl, waits⟩ := stage
      obtain rfl : target = obj := some.inj (busy.current.symm.trans current)
      rcases waits with waits | sending
      · have answered : ({ ots with inds := ots.inds - 1 } : Ots).Busy slot target :=
          busy.frame rfl rfl
        rw [waits.start, ← waits.sentLen]
        exact readProcCb_leads answered reading unsent clear within
          (by rw [waits.sentLen]; exact Nat.zero_le _) ready accepts
      · have flying := sending.inFlight
        omega
  · rename_i other
    exact .silent (holds.answered current other)

theorem sent_leads (ready : Option Nat) (accepts : Bool)
    (delivers : ots.Delivers (.sent ready accepts))
    (spared : ots.Spared (.sent ready accepts)) :
    Leads ongoing (otsStep cfg ots (.sent ready accepts)) := by
  obtain ⟨_, stage⟩ := holds
  have flying : 0 < ots.inFlight := delivers
  cases ongoing with
  | idle =>
    have unsent := stage.2
    omega
  | writing =>
    obtain ⟨_, _, _, _, _, receiving⟩ := stage
    have unsent := receiving.unsent
    omega
  | reading slot offset len sent =>
    obtain ⟨obj, busy, reading, rfl, rfl, waits⟩ := stage
    rcases waits with waits | sending
    · have unsent := waits.unsent
      omega
    have last : ots.inFlight - 1 = 0 := by
      have only := sending.inFlight
      omega
    have object := sending.object
    have place := sending.place
    have rest := sending.rest
    have sentLen := sending.sentLen
    simp only [otsStep, l2capSent]
    split
    · rename_i partly
      have accepted : accepts = true := spared partly
      simp only [otsL2capSend, sending.opened, accepted, Bool.and_self, if_true]
      generalize size : min (min ots.l2cap.mtu cfg.txMtu)
        (ots.l2cap.tx.len - ots.l2cap.tx.lenSent) = count
      have small : count ≤ ots.l2cap.tx.len - ots.l2cap.tx.lenSent := by omega
      refine ⟨.reading slot obj.op.offset obj.op.len (sent + count), ?_, ?_, obj,
        busy.frame rfl rfl, reading, rfl, rfl, .inr ?_⟩
      · simp only [Ongoing.followAll, Ongoing.follow, object, place, true_and]
        rw [if_pos (by omega)]
      · show ots.l2cap.tx.lenSent + count ≤ ots.l2cap.tx.len
        omega
      · exact
          { inFlight := by show ots.inFlight - 1 + 1 = 1; omega
            opened := sending.opened
            txDone := sending.txDone
            object := object
            place := by
              show ots.l2cap.tx.pos + (ots.l2cap.tx.lenSent + count) =
                obj.op.offset + (sent + count)
              omega
            rest := by
              show sent + count +
                (ots.l2cap.tx.len - (ots.l2cap.tx.lenSent + count)) = obj.op.sentLen
              omega
            sentLen := sentLen }
    · rename_i finished
      have whole : ots.l2cap.tx.len = ots.l2cap.tx.lenSent :=
        Decidable.not_not.mp finished
      have all : sent = obj.op.sentLen := by omega
      simp only [setTx, sending.txDone, if_true]
      rw [all]
      refine readProcCb_leads (busy.frame ?_ ?_) reading ?_ ?_ ?_ sentLen
        ready accepts
      · rfl
      · rfl
      · exact last
      · rfl
      · exact Nat.le_refl _

end

theorem writeProcCb_leads (busy : ots.Busy slot obj)
    (writing : obj.state = .writeOp) (receiving : ots.Receiving obj)
    (within : ots.l2cap.tx.lenSent ≤ ots.l2cap.tx.len) {len : Nat}
    (small : obj.op.recvLen + len < 2 ^ 32) (written : Option Nat) :
    Leads (.writing slot obj.op.offset obj.op.len)
      (ots.writeProcCb len written) := by
  have recvLen := receiving.recvLen
  unfold writeProcCb
  simp only [busy.cur, busy.here]
  generalize size : (if obj.op.len < (obj.op.recvLen + len) % 2 ^ 32 then
    (obj.op.len + 2 ^ 32 - obj.op.recvLen) % 2 ^ 32 else len) = offered
  have inside : obj.op.recvLen + offered ≤ obj.op.len := by
    rw [Nat.mod_eq_of_lt small] at size
    split at size
    · rename_i past
      omega
    · omega
  have allowed : obj.op.offset ≤ obj.op.offset + obj.op.recvLen ∧
      obj.op.offset + obj.op.recvLen + offered ≤ obj.op.offset + obj.op.len := by
    omega
  cases written with
  | none =>
    refine ⟨.idle, ?_, within, ?_, receiving.unsent⟩
    · simp only [Ongoing.followAll, Ongoing.follow, allowed, and_self, if_true]
    · exact busy.idle_after rfl
  | some written =>
    simp only
    generalize taking : min written offered = taken
    have part : taken ≤ offered := by omega
    by_cases done : obj.op.recvLen + taken = obj.op.len
    · simp only [if_pos done]
      refine ⟨.idle, ?_, within, ?_, receiving.unsent⟩
      · simp only [Ongoing.followAll, Ongoing.follow, allowed, and_self, if_true]
      · exact busy.idle_after rfl
    · simp only [if_neg done]
      refine ⟨.writing slot obj.op.offset obj.op.len, ?_, within, _, busy.set _,
        writing, rfl, rfl, ?_⟩
      · simp only [Ongoing.followAll, Ongoing.follow, allowed, and_self, if_true]
      · refine ⟨receiving.opened, receiving.rxDone, receiving.closed,
          receiving.unsent, ?_⟩
        show obj.op.recvLen + taken ≤ obj.op.len
        omega

theorem received_leads (holds : ots.Holds ongoing) (len : Nat)
    (written : Option Nat) (spared : ots.Spared (.received len written)) :
    Leads ongoing (otsStep cfg ots (.received len written)) := by
  simp only [otsStep, l2capRecv]
  split
  · rename_i hooked
    obtain ⟨obj, current, writing, small⟩ := spared hooked
    obtain ⟨within, stage⟩ := holds
    cases ongoing with
    | idle =>
      have idle := stage.1 obj (curObj_mem current)
      rw [idle] at writing
      cases writing
    | reading =>
      obtain ⟨target, busy, reading, _⟩ := stage
      obtain rfl : target = obj := some.inj (busy.current.symm.trans current)
      rw [reading] at writing
      cases writing
    | writing =>
      obtain ⟨target, busy, _, rfl, rfl, receiving⟩ := stage
      obtain rfl : target = obj := some.inj (busy.current.symm.trans current)
      exact writeProcCb_leads busy writing receiving within small written
  · exact .silent holds

theorem connected_leads (holds : ots.Holds ongoing)
    (conn mtu : Nat) : Leads ongoing (otsStep cfg ots (.connected conn mtu)) := by
  simp only [otsStep, l2capAccept]
  split
  · exact .silent holds
  rename_i unopened
  obtain ⟨_, stage⟩ := holds
  apply Leads.silent
  refine ⟨Nat.le_refl _, ?_⟩
  cases ongoing with
  | idle => exact stage
  | reading =>
    obtain ⟨obj, busy, reading, rfl, rfl, waits⟩ := stage
    rcases waits with waits | sending
    · exact ⟨obj, busy.frame rfl rfl, reading, rfl, rfl,
        .inl ⟨waits.indicated, waits.unsent, waits.start, waits.sentLen⟩⟩
    · exact absurd sending.opened unopened
  | writing =>
    obtain ⟨obj, busy, writing, rfl, rfl, receiving⟩ := stage
    exact absurd receiving.opened unopened

theorem oacpL2capClosed_current (cur : ots.cur = some slot)
    (here : ots.objects[slot]? = some obj) :
    ots.oacpL2capClosed =
      ({ ots.setObj slot { obj with state := .idle } with
          l2cap := { ots.l2cap with rxDone := false, txDone := false } },
        if obj.state = .idle then [] else [.failed]) := by
  simp only [oacpL2capClosed, cur, here]
  rfl

theorem Stage.current_of_busy (stage : ots.Stage ongoing)
    (running : ongoing ≠ .idle) :
    ∃ slot obj, ots.Busy slot obj ∧ obj.state ≠ .idle ∧
      ongoing.followAll [.failed] = some .idle := by
  cases ongoing with
  | idle => exact absurd rfl running
  | reading slot =>
    obtain ⟨obj, busy, reading, _⟩ := stage
    refine ⟨slot, obj, busy, ?_, rfl⟩
    rw [reading]
    decide
  | writing slot =>
    obtain ⟨obj, busy, writing, _⟩ := stage
    refine ⟨slot, obj, busy, ?_, rfl⟩
    rw [writing]
    decide

theorem idle_set (idle : ∀ obj ∈ ots.objects, obj.state = .idle)
    {object : OtsObject} (last : object.state = .idle) :
    ∀ other ∈ ots.objects.set slot object, other.state = .idle := by
  intro other member
  rcases mem_or_eq_of_mem_set member with old | rfl
  · exact idle other old
  · exact last

section

variable (holds : ots.Holds ongoing)
include holds

theorem oacpL2capClosed_leads :
    ongoing.followAll ots.oacpL2capClosed.2 = some .idle ∧
      (∀ obj ∈ ots.oacpL2capClosed.1.objects, obj.state = .idle) ∧
      ots.oacpL2capClosed.1.l2cap.tx = ots.l2cap.tx := by
  by_cases running : ongoing = .idle
  · subst running
    have idle := holds.stage.1
    unfold oacpL2capClosed
    cases cur : ots.cur with
    | none => exact ⟨rfl, idle, rfl⟩
    | some slot =>
      cases here : ots.objects[slot]? with
      | none =>
        simp only [here]
        exact ⟨rfl, idle, trivial⟩
      | some obj =>
        simp only [here, if_pos (idle obj (mem_of_getElem? here))]
        exact ⟨rfl, idle_set idle rfl, rfl⟩
  · obtain ⟨slot, obj, busy, operating, ends⟩ :=
      holds.stage.current_of_busy running
    rw [oacpL2capClosed_current busy.cur busy.here, if_neg operating]
    exact ⟨ends, busy.idle_after rfl, rfl⟩

theorem disconnected_leads (spared : ots.Spared .disconnected) :
    Leads ongoing (otsStep cfg ots .disconnected) := by
  simp only [otsStep, l2capDisconnected]
  split
  · obtain ⟨follows, idle, same⟩ := oacpL2capClosed_leads holds
    refine ⟨.idle, follows, ?_, idle, rfl⟩
    rw [same]
    exact holds.within
  · rename_i unhooked
    have quiet : ots.inFlight = 0 := by
      rcases spared with hooked | quiet
      · exact absurd hooked unhooked
      · exact quiet
    obtain ⟨within, stage⟩ := holds
    apply Leads.silent
    refine ⟨within, ?_⟩
    cases ongoing with
    | idle => exact ⟨stage.1, rfl⟩
    | reading =>
      obtain ⟨obj, busy, reading, rfl, rfl, waits⟩ := stage
      rcases waits with waits | sending
      · exact ⟨obj, busy.frame rfl rfl, reading, rfl, rfl,
          .inl ⟨waits.indicated, rfl, waits.start, waits.sentLen⟩⟩
      · have flying := sending.inFlight
        omega
    | writing =>
      obtain ⟨obj, busy, writing, rfl, rfl, receiving⟩ := stage
      exact absurd receiving.closed unhooked

theorem Holds.frame
    (cur : after.cur = ots.cur) (objects : after.objects = ots.objects)
    (l2cap : after.l2cap = ots.l2cap) (inFlight : after.inFlight = ots.inFlight)
    (inds : ots.inds ≤ after.inds) : after.Holds ongoing := by
  obtain ⟨within, stage⟩ := holds
  refine ⟨by rw [l2cap]; exact within, ?_⟩
  cases ongoing with
  | idle =>
    unfold Stage
    rw [objects, inFlight]
    exact stage
  | reading =>
    obtain ⟨obj, busy, reading, rfl, rfl, waits⟩ := stage
    refine ⟨obj, busy.frame cur objects, reading, rfl, rfl, ?_⟩
    rcases waits with waits | sending
    · exact .inl ⟨Nat.lt_of_lt_of_le waits.indicated inds,
        inFlight.trans waits.unsent, waits.start, waits.sentLen⟩
    refine .inr ⟨inFlight.trans sending.inFlight, ?_, ?_, ?_, ?_, ?_,
      sending.sentLen⟩
    · rw [l2cap]
      exact sending.opened
    · rw [l2cap]
      exact sending.txDone
    · rw [l2cap]
      exact sending.object
    · rw [l2cap]
      exact sending.place
    · rw [l2cap]
      exact sending.rest
  | writing =>
    obtain ⟨obj, busy, writing, rfl, rfl, receiving⟩ := stage
    refine ⟨obj, busy.frame cur objects, writing, rfl, rfl, ?_, ?_, ?_,
      inFlight.trans receiving.unsent, receiving.recvLen⟩
    · rw [l2cap]
      exact receiving.opened
    · rw [l2cap]
      exact receiving.rxDone
    · rw [l2cap]
      exact receiving.closed

end

def indicate (queued : Nat) (result : Ots × List OtsEvt) : Ots × List OtsEvt :=
  ({ result.1 with inds := result.1.inds + queued }, result.2)

theorem Leads.indicated (holds : ots.Holds ongoing)
    (queued : Nat) : Leads ongoing (indicate queued (ots, [])) :=
  .silent (holds.frame rfl rfl rfl rfl (Nat.le_add_right _ _))

theorem readProcValidate_cases (conn offset len : Nat) :
    (ots.readProcValidate conn offset len).2 = (ots, []) ∨
      ots.Readable conn offset len ∧ ∃ slot obj, ots.cur = some slot ∧
        ots.objects[slot]? = some obj ∧ obj.state = .idle ∧
        (ots.readProcValidate conn offset len).2 = (ots.setObj slot
            { obj with
              state := .readOp
              op := { obj.op with offset := offset, len := len, sentLen := 0 } },
            [.acceptRead slot offset len]) := by
  unfold readProcValidate
  cases cur : ots.cur with
  | none => exact .inl rfl
  | some slot =>
    cases here : ots.objects[slot]? with
    | none =>
      simp only [bind_some, here, map_none]
      exact .inl trivial
    | some obj =>
      simp only [bind_some, here, map_some]
      split
      · exact .inl rfl
      split
      · exact .inl rfl
      split
      · exact .inl rfl
      split
      · exact .inl rfl
      rename_i readable opened inside idle
      have current : ots.curObj = some obj := by
        unfold curObj
        rw [cur]
        exact here
      have free : obj.state = .idle := Decidable.not_not.mp idle
      refine .inr ⟨⟨obj, current, ?_, ?_, ?_, free⟩, slot, obj, rfl, here, free, rfl⟩
      · simpa using readable
      · simpa using opened
      · omega

theorem writeProcValidate_cases (conn offset len mode : Nat) :
    (ots.writeProcValidate conn offset len mode).2 = (ots, []) ∨
      ots.l2cap.conn.isSome = true ∧ ∃ slot obj, ots.cur = some slot ∧
        ots.objects[slot]? = some obj ∧ obj.state = .idle ∧
        (ots.writeProcValidate conn offset len mode).2 =
          ({ ots.setObj slot
              { obj with
                state := .writeOp
                op := { obj.op with offset := offset, len := len, recvLen := 0 } } with
              l2cap := { ots.l2cap with rxDone := true, closed := true } },
            [.acceptWrite slot offset len]) := by
  unfold writeProcValidate
  cases cur : ots.cur with
  | none => exact .inl rfl
  | some slot =>
    cases here : ots.objects[slot]? with
    | none =>
      simp only [bind_some, here, map_none]
      exact .inl trivial
    | some obj =>
      simp only [bind_some, here, map_some]
      iterate 8
        split
        · exact .inl rfl
      rename_i opened _ _ _ idle
      refine .inr ⟨?_, slot, obj, rfl, here, Decidable.not_not.mp idle, rfl⟩
      have same : ots.l2cap.conn = some conn := by
        simpa [isOpen] using opened
      rw [same]
      rfl

theorem procValidate_cases (conn : Nat) (proc : OacpProc) :
    (ots.procValidate conn proc).2 = (ots, []) ∨
      (∃ offset len, proc = .read offset len ∧
        (ots.procValidate conn proc).2 = (ots.readProcValidate conn offset len).2) ∨
      ∃ offset len mode, proc = .write offset len mode ∧
        (ots.procValidate conn proc).2 =
          (ots.writeProcValidate conn offset len mode).2 := by
  cases proc with
  | read offset len => exact .inr (.inl ⟨offset, len, rfl, rfl⟩)
  | write offset len mode => exact .inr (.inr ⟨offset, len, mode, rfl, rfl⟩)
  | create => exact .inl rfl
  | delete => exact .inl rfl
  | csCalc => exact .inl rfl
  | execute => exact .inl rfl
  | abort => exact .inl rfl
  | unknown => exact .inl rfl

section

variable {ongoing : Ongoing} (holds : ots.Holds ongoing)
include holds

theorem Holds.idle_of_current (cur : ots.cur = some slot)
    (here : ots.objects[slot]? = some obj) (free : obj.state = .idle) :
    ongoing = .idle := by
  by_contra running
  obtain ⟨goal, target, busy, operating, _⟩ := holds.stage.current_of_busy running
  obtain rfl : goal = slot := some.inj (busy.cur.symm.trans cur)
  obtain rfl : target = obj := some.inj (busy.here.symm.trans here)
  exact operating free

theorem read_leads {conn offset len queued : Nat}
    (indicated : ots.Readable conn offset len → 0 < ots.inds + queued) :
    Leads ongoing (indicate queued (ots.readProcValidate conn offset len).2) := by
  rcases @readProcValidate_cases ots conn offset len with
    refused | ⟨readable, slot, obj, cur, here, free, accepted⟩
  · rw [refused]
    exact .indicated holds queued
  rw [accepted]
  obtain rfl := holds.idle_of_current cur here free
  have busy := busy_of_idle holds.stage.1 cur here
  refine ⟨.reading slot offset len 0, rfl, holds.within, _,
    (busy.set _).frame rfl rfl, rfl, rfl, rfl, .inl ?_⟩
  exact ⟨indicated readable, holds.stage.2, rfl, rfl⟩

theorem write_leads (conn offset len mode queued : Nat) : Leads ongoing
      (indicate queued (ots.writeProcValidate conn offset len mode).2) := by
  rcases @writeProcValidate_cases ots conn offset len mode with
    refused | ⟨opened, slot, obj, cur, here, free, accepted⟩
  · rw [refused]
    exact .indicated holds queued
  rw [accepted]
  obtain rfl := holds.idle_of_current cur here free
  have busy := busy_of_idle holds.stage.1 cur here
  refine ⟨.writing slot offset len, rfl, holds.within, _,
    (busy.set _).frame rfl rfl, rfl, rfl, rfl, ?_⟩
  exact ⟨opened, rfl, rfl, holds.stage.2, Nat.zero_le _⟩

theorem oacp_leads (conn : Nat) (buf : List UInt8) (queued : Nat)
    (spared : ots.Spared (.oacp conn buf queued)) :
    Leads ongoing (otsStep cfg ots (.oacp conn buf queued)) := by
  simp only [otsStep, oacpWrite]
  split
  · exact .silent holds
  rename_i enabled
  split
  · exact .silent holds
  rename_i long
  show Leads ongoing
    (indicate queued (ots.procValidate conn (oacpCommandDecode buf)).2)
  rcases @procValidate_cases ots conn (oacpCommandDecode buf) with
    ignored | ⟨offset, len, decoded, same⟩ | ⟨offset, len, mode, _, same⟩
  · rw [ignored]
    exact .indicated holds queued
  · rw [same]
    apply read_leads holds
    apply spared offset len _ decoded
    · rw [← decoded]
      simpa using long
    · simpa using enabled
  · rw [same]
    exact write_leads holds conn offset len mode queued

theorem olcp_leads (proc : OlcpProc) (spared : ots.Spared (.olcp proc)) :
    Leads ongoing (otsStep cfg ots (.olcp proc)) := by
  simp only [otsStep, olcpWrite]
  apply Leads.silent
  cases selects : ots.olcpSelect proc with
  | none => exact holds
  | some slot =>
    simp only
    by_cases running : ongoing = .idle
    · subst running
      exact ⟨holds.within, holds.stage⟩
    obtain ⟨_, obj, busy, operating, _⟩ := holds.stage.current_of_busy running
    have same : ots.cur = some slot := by
      by_contra other
      exact operating (spared slot selects other obj busy.current)
    rw [← same]
    exact holds

theorem step_leads (input : OtsInput) (delivers : ots.Delivers input)
    (spared : ots.Spared input) : Leads ongoing (otsStep cfg ots input) := by
  cases input with
  | cfgChanged => exact .silent (holds.frame rfl rfl rfl rfl (Nat.le_refl _))
  | connected conn mtu => exact connected_leads holds conn mtu
  | disconnected => exact disconnected_leads holds spared
  | oacp conn buf queued => exact oacp_leads holds conn buf queued spared
  | olcp proc => exact olcp_leads holds proc spared
  | confirmed ready accepts => exact confirmed_leads holds ready accepts spared
  | sent ready accepts => exact sent_leads holds ready accepts delivers spared
  | received len written => exact received_leads holds len written spared

theorem Holds.finishable (found : ots.objects[slot]? = some obj) :
    ots.Finishable slot obj.state := by
  obtain ⟨_, stage⟩ := holds
  cases ongoing with
  | idle =>
    rw [stage.1 obj (mem_of_getElem? found)]
    trivial
  | reading goal =>
    obtain ⟨target, busy, reading, rfl, rfl, waits⟩ := stage
    by_cases here : slot = goal
    · subst here
      obtain rfl : target = obj := some.inj (busy.here.symm.trans found)
      rw [reading]
      refine ⟨busy.cur, ?_⟩
      rcases waits with waits | sending
      · exact .inl waits.indicated
      · exact .inr ⟨by rw [sending.inFlight]; decide, sending.txDone⟩
    · rw [busy.others slot obj found here]
      trivial
  | writing goal =>
    obtain ⟨target, busy, writing, rfl, rfl, receiving⟩ := stage
    by_cases here : slot = goal
    · subst here
      obtain rfl : target = obj := some.inj (busy.here.symm.trans found)
      rw [writing]
      exact ⟨busy.cur, receiving.opened, receiving.rxDone⟩
    · rw [busy.others slot obj found here]
      trivial

theorem Holds.matches : ongoing.Matches ots := by
  obtain ⟨_, stage⟩ := holds
  cases ongoing with
  | idle => exact stage.1
  | reading =>
    obtain ⟨obj, busy, reading, _⟩ := stage
    exact ⟨obj, busy.here, reading⟩
  | writing =>
    obtain ⟨obj, busy, writing, _⟩ := stage
    exact ⟨obj, busy.here, writing⟩

end

theorem Fresh.holds (fresh : ots.Fresh) : ots.Holds .idle where
  within := by
    rw [fresh.clear]
    exact Nat.le_refl _
  stage := ⟨fresh.idle, fresh.unsent⟩

end Ots

namespace OtsRun

def start (ots : Ots) : OtsRun := ⟨ots, some .idle⟩

def Sound (run : OtsRun) : Prop :=
  ∃ ongoing, run.ongoing = some ongoing ∧ run.ots.Holds ongoing

theorem Sound.served {run : OtsRun} (sound : run.Sound) : run.Served := by
  obtain ⟨ongoing, known, holds⟩ := sound
  exact ⟨⟨ongoing, known, holds.matches⟩, fun _ _ found => holds.finishable found⟩

theorem Sound.step {cfg : OtsConfig} {run : OtsRun} (sound : run.Sound)
    (input : OtsInput) (delivers : run.ots.Delivers input)
    (spared : run.ots.Spared input) : ((otsMachine cfg).next run input).Sound := by
  obtain ⟨ongoing, known, holds⟩ := sound
  obtain ⟨next, follows, after⟩ := @Ots.step_leads cfg _ _ holds input delivers spared
  refine ⟨next, ?_, after⟩
  show (run.ongoing.bind fun ongoing =>
    ongoing.followAll (otsStep cfg run.ots input).2) = some next
  rw [known]
  exact follows

end OtsRun

/-- Transfers are served in every run that does not disturb them. -/
theorem ots_transfers_served (cfg : OtsConfig) {ots : Ots} (fresh : ots.Fresh)
    (inputs : List OtsInput) (along : (otsMachine cfg).Along
      (fun run input => run.ots.Delivers input ∧ run.ots.Spared input)
      (.start ots) inputs) :
    (otsMachine cfg).Always OtsRun.Served (.start ots) inputs := by
  have start : (OtsRun.start ots).Sound := ⟨.idle, rfl, fresh.holds⟩
  have always := Machine.always_of_along
    (fun run input (sound : run.Sound) admitted =>
      sound.step input admitted.1 admitted.2)
    start along
  exact always.mono fun _ sound => sound.served

def sampleObject (id : Nat) : OtsObject where
  id := id
  props := ⟨true, true, false⟩
  cur := 8
  alloc := 8
  state := .idle
  op := ⟨0, 0, 0, 0⟩

def sampleOts : Ots where
  patch := false
  indEnabled := true
  cur := none
  objects := [sampleObject 256, sampleObject 257]
  l2cap := ⟨none, 0, .zero, false, false, false⟩
  inds := 0
  inFlight := 0

theorem sampleOts_fresh : sampleOts.Fresh where
  idle := by decide
  unsent := rfl
  clear := rfl

def sampleRead : List OtsInput :=
  [.connected 1 4, .olcp .first, .oacp 1 [5, 0, 0, 0, 0, 8, 0, 0, 0] 1,
    .confirmed (some 8) true]

theorem ots_transfers_served_read :
    sampleOts.Fresh ∧ (otsMachine ⟨256⟩).Always OtsRun.Served (.start sampleOts)
        (sampleRead ++ [.sent none true, .sent none true]) := by
  refine ⟨sampleOts_fresh, ots_transfers_served ⟨256⟩ sampleOts_fresh _ ?_⟩
  refine ⟨⟨trivial, trivial⟩, ⟨trivial, ?_⟩, ⟨trivial, ?_⟩, ⟨?_, ?_⟩, ⟨?_, ?_⟩,
    ⟨?_, ?_⟩, trivial⟩
  · intro slot _ _ obj current
    cases current
  · intro offset len _ _ _ _
    exact Nat.one_pos
  · exact Nat.one_pos
  · exact ⟨_, rfl, fun _ => ⟨rfl, rfl⟩⟩
  · exact Nat.one_pos
  · exact fun _ => rfl
  · exact Nat.one_pos
  · exact fun _ => rfl

theorem ots_read_abandoned :
    ¬ ∀ (cfg : OtsConfig) (ots : Ots) (inputs : List OtsInput), ots.Fresh →
      (otsMachine cfg).Along (fun run input => run.ots.Delivers input)
        (.start ots) inputs →
      (otsMachine cfg).Always OtsRun.Served (.start ots) inputs := by
  intro served
  have always : (otsMachine ⟨256⟩).Always OtsRun.Served (.start sampleOts)
      (sampleRead ++ [.sent none true, .olcp .last, .sent none true]) := by
    apply served ⟨256⟩ sampleOts _ sampleOts_fresh
    exact ⟨trivial, trivial, trivial, Nat.one_pos, Nat.one_pos, trivial,
      Nat.one_pos, trivial⟩
  obtain ⟨selected, _⟩ := always.last.finishes 0
    { sampleObject 256 with state := .readOp, op := ⟨0, 8, 8, 0⟩ } rfl
  cases selected

end ZephyrBluetooth.Services
