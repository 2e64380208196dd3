import ZephyrBluetooth.Data.Machine
import Mathlib.Data.BitVec

namespace ZephyrBluetooth.Osal

open BitVec Bool Data List

/-! Delayable work of `k_work_q.c`: one item, its timer and the thread of the
system work queue.  Time is counted in milliseconds from boot. -/

/-- `queued` counts the entries of the item on the fifo, and `taken` is set
between the `k_fifo_get` of the thread and its test of the pending bit.
`timer` is when the running timer expires.  `floor` and `cancelled` record what
the last call on the item asked for. -/
structure DelayableWork where
  now : Nat
  pending : Bool
  queued : Nat
  taken : Bool
  attached : Bool
  timer : Option Nat
  startMs : BitVec 32
  timeout : BitVec 32
  floor : Option Nat
  cancelled : Bool

inductive WorkInput where
  | schedule (delay : BitVec 32)
  | reschedule (delay : BitVec 32)
  | cancel
  | submit
  | expire
  | take
  | begin
  | remainingGet
  | wait (elapsed : Nat)

inductive WorkEvent where
  | started (time : Nat) (floor : Option Nat) (cancelled : Bool)
  | rescheduled (due : Nat) (timer : Option Nat) (attached : Bool)
  | remaining (value left : Nat)
  deriving DecidableEq

namespace DelayableWork

def init (now : Nat) : DelayableWork where
  now
  pending := false
  queued := 0
  taken := false
  attached := false
  timer := none
  startMs := 0
  timeout := 0
  floor := none
  cancelled := false

variable (work : DelayableWork)

def uptime : BitVec 32 := BitVec.ofNat 32 work.now

def submitToQueue : DelayableWork :=
  if work.pending then work
  else { work with pending := true, queued := work.queued + 1 }

/-- `k_work_cancel_delayable`, and whether it returns zero. -/
def cancelDelayable : DelayableWork × Bool :=
  if work.pending then (work, false)
  else if !work.attached then (work, false)
  else
    ({ work with
        timer := none
        attached := false
        timeout := 0
        startMs := 0 }, true)

/-- The part of `k_delayed_work_submit_to_queue` behind the cancellation. -/
def submitAfter (delay : BitVec 32) : DelayableWork :=
  if delay = 0 then { work.submitToQueue with attached := false }
  else
    { work with
      timer := some (work.now + delay.toNat)
      startMs := work.uptime
      timeout := delay
      attached := true }

/-- `k_delayed_work_submit_to_queue`, behind `k_work_schedule` and
`k_work_reschedule` alike. -/
def delayedSubmit (delay : BitVec 32) : DelayableWork :=
  if work.attached then
    match work.cancelDelayable with
    | (work, true) => work.submitAfter delay
    | (work, false) => work
  else work.submitAfter delay

def workTimeout : DelayableWork :=
  match work.timer with
  | none => work
  | some deadline =>
    if work.now < deadline then work
    else
      let stopped := { work with timer := none }
      { (if stopped.attached then stopped.submitToQueue else stopped) with
        attached := false }

/-- `k_work_delayable_remaining_get`: the difference of 32-bit values is taken
as a signed number. -/
def remainingGet : Nat :=
  let remain := work.timeout - (work.uptime - work.startMs)
  if remain.msb then 0 else remain.toNat

def timeLeft : Nat :=
  match work.timer with
  | none => 0
  | some deadline => deadline - work.now

def asked : DelayableWork :=
  { work with floor := none, cancelled := false }

def step : WorkInput → DelayableWork × List WorkEvent
  | .schedule delay => (work.asked.delayedSubmit delay, [])
  | .reschedule delay =>
    if delay = 0 then (work.asked.delayedSubmit delay, [])
    else
      let due := work.now + delay.toNat
      let next := { work.asked.delayedSubmit delay with floor := some due }
      (next, [.rescheduled due next.timer next.attached])
  | .cancel =>
    ({ work.cancelDelayable.1 with floor := none, cancelled := true }, [])
  | .submit => (work.asked.submitToQueue, [])
  | .expire => (work.workTimeout, [])
  | .take =>
    if work.queued = 0 ∨ work.taken then (work, [])
    else ({ work with queued := work.queued - 1, taken := true }, [])
  | .begin =>
    if !work.taken then (work, [])
    else if work.pending then
      ({ work with taken := false, pending := false, floor := none },
        [.started work.now work.floor work.cancelled])
    else ({ work with taken := false }, [])
  | .remainingGet => (work, [.remaining work.remainingGet work.timeLeft])
  | .wait elapsed => ({ work with now := work.now + elapsed }, [])

end DelayableWork

def workMachine : Machine DelayableWork WorkInput WorkEvent :=
  ⟨DelayableWork.step⟩

/-- A start is neither before the time of the last rescheduling nor after a
cancellation, a rescheduled item is scheduled for that time, and the time left
is told right. -/
def WorkEvent.Kept : WorkEvent → Prop
  | started time floor cancelled =>
    (∀ due, floor = some due → due ≤ time) ∧ cancelled = false
  | rescheduled due timer attached => timer = some due ∧ attached = true
  | remaining value left => value = left

/-- The remaining time is within the range of the signed 32-bit difference: the
timer runs for less than `2 ^ 31` ms, and a stopped one was last due no longer
than that ago. -/
def DelayableWork.ClockNear (work : DelayableWork) : Prop :=
  match work.timer with
  | some deadline => work.timeout.toNat < 2 ^ 31 ∧ work.now ≤ deadline + 2 ^ 31
  | none => (work.uptime - work.startMs - work.timeout).toNat ≤ 2 ^ 31

def Calm (work : DelayableWork) : WorkInput → Prop
  | .reschedule delay => delay ≠ 0 → work.pending = false
  | .cancel => work.pending = false
  | .remainingGet => work.ClockNear
  | _ => True

structure DelayableWork.Ok (work : DelayableWork) : Prop where
  once : work.queued + work.taken.toNat = work.pending.toNat
  timed : work.attached = work.timer.isSome
  clock : ∀ deadline, work.timer = some deadline →
    ∃ start, start ≤ work.now ∧ work.startMs = BitVec.ofNat 32 start ∧
      deadline = start + work.timeout.toNat
  idle : work.cancelled = true → work.pending = false ∧ work.timer = none
  due : ∀ floor, work.floor = some floor → (work.pending = true → floor ≤ work.now) ∧
      ∀ deadline, work.timer = some deadline → floor ≤ deadline

namespace DelayableWork.Ok

variable {work : DelayableWork}

theorem init (now : Nat) : (DelayableWork.init now).Ok where
  once := rfl
  timed := rfl
  clock := fun deadline running => by cases running
  idle := fun cancelled => by cases cancelled
  due := fun floor asked => by cases asked

section

variable (ok : work.Ok)
include ok

theorem asked : work.asked.Ok where
  once := ok.once
  timed := ok.timed
  clock := ok.clock
  idle := fun cancelled => by cases cancelled
  due := fun floor asked => by cases asked

theorem submitToQueue (wanted : work.cancelled = false)
    (late : ∀ floor, work.floor = some floor → floor ≤ work.now) :
    work.submitToQueue.Ok := by
  unfold DelayableWork.submitToQueue
  split
  · exact ok
  rename_i idle
  have free : work.pending = false := by simpa using idle
  refine ⟨?_, ok.timed, ok.clock, ?_, ?_⟩
  · have once := ok.once
    rw [free] at once
    simp only [toNat_false, toNat_true] at once ⊢
    omega
  · intro cancelled
    rw [wanted] at cancelled
    cases cancelled
  · intro floor asked
    exact ⟨fun _ => late floor asked, (ok.due floor asked).2⟩

theorem stopped :
    ({ work with timer := none, attached := false } : DelayableWork).Ok where
  once := ok.once
  timed := rfl
  clock := fun deadline running => by cases running
  idle := fun cancelled => ⟨(ok.idle cancelled).1, rfl⟩
  due := fun floor asked =>
    ⟨(ok.due floor asked).1, fun deadline running => by cases running⟩

theorem cancelDelayable : work.cancelDelayable.1.Ok := by
  unfold DelayableWork.cancelDelayable
  split
  · exact ok
  split
  · exact ok
  have stopped := ok.stopped
  refine ⟨stopped.once, stopped.timed, ?_, stopped.idle, stopped.due⟩
  intro deadline running
  cases running

theorem timerStart (delay : BitVec 32)
    (wanted : work.cancelled = false) (unbound : work.floor = none) :
    ({ work with
        timer := some (work.now + delay.toNat)
        startMs := work.uptime
        timeout := delay
        attached := true } : DelayableWork).Ok where
  once := ok.once
  timed := rfl
  clock := by
    intro deadline running
    cases running
    exact ⟨work.now, le_refl _, rfl, rfl⟩
  idle := by
    intro cancelled
    rw [wanted] at cancelled
    cases cancelled
  due := by
    intro floor asked
    rw [unbound] at asked
    cases asked

theorem submitAfter (delay : BitVec 32)
    (free : work.timer = none) (wanted : work.cancelled = false)
    (unbound : work.floor = none) : (work.submitAfter delay).Ok := by
  unfold DelayableWork.submitAfter
  split
  · have late : ∀ floor, work.floor = some floor → floor ≤ work.now := by
      intro floor asked
      rw [unbound] at asked
      cases asked
    have queued := ok.submitToQueue wanted late
    have running : work.submitToQueue.timer = none := by
      unfold DelayableWork.submitToQueue
      split
      · exact free
      · exact free
    have detached := queued.stopped
    rw [← running] at detached
    exact detached
  · exact ok.timerStart delay wanted unbound

end

theorem cancelDelayable_leaves (work : DelayableWork) :
    work.cancelDelayable.1.cancelled = work.cancelled ∧
      work.cancelDelayable.1.floor = work.floor ∧
      work.cancelDelayable.1.now = work.now ∧
      work.cancelDelayable.1.pending = work.pending ∧
      (work.cancelDelayable.2 = true → work.cancelDelayable.1.timer = none) := by
  unfold DelayableWork.cancelDelayable
  split
  · refine ⟨rfl, rfl, rfl, rfl, fun success => by cases success⟩
  split
  · refine ⟨rfl, rfl, rfl, rfl, fun success => by cases success⟩
  · exact ⟨rfl, rfl, rfl, rfl, fun _ => rfl⟩

theorem delayedSubmit (ok : work.Ok) (delay : BitVec 32)
    (wanted : work.cancelled = false) (unbound : work.floor = none) :
    (work.delayedSubmit delay).Ok := by
  unfold DelayableWork.delayedSubmit
  split
  · have after := ok.cancelDelayable
    obtain ⟨cancelled, floor, -, -, free⟩ := cancelDelayable_leaves work
    cases called : work.cancelDelayable with
    | mk left success =>
      rw [called] at after cancelled floor free
      cases success with
      | false => exact after
      | true =>
        apply after.submitAfter delay (free rfl)
        · rw [cancelled]
          exact wanted
        · rw [floor]
          exact unbound
  · rename_i detached
    have free : work.timer = none := by
      have timed := ok.timed
      rw [not_eq_true] at detached
      rw [detached] at timed
      simpa using timed.symm
    exact ok.submitAfter delay free wanted unbound

theorem delayedSubmit_timer {delay : BitVec 32} (later : delay ≠ 0)
    (calm : work.pending = false) :
    (work.delayedSubmit delay).timer = some (work.now + delay.toNat) ∧
      (work.delayedSubmit delay).attached = true ∧
      (work.delayedSubmit delay).pending = false := by
  unfold DelayableWork.delayedSubmit
  split
  · rename_i attached
    have success : work.cancelDelayable = ({ work with
        timer := none
        attached := false
        timeout := 0
        startMs := 0 }, true) := by
      unfold DelayableWork.cancelDelayable
      simp [calm, attached]
    rw [success]
    simp only [DelayableWork.submitAfter, if_neg later]
    exact ⟨trivial, trivial, calm⟩
  · simp only [DelayableWork.submitAfter, if_neg later]
    exact ⟨trivial, trivial, calm⟩

theorem rescheduled (ok : work.Ok) {delay : BitVec 32} (later : delay ≠ 0)
    (calm : work.pending = false) : ({ work.asked.delayedSubmit delay with
        floor := some (work.now + delay.toNat) } : DelayableWork).Ok := by
  have next := ok.asked.delayedSubmit delay rfl rfl
  obtain ⟨timer, -, idle⟩ := @delayedSubmit_timer work.asked delay later calm
  refine ⟨next.once, next.timed, next.clock, next.idle, ?_⟩
  intro floor asked
  cases asked
  constructor
  · intro pending
    rw [idle] at pending
    cases pending
  · intro deadline running
    rw [timer] at running
    cases running
    exact le_refl _

theorem workTimeout (ok : work.Ok) : work.workTimeout.Ok := by
  unfold DelayableWork.workTimeout
  split
  · exact ok
  rename_i deadline running
  split
  · exact ok
  rename_i reached
  have attached : work.attached = true := by
    rw [ok.timed, running]
    rfl
  have wanted : work.cancelled = false := by
    cases cancelled : work.cancelled with
    | false => rfl
    | true =>
      have free := (ok.idle cancelled).2
      rw [running] at free
      cases free
  have late : ∀ floor, work.floor = some floor → floor ≤ work.now := by
    intro floor asked
    have before := (ok.due floor asked).2 deadline running
    omega
  have queued := (ok.submitToQueue wanted late).stopped
  have same : ({ work with timer := none } : DelayableWork).submitToQueue =
      { work.submitToQueue with timer := none } := by
    unfold DelayableWork.submitToQueue
    split <;> rfl
  show DelayableWork.Ok
    { (if work.attached = true then
        ({ work with timer := none } : DelayableWork).submitToQueue
      else { work with timer := none }) with attached := false }
  rw [if_pos attached, same]
  exact queued

theorem remainingGet (ok : work.Ok) (near : work.ClockNear) :
    work.remainingGet = work.timeLeft := by
  unfold DelayableWork.ClockNear at near
  unfold DelayableWork.remainingGet DelayableWork.timeLeft
  cases running : work.timer with
  | none =>
    simp only [running] at near ⊢
    split
    · rfl
    rename_i positive
    rw [msb_eq_decide] at positive
    simp only [toNat_sub, decide_eq_true_eq] at near positive ⊢
    have := work.timeout.isLt
    have := work.uptime.isLt
    have := work.startMs.isLt
    omega
  | some deadline =>
    simp only [running] at near ⊢
    obtain ⟨start, _, startMs, _⟩ := ok.clock deadline running
    have uptime : work.uptime.toNat = work.now % 2 ^ 32 := by
      simp [DelayableWork.uptime]
    have started : work.startMs.toNat = start % 2 ^ 32 := by
      rw [startMs]
      simp
    have := work.timeout.isLt
    rw [msb_eq_decide]
    simp only [toNat_sub, uptime, started, decide_eq_true_eq]
    split <;> omega

end DelayableWork.Ok

open DelayableWork in
theorem DelayableWork.Ok.step {work : DelayableWork} (ok : work.Ok)
    {input : WorkInput} (calm : Calm work input) :
    (work.step input).1.Ok ∧ ∀ event ∈ (work.step input).2, event.Kept := by
  cases input with
  | schedule delay =>
    exact ⟨ok.asked.delayedSubmit delay rfl rfl, by simp [DelayableWork.step]⟩
  | reschedule delay =>
    unfold DelayableWork.step
    dsimp only
    split
    · exact ⟨ok.asked.delayedSubmit delay rfl rfl, by simp⟩
    rename_i later
    obtain ⟨timer, attached, -⟩ :=
      @delayedSubmit_timer work.asked delay later (calm later)
    refine ⟨ok.rescheduled later (calm later), ?_⟩
    intro event member
    rw [mem_singleton.mp member]
    exact ⟨timer, attached⟩
  | cancel =>
    refine ⟨?_, by simp [DelayableWork.step]⟩
    have idle : work.pending = false := calm
    have after := ok.cancelDelayable
    obtain ⟨-, -, -, pending, -⟩ := cancelDelayable_leaves work
    have free : work.cancelDelayable.1.timer = none := by
      unfold DelayableWork.cancelDelayable
      rw [if_neg (by simp [idle])]
      split
      · rename_i detached
        have timed := ok.timed
        rw [not_eq_true'] at detached
        rw [detached] at timed
        simpa using timed.symm
      · rfl
    refine ⟨after.once, after.timed, after.clock, ?_, ?_⟩
    · intro _
      exact ⟨pending.trans idle, free⟩
    · intro floor asked
      cases asked
  | submit =>
    refine ⟨?_, by simp [DelayableWork.step]⟩
    apply ok.asked.submitToQueue rfl
    intro floor asked
    cases asked
  | expire => exact ⟨ok.workTimeout, by simp [DelayableWork.step]⟩
  | take =>
    unfold DelayableWork.step
    dsimp only
    split
    · exact ⟨ok, by simp⟩
    rename_i waiting
    obtain ⟨_, free⟩ := not_or.mp waiting
    refine ⟨⟨?_, ok.timed, ok.clock, ok.idle, ok.due⟩, by simp⟩
    have once := ok.once
    simp only [not_eq_true] at free
    rw [free] at once
    simp only [toNat_false, toNat_true] at once ⊢
    omega
  | begin =>
    unfold DelayableWork.step
    dsimp only
    split
    · exact ⟨ok, by simp⟩
    rename_i holds
    have taken : work.taken = true := by simpa using holds
    have once := ok.once
    rw [taken] at once
    split
    · rename_i pending
      rw [pending] at once
      refine ⟨⟨?_, ok.timed, ok.clock, ?_, ?_⟩, ?_⟩
      · simp only [toNat_false, toNat_true] at once ⊢
        omega
      · intro cancelled
        exact ⟨rfl, (ok.idle cancelled).2⟩
      · intro floor asked
        cases asked
      · intro event member
        rw [mem_singleton.mp member]
        refine ⟨fun due asked => (ok.due due asked).1 pending, ?_⟩
        cases cancelled : work.cancelled with
        | false => rfl
        | true =>
          have idle := (ok.idle cancelled).1
          rw [pending] at idle
          cases idle
    · rename_i idle
      rw [not_eq_true] at idle
      rw [idle] at once
      simp only [toNat_false, toNat_true] at once
      omega
  | remainingGet =>
    refine ⟨ok, ?_⟩
    intro event member
    rw [mem_singleton.mp member]
    exact ok.remainingGet calm
  | wait =>
    refine ⟨⟨ok.once, ok.timed, ?_, ok.idle, ?_⟩, by simp [DelayableWork.step]⟩
    · intro deadline running
      obtain ⟨start, _, startMs, due⟩ := ok.clock deadline running
      refine ⟨start, ?_, startMs, due⟩
      simp only [DelayableWork.step]
      omega
    · intro floor asked
      obtain ⟨now, timer⟩ := ok.due floor asked
      refine ⟨?_, timer⟩
      intro pending
      have := now pending
      simp only [DelayableWork.step]
      omega

theorem DelayableWork.Ok.run {work : DelayableWork} (ok : work.Ok)
    {inputs : List WorkInput} (calm : workMachine.Along Calm work inputs) :
    workMachine.Always DelayableWork.Ok work inputs ∧
      ∀ event ∈ workMachine.trace work inputs, event.Kept := by
  induction inputs generalizing work with
  | nil => exact ⟨ok, by simp⟩
  | cons input rest ih =>
    obtain ⟨next, kept⟩ := ok.step calm.1
    obtain ⟨always, later⟩ := ih next calm.2
    refine ⟨⟨ok, always⟩, ?_⟩
    intro event member
    rcases mem_append.mp member with now | after
    · exact kept event now
    · exact later event after

/-- Along a run in which the item is never pending when it is rescheduled or
cancelled, the contract is kept and the item is on the queue at most once. -/
theorem work_contract (now : Nat) (inputs : List WorkInput)
    (calm : workMachine.Along Calm (DelayableWork.init now) inputs) :
    (∀ event ∈ workMachine.trace (DelayableWork.init now) inputs, event.Kept) ∧
      workMachine.Always (fun work => work.queued ≤ 1)
        (DelayableWork.init now) inputs := by
  obtain ⟨always, kept⟩ := (DelayableWork.Ok.init now).run calm
  refine ⟨kept, always.mono ?_⟩
  intro work ok
  have once := ok.once
  have : work.pending.toNat ≤ 1 := toNat_le _
  omega

theorem work_contract_rescheduled : workMachine.Along Calm (DelayableWork.init 7)
        [.reschedule 5, .wait 2, .remainingGet, .wait 3, .expire, .take,
          .begin, .cancel] ∧ ∀ event ∈ workMachine.trace (DelayableWork.init 7)
        [.reschedule 5, .wait 2, .remainingGet, .wait 3, .expire, .take,
          .begin, .cancel], event.Kept := by
  have calm : workMachine.Along Calm (DelayableWork.init 7)
      [.reschedule 5, .wait 2, .remainingGet, .wait 3, .expire, .take,
        .begin, .cancel] := by
    refine ⟨fun _ => rfl, trivial, ?_, trivial, trivial, trivial, trivial,
      rfl, trivial⟩
    exact ⟨by decide, by decide⟩
  exact ⟨calm, (work_contract 7 _ calm).1⟩

theorem work_cancel_ignored : ∃ event ∈ workMachine.trace (DelayableWork.init 0)
      [.schedule 1, .wait 1, .expire, .cancel, .take, .begin], ¬ event.Kept := by
  refine ⟨.started 1 none true, by decide, ?_⟩
  rintro ⟨-, wanted⟩
  cases wanted

end ZephyrBluetooth.Osal
