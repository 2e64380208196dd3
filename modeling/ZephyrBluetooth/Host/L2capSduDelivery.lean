import ZephyrBluetooth.Host.L2capSduFlow

namespace ZephyrBluetooth.Host

open Data List

namespace SduRx

open Sdu

variable {config : SduConfig}

def gathering (rx : SduRx) : Option (Gathering Byte) :=
  rx.sdu.map fun sdu => ⟨sdu.got, sdu.total⟩

def Open (rx : SduRx) : Prop :=
  rx.disconnecting = false ∧ rx.shutdown = false

structure Supplied (config : SduConfig) (answers : RecvAnswers) : Prop where
  allocBuf : answers.allocBuf = true
  stored : config.mtu ≤ answers.stored

/-- What a step of the receiver leaves: it was shut down, or it has the rest of
its queue before it and has returned credits. -/
def Leaves (rx next : SduRx) (state : Option (Gathering Byte))
    (grants : List Nat) : Prop :=
  (next.shutdown = true ∧ next.queue = [] ∧ next.sdu = none) ∨
    (next.queue = rx.queue ∧ next.gathering = state ∧
      next.credits = rx.credits + grants.sum ∧
      (next.Open → rx.Open))

theorem disconnect_leaves (answers : RecvAnswers) (rx : SduRx) :
    Leaves rx (disconnect answers rx) rx.gathering [] := by
  unfold disconnect
  split
  · exact .inr ⟨rfl, rfl, rfl, fun isOpen => nomatch isOpen.1⟩
  · exact .inr ⟨rfl, rfl, rfl, id⟩

theorem sendCredits_leaves (pdu : Bool) (rx : SduRx) (credits : Nat) :
    Leaves rx (sendCredits config pdu rx credits).1 rx.gathering
      (sendCredits config pdu rx credits).2 := by
  unfold sendCredits
  split
  · refine .inr ⟨rfl, rfl, ?_, id⟩
    rw [sum_singleton]
  · exact .inl ⟨rfl, rfl, rfl⟩

theorem recvSdu_leaves (answers : RecvAnswers) (rx : SduRx)
    (bytes : List Byte) (seg : Nat) :
    Leaves rx (recvSdu config answers rx bytes seg).1 rx.gathering
        (recvSdu config answers rx bytes seg).2.grants ∧
      (recvSdu config answers rx bytes seg).2.delivered = [bytes] ∧
      (recvSdu config answers rx bytes seg).2.starved = false := by
  unfold recvSdu
  split
  · exact ⟨sendCredits_leaves answers.creditsPdu rx seg, rfl, rfl⟩
  · exact ⟨.inr ⟨rfl, rfl, rfl, id⟩, rfl, rfl⟩
  · exact ⟨disconnect_leaves answers rx, rfl, rfl⟩

theorem updateCredits_leaves (answers : RecvAnswers) (rx : SduRx)
    (total len : Nat) :
    Leaves rx (updateCredits config answers rx total len).1 rx.gathering
      (updateCredits config answers rx total len).2 := by
  unfold updateCredits
  simp only
  split
  · exact .inr ⟨rfl, rfl, rfl, id⟩
  · exact sendCredits_leaves answers.creditsPdu rx _

variable {answers : RecvAnswers}

theorem recvSeg_takes (supplied : Supplied config answers) (rx : SduRx)
    {sdu : RxSdu} {buf : List Byte} {units : List (List Byte)}
    {next : Option (Gathering Byte)} (bounded : sdu.total ≤ config.mtu)
    (taken : Gathering.close ⟨sdu.got ++ buf, sdu.total⟩ = some (units, next)) :
    Leaves rx (recvSeg config answers rx sdu buf).1 next
        (recvSeg config answers rx sdu buf).2.grants ∧
      (recvSeg config answers rx sdu buf).2.delivered = units ∧
      (recvSeg config answers rx sdu buf).2.starved = false := by
  have stored := supplied.stored
  unfold Gathering.close at taken
  simp only [length_append] at taken
  unfold recvSeg
  generalize ((if sdu.got = [] then 0 else sdu.seg) + 1) % 0x10000 = seg
  split
  · rename_i excess
    rw [if_neg (by omega), if_neg (by omega)] at taken
    cases taken
  rename_i within
  rw [if_neg (by omega), take_of_length_le (by omega)]
  split
  · rename_i short
    rw [length_append] at short
    rw [if_pos short] at taken
    cases taken
    split
    · exact ⟨updateCredits_leaves answers _ sdu.total buf.length, rfl, rfl⟩
    · exact ⟨.inr ⟨rfl, rfl, rfl, id⟩, rfl, rfl⟩
  · rename_i full
    rw [length_append] at full
    rw [if_neg full, if_pos (by omega)] at taken
    cases taken
    exact recvSdu_leaves answers _ _ _

def Bounded (config : SduConfig) (state : Option (Gathering Byte)) : Prop :=
  ∀ gathering, state = some gathering → gathering.total ≤ config.mtu

theorem Bounded.next {state next : Option (Gathering Byte)}
    (bounded : Bounded config state) {buf : List Byte} {units : List (List Byte)}
    (taken : takeFrame (readHdr config) state buf = some (units, next)) :
    Bounded config next := by
  have closed : ∀ whole : Gathering Byte, whole.total ≤ config.mtu →
      whole.close = some (units, next) → Bounded config next := by
    intro whole fits closes later same
    unfold Gathering.close at closes
    split at closes
    · cases closes
      cases same
      exact fits
    · split at closes
      · cases closes
        cases same
      · cases closes
  cases state with
  | some gathering => exact closed (gathering.add buf) (bounded gathering rfl) taken
  | none =>
    simp only [takeFrame, readHdr] at taken
    split at taken
    · rename_i total items header
      split at header
      · split at header
        · cases header
        rename_i fits
        cases header
        exact closed _ (not_lt.mp fits) taken
      · cases header
    · cases taken

theorem leRecv_takes (supplied : Supplied config answers) {rx : SduRx}
    {buf : List Byte} {units : List (List Byte)}
    {next : Option (Gathering Byte)} (credit : 0 < rx.credits)
    (bounded : Bounded config rx.gathering)
    (taken : takeFrame (readHdr config) rx.gathering buf = some (units, next)) :
    Leaves { rx with credits := rx.credits - 1 }
        (leRecv config answers rx buf).1 next
        (leRecv config answers rx buf).2.grants ∧
      (leRecv config answers rx buf).2.delivered = units ∧
      (leRecv config answers rx buf).2.starved = false := by
  unfold leRecv
  rw [if_neg (ne_of_gt credit)]
  simp only
  split
  · rename_i sdu present
    unfold gathering at taken
    rw [present] at taken
    have fits : sdu.total ≤ config.mtu := by
      apply bounded ⟨sdu.got, sdu.total⟩
      unfold gathering
      rw [present]
      rfl
    exact recvSeg_takes supplied _ fits taken
  · rename_i absent
    unfold gathering at taken
    rw [absent] at taken
    simp only [Option.map_none, takeFrame, readHdr] at taken
    split
    · rename_i short
      rw [short] at taken
      cases taken
    · rename_i total rest header
      rw [header] at taken
      simp only at taken
      split
      · rename_i excess
        rw [if_pos excess] at taken
        cases taken
      · rename_i fits
        rw [if_neg fits] at taken
        rw [supplied.allocBuf]
        exact recvSeg_takes supplied _ (not_lt.mp fits) taken

end SduRx

namespace SduLink

open Sdu

variable {config : SduConfig} {link : SduLink}

/-- The frames in the receiver's queue complete SDUs in the order they were
accepted.  While the channel is open, the frames on the link lead on to the
SDU the sender is at, and credits are somewhere. -/
structure Flow (config : SduConfig) (link : SduLink) : Prop where
  running : link.tx.halted = false
  enough : link.rx.queue.length ≤ link.rx.credits
  bounded : SduRx.Bounded config link.rx.gathering
  arrived : ∃ units next todo,
    Gathers (readHdr config) link.rx.gathering link.rx.queue units next ∧
      link.accepted = link.delivered ++ units ++ todo
  sender : ∃ state todo, link.tx.Sends config state todo ∧
    (link.rx.Open → ∃ units, Gathers (readHdr config) link.rx.gathering
          (link.rx.queue ++ link.frames) units state ∧
        link.accepted = link.delivered ++ units ++ todo)
  balance : link.rx.Open → link.rx.credits =
    link.tx.credits + link.frames.length + link.rx.queue.length + link.grants.sum

namespace Flow

section

variable (flow : link.Flow config)
include flow

theorem transmit {tx : SduTx} {frames : List (List Byte)} {taken : List (List Byte)}
    (running : tx.halted = false)
    (spent : link.tx.credits = tx.credits + frames.length)
    (moves : ∀ {state todo}, link.tx.Sends config state todo →
      ∃ sent next later, Gathers (readHdr config) state frames sent next ∧
      tx.Sends config next later ∧ todo ++ taken = sent ++ later) :
    Flow config { link with
      tx
      frames := link.frames ++ frames
      accepted := link.accepted ++ taken } := by
  obtain ⟨state, todo, progress, opened⟩ := flow.sender
  obtain ⟨sent, next, later, gathers, moved, whole⟩ := moves progress
  refine ⟨running, flow.enough, flow.bounded, ?_, ?_, ?_⟩
  · obtain ⟨units, last, rest, queued, accepted⟩ := flow.arrived
    refine ⟨units, last, rest ++ taken, queued, ?_⟩
    rw [← append_assoc, ← accepted]
  · refine ⟨next, later, moved, ?_⟩
    intro isOpen
    obtain ⟨units, before, accepted⟩ := opened isOpen
    refine ⟨units ++ sent, ?_, ?_⟩
    · have joined := before.append gathers
      rw [append_assoc] at joined
      exact joined
    · simp only [accepted, append_assoc]
      rw [whole]
  · intro isOpen
    have before := flow.balance isOpen
    simp only [length_append]
    omega

theorem leave {base next : SduRx} {state : Option (Gathering Byte)}
    {grants : List Nat} {delivered : List (List Byte)}
    (leaves : SduRx.Leaves base next state grants)
    (bounded : SduRx.Bounded config state) (stays : base.Open → link.rx.Open)
    (enough : base.queue.length ≤ base.credits)
    (arrived : ∃ units last todo,
      Gathers (readHdr config) state base.queue units last ∧
      link.accepted = delivered ++ units ++ todo)
    (onward : ∀ {last todo}, (∃ units, Gathers (readHdr config) link.rx.gathering
      (link.rx.queue ++ link.frames) units last ∧
      link.accepted = link.delivered ++ units ++ todo) →
      ∃ units, Gathers (readHdr config) state (base.queue ++ link.frames) units
      last ∧ link.accepted = delivered ++ units ++ todo)
    (balance : base.credits + link.rx.queue.length =
      link.rx.credits + base.queue.length) :
    Flow config { link with
      rx := next
      grants := link.grants ++ grants
      delivered := delivered } := by
  obtain ⟨sending, todo, progress, opened⟩ := flow.sender
  obtain ⟨units, last, rest, queued, accepted⟩ := arrived
  rcases leaves with ⟨shut, noQueue, noSdu⟩ | ⟨queue, gathers, credits, opens⟩
  · have closed : ¬next.Open := by
      intro isOpen
      rw [isOpen.2] at shut
      cases shut
    have nothing : next.gathering = none := by
      unfold SduRx.gathering
      rw [noSdu]
      rfl
    refine ⟨flow.running, ?_, ?_, ?_, ?_, ?_⟩
    · rw [noQueue]
      exact Nat.zero_le _
    · rw [nothing]
      exact nofun
    · refine ⟨[], none, units ++ rest, ?_, ?_⟩
      · simp only [noQueue, nothing]
        exact .nil none
      · simp only [accepted, append_nil, append_assoc]
    · exact ⟨sending, todo, progress, fun isOpen => absurd isOpen closed⟩
    · exact fun isOpen => absurd isOpen closed
  · refine ⟨flow.running, ?_, ?_, ?_, ?_, ?_⟩
    · simp only [queue, credits]
      omega
    · simp only [gathers]
      exact bounded
    · refine ⟨units, last, rest, ?_, accepted⟩
      simp only [queue, gathers]
      exact queued
    · refine ⟨sending, todo, progress, ?_⟩
      intro isOpen
      simp only [queue, gathers]
      exact onward (opened (stays (opens isOpen)))
    · intro isOpen
      have before := flow.balance (stays (opens isOpen))
      simp only [queue, credits, sum_append]
      omega

theorem send {answers : SendAnswers} (roomy : Roomy answers) {chain : SduChain}
    (fits : chain.bytes.length ≤ config.mtu) (leads : Leads chain) :
    (link.send config answers chain).Flow config := by
  obtain ⟨_, _, progress, -⟩ := flow.sender
  obtain ⟨-, -, -, -, -, -, running, spent⟩ :=
    SduTx.chanSend_flows roomy flow.running fits leads progress
  have sends := @transmit config link flow
    (link.tx.chanSend config answers chain).1
    (link.tx.chanSend config answers chain).2.1
    (if (link.tx.chanSend config answers chain).2.2 then [chain.bytes] else [])
    running spent
  have accepts : (link.send config answers chain).accepted =
      link.accepted ++ if (link.tx.chanSend config answers chain).2.2 then
        [chain.bytes] else [] := by
    unfold SduLink.send
    simp only
    split
    · rfl
    · rw [append_nil]
  have sent : (link.send config answers chain) = { link with
      tx := (link.tx.chanSend config answers chain).1
      frames := link.frames ++ (link.tx.chanSend config answers chain).2.1
      accepted := link.accepted ++
        if (link.tx.chanSend config answers chain).2.2 then [chain.bytes]
        else [] } := by
    rw [← accepts]
    rfl
  rw [sent]
  apply sends
  intro before remaining moving
  obtain ⟨out, next, later, gathers, moved, whole, -, -⟩ :=
    SduTx.chanSend_flows roomy flow.running fits leads moving
  refine ⟨out, next, later, gathers, moved, ?_⟩
  rw [← whole]
  split
  · rfl
  · rw [append_nil]

theorem txWork {answers : SendAnswers} (roomy : Roomy answers)
    (counts : link.tx.Counts) : (link.txWork config answers).Flow config := by
  obtain ⟨_, _, progress, -⟩ := flow.sender
  obtain ⟨-, -, -, -, -, -, running, spent⟩ :=
    SduTx.process_flows roomy link.tx.rounds flow.running counts progress
  have sends := @transmit config link flow
    (SduTx.process config answers link.tx.rounds link.tx).1
    (SduTx.process config answers link.tx.rounds link.tx).2 []
    running spent
  rw [append_nil] at sends
  apply sends
  intro before remaining moving
  obtain ⟨out, next, later, gathers, moved, whole, -, -⟩ :=
    SduTx.process_flows roomy link.tx.rounds flow.running counts moving
  refine ⟨out, next, later, gathers, moved, ?_⟩
  rw [append_nil]
  exact whole

theorem frameArrives : link.frameArrives.Flow config := by
  unfold SduLink.frameArrives
  split
  · exact flow
  rename_i frame rest frames
  obtain ⟨state, todo, progress, opened⟩ := flow.sender
  unfold SduRx.recvQueue
  split
  · rename_i closed
    have shut : ¬link.rx.Open := by
      intro isOpen
      rw [isOpen.1, isOpen.2] at closed
      exact absurd closed (by decide)
    exact ⟨flow.running, flow.enough, flow.bounded, flow.arrived,
      ⟨state, todo, progress, fun isOpen => absurd isOpen shut⟩,
      fun isOpen => absurd isOpen shut⟩
  · rename_i notClosed
    rw [not_or, Bool.not_eq_true, Bool.not_eq_true] at notClosed
    have isOpen : link.rx.Open := notClosed
    have balance := flow.balance isOpen
    obtain ⟨units, gathers, accepted⟩ := opened isOpen
    rw [frames] at gathers balance
    rw [← singleton_append, ← append_assoc] at gathers
    obtain ⟨early, between, late, first, _, split⟩ := gathers.split
    refine ⟨flow.running, ?_, flow.bounded, ?_, ?_, ?_⟩
    · simp only [length_append, length_cons, length_nil]
      rw [balance, length_cons]
      omega
    · refine ⟨early, between, late ++ todo, first, ?_⟩
      rw [accepted, split]
      simp only [append_assoc]
    · exact ⟨state, todo, progress, fun _ => ⟨units, gathers, accepted⟩⟩
    · intro _
      simp only [length_append, length_cons, length_nil]
      rw [balance, length_cons]
      omega

theorem rxWork {answers : RecvAnswers} (supplied : SduRx.Supplied config answers) :
    (link.rxWork config answers).1.Flow config ∧
      (link.rxWork config answers).2 = [] := by
  unfold SduLink.rxWork
  split
  · exact ⟨flow, rfl⟩
  rename_i buf rest queue
  have enough := flow.enough
  rw [queue, length_cons] at enough
  obtain ⟨_, last, todo, gathers, accepted⟩ := flow.arrived
  rw [queue] at gathers
  cases gathers with
  | cons taken others =>
    rename_i next now later
    have credit : 0 < link.rx.credits := by omega
    obtain ⟨leaves, delivers, fed⟩ := @SduRx.leRecv_takes config answers
      supplied { link.rx with queue := rest } buf _ _ credit flow.bounded
      taken
    constructor
    · simp only [delivers]
      apply flow.leave leaves (flow.bounded.next taken)
      · exact id
      · simp only
        omega
      · refine ⟨later, last, todo, others, ?_⟩
        rw [accepted]
        simp only [append_assoc]
      · rintro _ _ ⟨_, whole, accepts⟩
        rw [queue, cons_append] at whole
        cases whole with
        | cons again onward =>
          rw [taken] at again
          cases again
          refine ⟨_, onward, ?_⟩
          rw [accepts]
          simp only [append_assoc]
      · simp only [queue, length_cons]
        omega
    · simp only [fed]
      rfl

theorem recvComplete (index : Nat) (creditsPdu : Bool) :
    (link.recvComplete config index creditsPdu).Flow config := by
  unfold SduLink.recvComplete
  split
  · exact flow
  rename_i seg held
  have leaves := @SduRx.sendCredits_leaves config creditsPdu
    { link.rx with held := link.rx.held.eraseIdx index } seg
  apply flow.leave leaves flow.bounded id flow.enough flow.arrived
  · exact id
  · rfl

theorem creditsArrive
    (fits : ∀ credits ∈ link.grants.head?, link.tx.credits + credits ≤ 0xffff) :
    link.creditsArrive.Flow config := by
  unfold SduLink.creditsArrive
  split
  · exact flow
  rename_i credits rest grants
  rw [grants] at fits
  rw [if_neg (not_lt.mpr (fits credits rfl))]
  refine ⟨flow.running, flow.enough, flow.bounded, flow.arrived, flow.sender, ?_⟩
  intro isOpen
  have before := flow.balance isOpen
  rw [grants, sum_cons] at before
  simp only
  omega

end

end Flow

/-- The SDU fits into the peer's MTU, its header leaves with its first data, the
work item finds a queue whose semaphore counts all buffers, the receiver has
buffers, and credits do not overflow. -/
def Intact (config : SduConfig) (link : SduLink) : SduInput → Prop
  | .send answers chain =>
    chain.bytes.length ≤ config.mtu ∧ Leads chain ∧ Roomy answers
  | .txWork answers => Roomy answers ∧ link.tx.Counts
  | .rxWork answers => SduRx.Supplied config answers
  | .creditsArrive =>
    ∀ credits ∈ link.grants.head?, link.tx.credits + credits ≤ 0xffff
  | _ => True

structure InOrder (link : SduLink) : Prop where
  prefixed : link.delivered <+: link.accepted
  balanced : link.rx.Open → link.rx.credits =
    link.tx.credits + (link.frames.length + link.rx.queue.length) + link.grants.sum

theorem Flow.inOrder (flow : link.Flow config) : link.InOrder := by
  constructor
  · obtain ⟨_, _, _, -, accepted⟩ := flow.arrived
    rw [accepted, append_assoc]
    exact prefix_append _ _
  · intro isOpen
    have balance := flow.balance isOpen
    omega

theorem Flow.step (flow : link.Flow config) {input : SduInput}
    (intact : link.Intact config input) :
    (sduMachine config).emit link input = [] ∧
      ((sduMachine config).next link input).Flow config := by
  unfold Machine.emit Machine.next sduMachine
  simp only [flow.running, Bool.false_eq_true, if_false]
  cases input with
  | send => exact ⟨rfl, flow.send intact.2.2 intact.1 intact.2.1⟩
  | txWork => exact ⟨rfl, flow.txWork intact.1 intact.2⟩
  | frameArrives => exact ⟨rfl, flow.frameArrives⟩
  | rxWork => exact (flow.rxWork intact).symm
  | recvComplete index creditsPdu => exact ⟨rfl, flow.recvComplete index creditsPdu⟩
  | creditsArrive => exact ⟨rfl, flow.creditsArrive intact⟩

end SduLink

def sampleSend : SendAnswers := ⟨fun _ => some 100, fun _ => true⟩

end ZephyrBluetooth.Host
