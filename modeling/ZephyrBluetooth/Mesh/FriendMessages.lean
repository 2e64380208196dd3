import ZephyrBluetooth.Data.Messages
import ZephyrBluetooth.Mesh.FriendHeld

namespace ZephyrBluetooth.Mesh

open Data List

variable {buf : FriendBuf}

/-- The queue consists of whole messages, the first of which may have been sent
in part, and eviction takes messages from its head.  No buffer of the queue is
released through the buffer that was taken off before it. -/
def Frnd.WholeMessages (cfg : FriendConfig) (frnd : Frnd) : Prop :=
  frnd.faulted = false ∧ ∃ messages, Data.Holds FriendBuf.frags messages frnd.queue ∧
      Unsent frnd.log.accepted messages ∧
      ∀ addr seqAuth segCount, ∃ count,
        (frnd.prepareSpace cfg addr seqAuth segCount).2.queue =
          (messages.drop count).flatten

def Frnd.AcksAlone (seqAuth src : Nat) (frnd : Frnd) : Prop :=
  ∀ front buf back, frnd.queue = front ++ buf :: back →
    buf.isSegack seqAuth src = true → buf.frags = false ∧ Ends FriendBuf.frags front

/-- What is purged is a message, and a PDU that the timer takes from before
others can be encrypted. -/
def KeepsMessages (cfg : FriendConfig) (frnd : Frnd) (input : FrndInput) : Prop :=
  match input with
  | .enqueueRx .. | .enqueueTx .. =>
    ∀ offer, input.offered frnd = some offer → offer.own = false →
      frnd.hasSpace cfg offer.info.src offer.sdu.seqAuth offer.sdu.segCount = true →
      offer.sdu.type = .single →
      ∀ seqAuth, offer.sdu.seqAuth = some seqAuth →
        frnd.AcksAlone seqAuth offer.info.src
  | .timeout env =>
    ∀ buf rest, frnd.polled = some (buf, rest) → rest = [] ∨
      (env.encrypt (Frnd.updateOverwrite (!rest.isEmpty) buf.data)).1 = true
  | _ => True

namespace Frnd

variable {cfg : FriendConfig} {env : FriendEnv} {frnd : Frnd}

structure Framed (frnd : Frnd) : Prop where
  segs : ∀ seg ∈ frnd.seg, ∀ buf ∈ seg.queue, buf.frags = true
  linked : frnd.linked = false
  faulted : frnd.faulted = false
  messages : ∃ messages, Data.Holds FriendBuf.frags messages frnd.queue ∧
    Unsent frnd.log.accepted messages

theorem evict_message {segCount : Nat} {message : List FriendBuf}
    (whole : Whole FriendBuf.frags message) :
    ∀ (pending : Bool) (avail size : Nat) (queue : List FriendBuf),
      (pending || decide (avail < segCount)) = true →
      ∃ avail' size', evict segCount pending avail size (message ++ queue) =
          evict segCount false avail' size' queue := by
  induction whole with
  | last buf ends =>
    intro pending avail size queue more
    refine ⟨(avail + 1) % 2 ^ 8, dec32 size, ?_⟩
    rw [singleton_append, evict, if_pos more, ends]
  | cons buf follows _ ih =>
    intro pending avail size queue more
    obtain ⟨avail', size', same⟩ := ih true ((avail + 1) % 2 ^ 8)
      (dec32 size) queue rfl
    refine ⟨avail', size', ?_⟩
    rw [cons_append, evict, if_pos more, follows]
    exact same

theorem evict_messages (segCount : Nat) :
    ∀ {messages : List (List FriendBuf)} (avail size : Nat),
      (∀ message ∈ messages, Whole FriendBuf.frags message) →
      ∃ count, (evict segCount false avail size messages.flatten).2.2 =
        (messages.drop count).flatten
  | [], avail, size, _ => ⟨0, rfl⟩
  | message :: others, avail, size, whole => by
      have first := whole message mem_cons_self
      by_cases short : avail < segCount
      · obtain ⟨avail', size', same⟩ := evict_message first false avail size
          others.flatten (by simpa using short)
        obtain ⟨count, later⟩ := evict_messages segCount avail' size'
          fun other member => whole other (mem_cons_of_mem message member)
        refine ⟨count + 1, ?_⟩
        rw [flatten_cons, same, later]
        rfl
      · refine ⟨0, ?_⟩
        cases queue : (message :: others).flatten with
        | nil =>
          rw [drop_zero, queue]
          rfl
        | cons => rw [evict, if_neg (by simpa using short), drop_zero, queue]

theorem prepareSpace_messages {messages : List (List FriendBuf)}
    (holds : Data.Holds FriendBuf.frags messages frnd.queue) (addr : Nat)
    (seqAuth : Option Nat) (segCount : Nat) :
    ∃ count, (frnd.prepareSpace cfg addr seqAuth segCount).2.queue =
      (messages.drop count).flatten := by
  unfold prepareSpace
  split
  · exact ⟨0, holds.queue⟩
  · rw [holds.queue]
    exact evict_messages segCount _ _ holds.whole

section

variable (framed : Framed frnd)
include framed

theorem Framed.wholeMessages : WholeMessages cfg frnd := by
  obtain ⟨messages, holds, unsent⟩ := framed.messages
  exact ⟨framed.faulted, messages, holds, unsent, prepareSpace_messages holds⟩

theorem Framed.unrefLast : Framed frnd.unrefLast :=
  { framed with
    linked := rfl
    faulted := by
      change (frnd.faulted || frnd.last.isSome && frnd.linked) = false
      rw [framed.faulted, framed.linked, Bool.and_false, Bool.or_false] }

theorem Framed.clear : Framed frnd.clear :=
  { framed.unrefLast with
    segs := by
      intro seg member buf queued
      obtain ⟨_, _, rfl⟩ := mem_map.mp member
      cases queued
    messages := ⟨[], .nil, .nil⟩ }

theorem Framed.created {info : FriendPduInfo} {sdu : List Byte}
    {buf : FriendBuf} {taken : Frnd}
    (created : frnd.createPdu cfg env info sdu = some (buf, taken)) :
    Framed taken ∧ buf.frags = false := by
  obtain ⟨_, rfl, rfl⟩ := createPdu_spec created
  exact ⟨{ framed with }, rfl⟩

theorem Framed.append {after : Frnd} {message : List FriendBuf}
    (whole : Whole FriendBuf.frags message)
    (queue : after.queue = frnd.queue ++ message)
    (accepted : after.log.accepted = frnd.log.accepted ++ [message]) :
    ∃ messages, Data.Holds FriendBuf.frags messages after.queue ∧
      Unsent after.log.accepted messages := by
  obtain ⟨messages, holds, unsent⟩ := framed.messages
  refine ⟨messages ++ [message], ?_, ?_⟩
  · rw [queue]
    exact holds.append whole
  · rw [accepted]
    exact unsent.append message

theorem Framed.enqueueBuf (ends : buf.frags = false) :
    Framed (frnd.enqueueBuf buf) :=
  { framed with messages := framed.append (.last buf ends) rfl rfl }

theorem Framed.enqueueUpdate (md : Nat) :
    Framed (frnd.enqueueUpdate cfg env md) := by
  unfold Frnd.enqueueUpdate
  split
  · exact framed
  rename_i buf taken created
  obtain ⟨after, ends⟩ := framed.created created
  exact after.enqueueBuf ends

theorem Framed.sendNext (ctlOp : Nat) (sdu : List Byte) :
    Framed (frnd.sendNext env (frnd.encodeCtl cfg env ctlOp sdu)) := by
  unfold Frnd.sendNext
  split
  · exact framed
  rename_i buf taken created
  obtain ⟨after, _⟩ := framed.created created
  split
  · exact { after.unrefLast with }
  · exact { after with }

end

theorem prepareSpace_eq (addr : Nat) (seqAuth : Option Nat) (segCount : Nat) :
    (frnd.prepareSpace cfg addr seqAuth segCount).2 =
      { frnd with
        queue := (frnd.prepareSpace cfg addr seqAuth segCount).2.queue
        queueSize :=
          (frnd.prepareSpace cfg addr seqAuth segCount).2.queueSize } := by
  unfold Frnd.prepareSpace
  split <;> rfl

section

variable (framed : Framed frnd)
include framed

theorem Framed.prepareSpace (addr : Nat)
    (seqAuth : Option Nat) (segCount : Nat) :
    Framed (frnd.prepareSpace cfg addr seqAuth segCount).2 ∧
      (frnd.prepareSpace cfg addr seqAuth segCount).2.queue <:+ frnd.queue := by
  obtain ⟨messages, holds, unsent⟩ := framed.messages
  obtain ⟨count, queue⟩ := @prepareSpace_messages cfg frnd messages holds addr
    seqAuth segCount
  have kept := holds.sublist (drop_sublist count messages)
  rw [← queue] at kept
  constructor
  · rw [prepareSpace_eq]
    exact { framed with messages := ⟨_, kept, unsent.drop count⟩ }
  · refine ⟨(messages.take count).flatten, ?_⟩
    rw [queue, ← flatten_append, take_append_drop, holds.queue]

theorem Framed.purgeOldAck {seqAuth src : Nat}
    (acks : AcksAlone seqAuth src frnd) :
    Framed (frnd.purgeOldAck seqAuth src) := by
  unfold Frnd.purgeOldAck
  split
  · rename_i found
    obtain ⟨_, member, isAck⟩ := any_eq_true.mp found
    obtain ⟨buf, front, back, _, isSegack, queue, erased⟩ :=
      exists_of_eraseP member isAck
    obtain ⟨ends, before⟩ := acks front buf back queue isSegack
    obtain ⟨messages, holds, unsent⟩ := framed.messages
    rw [queue] at holds
    obtain ⟨pre, post, rfl, kept⟩ := holds.alone before ends
    refine { framed with messages := ⟨pre ++ post, ?_, unsent.remove⟩ }
    change Data.Holds _ _ (frnd.queue.eraseP (FriendBuf.isSegack seqAuth src))
    rw [erased]
    exact kept
  · exact framed

theorem segs_set_frags {slot : Nat} {seg : FrndSeg}
    (flagged : ∀ buf ∈ seg.queue, buf.frags = true) :
    ∀ other ∈ frnd.seg.set slot seg, ∀ buf ∈ other.queue, buf.frags = true := by
  intro other member
  rcases mem_or_eq_of_mem_set member with old | rfl
  · exact framed.segs other old
  · exact flagged

theorem Framed.enqueuePdu (type : FriendPduType)
    (src segCount : Nat) (ends : buf.frags = false) :
    Framed (frnd.enqueuePdu type src segCount buf) := by
  have flagged {slot : Nat} {seg : FrndSeg}
      (got : getSeg src buf.seqZero segCount frnd.seg = some (slot, seg)) :
      ∀ buf ∈ seg.queue, buf.frags = true := by
    obtain ⟨old, here, same, _⟩ := getSeg_spec got
    rw [← same]
    exact framed.segs old (mem_of_getElem? here)
  cases type with
  | single => exact framed.enqueueBuf ends
  | incomplete =>
    rw [enqueuePdu_incomplete]
    cases got : getSeg src buf.seqZero segCount frnd.seg with
    | none => exact framed
    | some context =>
      obtain ⟨slot, seg⟩ := context
      refine { framed with segs := segs_set_frags framed ?_ }
      intro other member
      rcases mem_append.mp member with old | new
      · exact flagged got other old
      · rw [mem_singleton.mp new]
  | complete =>
    rw [enqueuePdu_complete]
    cases got : getSeg src buf.seqZero segCount frnd.seg with
    | none => exact framed
    | some context =>
      obtain ⟨slot, seg⟩ := context
      refine { framed with
        segs := segs_set_frags framed fun other member => by cases member
        messages := ?_ }
      exact framed.append (.of_init ends (flagged got)) rfl rfl

theorem Framed.lpnEnqueue {offer : Offered}
    (acks : offer.sdu.type = .single → ∀ seqAuth, offer.sdu.seqAuth = some seqAuth →
        AcksAlone seqAuth offer.info.src frnd) :
    Framed (frnd.lpnEnqueue cfg offer.env offer.info offer.sdu) := by
  obtain ⟨purged, same, step⟩ :=
    @lpnEnqueue_cases cfg offer.env frnd offer.info offer.sdu
  have kept : Framed purged := by
    rcases same with rfl | ⟨seqAuth, type, auth, rfl⟩
    · exact framed
    · exact framed.purgeOldAck (acks type seqAuth auth)
  rw [step]
  split
  · exact kept
  rename_i buf taken created
  obtain ⟨after, ends⟩ := kept.created created
  exact after.enqueuePdu _ _ _ ends

end

theorem AcksAlone.suffix {seqAuth src : Nat} {after : Frnd}
    (acks : AcksAlone seqAuth src frnd) (fewer : after.queue <:+ frnd.queue) :
    AcksAlone seqAuth src after := by
  intro front buf back queue isSegack
  obtain ⟨removed, whole⟩ := fewer
  obtain ⟨ends, before⟩ := acks (removed ++ front) buf back
    (by rw [← whole, queue, append_assoc]) isSegack
  refine ⟨ends, fun last same => before last ?_⟩
  rw [getLast?_append, same]
  rfl

theorem prepareSpace_ready {addr : Nat} {seqAuth : Option Nat} {segCount : Nat}
    (ready : (frnd.prepareSpace cfg addr seqAuth segCount).1 = true) :
    frnd.hasSpace cfg addr seqAuth segCount = true := by
  unfold prepareSpace at ready
  split at ready
  · cases ready
  · rename_i space
    simpa using space

section

variable (framed : Framed frnd)
include framed

theorem Framed.deliver {offer : Offered}
    (acks : offer.own = false →
      frnd.hasSpace cfg offer.info.src offer.sdu.seqAuth offer.sdu.segCount = true →
      offer.sdu.type = .single → ∀ seqAuth, offer.sdu.seqAuth = some seqAuth →
        AcksAlone seqAuth offer.info.src frnd) :
    Framed (frnd.deliver cfg offer) := by
  obtain ⟨prepared, fewer⟩ := @Framed.prepareSpace cfg frnd framed
    offer.info.src offer.sdu.seqAuth offer.sdu.segCount
  have space := @prepareSpace_ready cfg frnd offer.info.src offer.sdu.seqAuth
    offer.sdu.segCount
  unfold Frnd.deliver
  rcases result : frnd.prepareSpace cfg offer.info.src offer.sdu.seqAuth
    offer.sdu.segCount with ⟨ready, evicted⟩
  rw [result] at prepared fewer space
  cases ready with
  | false => exact prepared
  | true =>
    cases own : offer.own with
    | true => exact prepared
    | false =>
      exact prepared.lpnEnqueue fun type seqAuth auth =>
        (acks own (space rfl) type seqAuth auth).suffix fewer

theorem Framed.sendBuf : Framed (frnd.sendBuf env) := by
  unfold Frnd.sendBuf
  split
  · exact { framed with }
  · exact framed

theorem Framed.pop {rest : List FriendBuf} (queue : frnd.queue = buf :: rest) :
    Framed { frnd.dropLast with queue := rest } := by
  obtain ⟨messages, holds, unsent⟩ := framed.messages
  rw [queue] at holds
  obtain ⟨message, others, rfl, behind⟩ := holds.head
  have whole := holds.whole _ mem_cons_self
  have later := fun other member =>
    holds.whole other (mem_cons_of_mem _ member)
  refine { framed with linked := rfl, messages := ?_ }
  change ∃ messages, Data.Holds _ messages rest ∧ Unsent frnd.log.accepted messages
  cases message with
  | nil => exact ⟨others, ⟨later, behind⟩, .of_sublist unsent.others⟩
  | cons next message =>
    refine ⟨(next :: message) :: others, ⟨?_, behind⟩, unsent.pop⟩
    intro other member
    rcases mem_cons.mp member with rfl | member
    · exact (whole.tail (cons_ne_nil next message)).2
    · exact later other member

theorem Framed.sendQueued {rest : List FriendBuf}
    (queue : frnd.queue = buf :: rest) (encrypted : rest = [] ∨
      (env.encrypt (updateOverwrite (!rest.isEmpty) buf.data)).1 = true) :
    Framed (frnd.sendQueued env buf rest) := by
  have popped := framed.pop queue
  unfold Frnd.sendQueued
  dsimp only
  split
  · exact Framed.sendBuf { popped with }
  rename_i failed
  have last : rest = [] := encrypted.resolve_right failed
  subst last
  exact { popped with linked := rfl }

end

section

variable (framed : Framed frnd)
include framed

theorem Framed.timeout (keeps : KeepsMessages cfg frnd (.timeout env)) :
    Framed (frnd.timeout env) := by
  rw [timeout_eq]
  cases polled : frnd.polled with
  | some pair =>
    obtain ⟨buf, rest⟩ := pair
    exact framed.sendQueued (polled_queue polled) (keeps buf rest polled)
  | none =>
    dsimp only
    split
    · exact framed
    split
    · exact Framed.sendBuf { framed with }
    split
    · exact framed.clear
    · have dropped : Framed frnd.dropLast := { framed with linked := rfl }
      exact dropped.clear

theorem Framed.poll (netIdx src : Nat) (buf : List Byte) :
    Framed (frnd.poll cfg env netIdx src buf) := by
  unfold Frnd.poll
  split
  · exact framed
  split
  · exact framed
  split
  · exact framed
  split
  · exact framed
  dsimp only
  split
  · exact { framed with }
  rename_i fsn _ _ _ _ _
  have next : Framed
      { ({ frnd with pendingReq := true, established := true } :
          Frnd).unrefLast with fsn := decide (fsn.toNat = 1) } :=
    { framed.unrefLast with }
  split
  · exact next.enqueueUpdate 0
  · exact next

theorem Framed.sub (op : SubOp) (netIdx src : Nat) (buf : List Byte) :
    Framed (frnd.sub cfg env op netIdx src buf) := by
  unfold Frnd.sub
  split
  · rename_i xact high low rest
    split
    · exact framed
    split
    · exact framed
    have requested : Framed
        { frnd with
          pendingReq := true
          subList := (pullAddrs (high :: low :: rest)).foldl (subChange op)
            frnd.subList
          log := { frnd.log with
            subOps := frnd.log.subOps ++
              (pullAddrs (high :: low :: rest)).map fun addr =>
                (op, addr) } } := { framed with }
    exact requested.sendNext 0x09 [xact]
  · exact framed

theorem Framed.request (netIdx addr numElem : Nat) (credErr : Bool)
    (offer : List Byte) :
    Framed (frnd.request cfg env netIdx addr numElem credErr offer) := by
  have cleared : Framed (if frnd.netIdx.isSome then frnd.clear else frnd) := by
    split
    · exact framed.clear
    · exact framed
  unfold Frnd.request
  dsimp only
  generalize (if frnd.netIdx.isSome then frnd.clear else frnd) = before at cleared ⊢
  have opened : Framed
      { before with lpn := addr, numElem := numElem, netIdx := some netIdx } :=
    { cleared with }
  split
  · exact opened.clear
  · exact opened.sendNext 0x04 offer

theorem Framed.secUpdate (netIdx : Option Nat) :
    Framed (frnd.secUpdate cfg env netIdx) := by
  unfold Frnd.secUpdate
  split
  · exact framed
  split
  · exact framed.enqueueUpdate 0
  · exact framed

theorem Framed.subnetEvt (netIdx : Nat) (evt : KeyEvt) (credErr : Bool) :
    Framed (frnd.subnetEvt cfg env netIdx evt credErr) := by
  unfold Frnd.subnetEvt
  split
  · exact framed
  · cases evt with
    | added => exact framed
    | deleted => exact framed.clear
    | updated =>
      dsimp only
      split
      · exact framed.clear
      · exact framed
    | swapped => exact framed.enqueueUpdate 0
    | revoked => exact framed.enqueueUpdate 0

theorem Framed.clearIncomplete (netIdx src dst seqAuth : Nat) :
    Framed (frnd.clearIncomplete netIdx src dst seqAuth) := by
  unfold Frnd.clearIncomplete
  split
  · exact framed
  split
  · exact framed
  · exact { framed with
      segs := segs_set_frags framed fun buf member => by cases member }

theorem Framed.bufSendStart : Framed frnd.bufSendStart := by
  have started : Framed { frnd with pendingBuf := false } := { framed with }
  unfold Frnd.bufSendStart
  dsimp only
  split
  · exact started.unrefLast
  · exact started

end

theorem Framed.step {input : FrndInput} (framed : Framed frnd)
    (keeps : KeepsMessages cfg frnd input) :
    Framed (frndStep cfg frnd input) := by
  cases input with
  | enqueueRx env rx netIdx recvTtl sdu =>
    change Framed (frnd.enqueueRx cfg env rx netIdx recvTtl sdu)
    rw [enqueueRx_eq]
    cases offered : (FrndInput.enqueueRx env rx netIdx recvTtl sdu).offered frnd with
    | none => exact framed
    | some offer => exact framed.deliver (keeps offer offered)
  | enqueueTx env tx sdu =>
    change Framed (frnd.enqueueTx cfg env tx sdu)
    rw [enqueueTx_eq]
    cases offered : (FrndInput.enqueueTx env tx sdu).offered frnd with
    | none => exact framed
    | some offer => exact framed.deliver (keeps offer offered)
  | clearIncomplete netIdx src dst seqAuth =>
    exact framed.clearIncomplete netIdx src dst seqAuth
  | poll env netIdx src buf => exact framed.poll netIdx src buf
  | sub env op netIdx src buf => exact framed.sub op netIdx src buf
  | request env netIdx addr numElem credErr offer =>
    exact framed.request netIdx addr numElem credErr offer
  | timeout => exact framed.timeout keeps
  | bufSendStart => exact framed.bufSendStart
  | secUpdate env netIdx => exact framed.secUpdate netIdx
  | subnetEvt env netIdx evt credErr => exact framed.subnetEvt netIdx evt credErr
  | clear => exact framed.clear

theorem boot_framed (cfg : FriendConfig) : Framed (.boot cfg) where
  segs seg member buf queued := by
    rw [eq_of_mem_replicate member] at queued
    cases queued
  linked := rfl
  faulted := rfl
  messages := ⟨[], .nil, .nil⟩

end Frnd

/-- The queue consists of whole messages in every run in which only messages are
purged and no PDU that others follow fails to be encrypted. -/
theorem friendQueue_wholeMessages (cfg : FriendConfig) (inputs : List FrndInput)
    (along : (frndMachine cfg).Along (KeepsMessages cfg) (.boot cfg) inputs) :
    (frndMachine cfg).Always (Frnd.WholeMessages cfg) (.boot cfg) inputs :=
  (@Machine.always_of_along _ _ _ (frndMachine cfg) (KeepsMessages cfg)
    Frnd.Framed (fun _ _ framed keeps => framed.step keeps) _ _
    (Frnd.boot_framed cfg) along).mono fun _ framed => framed.wholeMessages

theorem friendQueue_wholeMessages_polledMessage :
    (frndMachine friendTestConfig).Always
      (Frnd.WholeMessages friendTestConfig) (.boot friendTestConfig)
      polledMessage := by
  refine friendQueue_wholeMessages friendTestConfig polledMessage
    ⟨trivial, fun _ _ _ => .inr rfl, trivial, trivial, fun _ _ _ => .inr rfl,
      trivial, ?_, trivial, fun _ _ _ => .inr rfl, trivial, trivial⟩
  intro offer offered _ _ _ seqAuth auth
  cases offered
  cases auth

/-! A control message of two segments whose opcode is that of acknowledgements,
and an acknowledgement with the same sequence number. -/

theorem peerAddr_unicast : addrIsUnicast 0x0020 = true := by decide

def peerRx : NetRx where
  netIf := .adv
  sub := 0
  addr := 0x0020
  recvDst := 0x0010
  sendTtl := 5
  seq := 1
  oldIv := false
  ctl := true
  localMatch := false
  friendMatch := true
  addr_unicast := peerAddr_unicast
  seq_lt := firstSeq_lt

def ctlSdu (type : FriendPduType) (sbuf : List Byte) : FriendSdu where
  type := type
  segN := ⟨1, one_lt_segments⟩
  seqAuth := some 7
  sbuf := sbuf

def ackOfSegments : List FrndInput :=
  newFriendship ++ [.enqueueRx plainEnv peerRx 0 5 (ctlSdu .incomplete
        [0x80, 0x00, 0x1c, 0x01, 1, 2, 3, 4, 5, 6, 7, 8]),
      .enqueueRx plainEnv peerRx 0 5 (ctlSdu .complete
        [0x80, 0x00, 0x1c, 0x21, 9, 10, 11]),
      .enqueueRx plainEnv peerRx 0 5 (ctlSdu .single [0x00, 0x00, 0x1c, 0, 0, 0, 1])]

theorem Frnd.WholeMessages.pair {cfg : FriendConfig} {frnd : Frnd}
    {first second : FriendBuf} (whole : frnd.WholeMessages cfg)
    (queue : frnd.queue = [first, second]) (follows : first.frags = true) :
    ∃ message ∈ frnd.log.accepted, [first, second] <:+ message := by
  obtain ⟨_, _, holds, unsent, _⟩ := whole
  rw [queue] at holds
  obtain ⟨message, _, rfl, behind⟩ := holds.head
  cases message with
  | nil =>
    have ends := (holds.whole _ mem_cons_self).of_singleton
    rw [follows] at ends
    cases ends
  | cons =>
    rw [cons_append, cons.injEq] at behind
    obtain ⟨rfl, nothing⟩ := behind
    obtain ⟨rfl, _⟩ := append_eq_nil_iff.mp nothing.symm
    obtain ⟨sent, fewer⟩ := unsent _ _ rfl
    exact ⟨_, fewer.mem mem_cons_self, sent, rfl⟩

theorem ackOfSegments_wholeMessages : ¬ (frndMachine friendTestConfig).Always
      (Frnd.WholeMessages friendTestConfig) (.boot friendTestConfig)
      ackOfSegments := by
  intro always
  have whole := always.last
  have accepted := whole.pair rfl rfl
  exact absurd accepted (by decide)

end ZephyrBluetooth.Mesh
