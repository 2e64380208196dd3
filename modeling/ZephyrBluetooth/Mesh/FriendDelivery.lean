import ZephyrBluetooth.Mesh.FriendPoll

namespace ZephyrBluetooth.Mesh

open Data List Option

variable {sent : LpnLink × Option LpnRequest} {order : List QueuePdu}
  {pdu : FriendResponse} {state : Friendship}

structure Speaks (sent : LpnLink × Option LpnRequest) : Prop where
  onAir : sent.2.isSome = true → sent.1.state = .recvDelay
  poll : ∀ fsn, sent.2 = some (.poll fsn) →
    fsn = sent.1.fsn ∧ sent.1.sentReq = some .poll

/-- What the Low Power node can do without hearing from its Friend: it repeats its
poll until it is answered, and other requests never overtake a poll. -/
structure Asks (before : LpnLink) (sent : LpnLink × Option LpnRequest) : Prop
    extends Speaks sent where
  fsn : sent.1.fsn = before.fsn
  received : sent.1.received = before.received
  waits : before.sentReq = some .poll → sent.1.sentReq = some .poll
  sub : ∀ op xact, sent.2 = some (.sub op xact) → before.sentReq ≠ some .poll

section LowPowerNode

variable {lpn : LpnLink}

theorem Asks.silent {after : LpnLink} (fsn : after.fsn = lpn.fsn)
    (received : after.received = lpn.received) (sentReq : after.sentReq = lpn.sentReq) :
    Asks lpn (after, none) where
  onAir := Bool.noConfusion
  poll := by
    intro _ impossible
    cases impossible
  fsn := fsn
  received := received
  waits := by
    intro waiting
    exact sentReq.trans waiting
  sub := by
    intro _ _ impossible
    cases impossible

theorem asks_sendFriendPoll (lpn : LpnLink) : Asks lpn lpn.sendFriendPoll := by
  unfold LpnLink.sendFriendPoll
  cases req : lpn.sentReq with
  | some sentReq =>
    cases sentReq with
    | poll => exact .silent rfl rfl rfl
    | sub => exact .silent rfl rfl req.symm
  | none =>
    refine ⟨⟨fun _ => rfl, ?_⟩, rfl, rfl, fun _ => rfl, ?_⟩
    · intro fsn asked
      cases asked
      exact ⟨rfl, rfl⟩
    · intro _ _ impossible
      cases impossible

theorem asks_subUpdate (op : SubOp) (lpn : LpnLink) : Asks lpn (lpn.subUpdate op) := by
  unfold LpnLink.subUpdate
  split
  · exact .silent rfl rfl rfl
  next idle =>
    have free : lpn.sentReq ≠ some .poll := by
      intro waiting
      exact idle (by rw [waiting]; rfl)
    dsimp only
    split
    · exact .silent rfl rfl rfl
    refine ⟨⟨fun _ => rfl, ?_⟩, rfl, rfl, fun waiting => absurd waiting free,
      fun _ _ _ => free⟩
    intro _ impossible
    cases impossible

theorem Asks.then {middle last : LpnLink × Option LpnRequest} (first : Asks lpn middle)
    (second : Asks middle.1 last)
    (onAir : middle.1.state = .recvDelay → last.1.state = .recvDelay) :
    Asks lpn (last.1, middle.2 <|> last.2) := by
  refine ⟨⟨?_, ?_⟩, second.fsn.trans first.fsn, second.received.trans first.received,
    ?_, ?_⟩
  · intro asked
    cases request : middle.2 with
    | none =>
      rw [request] at asked
      exact second.onAir asked
    | some => exact onAir (first.onAir (by rw [request]; rfl))
  · intro fsn asked
    cases request : middle.2 with
    | none =>
      rw [request] at asked
      exact second.poll fsn asked
    | some =>
      rw [request] at asked
      obtain ⟨same, waiting⟩ := first.poll fsn (request.trans asked)
      exact ⟨same.trans second.fsn.symm, second.waits waiting⟩
  · intro waiting
    exact second.waits (first.waits waiting)
  · intro op xact asked waiting
    cases request : middle.2 with
    | none =>
      rw [request] at asked
      exact second.sub op xact asked (first.waits waiting)
    | some =>
      rw [request] at asked
      exact first.sub op xact (request.trans asked) waiting

theorem sendFriendPoll_state (waiting : lpn.state = .recvDelay) :
    lpn.sendFriendPoll.1.state = .recvDelay := by
  unfold LpnLink.sendFriendPoll
  split
  · exact waiting
  · exact waiting
  · rfl

theorem subUpdate_state (op : SubOp) (waiting : lpn.state = .recvDelay) :
    (lpn.subUpdate op).1.state = .recvDelay := by
  unfold LpnLink.subUpdate
  split
  · exact waiting
  dsimp only
  split
  · exact waiting
  · rfl

theorem asks_subChanges (lpn : LpnLink) : Asks lpn lpn.subChanges := by
  unfold LpnLink.subChanges
  split
  · have both := (asks_subUpdate .add lpn).then (asks_subUpdate .rem _)
      (subUpdate_state .rem)
    exact ⟨⟨both.onAir, both.poll⟩, both.fsn, both.received, both.waits, both.sub⟩
  · exact .silent rfl rfl rfl

theorem asks_polling (polls : Bool) (lpn : LpnLink) :
    Asks lpn (let (changed, subReq) := lpn.subChanges
       if polls then
         let (polled, pollReq) := changed.sendFriendPoll
         (polled, subReq <|> pollReq)
       else
         (changed, subReq)) := by
  cases polls with
  | false => exact asks_subChanges lpn
  | true =>
    exact (asks_subChanges lpn).then (asks_sendFriendPoll _) sendFriendPoll_state

theorem asks_timeout (attempts : Nat) (lpn : LpnLink) :
    Asks lpn (lpn.timeout attempts) := by
  unfold LpnLink.timeout
  split
  · split
    · cases req : lpn.sentReq with
      | none =>
        have polled := asks_sendFriendPoll { lpn with sentReq := none }
        refine ⟨polled.toSpeaks, polled.fsn, polled.received, fun waiting => ?_, ?_⟩
        · rw [req] at waiting
          cases waiting
        · intro op xact _ waiting
          rw [req] at waiting
          cases waiting
      | some sentReq =>
        cases sentReq with
        | sub op =>
          have updated := asks_subUpdate op { lpn with sentReq := none }
          refine ⟨updated.toSpeaks, updated.fsn, updated.received,
            fun waiting => ?_, ?_⟩
          · rw [req] at waiting
            cases waiting
          · intro _ _ _ waiting
            rw [req] at waiting
            cases waiting
        | poll =>
          have polled := asks_sendFriendPoll { lpn with sentReq := none }
          refine ⟨polled.toSpeaks, polled.fsn, polled.received, fun _ => rfl, ?_⟩
          intro _ _ impossible
          cases impossible
    · exact .silent rfl rfl rfl
  · exact .silent rfl rfl rfl
  · exact .silent rfl rfl rfl
  · exact .silent rfl rfl rfl

theorem groupAdd_link (addr : Nat) (lpn : LpnLink) :
    (lpn.groupAdd addr).fsn = lpn.fsn ∧ (lpn.groupAdd addr).received = lpn.received ∧
      (lpn.groupAdd addr).sentReq = lpn.sentReq := by
  unfold LpnLink.groupAdd
  split
  · exact ⟨rfl, rfl, rfl⟩
  split
  · exact ⟨rfl, rfl, rfl⟩
  · exact ⟨rfl, rfl, rfl⟩

theorem Asks.of_groups {changed : LpnLink} (fsn : changed.fsn = lpn.fsn)
    (received : changed.received = lpn.received)
    (sentReq : changed.sentReq = lpn.sentReq) (asks : Asks changed sent) :
    Asks lpn sent where
  toSpeaks := asks.toSpeaks
  fsn := asks.fsn.trans fsn
  received := asks.received.trans received
  waits := fun waiting => asks.waits (sentReq.trans waiting)
  sub := fun op xact asked waiting => asks.sub op xact asked (sentReq.trans waiting)

theorem asks_lpnGroupAdd (addr : Nat) (lpn : LpnLink) :
    Asks lpn (lpn.lpnGroupAdd addr) := by
  obtain ⟨fsn, received, sentReq⟩ := groupAdd_link addr lpn
  apply Asks.of_groups fsn received sentReq
  unfold LpnLink.lpnGroupAdd
  dsimp only
  split
  · exact .silent rfl rfl rfl
  · exact asks_subUpdate .add _

theorem asks_lpnGroupDel (addrs : List Nat) (lpn : LpnLink) :
    Asks lpn (lpn.lpnGroupDel addrs) := by
  have link : ∀ (addrs : List Nat) (lpn : LpnLink),
      let removed := addrs.foldl
        (fun lpn addr => if addr = addrUnassigned then lpn else lpn.groupDel addr) lpn
      removed.fsn = lpn.fsn ∧ removed.received = lpn.received ∧
        removed.sentReq = lpn.sentReq := by
    intro addrs
    induction addrs with
    | nil => exact fun _ => ⟨rfl, rfl, rfl⟩
    | cons addr rest ih =>
      intro lpn
      obtain ⟨fsn, received, sentReq⟩ :=
        ih (if addr = addrUnassigned then lpn else lpn.groupDel addr)
      refine ⟨fsn.trans ?_, received.trans ?_, sentReq.trans ?_⟩ <;> split <;> rfl
  obtain ⟨fsn, received, sentReq⟩ := link addrs lpn
  apply Asks.of_groups fsn received sentReq
  unfold LpnLink.lpnGroupDel
  dsimp only
  split
  · exact .silent rfl rfl rfl
  · exact asks_subUpdate .rem _

def LpnLink.noted (lpn : LpnLink) : FriendResponse → List QueuePdu
  | .queued entry _ =>
    if entry ∈ lpn.received then lpn.received else lpn.received ++ [entry]
  | .subCfm _ => lpn.received

theorem friendUpdate_speaks (md oldKey : Bool) (lpn : LpnLink) :
    Speaks (lpn.friendUpdate md oldKey) ∧
      (lpn.friendUpdate md oldKey).1.received = lpn.received := by
  have quiet : Asks lpn (lpn, none) := .silent rfl rfl rfl
  unfold LpnLink.friendUpdate
  split
  · exact ⟨quiet.toSpeaks, quiet.received⟩
  split
  · exact ⟨quiet.toSpeaks, quiet.received⟩
  · have asks := asks_polling md lpn.friendResponseReceived
    exact ⟨asks.toSpeaks, asks.received⟩

theorem friendSubCfm_speaks (xact : BitVec 8) (lpn : LpnLink) :
    Speaks (lpn.friendSubCfm xact) ∧
      (lpn.friendSubCfm xact).1.received = lpn.received := by
  have quiet : Asks lpn (lpn, none) := .silent rfl rfl rfl
  unfold LpnLink.friendSubCfm
  split
  · exact ⟨quiet.toSpeaks, quiet.received⟩
  split
  · exact ⟨quiet.toSpeaks, quiet.received⟩
  · exact ⟨quiet.toSpeaks, quiet.received⟩
  next op _ =>
    have asks := asks_polling
      (LpnLink.friendResponseReceived
        { lpn with groups := LpnLink.confirmGroups op lpn.groups }).subChanges.1.pendingPoll
      (LpnLink.friendResponseReceived
        { lpn with groups := LpnLink.confirmGroups op lpn.groups })
    exact ⟨asks.toSpeaks, asks.received⟩

theorem Speaks.msgReceived (speaks : Speaks sent) :
    Speaks (sent.1.msgReceived.1, sent.2 <|> sent.1.msgReceived.2) ∧
      sent.1.msgReceived.1.received = sent.1.received := by
  have asks := asks_sendFriendPoll sent.1.friendResponseReceived
  cases request : sent.2 with
  | some asked =>
    have elsewhere : sent.1.state ≠ .waitUpdate := by
      rw [speaks.onAir (by rw [request]; rfl)]
      exact LpnState.noConfusion
    have kept : sent.1.msgReceived = (sent.1, none) := by
      unfold LpnLink.msgReceived
      rw [if_pos elsewhere]
    rw [kept]
    have same : sent = (sent.1, some asked) := by rw [← request]
    rw [same] at speaks
    exact ⟨⟨speaks.onAir, speaks.poll⟩, rfl⟩
  | none =>
    unfold LpnLink.msgReceived
    split
    · exact ⟨⟨Bool.noConfusion, fun _ impossible => by cases impossible⟩, rfl⟩
    split
    · exact ⟨⟨Bool.noConfusion, fun _ impossible => by cases impossible⟩, rfl⟩
    · exact ⟨⟨asks.onAir, asks.poll⟩, asks.received⟩

theorem receive_speaks (pdu : FriendResponse) (oldKey : Bool)
    (listening : lpn.state = .waitUpdate) : Speaks (lpn.receive pdu oldKey) ∧
      (lpn.receive pdu oldKey).1.received = lpn.noted pdu := by
  unfold LpnLink.receive
  rw [if_neg (not_not_intro listening)]
  cases pdu with
  | subCfm xact =>
    obtain ⟨handled, received⟩ := friendSubCfm_speaks xact lpn
    obtain ⟨speaks, kept⟩ := handled.msgReceived
    exact ⟨speaks, kept.trans received⟩
  | queued entry md =>
    have noted : (if entry ∈ lpn.received then lpn
        else { lpn with received := lpn.received ++ [entry] }).received =
        lpn.noted (.queued entry md) := by
      unfold LpnLink.noted
      dsimp only
      split
      · rfl
      · rfl
    dsimp only
    split
    · obtain ⟨handled, received⟩ := friendUpdate_speaks md oldKey
        (if entry ∈ lpn.received then lpn
          else { lpn with received := lpn.received ++ [entry] })
      obtain ⟨speaks, kept⟩ := handled.msgReceived
      exact ⟨speaks, (kept.trans received).trans noted⟩
    · have quiet : Speaks
          ((if entry ∈ lpn.received then lpn
            else { lpn with received := lpn.received ++ [entry] }), none) :=
        ⟨Bool.noConfusion, fun _ impossible => by cases impossible⟩
      obtain ⟨speaks, kept⟩ := quiet.msgReceived
      exact ⟨speaks, kept.trans noted⟩

end LowPowerNode

def Numbered (order : List QueuePdu) : Prop :=
  ∀ (place : Nat) (pdu : QueuePdu), order[place]? = some pdu → pdu.number = place

/-- All that was taken from the queue is received, but for a last entry that the
Low Power node still polls for with the sequence number of the Friend. -/
def Caught (taken : List QueuePdu) (frnd : FriendQueue) (lpn : LpnLink) : Prop :=
  lpn.received = taken ∨
    ∃ (pdu : QueuePdu) (md : Bool), taken = lpn.received ++ [pdu] ∧
      frnd.last = some (.queued pdu md) ∧ frnd.fsn = lpn.fsn ∧ lpn.sentReq = some .poll

structure Delivers (taken : List QueuePdu) (frnd : FriendQueue) (lpn : LpnLink) :
    Prop where
  established : frnd.established = true
  order : frnd.order = taken ++ frnd.queue
  numbered : Numbered frnd.order
  caught : Caught taken frnd lpn
  last : ∀ pdu md, frnd.last = some (.queued pdu md) → pdu ∈ taken
  adv : ∀ pdu, frnd.adv = some pdu → frnd.last = some pdu ∧ frnd.pendingReq = false
  pending : frnd.pendingReq = true → frnd.sendLast = true ∧ frnd.last.isSome = true ∨
      frnd.last = none ∧ frnd.fsn = lpn.fsn ∧ lpn.sentReq = some .poll
  discarded : ∀ pdu md, .queued pdu md ∈ frnd.discarded → pdu ∈ lpn.received

/-- The friendship is over, and nothing of it was lost. -/
structure Ended (frnd : FriendQueue) (lpn : LpnLink) : Prop where
  ended : frnd.established = false
  silent : frnd.adv = none
  numbered : Numbered frnd.order
  received : lpn.received <+: frnd.order
  discarded : ∀ pdu md, .queued pdu md ∈ frnd.discarded → pdu ∈ lpn.received

def FriendshipOk (state : Friendship) : Prop :=
  (∃ taken, Delivers taken state.frnd state.lpn) ∨ Ended state.frnd state.lpn

/-- The Low Power node takes nothing else for the response to its poll, and has
received the last PDU when `friend_timeout` gives the friendship up. -/
def KeepsDelivery (state : Friendship) : FriendshipInput → Prop
  | .otherMsg _ => state.lpn.state = .waitUpdate → state.lpn.sentReq ≠ some .poll
  | .friendTimeout => state.frnd.adv = none → state.frnd.pendingReq = false →
    state.frnd.sendLast = false → ∀ pdu md,
      state.frnd.last = some (.queued pdu md) → pdu ∈ state.lpn.received
  | _ => True

section Steps

variable {taken : List QueuePdu} {frnd : FriendQueue} {lpn : LpnLink}

theorem Numbered.push (numbered : Numbered order) (update : Bool) :
    Numbered (order ++ [⟨order.length, update⟩]) := by
  intro place pdu found
  rcases Nat.lt_trichotomy place order.length with before | here | _
  · rw [getElem?_append_left before] at found
    exact numbered place pdu found
  · rw [here, getElem?_concat_length] at found
    cases found
    exact here.symm
  · rw [getElem?_eq_none (by simp; omega)] at found
    cases found

theorem Caught.prefix_taken (caught : Caught taken frnd lpn) :
    lpn.received <+: taken := by
  rcases caught with all | ⟨_, _, rest, _⟩
  · exact all ▸ prefix_rfl
  · exact rest ▸ prefix_append _ _

section

variable (delivers : Delivers taken frnd lpn)
include delivers

theorem Delivers.prefix_order : lpn.received <+: frnd.order := by
  rw [delivers.order]
  exact delivers.caught.prefix_taken.trans (prefix_append _ _)

theorem Delivers.enqueue (update : Bool) :
    Delivers taken (frnd.enqueue update) lpn where
  established := delivers.established
  order := by
    show frnd.order ++ _ = taken ++ (frnd.queue ++ _)
    rw [delivers.order, append_assoc]
  numbered := delivers.numbered.push update
  caught := delivers.caught
  last := delivers.last
  adv := delivers.adv
  pending := delivers.pending
  discarded := delivers.discarded

theorem Delivers.asks (asks : Asks lpn sent) :
    Delivers taken frnd sent.1 where
  established := delivers.established
  order := delivers.order
  numbered := delivers.numbered
  caught := by
    rcases delivers.caught with all | ⟨pdu, md, rest, last, fsn, waiting⟩
    · exact .inl (asks.received.trans all)
    refine .inr ⟨pdu, md, ?_, last, fsn.trans asks.fsn.symm, asks.waits waiting⟩
    rw [asks.received]
    exact rest
  last := delivers.last
  adv := delivers.adv
  pending := by
    intro pending
    rcases delivers.pending pending with again | ⟨empty, fsn, waiting⟩
    · exact .inl again
    · exact .inr ⟨empty, fsn.trans asks.fsn.symm, asks.waits waiting⟩
  discarded := by
    rw [asks.received]
    exact delivers.discarded

end

section

variable (delivers : Delivers taken frnd lpn)
include delivers

theorem Delivers.discards (all : lpn.received = taken) :
    ∀ pdu md, .queued pdu md ∈ frnd.discarded ++ frnd.last.toList →
      pdu ∈ lpn.received := by
  intro pdu md member
  rcases mem_append.mp member with before | now
  · exact delivers.discarded pdu md before
  · rw [all]
    exact delivers.last pdu md (mem_toList.mp now)

theorem Delivers.poll (waiting : lpn.sentReq = some .poll) :
    Delivers taken (frnd.poll lpn.fsn) lpn := by
  unfold FriendQueue.poll
  split
  · exact delivers
  next ready =>
    have idle : frnd.adv = none := by
      cases adv : frnd.adv with
      | none => rfl
      | some => exact absurd (.inr (by rw [adv]; rfl)) ready
    have quiet : ∀ pdu, frnd.adv = some pdu →
        frnd.last = some pdu ∧ true = false := by
      intro pdu adv
      rw [idle] at adv
      cases adv
    dsimp only
    split
    next again =>
      exact ⟨delivers.established, delivers.order, delivers.numbered, delivers.caught,
        delivers.last, quiet, fun _ => .inl ⟨rfl, again.2⟩, delivers.discarded⟩
    next moves =>
      have all : lpn.received = taken := by
        rcases delivers.caught with all | ⟨pdu, md, _, last, fsn, _⟩
        · exact all
        · exact absurd ⟨fsn.symm, by rw [last]; rfl⟩ moves
      have next : Delivers taken
          { { frnd with pendingReq := true }.discardLast with fsn := lpn.fsn } lpn := by
        refine ⟨delivers.established, delivers.order, delivers.numbered, .inl all, ?_, ?_,
          fun _ => .inr ⟨rfl, rfl, waiting⟩, delivers.discards all⟩
        · intro pdu md last
          cases last
        · intro pdu adv
          obtain ⟨_, impossible⟩ := quiet pdu adv
          cases impossible
      split
      · exact next.enqueue true
      · exact next

theorem Delivers.sub (all : lpn.received = taken) (xact : BitVec 8) :
    Delivers taken (frnd.sub xact) lpn := by
  unfold FriendQueue.sub
  split
  · exact delivers
  next ready =>
    refine ⟨delivers.established, delivers.order, delivers.numbered, .inl all, ?_, ?_,
      fun _ => .inl ⟨rfl, rfl⟩, delivers.discards all⟩
    · intro pdu md last
      cases last
    · intro pdu adv
      have some : frnd.adv = some pdu := adv
      exact absurd (.inr (by rw [some]; rfl)) ready

theorem Delivers.take {pdu : QueuePdu} {rest : List QueuePdu} {md : Bool}
    (queue : frnd.queue = pdu :: rest) (empty : frnd.last = none)
    (fsn : frnd.fsn = lpn.fsn) (waiting : lpn.sentReq = some .poll) :
    Delivers (taken ++ [pdu])
      { frnd with
        queue := rest
        last := some (.queued pdu md)
        discarded := frnd.discarded ++ frnd.last.toList
        pendingReq := false
        adv := some (.queued pdu md) } lpn := by
  have all : lpn.received = taken := by
    rcases delivers.caught with all | ⟨_, _, _, last, _⟩
    · exact all
    · rw [empty] at last
      cases last
  refine ⟨delivers.established, ?_, delivers.numbered, ?_, ?_, ?_, Bool.noConfusion,
    delivers.discards all⟩
  · show frnd.order = taken ++ [pdu] ++ rest
    rw [delivers.order, queue, append_assoc]
    rfl
  · exact .inr ⟨pdu, md, by rw [all], rfl, fsn, waiting⟩
  · intro entry flag last
    cases last
    exact mem_append_right taken (mem_singleton.mpr rfl)
  · intro entry adv
    exact ⟨adv, rfl⟩

theorem Delivers.cleared
    (heard : ∀ pdu md, frnd.last = some (.queued pdu md) → pdu ∈ lpn.received) :
    FriendshipOk ⟨frnd.clear, lpn⟩ := by
  refine .inr ⟨rfl, rfl, delivers.numbered, delivers.prefix_order, ?_⟩
  intro pdu md member
  rcases mem_append.mp member with before | now
  · exact delivers.discarded pdu md before
  · exact heard pdu md (mem_toList.mp now)

theorem Delivers.timeout (keeps : KeepsDelivery ⟨frnd, lpn⟩ .friendTimeout) :
    FriendshipOk ⟨frnd.timeout, lpn⟩ := by
  unfold FriendQueue.timeout
  split
  · exact .inl ⟨taken, delivers⟩
  next ready =>
  have quiet : frnd.adv = none := by
    rw [not_or, Bool.not_eq_true, isSome_eq_false_iff, isNone_iff_eq_none] at ready
    exact ready.2
  split
  next again =>
    exact .inl ⟨taken, delivers.established, delivers.order, delivers.numbered,
      delivers.caught, delivers.last, fun pdu adv => ⟨adv, rfl⟩, Bool.noConfusion,
      delivers.discarded⟩
  next fresh =>
    split
    next idle =>
      refine delivers.cleared fun pdu md last => keeps quiet idle ?_ pdu md last
      have some : frnd.last.isSome = true := by rw [last]; rfl
      exact Bool.not_eq_true _ ▸ fun again => fresh ⟨again, some⟩
    next requested =>
      have pending : frnd.pendingReq = true := by simpa using requested
      obtain ⟨empty, fsn, waiting⟩ := (delivers.pending pending).resolve_left fresh
      split
      · refine delivers.cleared fun pdu md last => ?_
        rw [empty] at last
        cases last
      next pdu rest queue =>
        exact .inl ⟨taken ++ [pdu], delivers.take queue empty fsn waiting⟩

end

theorem Numbered.fresh {received rest : List QueuePdu} {pdu : QueuePdu}
    (numbered : Numbered order) (split : order = received ++ [pdu] ++ rest) :
    pdu ∉ received := by
  intro member
  obtain ⟨place, bound, here⟩ := getElem_of_mem member
  have first : order[place]? = some pdu := by
    rw [split, append_assoc, getElem?_append_left bound,
      getElem?_eq_getElem bound, here]
  have second : order[received.length]? = some pdu := by
    rw [split, append_assoc, getElem?_append_right (Nat.le_refl _)]
    simp
  have same := numbered place pdu first
  have later := numbered received.length pdu second
  omega

section

variable (delivers : Delivers taken frnd lpn)
include delivers

theorem Delivers.heard (adv : frnd.adv = some pdu) : lpn.noted pdu = taken := by
  obtain ⟨last, _⟩ := delivers.adv pdu adv
  rcases delivers.caught with all | ⟨entry, md, rest, unheard, _⟩
  · cases pdu with
    | subCfm => exact all
    | queued entry md =>
      unfold LpnLink.noted
      dsimp only
      rw [if_pos (by rw [all]; exact delivers.last entry md last)]
      exact all
  · rw [last] at unheard
    cases unheard
    have split : frnd.order = lpn.received ++ [entry] ++ frnd.queue := by
      rw [← rest]
      exact delivers.order
    unfold LpnLink.noted
    dsimp only
    rw [if_neg (delivers.numbered.fresh split)]
    exact rest.symm

theorem Delivers.lost :
    Delivers taken { frnd with adv := none } lpn where
  established := delivers.established
  order := delivers.order
  numbered := delivers.numbered
  caught := delivers.caught
  last := delivers.last
  adv := by
    intro _ impossible
    cases impossible
  pending := delivers.pending
  discarded := delivers.discarded

theorem Delivers.receive (adv : frnd.adv = some pdu) {after : LpnLink}
    (received : after.received = taken) :
    Delivers taken { frnd with adv := none } after where
  established := delivers.established
  order := delivers.order
  numbered := delivers.numbered
  caught := .inl received
  last := delivers.last
  adv := by
    intro _ impossible
    cases impossible
  pending := by
    intro pending
    obtain ⟨_, idle⟩ := delivers.adv pdu adv
    rw [show frnd.pendingReq = true from pending] at idle
    cases idle
  discarded := by
    intro entry md member
    have before := delivers.discarded entry md member
    rw [received]
    exact delivers.caught.prefix_taken.subset before

end

theorem Delivers.request (delivers : Delivers taken frnd sent.1)
    (speaks : Speaks sent)
    (sub : ∀ op xact, sent.2 = some (.sub op xact) → sent.1.received = taken)
    (asked : Bool) : FriendshipOk (Friendship.request frnd asked sent) := by
  unfold Friendship.request
  cases request : sent.2 with
  | none => exact .inl ⟨taken, delivers⟩
  | some message =>
    cases asked with
    | false => exact .inl ⟨taken, delivers⟩
    | true =>
      cases message with
      | poll fsn =>
        obtain ⟨rfl, waiting⟩ := speaks.poll fsn request
        exact .inl ⟨taken, delivers.poll waiting⟩
      | sub op xact => exact .inl ⟨taken, delivers.sub (sub op xact request) xact⟩

theorem Delivers.asked (delivers : Delivers taken frnd lpn) (asks : Asks lpn sent)
    (asked : Bool) : FriendshipOk (Friendship.request frnd asked sent) := by
  apply (delivers.asks asks).request asks.toSpeaks
  intro op xact request
  rw [asks.received]
  rcases delivers.caught with all | ⟨_, _, _, _, _, waiting⟩
  · exact all
  · exact absurd waiting (asks.sub op xact request)

theorem Delivers.answered (delivers : Delivers taken frnd lpn)
    (adv : frnd.adv = some pdu) (oldKey asked : Bool) :
    FriendshipOk (Friendship.request { frnd with adv := none } asked
      (lpn.receive pdu oldKey)) := by
  by_cases listening : lpn.state = .waitUpdate
  · obtain ⟨speaks, received⟩ := receive_speaks pdu oldKey listening
    have all := received.trans (delivers.heard adv)
    exact (delivers.receive adv all).request speaks (fun _ _ _ => all) asked
  · have missed : lpn.receive pdu oldKey = (lpn, none) := by
      unfold LpnLink.receive
      rw [if_pos listening]
    rw [missed]
    exact .inl ⟨taken, delivers.lost⟩

theorem Ended.request (ended : Ended frnd sent.1) (asked : Bool) :
    FriendshipOk (Friendship.request frnd asked sent) := by
  have deaf : ∀ request, frnd.receive request = frnd := by
    intro request
    cases request with
    | poll => exact if_pos (.inl ended.ended)
    | sub => exact if_pos (.inl ended.ended)
  have kept : Friendship.request frnd asked sent = ⟨frnd, sent.1⟩ := by
    unfold Friendship.request
    cases sent.2 with
    | none => rfl
    | some request =>
      dsimp only
      rw [deaf request, ite_self]
  rw [kept]
  exact .inr ended

theorem FriendshipOk.asked (ok : FriendshipOk ⟨frnd, lpn⟩) (asks : Asks lpn sent)
    (asked : Bool) : FriendshipOk (Friendship.request frnd asked sent) := by
  rcases ok with ⟨_, delivers⟩ | ⟨ended, silent, numbered, received, discarded⟩
  · exact delivers.asked asks asked
  · refine Ended.request ⟨ended, silent, numbered, ?_, ?_⟩ asked
    · rw [asks.received]
      exact received
    · rw [asks.received]
      exact discarded

theorem friendshipStep_ok (attempts : Nat) (ok : FriendshipOk state)
    (input : FriendshipInput) (keeps : KeepsDelivery state input) :
    FriendshipOk (friendshipStep attempts state input) := by
  cases input with
  | enqueue update =>
    unfold friendshipStep
    dsimp only
    split
    next established =>
      rcases ok with ⟨taken, delivers⟩ | done
      · exact .inl ⟨taken, delivers.enqueue update⟩
      · rw [done.ended] at established
        cases established
    next => exact ok
  | friendTimeout =>
    rcases ok with ⟨taken, delivers⟩ | done
    · exact delivers.timeout keeps
    have kept : state.frnd.timeout = state.frnd := if_pos (.inl done.ended)
    unfold friendshipStep
    rw [kept]
    exact .inr done
  | friendSent heard asked oldKey =>
    unfold friendshipStep
    dsimp only
    split
    · exact ok
    next pdu adv =>
      rcases ok with ⟨taken, delivers⟩ | done
      · cases heard with
        | false => exact .inl ⟨taken, delivers.lost⟩
        | true => exact delivers.answered adv oldKey asked
      · rw [done.silent] at adv
        cases adv
  | lpnTimeout asked => exact ok.asked (asks_timeout attempts state.lpn) asked
  | lpnPoll asked => exact ok.asked (asks_sendFriendPoll state.lpn) asked
  | otherMsg asked =>
    have ignored : state.lpn.msgReceived = (state.lpn, none) := by
      unfold LpnLink.msgReceived
      split
      · rfl
      next listening => rw [if_pos (keeps (not_not.mp listening))]
    unfold friendshipStep
    dsimp only
    rw [ignored]
    exact ok
  | groupAdd addr asked => exact ok.asked (asks_lpnGroupAdd addr state.lpn) asked
  | groupDel addrs asked => exact ok.asked (asks_lpnGroupDel addrs state.lpn) asked

end Steps

/-- The received entries are a prefix of the queue order, and what the Friend has
discarded is received. -/
structure InOrder (state : Friendship) : Prop where
  received : state.lpn.received <+: state.frnd.order
  distinct : state.lpn.received.Nodup
  discarded : ∀ pdu md, .queued pdu md ∈ state.frnd.discarded → pdu ∈ state.lpn.received

theorem Numbered.nodup (numbered : Numbered order) : order.Nodup := by
  apply List.Nodup.of_map QueuePdu.number
  have range : order.map QueuePdu.number = range order.length := by
    apply ext_getElem?
    intro place
    rw [getElem?_map]
    cases found : order[place]? with
    | none =>
      have beyond := getElem?_eq_none_iff.mp found
      rw [getElem?_eq_none (by simpa using beyond)]
      rfl
    | some pdu =>
      obtain ⟨bound, _⟩ := List.getElem?_eq_some_iff.mp found
      rw [getElem?_range bound, map_some, numbered place pdu found]
  rw [range]
  exact nodup_range

theorem FriendshipOk.inOrder (ok : FriendshipOk state) : InOrder state := by
  rcases ok with ⟨_, delivers⟩ | ⟨_, _, numbered, received, discarded⟩
  · exact ⟨delivers.prefix_order, delivers.numbered.nodup.sublist
      delivers.prefix_order.sublist, delivers.discarded⟩
  · exact ⟨received, numbered.nodup.sublist received.sublist, discarded⟩

structure Established (state : Friendship) : Prop where
  established : state.frnd.established = true
  order : state.frnd.order = state.lpn.received ++ state.frnd.queue
  numbered : Numbered state.frnd.order
  last : ∀ pdu md, state.frnd.last = some (.queued pdu md) → pdu ∈ state.lpn.received
  adv : state.frnd.adv = none
  pendingReq : state.frnd.pendingReq = false
  discarded : ∀ pdu md, .queued pdu md ∈ state.frnd.discarded → pdu ∈ state.lpn.received

theorem Established.ok (start : Established state) : FriendshipOk state := by
  refine .inl ⟨state.lpn.received, start.established, start.order, start.numbered,
    .inl rfl, start.last, ?_, ?_, start.discarded⟩
  · intro pdu adv
    rw [start.adv] at adv
    cases adv
  · intro pending
    rw [start.pendingReq] at pending
    cases pending

/-- Whatever is lost, the Friend Queue is received in order and without gaps, as
long as nothing else passes for a response. -/
theorem friend_delivery_in_order (attempts : Nat) {state : Friendship}
    (start : Established state) {inputs : List FriendshipInput}
    (keeps : (friendshipMachine attempts).Along KeepsDelivery state inputs) :
    (friendshipMachine attempts).Always InOrder state inputs := by
  have kept : ∀ state input, FriendshipOk state → KeepsDelivery state input →
      FriendshipOk ((friendshipMachine attempts).next state input) := by
    intro state input ok keep
    exact friendshipStep_ok attempts ok input keep
  exact (Machine.always_of_along kept start.ok keeps).mono fun _ ok => ok.inOrder

/-- The Low Power node has received the first Friend Update, and two messages are
queued. -/
def sampleFriendship : Friendship where
  frnd :=
    { established := true
      fsn := false
      sendLast := false
      pendingReq := false
      adv := none
      queue := [⟨1, false⟩, ⟨2, false⟩]
      last := some (.queued ⟨0, true⟩ false)
      order := [⟨0, true⟩, ⟨1, false⟩, ⟨2, false⟩]
      discarded := [] }
  lpn :=
    { state := .established
      fsn := true
      sentReq := none
      pendingPoll := false
      reqAttempts := 0
      xactNext := 0
      xactPending := 0
      groupsChanged := true
      groups := [⟨0xc000, false, false, false⟩]
      queueSize := 4
      received := [⟨0, true⟩] }

theorem sampleFriendship_established : Established sampleFriendship where
  established := rfl
  order := rfl
  numbered := by
    intro place pdu found
    match place, found with
    | 0, found =>
      cases found
      rfl
    | 1, found =>
      cases found
      rfl
    | 2, found =>
      cases found
      rfl
    | _ + 3, found => cases found
  last := by
    intro pdu md last
    cases last
    exact mem_singleton.mpr rfl
  adv := rfl
  pendingReq := rfl
  discarded := by
    intro _ _ impossible
    cases impossible

/-- A lost response, a repeated poll, a lost request to subscribe, and the rest of
the queue. -/
def lossyFriendship : List FriendshipInput :=
  [.lpnPoll true, .friendTimeout, .friendSent false true false,
    .lpnTimeout true, .lpnTimeout true, .lpnTimeout true,
    .friendTimeout, .lpnTimeout true, .friendSent true false false,
    .lpnTimeout true, .lpnTimeout true, .lpnTimeout true, .lpnTimeout true,
    .friendTimeout, .friendSent true true false]

theorem friend_delivery_lossy :
    (friendshipMachine 6).Always InOrder sampleFriendship lossyFriendship ∧
      ((friendshipMachine 6).run sampleFriendship lossyFriendship).lpn.received =
        [⟨0, true⟩, ⟨1, false⟩, ⟨2, false⟩] := by
  refine ⟨friend_delivery_in_order 6 sampleFriendship_established ?_, by decide⟩
  exact ⟨trivial, fun _ => nofun, trivial, trivial, trivial, trivial, fun _ => nofun,
    trivial, trivial, trivial, trivial, trivial, trivial, fun _ => nofun, trivial, trivial⟩

/-- A looped back message comes in while the response to a poll is lost: the next
poll discards what was never received. -/
theorem friend_takes_other_for_response :
    ¬ ∀ (attempts : Nat) (state : Friendship), Established state →
      ∀ inputs, (friendshipMachine attempts).Always InOrder state inputs := by
  intro claimed
  have inOrder := (claimed 6 sampleFriendship sampleFriendship_established
    [.lpnPoll true, .friendTimeout, .lpnTimeout true, .friendSent false true false,
      .otherMsg true]).last
  exact absurd (inOrder.discarded ⟨1, false⟩ false (by decide)) (by decide)

end ZephyrBluetooth.Mesh
