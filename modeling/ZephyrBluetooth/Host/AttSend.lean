import ZephyrBluetooth.Host.AttRequests

namespace ZephyrBluetooth.Host

open Data

/-! What `chan_send` of `att.c` does with the buffer of a PDU, and the queues that
keep the PDUs no bearer has taken. -/

structure PduBuf where
  id : Nat
  data : List Byte
  refs : Nat

namespace PduBuf

def code (buf : PduBuf) : Byte := buf.data.headD 0

def unref (buf : PduBuf) : PduBuf := { buf with refs := buf.refs - 1 }

def add (buf : PduBuf) (bytes : List Byte) : PduBuf :=
  { buf with data := buf.data ++ bytes }

end PduBuf

/-- How `bt_smp_sign` ends; a signature is made with eight bytes of a MAC. -/
inductive Signing where
  | signed (mac : Vector Byte 8)
  | noKey
  | failed (room : Vector Byte 8)

def Signing.succeeds : Signing → Bool
  | .signed _ => true
  | .noKey | .failed _ => false

/-- What the layers below answer to a PDU: the signing, whether
`bt_l2cap_send_cb` takes it on the fixed bearer, and whether
`bt_l2cap_chan_send` takes it on an enhanced one or leaves the buffer in some
state. -/
structure LowerAnswer where
  sign : Signing
  conn : Bool
  l2cap : Option PduBuf

/-- `out` is `BT_L2CAP_STATUS_OUT`, `pending` is `ATT_PENDING_SENT`, `busy` tells
that a request is outstanding, and `flying` are the PDUs that L2CAP has taken
and not yet reported. -/
structure SendBearer where
  enhanced : Bool
  mtu : Nat
  out : Bool
  pending : Bool
  busy : Bool
  sent : SentCb
  flying : List Nat
  queue : List PduBuf

structure BufSent where
  bearer : SendBearer
  cnt : Nat
  result : Except PduBuf (List Byte)

/-- The bytes of `local_csrk.cnt` in a signature. -/
def signCount (cnt : Nat) : List Byte :=
  le16 (cnt % 2 ^ 16) ++ le16 (cnt / 2 ^ 16 % 2 ^ 16)

namespace SendBearer

/-- `chan->sent` for a PDU with the opcode. -/
def setSent (bearer : SendBearer) (cb : SentCb) (code : Byte) : SendBearer :=
  { bearer with sent := if cb = .none then chanCb code else cb }

def fly (bearer : SendBearer) (id : Nat) : SendBearer :=
  { bearer with flying := bearer.flying ++ [id] }

end SendBearer

section ChanSend

variable (answer : LowerAnswer) (cnt : Nat) (bearer : SendBearer) (buf : PduBuf)

/-- `bt_smp_sign`, with the signing count after it. -/
def btSmpSign : Except PduBuf (PduBuf × Nat) :=
  match answer.sign with
  | .signed mac => .ok (buf.add (signCount cnt ++ mac.toList), (cnt + 1) % 2 ^ 32)
  | .noKey => .error buf
  | .failed room =>
    -- `smp_sign_buf` returns before it swaps the message back
    .error { buf with data := (buf.data ++ signCount cnt).reverse ++ room.toList }

/-- `chan_send` on an enhanced bearer. -/
def chanSendEnhanced (cb : SentCb) : BufSent :=
  if bearer.pending then ⟨bearer, cnt, .error buf⟩
  else
    let begun := { bearer with pending := true }.setSent cb buf.code
    if buf.code = AttOp.signedWriteCmd.code then ⟨begun, cnt, .error buf⟩
    else if attOpGetType buf.code = .request ∧ bearer.out = false then
      ⟨begun, cnt, .error buf⟩
    else
      match answer.l2cap with
      | some left => ⟨begun, cnt, .error left⟩
      | none => ⟨begun.fly buf.id, cnt, .ok buf.data⟩

/-- The end of `chan_send` on the fixed bearer: a buffer that is not taken is
restored to the state it has here. -/
def chanSendFixed (cb : SentCb) : BufSent :=
  let begun := bearer.setSent cb buf.code
  if answer.conn then ⟨begun.fly buf.id, cnt, .ok buf.data⟩
  else ⟨begun, cnt, .error buf⟩

def chanSendBuf (cb : SentCb) : BufSent :=
  if bearer.enhanced then chanSendEnhanced answer cnt bearer buf cb
  else if buf.code = AttOp.signedWriteCmd.code then
    match btSmpSign answer cnt buf with
    | .error left => ⟨bearer, cnt, .error left.unref⟩
    | .ok (signed, count) => chanSendFixed answer count bearer signed cb
  else chanSendFixed answer cnt bearer buf cb

end ChanSend

/-- A call of `chan_send`: the bearer and the buffer before it, and what the
layers below answer. -/
structure SendTry where
  bearer : SendBearer
  buf : PduBuf
  answer : LowerAnswer

/-- `queue` is `att->tx_queue` and `reqs` the buffers of `att->reqs`.  The PDUs
are numbered as they are submitted, and `wire` has those handed to L2CAP. -/
structure AttQueues where
  bearers : List SendBearer
  queue : List PduBuf
  reqs : List PduBuf
  cnt : Nat
  submitted : List (List Byte)
  wire : List (Nat × List Byte)

inductive AttQueuesInput where
  | send (data : List Byte) (answers : Nat → LowerAnswer)
  | respond (index : Nat) (cb : SentCb) (data : List Byte) (answer : LowerAnswer)
  | request (data : List Byte) (answers : Nat → LowerAnswer)
  | response (index : Nat) (answers : Nat → LowerAnswer)
  | sent (index : Nat) (first second third : LowerAnswer)
  | status (index : Nat) (out : Bool) (answer : LowerAnswer)

structure Offered where
  bearers : List SendBearer
  cnt : Nat
  result : Except PduBuf (List Byte)
  tries : List SendTry

/-- The loop over the bearers in `att_send_process` and `att_req_send_process`:
the PDU is offered to those that are open for it, until one takes it. -/
def offer (isOpen : SendBearer → PduBuf → Bool)
    (mark : SendBearer → SendBearer) (answers : Nat → LowerAnswer) :
    List SendBearer → Nat → Nat → PduBuf → Offered
  | [], _, cnt, buf => ⟨[], cnt, .error buf, []⟩
  | bearer :: rest, index, cnt, buf =>
    if isOpen bearer buf then
      let sent := chanSendBuf (answers index) cnt bearer buf .none
      match sent.result with
      | .ok bytes =>
        ⟨mark sent.bearer :: rest, sent.cnt, .ok bytes,
          [⟨bearer, buf, answers index⟩]⟩
      | .error left =>
        let later := offer isOpen mark answers rest (index + 1) sent.cnt left
        ⟨sent.bearer :: later.bearers, later.cnt, later.result,
          ⟨bearer, buf, answers index⟩ :: later.tries⟩
    else
      let later := offer isOpen mark answers rest (index + 1) cnt buf
      ⟨bearer :: later.bearers, later.cnt, later.result, later.tries⟩

/-- The request fits a bearer without an outstanding one (`chan_req_send`). -/
def SendBearer.reqOpen (bearer : SendBearer) (buf : PduBuf) : Bool :=
  !bearer.busy && decide (buf.data.length ≤ bearer.mtu)

def SendBearer.reqTaken (bearer : SendBearer) : SendBearer :=
  { bearer with busy := true }

namespace AttQueues

variable (state : AttQueues)

/-- A PDU that no queue has any more is given to `chan_send` on a bearer; the
buffer comes back if it is not taken. -/
def sendOn (index : Nat) (bearer : SendBearer) (cb : SentCb)
    (mark : SendBearer → SendBearer) (answer : LowerAnswer) (buf : PduBuf) :
    AttQueues × Option PduBuf :=
  let sent := chanSendBuf answer state.cnt bearer buf cb
  match sent.result with
  | .ok bytes =>
    ({ state with
        bearers := state.bearers.set index (mark sent.bearer)
        cnt := sent.cnt
        wire := state.wire ++ [(buf.id, bytes)] }, none)
  | .error left =>
    ({ state with
        bearers := state.bearers.set index sent.bearer
        cnt := sent.cnt }, some left)

def offerAll (isOpen : SendBearer → PduBuf → Bool)
    (mark : SendBearer → SendBearer) (answers : Nat → LowerAnswer)
    (buf : PduBuf) : AttQueues × Option PduBuf × List SendTry :=
  let offered := offer isOpen mark answers state.bearers 0 state.cnt buf
  match offered.result with
  | .ok bytes =>
    ({ state with
        bearers := offered.bearers
        cnt := offered.cnt
        wire := state.wire ++ [(buf.id, bytes)] }, none, offered.tries)
  | .error left =>
    ({ state with bearers := offered.bearers, cnt := offered.cnt }, some left,
      offered.tries)

def attSendProcess (answers : Nat → LowerAnswer) : AttQueues × List SendTry :=
  match state.queue with
  | [] => (state, [])
  | buf :: rest =>
    let (next, left, tries) := { state with queue := rest }.offerAll
      (fun _ _ => true) id answers buf
    ({ next with queue := left.toList ++ next.queue }, tries)

def attReqSendProcess (answers : Nat → LowerAnswer) : AttQueues × List SendTry :=
  match state.reqs with
  | [] => (state, [])
  | buf :: rest =>
    let (next, left, tries) := { state with reqs := rest }.offerAll
      SendBearer.reqOpen SendBearer.reqTaken answers buf
    ({ next with reqs := left.toList ++ next.reqs }, tries)

/-- The next request is offered to one bearer, if it has none outstanding; the
truth value tells whether it was sent. -/
def reqSendOn (index : Nat) (answer : LowerAnswer) :
    AttQueues × Bool × List SendTry :=
  match state.bearers[index]?, state.reqs with
  | some bearer, buf :: rest =>
    if bearer.reqOpen buf then
      let (next, left) := { state with reqs := rest }.sendOn index bearer .none
        SendBearer.reqTaken answer buf
      ({ next with reqs := left.toList ++ next.reqs }, left.isNone,
        [⟨bearer, buf, answer⟩])
    else (state, false, [])
  | _, _ => (state, false, [])

def prepend (index : Nat) (bufs : List PduBuf) : AttQueues :=
  { state with
    bearers := state.bearers.modify index fun bearer =>
      { bearer with queue := bufs ++ bearer.queue } }

/-- `process_queue` on the queue of a bearer. -/
def processOwn (index : Nat) (answer : LowerAnswer) :
    AttQueues × Bool × List SendTry :=
  match state.bearers[index]? with
  | none => (state, false, [])
  | some bearer =>
    match bearer.queue with
    | [] => (state, false, [])
    | buf :: rest =>
      let popped := { bearer with queue := rest }
      let (next, left) :=
        { state with bearers := state.bearers.set index popped }.sendOn index
          popped .none id answer buf
      (next.prepend index left.toList, left.isNone, [⟨popped, buf, answer⟩])

/-- `process_queue` on the queue that the bearers share. -/
def processShared (index : Nat) (answer : LowerAnswer) :
    AttQueues × Bool × List SendTry :=
  match state.bearers[index]?, state.queue with
  | some bearer, buf :: rest =>
    let (next, left) := { state with queue := rest }.sendOn index bearer .none id
      answer buf
    ({ next with queue := left.toList ++ next.queue }, left.isNone,
      [⟨bearer, buf, answer⟩])
  | _, _ => (state, false, [])

def unlessSent (first : AttQueues × Bool × List SendTry)
    (rest : AttQueues → AttQueues × Bool × List SendTry) :
    AttQueues × Bool × List SendTry :=
  if first.2.1 then first
  else ((rest first.1).1, (rest first.1).2.1, first.2.2 ++ (rest first.1).2.2)

/-- `bt_att_sent`, which L2CAP calls for a PDU that it has. -/
def btAttSent (index : Nat) (first second third : LowerAnswer) :
    AttQueues × List SendTry :=
  if state.bearers[index]?.any fun bearer => !bearer.flying.isEmpty then
    let told := { state with
      bearers := state.bearers.modify index fun bearer =>
        { bearer with pending := false, flying := bearer.flying.tail } }
    let ended := unlessSent
      (unlessSent (told.reqSendOn index first) fun next =>
        next.processOwn index second)
      fun next => next.processShared index third
    (ended.1, ended.2.2)
  else (state, [])

def btAttStatus (index : Nat) (out : Bool) (answer : LowerAnswer) :
    AttQueues × List SendTry :=
  let told := { state with
    bearers := state.bearers.modify index fun bearer => { bearer with out := out } }
  if out then
    let ended := told.reqSendOn index answer
    (ended.1, ended.2.2)
  else (told, [])

def fresh (data : List Byte) : PduBuf := ⟨state.submitted.length, data, 1⟩

def submit (data : List Byte) : AttQueues :=
  { state with submitted := state.submitted ++ [data] }

def btAttChanSendRsp (index : Nat) (cb : SentCb) (answer : LowerAnswer)
    (data : List Byte) : AttQueues × List SendTry :=
  match state.bearers[index]? with
  | none => (state, [])
  | some bearer =>
    let buf := state.fresh data
    let (next, left) := (state.submit data).sendOn index bearer cb id answer buf
    ({ next with
        bearers := next.bearers.modify index fun bearer =>
          { bearer with queue := bearer.queue ++ left.toList } },
      [⟨bearer, buf, answer⟩])

def step : AttQueuesInput → AttQueues × List SendTry
  | .send data answers =>
    { state.submit data with
      queue := state.queue ++ [state.fresh data] }.attSendProcess answers
  | .respond index cb data answer => state.btAttChanSendRsp index cb answer data
  | .request data answers =>
    { state.submit data with
      reqs := state.reqs ++ [state.fresh data] }.attReqSendProcess answers
  | .response index answers =>
    { state with
      bearers := state.bearers.modify index fun bearer =>
        { bearer with busy := false } }.attReqSendProcess answers
  | .sent index first second third => state.btAttSent index first second third
  | .status index out answer => state.btAttStatus index out answer

end AttQueues

def attQueuesMachine : Machine AttQueues AttQueuesInput SendTry where
  step := AttQueues.step

/-- The PDU that goes out for the data submitted: a signed write with one
signature, everything else as it is. -/
def Transmits (data bytes : List Byte) : Prop :=
  if data.headD 0 = AttOp.signedWriteCmd.code then
    ∃ cnt, ∃ mac : Vector Byte 8, bytes = data ++ (signCount cnt ++ mac.toList)
  else bytes = data

/-- On an enhanced bearer that is free, the PDU is no signed write, a request
meets the status for output, and L2CAP takes it; on the fixed one a signed write
is signed and taken. -/
def SendTry.Met (attempt : SendTry) : Prop :=
  if attempt.bearer.enhanced then
    attempt.bearer.pending = true ∨ attempt.buf.code ≠ AttOp.signedWriteCmd.code ∧
        (attOpGetType attempt.buf.code = .request → attempt.bearer.out = true) ∧
        attempt.answer.l2cap = none
  else
    attempt.buf.code = AttOp.signedWriteCmd.code →
      attempt.answer.sign.succeeds = true ∧ attempt.answer.conn = true

instance (attempt : SendTry) : Decidable attempt.Met :=
  inferInstanceAs (Decidable (@ite Prop _ _ _ _))

def SendBearer.Unblocked (bearer : SendBearer) : Prop :=
  bearer.enhanced = true → bearer.pending = true → bearer.flying ≠ []

section OneCall

variable {answer : LowerAnswer} {cnt : Nat} {bearer : SendBearer} {buf : PduBuf}

theorem chanSendEnhanced_queue (cb : SentCb) :
    (chanSendEnhanced answer cnt bearer buf cb).bearer.queue = bearer.queue := by
  unfold chanSendEnhanced
  split
  · rfl
  split
  · rfl
  split
  · rfl
  · split <;> rfl

theorem chanSendFixed_queue (cb : SentCb) :
    (chanSendFixed answer cnt bearer buf cb).bearer.queue = bearer.queue := by
  unfold chanSendFixed
  split <;> rfl

theorem chanSendBuf_queue (cb : SentCb) :
    (chanSendBuf answer cnt bearer buf cb).bearer.queue = bearer.queue := by
  unfold chanSendBuf
  split
  · exact chanSendEnhanced_queue cb
  split
  · split
    · rfl
    · exact chanSendFixed_queue cb
  · exact chanSendFixed_queue cb

/-- An error leaves the buffer as it was, and a PDU that is taken is the one
submitted; the flag is only set with a PDU on its way. -/
structure BufSent.Clean (sent : BufSent) (bearer : SendBearer) (buf : PduBuf) :
    Prop where
  kept : ∀ left, sent.result = .error left → left = buf
  taken : ∀ bytes, sent.result = .ok bytes → Transmits buf.data bytes
  unblocked : bearer.Unblocked → sent.bearer.Unblocked

theorem fly_unblocked (bearer : SendBearer) (id : Nat) :
    (bearer.fly id).Unblocked := by
  intro _ _
  exact List.append_ne_nil_of_right_ne_nil _ (List.cons_ne_nil _ _)

theorem chanSendFixed_clean (fixed : bearer.enhanced = false) (cb : SentCb)
    {data : List Byte} (transmits : Transmits data buf.data)
    (kept : answer.conn = false → data = buf.data) :
    (chanSendFixed answer cnt bearer buf cb).Clean bearer
      ⟨buf.id, data, buf.refs⟩ := by
  unfold chanSendFixed
  cases taken : answer.conn with
  | true =>
    refine ⟨?_, ?_, fun _ => fly_unblocked _ _⟩
    · rintro left ⟨⟩
    · rintro bytes ⟨⟩
      exact transmits
  | false =>
    refine ⟨?_, ?_, ?_⟩
    · rintro left ⟨⟩
      rw [kept taken]
    · rintro bytes ⟨⟩
    · intro _ enhanced
      have same : bearer.enhanced = true := enhanced
      rw [fixed] at same
      cases same

theorem transmits_plain {data : List Byte}
    (plain : data.headD 0 ≠ AttOp.signedWriteCmd.code) : Transmits data data := by
  unfold Transmits
  rw [if_neg plain]

theorem chanSendBuf_met (met : SendTry.Met ⟨bearer, buf, answer⟩) (cb : SentCb) :
    (chanSendBuf answer cnt bearer buf cb).Clean bearer buf := by
  unfold SendTry.Met at met
  unfold chanSendBuf
  cases kind : bearer.enhanced with
  | true =>
    simp only [kind, if_true] at met ⊢
    unfold chanSendEnhanced
    rcases met with pending | ⟨plain, ready, taken⟩
    · rw [if_pos pending]
      refine ⟨?_, ?_, id⟩
      · rintro left ⟨⟩
        rfl
      · rintro bytes ⟨⟩
    · by_cases pending : bearer.pending = true
      · rw [if_pos pending]
        refine ⟨?_, ?_, id⟩
        · rintro left ⟨⟩
          rfl
        · rintro bytes ⟨⟩
      · have goes : ¬ (attOpGetType buf.code = .request ∧ bearer.out = false) := by
          rintro ⟨request, closed⟩
          rw [ready request] at closed
          cases closed
        simp only [if_neg pending, if_neg plain, if_neg goes, taken]
        refine ⟨?_, ?_, fun _ => fly_unblocked _ _⟩
        · rintro left ⟨⟩
        · rintro bytes ⟨⟩
          exact transmits_plain plain
  | false =>
    simp only [kind, Bool.false_eq_true, if_false] at met ⊢
    by_cases signs : buf.code = AttOp.signedWriteCmd.code
    · obtain ⟨succeeds, taken⟩ := met signs
      obtain ⟨mac, signed⟩ : ∃ mac, answer.sign = .signed mac := by
        cases sign : answer.sign with
        | signed mac => exact ⟨mac, rfl⟩
        | noKey =>
          rw [sign] at succeeds
          cases succeeds
        | failed =>
          rw [sign] at succeeds
          cases succeeds
      simp only [if_pos signs]
      unfold btSmpSign
      simp only [signed]
      refine chanSendFixed_clean kind cb ?_ ?_
      · have head : buf.data.headD 0 = AttOp.signedWriteCmd.code := signs
        unfold Transmits
        rw [if_pos head]
        exact ⟨cnt, mac, rfl⟩
      · intro refused
        rw [taken] at refused
        cases refused
    · rw [if_neg signs]
      exact chanSendFixed_clean kind cb (transmits_plain signs) fun _ => rfl

end OneCall

end ZephyrBluetooth.Host
