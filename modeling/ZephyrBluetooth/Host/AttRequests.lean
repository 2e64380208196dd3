import ZephyrBluetooth.Data.First
import ZephyrBluetooth.Data.Machine
import ZephyrBluetooth.Host.AttOp

namespace ZephyrBluetooth.Host

open Data

/-! The requests of one connection in `att.c`: they wait in a list that all
bearers share, and each bearer has at most one that is outstanding. -/

structure AttAsk where
  op : AttOp
  answer : AttOp
  pair : op.answer = some answer
  deriving DecidableEq

def sampleRead : AttAsk := ⟨.readReq, .readRsp, rfl⟩

/-- A `bt_att_req`.  `encode` tells whether it can be sent again; `pduSent`
records that its PDU was sent over the bearer it is outstanding on. -/
structure AttPending where
  id : Nat
  ask : AttAsk
  encode : Bool
  retrying : Bool
  pduSent : Bool
  deriving DecidableEq

/-- The field `req` of a bearer; `cancelled` is the static request `cancel`. -/
inductive AttSlot where
  | idle
  | own (req : AttPending)
  | cancelled
  deriving DecidableEq

/-- The functions `chan_rsp_sent`, `chan_cfm_sent`, `chan_req_sent`, or none. -/
inductive SentCb where
  | none
  | rsp
  | cfm
  | req
  deriving DecidableEq

structure AttTx where
  cb : SentCb
  id : Option Nat
  deriving DecidableEq

/-- `pending` is the flag `ATT_PENDING_SENT`; `tx` are the PDUs that L2CAP has
taken and not yet sent. -/
structure AttBearer where
  index : Nat
  enhanced : Bool
  slot : AttSlot
  timer : Bool
  pending : Bool
  sent : SentCb
  tx : List AttTx
  deriving DecidableEq

structure AttLink where
  reqs : List AttPending
  bearers : List AttBearer
  connected : Bool
  secLevel : Nat
  nextId : Nat

/-- How `chan_send` on a bearer ends: the PDU is taken, or refused before or
after the field `sent` is set. -/
inductive SendAttempt where
  | taken
  | refused
  | failed

abbrev Attempts := Nat → SendAttempt

/-- The calls of `bt_att_req_send` and `bt_att_req_cancel`. -/
inductive AttReqCall where
  | send (ask : AttAsk) (encode : Bool) (attempts : Attempts)
  | cancel (id : Nat)

/-- What happens to a connection.  The request that a disconnected bearer had
outstanding is told before the bearer is detached: `nested` are the calls that
its callback makes. -/
inductive AttLinkInput where
  | connect (index : Nat)
  | call (call : AttReqCall)
  | sendOther (index : Nat) (cb : SentCb) (code : Byte) (attempts : Attempts)
  | sent (index : Nat) (attempts : Attempts)
  | status (index : Nat) (attempts : Attempts)
  | recv (index : Nat) (data : List Byte) (elevated : Bool) (attempts : Attempts)
  | encryptChange (index : Nat) (hciStatus : Nat) (secLevel : Nat)
      (built : Bool) (attempts : Attempts)
  | timeout (index : Nat) (attempts : Attempts) (nested : List AttReqCall)
  | disconnected (index : Nat) (attempts : Attempts) (nested : List AttReqCall)
  | connDown

/-- `rx` is the bearer and the opcode of the PDU that a callback is about. -/
inductive AttLinkOutput where
  | accepted (id : Nat)
  | cancelled (id : Nat)
  | freed (id : Nat)
  | callback (id : Nat) (ask : AttAsk) (err : Nat) (bearer : Nat)
      (rx : Option (Nat × Byte))
  deriving DecidableEq

def chanCb (code : Byte) : SentCb :=
  match attOpGetType code with
  | .response => .rsp
  | .confirmation => .cfm
  | .request | .indication => .req
  | _ => .none

def attErrAuthentication : Nat := 0x05

def attErrInsufficientEncryption : Nat := 0x0f

def AttOp.completes (op : AttOp) (type : AttType) (payload : List Byte) : Bool :=
  match op with
  | .errorRsp => decide ((payload.getD 3 0).toNat = 0)
  | .mtuRsp =>
    decide (23 ≤ (payload.getD 0 0).toNat + 256 * (payload.getD 1 0).toNat)
  | _ => decide (type = .response ∨ type = .confirmation)

/-- The PDU has a handler, is long enough for it, and ends the outstanding
request without an error. -/
def completes (flags : AttFlags) : List Byte → Bool
  | [] => false
  | code :: payload =>
    match AttOp.ofCode code with
    | none => false
    | some op =>
      match attHandler flags op with
      | none => false
      | some handler =>
        decide (handler.expectLen ≤ payload.length) &&
          op.completes handler.type payload

namespace AttBearer

/-- `chan_send`: an enhanced bearer sends one PDU at a time, and the flag stays
when L2CAP does not take the PDU. -/
def chanSend (attempts : Attempts) (bearer : AttBearer) (cb : SentCb)
    (code : Byte) (id : Option Nat) : AttBearer × Bool :=
  let cb := if cb = .none then chanCb code else cb
  if bearer.enhanced && bearer.pending then (bearer, false)
  else
    match attempts bearer.index with
    | .refused => (bearer, false)
    | .failed => ({ bearer with pending := bearer.enhanced, sent := cb }, false)
    | .taken =>
      ({ bearer with
          pending := bearer.enhanced
          sent := cb
          tx := bearer.tx ++ [⟨cb, id⟩] }, true)

def chanReqSend (attempts : Attempts) (bearer : AttBearer)
    (req : AttPending) : AttBearer × Bool :=
  let sending := bearer.chanSend attempts .none req.ask.op.code (some req.id)
  if sending.2 then ({ sending.1 with slot := .own req }, true)
  else ({ sending.1 with slot := .idle }, false)

def noteSent (bearer : AttBearer) (tx : AttTx) : AttBearer :=
  match bearer.slot with
  | .own req =>
    if tx.id = some req.id then
      { bearer with slot := .own { req with pduSent := true } }
    else bearer
  | _ => bearer

/-- The callbacks of a sent PDU: on the fixed bearer `att_cb` gives the buffer's
own one, if it has one, and then the field `sent` is called. -/
def onSent (bearer : AttBearer) (tx : AttTx) : AttBearer :=
  let cb :=
    if !bearer.enhanced && decide (tx.cb ≠ .none) then tx.cb else bearer.sent
  let told := { bearer with pending := false, sent := cb }.noteSent tx
  if cb = .req ∧ bearer.slot ≠ .idle then { told with timer := true } else told

end AttBearer

/-- The loop of `att_req_send_process` over the bearers. -/
def reqOffer (attempts : Attempts) (req : AttPending) :
    List AttBearer → List AttBearer × Bool
  | [] => ([], false)
  | bearer :: rest =>
    if bearer.slot = .idle then
      let offered := bearer.chanReqSend attempts req
      if offered.2 then (offered.1 :: rest, true)
      else
        let later := reqOffer attempts req rest
        (offered.1 :: later.1, later.2)
    else
      let later := reqOffer attempts req rest
      (bearer :: later.1, later.2)

namespace AttLink

def start : AttLink where
  reqs := []
  bearers := [⟨0, false, .idle, false, false, .none, []⟩]
  connected := true
  secLevel := 1
  nextId := 0

variable (link : AttLink)

def find (index : Nat) : Option AttBearer :=
  link.bearers.find? fun bearer => decide (bearer.index = index)

def change (index : Nat) (edit : AttBearer → AttBearer) : AttLink :=
  { link with
    bearers := (changeFirst (fun bearer => decide (bearer.index = index)) edit
      link.bearers).getD link.bearers }

/-- `att_get`: the connection is up and its fixed bearer is attached. -/
def attGet : Bool :=
  link.connected && link.bearers.any fun bearer => !bearer.enhanced

def reqSendProcess (attempts : Attempts) : AttLink :=
  match link.reqs with
  | [] => link
  | req :: rest =>
    let offered := reqOffer attempts req link.bearers
    { link with
      reqs := if offered.2 then rest else link.reqs
      bearers := offered.1 }

/-- What `att_handle_rsp` tells of the request of a bearer. -/
def ended (bearer : AttBearer) (err : Nat) (rx : Option (Nat × Byte)) :
    List AttLinkOutput :=
  match bearer.slot with
  | .own req => [.freed req.id, .callback req.id req.ask err bearer.index rx]
  | _ => []

def handleRsp (attempts : Attempts) (bearer : AttBearer) (err : Nat)
    (rx : Option (Nat × Byte)) : AttLink × List AttLinkOutput :=
  ((link.change bearer.index fun bearer =>
      { bearer with timer := false, slot := .idle }).reqSendProcess attempts,
    ended bearer err rx)

/-- `att_change_security` succeeds; `elevated` is the answer of
`bt_conn_set_security`. -/
def changeSecurity (err : Nat) (elevated : Bool) : Bool :=
  if err = attErrInsufficientEncryption then
    decide (link.secLevel < 2) && elevated
  else if err = attErrAuthentication then
    decide (link.secLevel < 4) && elevated
  else false

/-- `bt_att_sent`. -/
def onSent (attempts : Attempts) (index : Nat) : AttLink :=
  match link.find index with
  | none => link
  | some bearer =>
    match bearer.tx with
    | [] => link
    | tx :: rest =>
      let told := { bearer with tx := rest }.onSent tx
      match told.slot, link.reqs with
      | .idle, req :: waiting =>
        let offered := told.chanReqSend attempts req
        { link.change index fun _ => offered.1 with
          reqs := if offered.2 then waiting else link.reqs }
      | _, _ => link.change index fun _ => told

/-- `bt_att_status` with `BT_L2CAP_STATUS_OUT`. -/
def onStatus (attempts : Attempts) (index : Nat) : AttLink :=
  match link.find index with
  | none => link
  | some bearer =>
    match bearer.slot, link.reqs with
    | .idle, req :: waiting =>
      let offered := bearer.chanReqSend attempts req
      { link.change index fun _ => offered.1 with
        reqs := if offered.2 then waiting else link.reqs }
    | _, _ => link

/-- `att_error_rsp`. -/
def onErrorRsp (flags : AttFlags) (attempts : Attempts) (bearer : AttBearer)
    (error : Nat) (elevated : Bool) (rx : Option (Nat × Byte)) :
    AttLink × List AttLinkOutput :=
  match bearer.slot with
  | .own req =>
    if flags.smp && link.changeSecurity error elevated then
      (link.change bearer.index fun bearer =>
        { bearer with slot := .own { req with retrying := true } }, [])
    else link.handleRsp attempts bearer error rx
  | _ => link.handleRsp attempts bearer 0x0e rx

def dispatch (flags : AttFlags) (attempts : Attempts) (bearer : AttBearer)
    (op : AttOp) (type : AttType) (payload : List Byte) (elevated : Bool)
    (rx : Option (Nat × Byte)) : AttLink × List AttLinkOutput :=
  match op with
  | .errorRsp =>
    link.onErrorRsp flags attempts bearer (payload.getD 3 0).toNat elevated rx
  | .mtuRsp =>
    link.handleRsp attempts bearer
      (if (payload.getD 0 0).toNat + 256 * (payload.getD 1 0).toNat < 23 then
        0x04
      else 0) rx
  | _ =>
    if type = .response ∨ type = .confirmation then
      link.handleRsp attempts bearer 0 rx
    else (link, [])

/-- What `bt_att_recv` does for the requests of the bearer. -/
def onRecv (flags : AttFlags) (attempts : Attempts) (index : Nat)
    (data : List Byte) (elevated : Bool) : AttLink × List AttLinkOutput :=
  match link.find index, data with
  | some bearer, code :: payload =>
    match AttOp.ofCode code with
    | none => (link, [])
    | some op =>
      match attHandler flags op with
      | none => (link, [])
      | some handler =>
        if payload.length < handler.expectLen then (link, [])
        else
          link.dispatch flags attempts bearer op handler.type payload
            elevated (some (index, code))
  | _, _ => (link, [])

/-- `att_req_retry`; the error when it fails. -/
def reqRetry (attempts : Attempts) (bearer : AttBearer) (req : AttPending)
    (built : Bool) : Except Nat AttBearer :=
  if !req.encode then .error attErrAuthentication
  else if !built then .error 0x0e
  else
    let sending := bearer.chanSend attempts .none req.ask.op.code (some req.id)
    if sending.2 then .ok sending.1 else .error 0x0e

/-- `bt_att_encrypt_change`. -/
def onEncryptChange (attempts : Attempts) (index hciStatus secLevel : Nat)
    (built : Bool) : AttLink × List AttLinkOutput :=
  let link := { link with secLevel }
  match link.find index with
  | none => (link, [])
  | some bearer =>
    match bearer.slot with
    | .own req =>
      if !req.retrying then (link, [])
      else if hciStatus ≠ 0 then
        link.handleRsp attempts bearer attErrAuthentication none
      else if secLevel = 1 then (link, [])
      else
        match reqRetry attempts bearer req built with
        | .ok next => (link.change index fun _ => next, [])
        | .error err => link.handleRsp attempts bearer err none
    | _ => (link, [])

/-- `att_reset`: the requests that still wait are told. -/
def reset : AttLink × List AttLinkOutput :=
  ({ link with reqs := [] }, link.reqs.flatMap fun req =>
      [.callback req.id req.ask 0x0e 0 none, .freed req.id])

def btAttReqSend (ask : AttAsk) (encode : Bool) (attempts : Attempts) :
    AttLink × List AttLinkOutput :=
  let queued : AttLink :=
    { link with
      reqs := link.reqs ++ [⟨link.nextId, ask, encode, false, false⟩]
      nextId := link.nextId + 1 }
  (queued.reqSendProcess attempts, [.accepted link.nextId])

def holds (id : Nat) (bearer : AttBearer) : Bool :=
  match bearer.slot with
  | .own req => decide (req.id = id)
  | _ => false

def btAttReqCancel (id : Nat) : AttLink × List AttLinkOutput :=
  match changeFirst (holds id) (fun bearer => { bearer with slot := .cancelled })
      link.bearers with
  | some bearers => ({ link with bearers }, [.cancelled id, .freed id])
  | none =>
    ({ link with reqs := link.reqs.eraseP fun req => decide (req.id = id) },
      [.cancelled id, .freed id])

/-- A call; `found` tells whether `att_get` finds the context. -/
def call (found : Bool) : AttReqCall → AttLink × List AttLinkOutput
  | .send ask encode attempts =>
    if found then link.btAttReqSend ask encode attempts else (link, [])
  | .cancel id => if found then link.btAttReqCancel id else (link, [])

def calls (found : Bool) : AttLink → List AttReqCall → AttLink × List AttLinkOutput
  | link, [] => (link, [])
  | link, request :: rest =>
    let first := link.call found request
    let later := calls found first.1 rest
    (later.1, first.2 ++ later.2)

/-- The bearer is off the list `chans`. -/
def remove (index : Nat) : AttLink :=
  { link with
    bearers := link.bearers.eraseP fun bearer => decide (bearer.index = index) }

/-- `att_chan_detach`.  While the callback of the outstanding request runs, the
bearer is off the list and `att_get` still finds the context through it. -/
def chanDetach (attempts : Attempts) (bearer : AttBearer)
    (nested : List AttReqCall) : AttLink × List AttLinkOutput :=
  let removed := link.remove bearer.index
  match bearer.slot with
  | .idle => (removed, [])
  | .cancelled => (removed.reqSendProcess attempts, [])
  | .own _ =>
    let told := (removed.reqSendProcess attempts).calls link.attGet nested
    (told.1, ended bearer 0x0e none ++ told.2)

/-- `bt_att_disconnected`. -/
def onDisconnected (attempts : Attempts) (index : Nat)
    (nested : List AttReqCall) : AttLink × List AttLinkOutput :=
  match link.find index with
  | none => (link, [])
  | some bearer =>
    let detached := link.chanDetach attempts bearer nested
    if detached.1.bearers = [] then
      (detached.1.reset.1, detached.2 ++ detached.1.reset.2)
    else detached

/-- `bt_att_connected` of an enhanced bearer. -/
def onConnected (index : Nat) : AttLink :=
  if !link.attGet ∨ link.bearers.any (fun bearer =>
      decide (bearer.index = index)) then link
  else
    { link with
      bearers :=
        { index, enhanced := true, slot := .idle, timer := false,
          pending := false, sent := .none, tx := [] } :: link.bearers }

def step (flags : AttFlags) : AttLinkInput → AttLink × List AttLinkOutput
  | .connect index => (link.onConnected index, [])
  | .call request => link.call link.attGet request
  | .sendOther index cb code attempts =>
    (link.change index fun bearer =>
      (bearer.chanSend attempts cb code none).1, [])
  | .sent index attempts => (link.onSent attempts index, [])
  | .status index attempts => (link.onStatus attempts index, [])
  | .recv index data elevated attempts =>
    link.onRecv flags attempts index data elevated
  | .encryptChange index hciStatus secLevel built attempts =>
    link.onEncryptChange attempts index hciStatus secLevel built
  | .timeout index attempts nested => link.onDisconnected attempts index nested
  | .disconnected index attempts nested => link.onDisconnected attempts index nested
  | .connDown => ({ link with connected := false }, [])

theorem reqRetry_fails {bearer : AttBearer} {req : AttPending} {built : Bool}
    {attempts : Attempts} {err : Nat}
    (retried : reqRetry attempts bearer req built = .error err) : err ≠ 0 := by
  unfold reqRetry at retried
  split at retried
  · cases retried
    decide
  split at retried
  · cases retried
    decide
  simp only at retried
  split at retried
  · cases retried
  · cases retried
    decide

theorem reqRetry_sends {bearer next : AttBearer} {req : AttPending}
    {built : Bool} {attempts : Attempts}
    (retried : reqRetry attempts bearer req built = .ok next) :
    bearer.chanSend attempts .none req.ask.op.code (some req.id) = (next, true) := by
  unfold reqRetry at retried
  split at retried
  · cases retried
  split at retried
  · cases retried
  simp only at retried
  split at retried
  · rename_i taken
    cases retried
    exact Prod.ext rfl taken
  · cases retried

theorem onEncryptChange_cases (link : AttLink) (attempts : Attempts)
    (index hciStatus secLevel : Nat) (built : Bool) :
    link.onEncryptChange attempts index hciStatus secLevel built =
        ({ link with secLevel }, []) ∨
      (∃ bearer req next, link.find index = some bearer ∧ bearer.slot = .own req ∧
        bearer.chanSend attempts .none req.ask.op.code (some req.id) = (next, true) ∧
        link.onEncryptChange attempts index hciStatus secLevel built =
          (AttLink.change { link with secLevel } index fun _ => next, [])) ∨
      ∃ bearer err, link.find index = some bearer ∧ err ≠ 0 ∧
        link.onEncryptChange attempts index hciStatus secLevel built =
          AttLink.handleRsp { link with secLevel } attempts bearer err none := by
  have same : AttLink.find { link with secLevel } index = link.find index := rfl
  simp only [onEncryptChange, same]
  cases found : link.find index with
  | none => exact .inl rfl
  | some bearer =>
    cases slot : bearer.slot with
    | idle => exact .inl (by simp only [slot])
    | cancelled => exact .inl (by simp only [slot])
    | own req =>
      simp only [slot]
      split
      · exact .inl rfl
      split
      · exact .inr (.inr ⟨bearer, _, rfl, by decide, rfl⟩)
      split
      · exact .inl rfl
      cases retried : reqRetry attempts bearer req built with
      | ok next =>
        exact .inr (.inl ⟨bearer, req, next, rfl, slot, reqRetry_sends retried, rfl⟩)
      | error err =>
        exact .inr (.inr ⟨bearer, err, rfl, reqRetry_fails retried, rfl⟩)

theorem onErrorRsp_cases (link : AttLink) (flags : AttFlags)
    (attempts : Attempts) (bearer : AttBearer) (error : Nat) (elevated : Bool)
    (rx : Option (Nat × Byte)) :
    (∃ req, bearer.slot = .own req ∧ error ≠ 0 ∧
        link.onErrorRsp flags attempts bearer error elevated rx =
          (link.change bearer.index fun bearer =>
            { bearer with slot := .own { req with retrying := true } }, [])) ∨
      ∃ err, link.onErrorRsp flags attempts bearer error elevated rx =
          link.handleRsp attempts bearer err rx ∧
        ∀ req, bearer.slot = .own req → err = error := by
  unfold onErrorRsp
  cases slot : bearer.slot with
  | idle => exact .inr ⟨0x0e, rfl, fun _ own => by cases own⟩
  | cancelled => exact .inr ⟨0x0e, rfl, fun _ own => by cases own⟩
  | own req =>
    by_cases upgraded : (flags.smp && link.changeSecurity error elevated) = true
    · refine .inl ⟨req, rfl, ?_, if_pos upgraded⟩
      rintro rfl
      simp [changeSecurity, attErrInsufficientEncryption,
        attErrAuthentication] at upgraded
    · exact .inr ⟨error, if_neg upgraded, fun _ _ => rfl⟩

theorem dispatch_cases (link : AttLink) (flags : AttFlags) (attempts : Attempts)
    (bearer : AttBearer) (op : AttOp) (type : AttType) (payload : List Byte)
    (elevated : Bool) (rx : Option (Nat × Byte)) :
    (link.dispatch flags attempts bearer op type payload elevated rx =
        (link, []) ∧ op.completes type payload = false) ∨
      (∃ req, bearer.slot = .own req ∧
        link.dispatch flags attempts bearer op type payload elevated rx =
          (link.change bearer.index fun bearer =>
            { bearer with slot := .own { req with retrying := true } }, []) ∧
        op.completes type payload = false) ∨
      ∃ err, link.dispatch flags attempts bearer op type payload elevated rx =
          link.handleRsp attempts bearer err rx ∧
        ∀ req, bearer.slot = .own req →
          (err = 0 ↔ op.completes type payload = true) := by
  unfold dispatch AttOp.completes
  split
  · rcases onErrorRsp_cases link flags attempts bearer
      (payload.getD 3 0).toNat elevated rx with
      ⟨req, slot, fails, same⟩ | ⟨err, same, told⟩
    · exact .inr (.inl ⟨req, slot, same, decide_eq_false fails⟩)
    refine .inr (.inr ⟨err, same, ?_⟩)
    intro req slot
    rw [told req slot, decide_eq_true_iff]
  · refine .inr (.inr ⟨_, rfl, ?_⟩)
    intro req slot
    rw [decide_eq_true_iff]
    split <;> omega
  · by_cases answers : type = .response ∨ type = .confirmation
    · refine .inr (.inr ⟨0, if_pos answers, ?_⟩)
      intro req slot
      simp [answers]
    · exact .inl ⟨if_neg answers, decide_eq_false answers⟩

/-- A received PDU does nothing to the requests, makes the outstanding one wait
for a retry, or ends it, with an error or as `completes` says. -/
theorem onRecv_cases (link : AttLink) (flags : AttFlags) (attempts : Attempts)
    (index : Nat) (data : List Byte) (elevated : Bool) :
    (link.onRecv flags attempts index data elevated = (link, []) ∧
        ∀ bearer req, link.find index = some bearer → bearer.slot = .own req →
          completes flags data = false) ∨
      (∃ bearer req, link.find index = some bearer ∧ bearer.slot = .own req ∧
        link.onRecv flags attempts index data elevated =
          (link.change bearer.index fun bearer =>
            { bearer with slot := .own { req with retrying := true } }, []) ∧
        completes flags data = false) ∨
      ∃ bearer code payload err, link.find index = some bearer ∧
        data = code :: payload ∧
        link.onRecv flags attempts index data elevated =
          link.handleRsp attempts bearer err (some (index, code)) ∧
        ∀ req, bearer.slot = .own req → (err = 0 ↔ completes flags data = true) := by
  unfold onRecv
  cases found : link.find index with
  | none => exact .inl ⟨rfl, fun _ _ none => by cases none⟩
  | some bearer =>
    cases data with
    | nil => exact .inl ⟨rfl, fun _ _ _ _ => rfl⟩
    | cons code payload =>
      simp only [completes]
      cases known : AttOp.ofCode code with
      | none => exact .inl ⟨rfl, fun _ _ _ _ => rfl⟩
      | some op =>
        cases handled : attHandler flags op with
        | none => exact .inl ⟨by simp only [handled], by simp [handled]⟩
        | some handler =>
          simp only [handled]
          by_cases short : payload.length < handler.expectLen
          · exact .inl ⟨by simp [short], by simp [short]⟩
          have enough : handler.expectLen ≤ payload.length := by omega
          rw [if_neg short, decide_eq_true enough, Bool.true_and]
          rcases dispatch_cases link flags attempts bearer op
            handler.type payload elevated (some (index, code)) with
            ⟨same, silent⟩ | ⟨req, slot, same, silent⟩ | ⟨err, same, exactly⟩
          · exact .inl ⟨same, fun _ _ _ _ => silent⟩
          · exact .inr (.inl ⟨bearer, req, rfl, slot, same, silent⟩)
          · exact .inr (.inr ⟨bearer, code, payload, err, rfl, rfl, same, exactly⟩)

end AttLink

def attLinkMachine (flags : AttFlags) :
    Machine AttLink AttLinkInput AttLinkOutput :=
  ⟨fun link input => link.step flags input⟩

end ZephyrBluetooth.Host
