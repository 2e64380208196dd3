import ZephyrBluetooth.Data.Machine

namespace ZephyrBluetooth.Host

open Data

/-! RFCOMM (`rfcomm.c`): the sessions of one device, the DLC objects of the
application, and the TX threads of the DLCs. -/

/-- `BT_RFCOMM_STATE_*`, of sessions and of DLCs. -/
inductive RfcommState where
  | idle
  | init
  | securityPending
  | connecting
  | connected
  | config
  | userDisconnect
  | disconnecting
  | disconnected
  deriving DecidableEq

inductive RfcommRole where
  | acceptor
  | initiator
  deriving DecidableEq

/-- `bt_rfcomm_cfc_t`. -/
inductive RfcommCfc where
  | unknown
  | notSupported
  | supported
  deriving DecidableEq

/-- `enum security_result`. -/
inductive RfcommSecurity where
  | passed
  | reject
  | pending
  deriving DecidableEq

/-- A frame of a session.  `uih` carries the data of a DLC, with a credit byte or
without one; messages of the multiplexer come as commands or responses. -/
inductive RfcommFrame where
  | sabm (dlci : Nat)
  | ua (dlci : Nat)
  | dm (dlci : Nat)
  | disc (dlci : Nat)
  | uih (dlci : Nat) (credits : Option Nat) (len : Nat)
  | pn (cmd : Bool) (dlci mtu flowCtrl credits : Nat)
  | msc (cmd : Bool) (dlci signal : Nat)
  | rls (cmd : Bool) (dlci status : Nat)
  | rpn (cmd : Bool) (values : Nat)
  | test (cmd : Bool) (len : Nat)
  | fcon (cmd : Bool)
  | fcoff (cmd : Bool)
  | other (type : Nat)

namespace RfcommFrame

/-- `struct bt_rfcomm_hdr`, and a second byte for a length over
`BT_RFCOMM_MAX_LEN_8`. -/
def hdrSize (len : Nat) : Nat :=
  if len ≤ 127 then 3 else 4

def fcsSize : Nat := 1

/-- A message on DLCI 0 after its header `struct bt_rfcomm_msg_hdr`. -/
def msgSize (len : Nat) : Nat :=
  3 + 2 + len + fcsSize

def size : RfcommFrame → Nat
  | .sabm _ | .ua _ | .dm _ | .disc _ => 3 + fcsSize
  | .uih _ credits len => hdrSize len + credits.toList.length + len + fcsSize
  | .pn .. => msgSize 8
  | .msc .. | .rls .. => msgSize 2
  | .rpn _ values => msgSize values
  | .test _ len => msgSize len
  | .fcon _ | .fcoff _ => msgSize 0
  | .other _ => msgSize 1

end RfcommFrame

/-- Where a TX thread stands.  `noWait` says that it does not wait for another
buffer; `len` is the data of the buffer that it took. -/
inductive RfcommTxAt where
  | loop (noWait : Bool)
  | wait (noWait : Bool)
  | credits (noWait : Bool) (len : Nat)
  | fc (noWait : Bool) (len : Nat)
  | send (noWait : Bool) (len : Nat)
  | exit

/-- What the application and the stack tell each other about a DLC: it is handed
over, given back by a failing call, and called back about. -/
inductive RfcommCall where
  | taken
  | returned
  | connected
  | disconnected

/-- `struct bt_rfcomm_session`.  `conn` says that the channel has a connection
and `up` that packets can be sent on it; `timer` that the timer of `rtx_work` runs,
and `expired` that the work is queued, where a cancel does nothing. -/
structure RfcommSession (dlcs : Nat) where
  conn : Bool
  up : Bool
  txMtu : Nat
  mtu : Nat
  state : RfcommState
  role : RfcommRole
  cfc : RfcommCfc
  fc : Bool
  dlcs : List (Fin dlcs)
  timer : Bool
  expired : Bool

/-- `struct bt_rfcomm_dlc`.  `binary` is the limit of `tx_credits`; a buffer of
`tx_queue` is its data, or the dummy that wakes the thread. -/
structure RfcommDlc (sessions : Nat) where
  session : Option (Fin sessions)
  state : RfcommState
  role : RfcommRole
  dlci : Nat
  mtu : Nat
  rxCredit : Nat
  txCredits : Nat
  binary : Bool
  txQueue : List (Option Nat)
  threads : List RfcommTxAt
  timer : Bool
  expired : Bool
  calls : List RfcommCall

namespace RfcommSession

variable {dlcs : Nat} (session : RfcommSession dlcs)

def withState (state : RfcommState) : RfcommSession dlcs :=
  { session with state := state }

def withDlcs (list : List (Fin dlcs)) : RfcommSession dlcs :=
  { session with dlcs := list }

def startRtx : RfcommSession dlcs := { session with timer := true }

/-- `k_work_cancel_delayable`. -/
def cancelRtx : RfcommSession dlcs :=
  { session with timer := session.timer && session.expired }

def withRtx (timer expired : Bool) : RfcommSession dlcs :=
  { session with timer := timer, expired := expired }

def withCfc (cfc : RfcommCfc) : RfcommSession dlcs :=
  { session with cfc := cfc }

def withFc (fc : Bool) : RfcommSession dlcs :=
  { session with fc := fc }

def withMtu (txMtu mtu : Nat) : RfcommSession dlcs :=
  { session with txMtu := txMtu, mtu := mtu }

def withLink (conn up : Bool) : RfcommSession dlcs :=
  { session with conn := conn, up := up }

/-- `rfcomm_session_new`. -/
def opened (role : RfcommRole) : RfcommSession dlcs :=
  { session with
    state := .init
    role := role
    cfc := .unknown
    fc := false
    timer := false
    expired := false }

end RfcommSession

namespace RfcommDlc

variable {sessions : Nat} (dlc : RfcommDlc sessions)

def withState (state : RfcommState) : RfcommDlc sessions :=
  { dlc with state := state }

def withMtu (mtu : Nat) : RfcommDlc sessions :=
  { dlc with mtu := mtu }

def startRtx : RfcommDlc sessions := { dlc with timer := true }

def cancelRtx : RfcommDlc sessions :=
  { dlc with timer := dlc.timer && dlc.expired }

def withRtx (timer expired : Bool) : RfcommDlc sessions :=
  { dlc with timer := timer, expired := expired }

def withRxCredit (credit : Nat) : RfcommDlc sessions :=
  { dlc with rxCredit := credit }

/-- `k_sem_init` of `tx_credits`. -/
def withTxCredits (credits : Nat) (binary : Bool) : RfcommDlc sessions :=
  { dlc with txCredits := credits, binary := binary }

def withTxQueue (queue : List (Option Nat)) : RfcommDlc sessions :=
  { dlc with txQueue := queue }

def withThreads (threads : List RfcommTxAt) : RfcommDlc sessions :=
  { dlc with threads := threads }

def called (call : RfcommCall) : RfcommDlc sessions :=
  { dlc with calls := dlc.calls ++ [call] }

def withoutSession : RfcommDlc sessions :=
  { dlc with session := none, state := .idle }

def giveCredits (credits : Nat) : RfcommDlc sessions :=
  dlc.withTxCredits (if dlc.binary then min 1 (dlc.txCredits + credits)
      else dlc.txCredits + credits) dlc.binary

def sending : Bool :=
  dlc.state = .connected ∨ dlc.state = .userDisconnect

end RfcommDlc

/-- `faulted` is set where the source reads through a null session or queues a null
buffer, and `dummy` says that `dummy_pool` has buffers. -/
structure RfcommWorld where
  faulted : Bool
  dummy : Bool

/-- `out` are the frames of the current step, and `tooLong` says that a frame was
over the MTU of its channel. -/
structure RfcommHost (sessions dlcs : Nat) where
  session : Fin sessions → RfcommSession dlcs
  dlc : Fin dlcs → RfcommDlc sessions
  out : List (Fin sessions × RfcommFrame)
  tooLong : Bool
  world : RfcommWorld

/-- `RFCOMM_MAX_CREDITS`, one less than `CONFIG_BT_BUF_ACL_RX_COUNT`. -/
structure RfcommConfig where
  maxCredits : Nat
  range : maxCredits < 64

abbrev RfcommAccept (dlcs : Nat) := Option (Fin dlcs × Nat)

/-- What the rest of the system answers while a frame is handled; `left` is the
result of `bt_l2cap_chan_disconnect`. -/
structure RfcommEnv (dlcs : Nat) where
  accept : RfcommAccept dlcs
  security : Fin dlcs → RfcommSecurity
  left : Bool

inductive RfcommInput (sessions dlcs : Nat) where
  | accept (s : Fin sessions)
  | connected (s : Fin sessions) (rxMtu txMtu : Nat)
  | linkDown (s : Fin sessions)
  | disconnected (s : Fin sessions)
  | recv (s : Fin sessions) (frame : RfcommFrame) (env : RfcommEnv dlcs)
  | encryptChange (s : Fin sessions) (passed : Fin dlcs → Bool)
  | dlcConnect (d : Fin dlcs) (s : Fin sessions) (channel mtu : Nat)
      (security : RfcommSecurity) (chan : Bool)
  | dlcDisconnect (d : Fin dlcs)
  | dlcSend (d : Fin dlcs) (len : Nat)
  | txThread (d : Fin dlcs) (index : Nat)
  | dlcExpire (d : Fin dlcs)
  | dlcTimeout (d : Fin dlcs)
  | sessionExpire (s : Fin sessions)
  | sessionTimeout (s : Fin sessions) (left : Bool)
  | dummyPool (free : Bool)

namespace RfcommHost

variable {sessions dlcs : Nat} (cfg : RfcommConfig)
variable (host : RfcommHost sessions dlcs)

def boot : RfcommHost sessions dlcs where
  session := fun _ =>
    ⟨false, false, 0, 0, .idle, .acceptor, .unknown, false, [], false, false⟩
  dlc := fun _ => ⟨none, .idle, .acceptor, 0, 0, 0, 0, false, [], [], false, false,
    []⟩
  out := []
  tooLong := false
  world := ⟨false, true⟩

def defaultV24Sig : Nat := 0x8d

def pnCfcCmd : Nat := 0xf0

def pnCfcResp : Nat := 0xe0

def checkMtu (mtu : Nat) : Bool :=
  23 ≤ mtu ∧ mtu ≤ 32767

def dlciOf (role : RfcommRole) (channel : Nat) : Nat :=
  2 * channel + if role = .acceptor then 1 else 0

def setSession (s : Fin sessions) (session : RfcommSession dlcs) :
    RfcommHost sessions dlcs :=
  { host with session := Function.update host.session s session }

def setDlc (d : Fin dlcs) (dlc : RfcommDlc sessions) :
    RfcommHost sessions dlcs :=
  { host with dlc := Function.update host.dlc d dlc }

def fault : RfcommHost sessions dlcs :=
  { host with world := { host.world with faulted := true } }

/-- What a function does with `dlc->session`. -/
def onSession (d : Fin dlcs)
    (act : Fin sessions → RfcommHost sessions dlcs) :
    RfcommHost sessions dlcs :=
  match (host.dlc d).session with
  | none => host.fault
  | some s => act s

/-- Whether `bt_l2cap_chan_send` takes a frame. -/
def sendOk (s : Fin sessions) (frame : RfcommFrame) : Bool :=
  (host.session s).up ∧ frame.size ≤ (host.session s).txMtu

def send (s : Fin sessions) (frame : RfcommFrame) : RfcommHost sessions dlcs :=
  if host.sendOk s frame then { host with out := host.out ++ [(s, frame)] }
  else
    { host with
      tooLong := host.tooLong || decide ((host.session s).txMtu < frame.size) }

/-- `rfcomm_dlcs_lookup_dlci` on the list of a session. -/
def lookupDlci (s : Fin sessions) (dlci : Nat) : Option (Fin dlcs) :=
  (host.session s).dlcs.find? fun d => (host.dlc d).dlci = dlci

/-- `rfcomm_dlcs_remove_dlci`; the list of the first DLC's session changes when
the first DLC is removed. -/
def removeDlci (s : Fin sessions) (dlci : Nat) : RfcommHost sessions dlcs :=
  match (host.session s).dlcs with
  | [] => host
  | first :: rest =>
    if (host.dlc first).dlci = dlci then
      host.onSession first fun other =>
        host.setSession other ((host.session other).withDlcs rest)
    else
      host.setSession s ((host.session s).withDlcs
        (first :: rest.eraseP fun d => (host.dlc d).dlci = dlci))

def dlcDestroy (d : Fin dlcs) : RfcommHost sessions dlcs :=
  host.setDlc d ((host.dlc d).cancelRtx.withoutSession.called .disconnected)

/-- `rfcomm_dlc_disconnect`: the thread of a connected DLC is woken with a dummy
buffer and a dummy credit. -/
def dlcDisconnect (d : Fin dlcs) : RfcommHost sessions dlcs :=
  let dlc := host.dlc d
  match dlc.state with
  | .disconnected => host
  | .connected =>
    if host.world.dummy then
      let woken := host.setDlc d (((dlc.withState .disconnected).withTxQueue
        (dlc.txQueue ++ [none])).giveCredits 1)
      woken.onSession d fun s =>
        woken.setSession s ((woken.session s).withFc true)
    else host.fault
  | _ => (host.setDlc d (dlc.withState .disconnected)).dlcDestroy d

def dlcsDisconnect : List (Fin dlcs) → RfcommHost sessions dlcs →
    RfcommHost sessions dlcs
  | [], host => host
  | d :: rest, host => dlcsDisconnect rest (host.dlcDisconnect d)

def sessionDisconnected (s : Fin sessions) : RfcommHost sessions dlcs :=
  if (host.session s).state = .disconnected then host
  else
    let gone := dlcsDisconnect (host.session s).dlcs host
    gone.setSession s (((gone.session s).withState .disconnected).withDlcs [])

def sessionDisconnect (s : Fin sessions) : RfcommHost sessions dlcs :=
  if (host.session s).dlcs ≠ [] then host
  else
    let leaving := (host.setSession s
      ((host.session s).withState .disconnecting)).send s (.disc 0)
    leaving.setSession s (leaving.session s).startRtx

def connected (s : Fin sessions) (rxMtu txMtu : Nat) :
    RfcommHost sessions dlcs :=
  let ready := host.setSession s
    ((host.session s).withMtu txMtu (min rxMtu txMtu - 4 + 1))
  if (host.session s).state = .connecting then ready.send s (.sabm 0)
  else ready

/-- `rfcomm_disconnected`; L2CAP drops the connection of the channel. -/
def disconnected (s : Fin sessions) : RfcommHost sessions dlcs :=
  let gone := (host.setSession s
    (host.session s).cancelRtx).sessionDisconnected s
  gone.setSession s (((gone.session s).withState .idle).withLink false false)

def dlcRtxTimeout (d : Fin dlcs) : RfcommHost sessions dlcs :=
  if (host.dlc d).expired then
    let taken := host.setDlc d ((host.dlc d).withRtx (host.dlc d).timer false)
    taken.onSession d fun s =>
      ((taken.removeDlci s (host.dlc d).dlci).dlcDisconnect d).sessionDisconnect s
  else host

def dlcInit (d : Fin dlcs) (s : Fin sessions) (dlci : Nat)
    (role : RfcommRole) : RfcommHost sessions dlcs :=
  (host.setDlc d
    { host.dlc d with
      dlci := dlci
      session := some s
      rxCredit := cfg.maxCredits
      state := .init
      role := role
      timer := true
      expired := false }).setSession s
    ((host.session s).withDlcs (d :: (host.session s).dlcs))

def offered (d : Fin dlcs) (mtu : Nat) : RfcommHost sessions dlcs :=
  host.setDlc d (((host.dlc d).withMtu mtu).called .taken)

def Unused (d : Fin dlcs) : Prop :=
  (host.dlc d).session = none ∧ (host.dlc d).state = .idle

instance (d : Fin dlcs) : Decidable (host.Unused d) :=
  inferInstanceAs (Decidable (_ ∧ _))

/-- The DLC of `rfcomm_dlc_accept`. -/
def accepted : RfcommAccept dlcs → Option (Fin dlcs)
  | some (d, mtu) => if host.Unused d ∧ checkMtu mtu then some d else none
  | none => none

def dlcAccept (s : Fin sessions) (dlci : Nat) :
    RfcommAccept dlcs → RfcommHost sessions dlcs
  | none => host
  | some (d, mtu) =>
    if ¬host.Unused d then host
    else
      let given := host.offered d mtu
      if ¬checkMtu mtu then given.dlcDestroy d
      else
        let ready := given.dlcInit cfg d s dlci .acceptor
        ready.setDlc d ((ready.dlc d).withMtu
          (min (ready.dlc d).mtu (ready.session s).mtu))

def settleCfc (s : Fin sessions) : RfcommHost sessions dlcs :=
  if (host.session s).cfc = .unknown then
    host.setSession s ((host.session s).withCfc .notSupported)
  else host

/-- Without credits `tx_credits` is a binary semaphore. -/
def startFlow (s : Fin sessions) (d : Fin dlcs) : RfcommHost sessions dlcs :=
  if (host.session s).cfc = .notSupported then
    let on := host.send s (.fcon true)
    on.setDlc d ((on.dlc d).withTxCredits 0 true)
  else host

def startThread (d : Fin dlcs) : RfcommHost sessions dlcs :=
  host.setDlc d ((((host.dlc d).cancelRtx.withTxQueue []).withThreads
    ((host.dlc d).threads ++ [.loop false])).called .connected)

def dlcConnected (d : Fin dlcs) : RfcommHost sessions dlcs :=
  let entered := host.setDlc d ((host.dlc d).withState .connected)
  entered.onSession d fun s =>
    (((entered.send s (.msc true (host.dlc d).dlci defaultV24Sig)).settleCfc
      s).startFlow s d).startThread d

def dlcDrop (d : Fin dlcs) : RfcommHost sessions dlcs :=
  host.onSession d fun s =>
    (host.removeDlci s (host.dlc d).dlci).dlcDestroy d

def dlcClose (d : Fin dlcs) : RfcommHost sessions dlcs :=
  let dlc := host.dlc d
  match dlc.state with
  | .securityPending =>
    if dlc.role = .acceptor then
      host.onSession d fun s => (host.send s (.dm dlc.dlci)).dlcDrop d
    else host.dlcDrop d
  | .init => host.dlcDrop d
  | .connecting | .config =>
    let closing := host.setDlc d (dlc.withState .disconnecting)
    closing.onSession d fun s =>
      let told := closing.send s (.disc dlc.dlci)
      told.setDlc d (told.dlc d).startRtx
  | .connected =>
    if host.world.dummy then
      host.setDlc d (((dlc.withState .disconnecting).withTxQueue
        (dlc.txQueue ++ [none])).giveCredits 1)
    else host.fault
  | _ => host

def handleSabm (s : Fin sessions) (dlci : Nat) (accept : RfcommAccept dlcs)
    (security : RfcommSecurity) : RfcommHost sessions dlcs :=
  let proceed (d : Fin dlcs) (now : RfcommHost sessions dlcs) :=
    match security with
    | .pending => now.setDlc d ((now.dlc d).withState .securityPending)
    | .reject => (now.send s (.dm dlci)).dlcDrop d
    | .passed =>
      if now.sendOk s (.ua dlci) then
        let told := now.send s (.ua dlci)
        (told.setSession s (told.session s).cancelRtx).dlcConnected d
      else now.send s (.ua dlci)
  if dlci = 0 then
    if host.sendOk s (.ua 0) then
      let told := host.send s (.ua 0)
      told.setSession s ((told.session s).withState .connected)
    else host.send s (.ua 0)
  else
    match host.lookupDlci s dlci with
    | some d => proceed d host
    | none =>
      match host.accepted accept with
      | none => (host.dlcAccept cfg s dlci accept).send s (.dm dlci)
      | some d => proceed d (host.dlcAccept cfg s dlci accept)

def sendPn (d : Fin dlcs) (cmd : Bool) : RfcommHost sessions dlcs :=
  host.onSession d fun s =>
    let dlc := host.dlc d
    if dlc.state = .config ∧ (host.session s).cfc ≠ .notSupported then
      host.send s (.pn cmd dlc.dlci dlc.mtu
        (if cmd then pnCfcCmd else pnCfcResp) dlc.rxCredit)
    else host.send s (.pn cmd dlc.dlci dlc.mtu 0 0)

/-- `rfcomm_dlc_start`, for a DLC whose security is decided. -/
def dlcConfigure (d : Fin dlcs) : RfcommHost sessions dlcs :=
  host.onSession d fun s =>
    (host.setDlc d (((host.dlc d).withMtu
      (min (host.dlc d).mtu (host.session s).mtu)).withState .config)).sendPn d true

/-- `rfcomm_dlc_start` but for its error. -/
def dlcStart (d : Fin dlcs) : RfcommSecurity → RfcommHost sessions dlcs
  | .passed => host.dlcConfigure d
  | .pending => host.setDlc d ((host.dlc d).withState .securityPending)
  | .reject => host

def startAll (security : Fin dlcs → RfcommSecurity) :
    List (Fin dlcs) → RfcommHost sessions dlcs → RfcommHost sessions dlcs
  | [], host => host
  | d :: rest, host =>
    startAll security rest
      (if (host.dlc d).role = .initiator ∧ (host.dlc d).state = .init then
        if security d = .reject then host.dlcDrop d
        else host.dlcStart d (security d)
      else host)

def handleUa (s : Fin sessions) (dlci : Nat)
    (security : Fin dlcs → RfcommSecurity) (left : Bool) :
    RfcommHost sessions dlcs :=
  if dlci = 0 then
    match (host.session s).state with
    | .connecting =>
      let entered := host.setSession s ((host.session s).withState .connected)
      (startAll security (host.session s).dlcs entered).sessionDisconnect s
    | .disconnecting =>
      host.setSession s (((host.session s).withState
        (if left then .disconnected else .idle)).cancelRtx)
    | _ => host
  else
    match host.lookupDlci s dlci with
    | none => host
    | some d =>
      match (host.dlc d).state with
      | .connecting => host.dlcConnected d
      | .disconnecting => (host.dlcDrop d).sessionDisconnect s
      | _ => host

def handleDm (s : Fin sessions) (dlci : Nat) : RfcommHost sessions dlcs :=
  match host.lookupDlci s dlci with
  | none => host
  | some d => ((host.removeDlci s dlci).dlcDisconnect d).sessionDisconnect s

def handleMsc (s : Fin sessions) (cmd : Bool) (dlci signal : Nat) :
    RfcommHost sessions dlcs :=
  match host.lookupDlci s dlci with
  | none => host
  | some d =>
    if ¬cmd then host
    else
      host.onSession d fun own =>
        let flowing :=
          if (host.session own).cfc = .notSupported then
            if signal.testBit 1 then
              host.setDlc d ((host.dlc d).withTxCredits
                ((host.dlc d).txCredits - 1) (host.dlc d).binary)
            else host.setDlc d ((host.dlc d).giveCredits 1)
          else host
        flowing.send own (.msc false (host.dlc d).dlci signal)

def handleRls (s : Fin sessions) (cmd : Bool) (dlci status : Nat) :
    RfcommHost sessions dlcs :=
  if ¬cmd then host
  else
    match host.lookupDlci s dlci with
    | none => host
    | some d =>
      host.onSession d fun own =>
        host.send own (.rls false (host.dlc d).dlci status)

/-- `rfcomm_handle_pn` takes the credits of the peer, or learns that it has
none. -/
def agreePn (s : Fin sessions) (d : Fin dlcs) (flow : Bool) (credits : Nat) :
    RfcommHost sessions dlcs :=
  if flow then
    let agreed :=
      if (host.session s).cfc = .unknown then
        host.setSession s ((host.session s).withCfc .supported)
      else host
    agreed.setDlc d (((agreed.dlc d).withTxCredits 0 false).giveCredits credits)
  else host.setSession s ((host.session s).withCfc .notSupported)

def handlePn (s : Fin sessions) (cmd : Bool)
    (dlci mtu flowCtrl credits : Nat) (accept : RfcommAccept dlcs) :
    RfcommHost sessions dlcs :=
  match host.lookupDlci s dlci with
  | none =>
    if ¬cmd then host
    else if ¬checkMtu mtu then host.send s (.dm dlci)
    else
      match host.accepted accept with
      | none => (host.dlcAccept cfg s dlci accept).send s (.dm dlci)
      | some d =>
        let taken := host.dlcAccept cfg s dlci accept
        let sized := taken.setDlc d ((taken.dlc d).withMtu
          (min (taken.dlc d).mtu mtu))
        let agreed := sized.agreePn s d (flowCtrl = pnCfcCmd) credits
        let told := (agreed.setDlc d ((agreed.dlc d).withState
          .config)).sendPn d false
        told.setSession s (told.session s).cancelRtx
  | some d =>
    if cmd then
      if ¬checkMtu mtu then host.dlcClose d
      else
        (host.setDlc d ((host.dlc d).withMtu
          (min (host.dlc d).mtu mtu))).sendPn d false
    else if (host.dlc d).state ≠ .config then host
    else
      let sized := host.setDlc d ((host.dlc d).withMtu (min (host.dlc d).mtu mtu))
      let agreed := sized.agreePn s d (flowCtrl = pnCfcResp) credits
      (agreed.setDlc d ((agreed.dlc d).withState .connecting)).send s
        (.sabm (host.dlc d).dlci)

def handleDisc (s : Fin sessions) (dlci : Nat) : RfcommHost sessions dlcs :=
  if dlci = 0 then
    ((host.setSession s (host.session s).cancelRtx).send s
      (.ua 0)).sessionDisconnected s
  else
    match host.lookupDlci s dlci with
    | none => host.send s (.dm dlci)
    | some d =>
      let gone := ((host.removeDlci s dlci).send s (.ua dlci)).dlcDisconnect d
      if (gone.session s).dlcs = [] then
        gone.onSession d fun own =>
          gone.setSession own (gone.session own).startRtx
      else gone

/-- `rfcomm_handle_msg`, for the messages without a handler of their own. -/
def handleMsg (s : Fin sessions) : RfcommFrame → RfcommHost sessions dlcs
  | .rpn cmd values =>
    if cmd ∧ (values = 8 ∨ values = 1) then host.send s (.rpn false 8)
    else host
  | .test cmd len => if cmd then host.send s (.test false len) else host
  | .fcon cmd =>
    if (host.session s).cfc = .supported ∨ ¬cmd then host
    else
      (host.setSession s ((host.session s).withFc true)).send s (.fcon false)
  | .fcoff cmd =>
    if (host.session s).cfc = .supported ∨ ¬cmd then host
    else
      (host.setSession s ((host.session s).withFc false)).send s (.fcoff false)
  | .other type => host.send s (.other type)
  | _ => host

def creditsThreshold : Nat := cfg.maxCredits / 2

def dlcUpdateCredits (d : Fin dlcs) : RfcommHost sessions dlcs :=
  host.onSession d fun s =>
    let dlc := host.dlc d
    if (host.session s).cfc = .notSupported ∨
        creditsThreshold cfg < dlc.rxCredit then host
    else
      (host.setDlc d (dlc.withRxCredit cfg.maxCredits)).send s
        (.uih dlc.dlci (some (cfg.maxCredits - dlc.rxCredit)) 0)

def handleData (s : Fin sessions) (dlci : Nat) (credits : Option Nat)
    (len : Nat) : RfcommHost sessions dlcs :=
  match host.lookupDlci s dlci with
  | none => host.send s (.dm dlci)
  | some d =>
    if (host.dlc d).state ≠ .connected then host
    else
      let given := host.setDlc d ((host.dlc d).giveCredits (credits.getD 0))
      if len = 0 then given
      else
        given.onSession d fun own =>
          if (given.session own).cfc = .supported ∧ (given.dlc d).rxCredit = 0 then
            given.dlcClose d
          else
            (given.setDlc d ((given.dlc d).withRxCredit
              (((given.dlc d).rxCredit + 255) % 256))).dlcUpdateCredits cfg d

def recv (s : Fin sessions) (frame : RfcommFrame) (env : RfcommEnv dlcs) :
    RfcommHost sessions dlcs :=
  match frame with
  | .sabm dlci =>
    let target := (host.lookupDlci s dlci).or (host.accepted env.accept)
    host.handleSabm cfg s dlci env.accept (match target with
        | some d => env.security d
        | none => .reject)
  | .ua dlci => host.handleUa s dlci env.security env.left
  | .dm dlci => host.handleDm s dlci
  | .disc dlci => host.handleDisc s dlci
  | .uih dlci credits len =>
    if dlci = 0 then host else host.handleData cfg s dlci credits len
  | .pn cmd dlci mtu flowCtrl credits =>
    host.handlePn cfg s cmd dlci mtu flowCtrl credits env.accept
  | .msc cmd dlci signal => host.handleMsc s cmd dlci signal
  | .rls cmd dlci status => host.handleRls s cmd dlci status
  | message => host.handleMsg s message

/-- One DLC of the loop of `rfcomm_encrypt_change`. -/
def encryptChangeDlc (s : Fin sessions) (d : Fin dlcs) (passed : Bool) :
    RfcommHost sessions dlcs :=
  if (host.dlc d).state ≠ .securityPending then host
  else if ¬passed then host.dlcClose d
  else if (host.dlc d).role = .acceptor then
    (host.send s (.ua (host.dlc d).dlci)).dlcConnected d
  else
    (host.setDlc d (((host.dlc d).withMtu
      (min (host.dlc d).mtu (host.session s).mtu)).withState .config)).sendPn d true

def encryptChange (s : Fin sessions) (passed : Fin dlcs → Bool) :
    List (Fin dlcs) → RfcommHost sessions dlcs → RfcommHost sessions dlcs
  | [], host => host
  | d :: rest, host =>
    encryptChange s passed rest (host.encryptChangeDlc s d (passed d))

def sessionRtxTimeout (s : Fin sessions) (left : Bool) :
    RfcommHost sessions dlcs :=
  if (host.session s).expired then
    let taken := host.setSession s
      ((host.session s).withRtx (host.session s).timer false)
    match (host.session s).state with
    | .connected => taken.sessionDisconnect s
    | .disconnecting =>
      taken.setSession s ((taken.session s).withState
        (if left then .disconnected else .idle))
    | _ => taken
  else host

/-- The label `fail` of `bt_rfcomm_dlc_connect`. -/
def connectFail (s : Fin sessions) (d : Fin dlcs) : RfcommHost sessions dlcs :=
  let removed := host.removeDlci s (host.dlc d).dlci
  removed.setDlc d ((removed.dlc d).withoutSession.called .returned)

/-- `bt_rfcomm_dlc_connect`, on the session of the connection or on one that is
free; `chan` is the result of `bt_l2cap_chan_connect`. -/
def dlcConnect (d : Fin dlcs) (s : Fin sessions) (channel mtu : Nat)
    (security : RfcommSecurity) (chan : Bool) : RfcommHost sessions dlcs :=
  if channel = 0 ∨ 30 < channel ∨ ¬checkMtu mtu ∨ ¬host.Unused d then host
  else
    let found :=
      if (host.session s).conn then host
      else host.setSession s ((host.session s).opened .initiator)
    let dlci := dlciOf (found.session s).role channel
    if (found.lookupDlci s dlci).isSome then found
    else
      let ready := (found.offered d mtu).dlcInit cfg d s dlci .initiator
      match (ready.session s).state with
      | .init =>
        if (ready.session s).role = .acceptor then ready
        else if chan then
          ready.setSession s (((ready.session s).withState
            .connecting).withLink true true)
        else
          (ready.setSession s ((ready.session s).withState .idle)).connectFail s d
      | .connecting => ready
      | .connected =>
        if security = .reject then ready.connectFail s d
        else
          let started := ready.dlcStart d security
          started.setSession s (started.session s).cancelRtx
      | _ => ready.connectFail s d

/-- `bt_rfcomm_dlc_disconnect`. -/
def userDisconnect (d : Fin dlcs) : RfcommHost sessions dlcs :=
  if (host.dlc d).state = .connected then
    if host.world.dummy then
      host.setDlc d ((((host.dlc d).withState .userDisconnect).withTxQueue
        ((host.dlc d).txQueue ++ [none])).startRtx)
    else host.fault
  else host.dlcClose d

def dlcSend (d : Fin dlcs) (len : Nat) : RfcommHost sessions dlcs :=
  if (host.dlc d).state ≠ .connected ∨ (host.dlc d).mtu < len then host
  else
    host.setDlc d ((host.dlc d).withTxQueue ((host.dlc d).txQueue ++ [some len]))

def setThread (d : Fin dlcs) (index : Nat) (now : RfcommTxAt) :
    RfcommHost sessions dlcs :=
  host.setDlc d ((host.dlc d).withThreads ((host.dlc d).threads.set index now))

/-- The end of `rfcomm_dlc_tx_thread`. -/
def txThreadExit (d : Fin dlcs) (index : Nat) : RfcommHost sessions dlcs :=
  let dlc := ((host.dlc d).withTxQueue []).withThreads
    ((host.dlc d).threads.eraseIdx index)
  if dlc.state = .userDisconnect ∨ dlc.state = .disconnecting then
    let leaving := host.setDlc d (dlc.withState .disconnecting)
    leaving.onSession d fun s =>
      let told := leaving.send s (.disc dlc.dlci)
      told.setDlc d (told.dlc d).startRtx
  else (host.setDlc d dlc).dlcDestroy d

/-- A step of `rfcomm_dlc_tx_thread`. -/
def dlcTxThread (d : Fin dlcs) (index : Nat) : RfcommHost sessions dlcs :=
  let dlc := host.dlc d
  match dlc.threads[index]? with
  | none => host
  | some (.loop noWait) =>
    host.setThread d index (if dlc.sending then .wait noWait else .exit)
  | some (.wait noWait) =>
    match dlc.txQueue with
    | [] => if noWait then host.setThread d index .exit else host
    | buf :: rest =>
      let taken := host.setDlc d (dlc.withTxQueue rest)
      match buf with
      | none => taken.setThread d index .exit
      | some len =>
        taken.setThread d index (if dlc.sending then .credits noWait len else .exit)
  | some (.credits noWait len) =>
    if dlc.txCredits = 0 then host
    else
      let taken := host.setDlc d (dlc.withTxCredits (dlc.txCredits - 1) dlc.binary)
      taken.onSession d fun s =>
        taken.setThread d index
          (if (host.session s).cfc = .supported then .send noWait len
            else .fc noWait len)
  | some (.fc noWait len) =>
    host.onSession d fun s =>
      if (host.session s).fc then
        (host.setDlc d (dlc.giveCredits 1)).setThread d index (.send noWait len)
      else host
  | some (.send noWait len) =>
    if ¬dlc.sending then host.setThread d index .exit
    else
      host.onSession d fun s =>
        let told := host.send s (.uih dlc.dlci none len)
        if host.sendOk s (.uih dlc.dlci none len) then
          told.setThread d index
            (.loop (noWait || decide (dlc.state = .userDisconnect)))
        else
          (told.setDlc d (dlc.withState .disconnected)).setThread d index .exit
  | some .exit => host.txThreadExit d index

/-- `rfcomm_accept`, for a channel that a peer opens. -/
def sessionAccept (s : Fin sessions) : RfcommHost sessions dlcs :=
  if (host.session s).conn then host
  else
    host.setSession s (((host.session s).opened .acceptor).withLink true true)

def onChan (s : Fin sessions) (handled : RfcommHost sessions dlcs) :
    RfcommHost sessions dlcs :=
  if (host.session s).conn then handled else host

def sent : RfcommHost sessions dlcs :=
  { host with out := [] }

def handle (host : RfcommHost sessions dlcs) :
    RfcommInput sessions dlcs → RfcommHost sessions dlcs
  | .accept s => host.sessionAccept s
  | .connected s rxMtu txMtu => host.onChan s (host.connected s rxMtu txMtu)
  | .linkDown s =>
    host.setSession s ((host.session s).withLink (host.session s).conn false)
  | .disconnected s => host.onChan s (host.disconnected s)
  | .recv s frame env => host.onChan s (host.recv cfg s frame env)
  | .encryptChange s passed =>
    host.onChan s (encryptChange s passed (host.session s).dlcs host)
  | .dlcConnect d s channel mtu security chan =>
    host.dlcConnect cfg d s channel mtu security chan
  | .dlcDisconnect d => host.userDisconnect d
  | .dlcSend d len => host.dlcSend d len
  | .txThread d index => host.dlcTxThread d index
  | .dlcExpire d =>
    if (host.dlc d).timer then host.setDlc d ((host.dlc d).withRtx false true)
    else host
  | .dlcTimeout d => host.dlcRtxTimeout d
  | .sessionExpire s =>
    if (host.session s).timer then
      host.setSession s ((host.session s).withRtx false true)
    else host
  | .sessionTimeout s left => host.sessionRtxTimeout s left
  | .dummyPool free => { host with world := { host.world with dummy := free } }

end RfcommHost

end ZephyrBluetooth.Host
