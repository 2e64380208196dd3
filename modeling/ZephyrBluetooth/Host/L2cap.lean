import ZephyrBluetooth.Data.Machine

namespace ZephyrBluetooth.Host

open Data List Function

/-! Channels of one LE connection and its signalling commands (`l2cap.c`).
Channel objects have addresses and outlive the connection; `channels` is the
list the connection keeps of them. -/

structure LeEndpoint where
  cid : Nat
  mtu : Nat
  mps : Nat
  initCredits : Nat
  credits : Nat

def LeEndpoint.zero : LeEndpoint := ⟨0, 0, 0, 0, 0⟩

inductive L2capChanState where
  | disconnected
  | connect
  | config
  | connected
  | disconnect
  deriving DecidableEq

inductive L2capRequest where
  | leConn
  | ecredConn
  | reconf
  | disconn
  deriving DecidableEq

/-- `attached` says that `conn` is set, `rtx` that the response timer was started
and not cancelled since, and `expired` that its work is queued, where a cancel does
not reach it.  `request` is no field of the source: it is the request that was
sent for the channel and has not been answered. -/
structure LeChan where
  attached : Bool
  state : L2capChanState
  psm : Nat
  ident : Nat
  requiredSecLevel : Nat
  encryptPending : Bool
  rtx : Bool
  expired : Bool
  rx : LeEndpoint
  tx : LeEndpoint
  pendingRxMtu : Nat
  recv : Bool
  allocBuf : Bool
  request : Option L2capRequest

def LeChan.connecting (chan : LeChan) : Bool :=
  chan.request = some .leConn ∨ chan.request = some .ecredConn

structure L2capServer where
  psm : Nat
  secLevel : Nat

/-- `BT_L2CAP_RX_MTU` and `L2CAP_LE_MAX_CREDITS`. -/
structure L2capConfig where
  rxMtu : Nat
  maxCredits : Nat

/-- `halted` is set where the source writes through a null pointer. -/
structure L2capConn where
  chan : Nat → LeChan
  channels : List Nat
  ident : Nat
  secLevel : Nat
  servers : List L2capServer
  halted : Bool

/-- What the rest of the system answers during one step.  Buffers and sends
are told apart by the identifier of their command. -/
structure L2capEnv where
  alloc : Nat → Bool
  send : Nat → Bool
  setSecurity : Nat → Bool
  ltkPresent : Bool
  accept : Nat → Except Nat Nat

namespace L2cap

def cidDynStart : Nat := 0x40

def cidDynEnd : Nat := 0x7f

def isDyn (cid : Nat) : Bool := cidDynStart ≤ cid && cid ≤ cidDynEnd

/-- ATT, signalling and SMP; the objects of the fixed channels have the
channel's identifier as their address. -/
def fixedCids : List Nat := [4, 5, 6]

def cidLeSig : Nat := 5

def ecredChanMax : Nat := 5

def leMinMtu : Nat := 23

def ecredMinMtu : Nat := 64

def sduHdrSize : Nat := 2

def success : Nat := 0x0000

def errNoResources : Nat := 0x0004

def errAuthentication : Nat := 0x0005

def errEncryption : Nat := 0x0008

def errInvalidScid : Nat := 0x0009

def errScidInUse : Nat := 0x000A

def errUnacceptParams : Nat := 0x000B

end L2cap

/-- `bt_l2cap_chan_set_state` to connected, with the state it left and whether
a connection request was being answered. -/
inductive L2capEvent where
  | connected (address : Nat) (prior : L2capChanState) (pending : Bool)

namespace L2capConn

open L2cap

variable (conn : L2capConn)

def set (address : Nat) (change : LeChan → LeChan) : L2capConn :=
  { conn with
    chan := update conn.chan address (change (conn.chan address)) }

def nextIdent : Nat :=
  if (conn.ident + 1) % 256 = 0 then 1 else (conn.ident + 1) % 256

def getIdent : L2capConn := { conn with ident := conn.nextIdent }

def lookupIdent (ident : Nat) : Option Nat :=
  conn.channels.find? fun address => (conn.chan address).ident = ident

def lookupTxCid (cid : Nat) : Option Nat :=
  conn.channels.find? fun address => (conn.chan address).tx.cid = cid

def lookupRxCid (cid : Nat) : Option Nat :=
  conn.channels.find? fun address => (conn.chan address).rx.cid = cid

def chanRemove (address : Nat) : L2capConn :=
  { conn with channels := conn.channels.erase address }

/-- `bt_l2cap_chan_del`.  The destroy handler of dynamic channels and the
disconnected handler of the signalling channel cancel the timer. -/
def chanDel (address : Nat) : L2capConn :=
  conn.set address fun chan =>
    { chan with
      attached := false
      state := .disconnected
      psm := 0
      rtx := chan.rtx && address ∈ fixedCids && address ≠ cidLeSig
      request := none }

def allocCid (address : Nat) : Option L2capConn :=
  if 0 < (conn.chan address).rx.cid then some conn
  else
    match (List.range' cidDynStart (cidDynEnd + 1 - cidDynStart)).find? fun cid =>
        (conn.lookupRxCid cid).isNone with
    | some cid =>
      some (conn.set address fun chan =>
        { chan with rx := { chan.rx with cid } })
    | none => none

/-- The timer is set up again, which also takes its work back. -/
def attachChan (chan : LeChan) : LeChan :=
  { chan with
    rtx := false
    expired := false
    encryptPending := false
    attached := true
    state := if isDyn chan.rx.cid then .connect else chan.state }

def chanLink (address : Nat) : L2capConn :=
  { conn.set address attachChan with channels := conn.channels ++ [address] }

def chanAdd (address : Nat) : Option L2capConn :=
  (conn.allocCid address).map fun conn => conn.chanLink address

def chanTxInit (address : Nat) : L2capConn :=
  conn.set address fun chan => { chan with tx := .zero }

/-- `ops->alloc_buf` decides whether the MTU is cut down to one segment. -/
def rxInit (config : L2capConfig) (chan : LeChan) : LeChan :=
  let mtu := if chan.rx.mtu = 0 then config.rxMtu - sduHdrSize else chan.rx.mtu
  let mps := min (mtu + sduHdrSize) config.rxMtu
  let mtu :=
    if !chan.allocBuf && mps < mtu + sduHdrSize then mps - sduHdrSize else mtu
  let initCredits :=
    if chan.rx.initCredits = 0 then
      if chan.allocBuf then (mtu + config.rxMtu - 1) / config.rxMtu
      else config.maxCredits
    else chan.rx.initCredits
  { chan with
    rx := { chan.rx with mtu, mps, initCredits, credits := 0 } }

def chanRxInit (config : L2capConfig) (address : Nat) : L2capConn :=
  conn.set address (rxInit config)

/-- `l2cap_chan_send_req`: the timer starts when the command was sent. -/
def chanSendReq (env : L2capEnv) (ident address : Nat) : L2capConn :=
  if env.send ident then
    conn.set address fun chan => { chan with rtx := true }
  else conn

def noteRequest (env : L2capEnv) (ident : Nat) (request : L2capRequest)
    (address : Nat) : L2capConn :=
  if env.send ident then
    conn.set address fun chan => { chan with request := some request }
  else conn

def setIdent (ident address : Nat) : L2capConn :=
  conn.set address fun chan => { chan with ident }

/-- `l2cap_le_conn_req`, with whether it returned 0. -/
def leConnReqSend (env : L2capEnv) (address : Nat) : L2capConn × Bool :=
  let ident := conn.nextIdent
  let drawn := conn.getIdent.setIdent ident address
  if env.alloc ident then
    ((drawn.noteRequest env ident .leConn address).chanSendReq env ident
      address, true)
  else (drawn, false)

/-- `l2cap_ecred_conn_req`: the result of the allocation is not tested. -/
def ecredConnReqSend (env : L2capEnv) : List Nat → L2capConn
  | [] => conn
  | first :: rest =>
    let ident := conn.nextIdent
    let drawn := conn.getIdent
    if env.alloc ident then
      let numbered := (first :: rest).foldl (setIdent · ident) drawn
      let noted := (first :: rest).foldl
        (noteRequest · env ident .ecredConn) numbered
      noted.chanSendReq env ident first
    else { drawn with halted := true }

def chanDisconnect (env : L2capEnv) (address : Nat) : L2capConn :=
  if (conn.chan address).attached then
    let ident := conn.nextIdent
    let drawn := conn.getIdent.setIdent ident address
    if env.alloc ident then
      ((drawn.noteRequest env ident .disconn address).chanSendReq env ident
        address).set address fun chan => { chan with state := .disconnect }
    else drawn
  else conn

def chanConnect (config : L2capConfig) (env : L2capEnv) (address psm : Nat) :
    L2capConn :=
  if 4 < (conn.chan address).requiredSecLevel then conn
  else
    let raised := conn.set address fun chan =>
      { chan with requiredSecLevel := max chan.requiredSecLevel 1 }
    if psm < 0x0001 ∨ 0x00ff < psm then raised
    else
      let ready := (raised.chanTxInit address).chanRxInit config address
      match ready.chanAdd address with
      | none => ready
      | some added =>
        let added := added.set address fun chan => { chan with psm }
        if added.secLevel < (added.chan address).requiredSecLevel then
          if env.setSecurity address then
            added.set address fun chan => { chan with encryptPending := true }
          else (added.chanRemove address).chanDel address
        else
          match added.leConnReqSend env address with
          | (sent, true) => sent
          | (failed, false) => (failed.chanRemove address).chanDel address

def ecredInit (config : L2capConfig) (address psm : Nat) :
    L2capConn × Bool :=
  if psm < 0x0001 ∨ 0x00ff < psm then (conn, false)
  else
    let ready := (conn.chanTxInit address).chanRxInit config address
    match ready.chanAdd address with
    | none => (ready, false)
    | some added => (added.set address fun chan => { chan with psm }, true)

/-- The loop of `bt_l2cap_ecred_chan_connect`; on failure the channels added
so far are taken off the list. -/
def ecredInitAll (config : L2capConfig) (psm : Nat) :
    List Nat → List Nat → L2capConn → L2capConn × Bool
  | _, [], conn => (conn, true)
  | added, address :: rest, conn =>
    match conn.ecredInit config address psm with
    | (ready, true) => ecredInitAll config psm (address :: added) rest ready
    | (failed, false) => (added.foldl chanRemove failed, false)

def ecredChanConnect (config : L2capConfig) (env : L2capEnv)
    (chans : List Nat) (psm : Nat) : L2capConn :=
  match ecredInitAll config psm [] (chans.take ecredChanMax) conn with
  | (ready, true) => ready.ecredConnReqSend env (chans.take ecredChanMax)
  | (failed, false) => failed

def reconfigureAllowed (mtu : Nat) : Bool → List Nat → Bool
  | attached, [] => attached
  | attached, address :: rest =>
    (!attached || (conn.chan address).attached) &&
      (conn.chan address).rx.mtu ≤ mtu &&
      reconfigureAllowed mtu (attached || (conn.chan address).attached) rest

def findPendingReconf : Option Nat :=
  conn.channels.find? fun address => (conn.chan address).pendingRxMtu ≠ 0

def pendReconf (ident mtu : Nat) (chan : LeChan) : LeChan :=
  { chan with ident, pendingRxMtu := mtu }

def ecredChanReconfigure (env : L2capEnv) (chans : List Nat) (mtu : Nat) :
    L2capConn :=
  match chans.take ecredChanMax with
  | [] => conn
  | first :: rest =>
    if !conn.reconfigureAllowed mtu false (first :: rest) then conn
    else if conn.findPendingReconf.isSome then conn
    else
      let ident := conn.nextIdent
      let drawn := conn.getIdent
      if env.alloc ident then
        let numbered := (first :: rest).foldl
          (fun conn address => conn.set address (pendReconf ident mtu)) drawn
        if (numbered.chan first).attached then
          let noted := (first :: rest).foldl
            (noteRequest · env ident .reconf) numbered
          noted.chanSendReq env ident first
        else { numbered with halted := true }
      else drawn

/-- `l2cap_chan_tx_give_credits` and `l2cap_chan_rx_give_credits`. -/
def giveTxCredits (credits : Nat) (chan : LeChan) : LeChan :=
  { chan with tx := { chan.tx with credits := chan.tx.credits + credits } }

def giveRxCredits (credits : Nat) (chan : LeChan) : LeChan :=
  { chan with rx := { chan.rx with credits := chan.rx.credits + credits } }

def cancelRtx (chan : LeChan) : LeChan := { chan with rtx := false }

def forgetRequest (chan : LeChan) : LeChan := { chan with request := none }

def establish (dcid mtu mps credits : Nat) (chan : LeChan) : LeChan :=
  giveRxCredits chan.rx.initCredits (giveTxCredits credits
    { chan with
      tx := { chan.tx with cid := dcid, mtu, mps }
      ident := 0
      state := .connected
      request := none })

def acceptChan (config : L2capConfig) (server : L2capServer)
    (scid mtu mps credits : Nat) (chan : LeChan) : LeChan :=
  let chan := rxInit config { chan with tx := ⟨scid, mtu, mps, credits, credits⟩ }
  { giveRxCredits chan.rx.initCredits chan with
    psm := server.psm
    state := .connected }

def serverLookupPsm (psm : Nat) : Option L2capServer :=
  conn.servers.find? fun server => server.psm = psm

def checkSecurity (env : L2capEnv) (server : L2capServer) : Nat :=
  if server.secLevel ≤ conn.secLevel then success
  else if 1 < conn.secLevel then errAuthentication
  else if env.ltkPresent then errEncryption
  else errAuthentication

/-- The accept callback hands out a channel object of the application that is
released; the CID it may have kept is a dynamic one. -/
def offered (env : L2capEnv) (index : Nat) : Except Nat Nat :=
  match env.accept index with
  | .ok address =>
    if (conn.chan address).attached ∨ address ∈ conn.channels ∨
        address ∈ fixedCids ∨ ¬((conn.chan address).rx.cid = 0 ∨
          isDyn (conn.chan address).rx.cid) then .error errNoResources
    else .ok address
  | .error result => .error result

def chanAccept (config : L2capConfig) (env : L2capEnv) (server : L2capServer)
    (index scid mtu mps credits : Nat) :
    L2capConn × List L2capEvent × Except Nat Nat :=
  if !isDyn scid then (conn, [], .error errInvalidScid)
  else if (conn.lookupTxCid scid).isSome then (conn, [], .error errScidInUse)
  else
    match conn.offered env index with
    | .error result => (conn, [], .error result)
    | .ok address =>
      if !(conn.chan address).recv then (conn, [], .error errUnacceptParams)
      else
        let leveled := conn.set address fun chan =>
          { chan with requiredSecLevel := server.secLevel }
        match leveled.chanAdd address with
        | none => (leveled, [], .error errNoResources)
        | some added =>
          (added.set address (acceptChan config server scid mtu mps credits),
            [.connected address (added.chan address).state true],
            .ok address)

def leConnReq (config : L2capConfig) (env : L2capEnv)
    (ident psm scid mtu mps credits : Nat) : L2capConn × List L2capEvent :=
  if mtu < leMinMtu ∨ mps < leMinMtu then (conn, [])
  else if !env.alloc ident then (conn, [])
  else
    match conn.serverLookupPsm psm with
    | none => (conn, [])
    | some server =>
      if conn.checkSecurity env server ≠ success then (conn, [])
      else
        let (accepted, events, _) :=
          conn.chanAccept config env server 0 scid mtu mps credits
        (accepted, events)

def ecredAcceptAll (config : L2capConfig) (env : L2capEnv)
    (server : L2capServer) (mtu mps credits : Nat) :
    Nat → List Nat → L2capConn → L2capConn × List L2capEvent
  | _, [], conn => (conn, [])
  | index, scid :: rest, conn =>
    let (accepted, events, _) :=
      conn.chanAccept config env server index scid mtu mps credits
    let (all, later) :=
      ecredAcceptAll config env server mtu mps credits (index + 1) rest accepted
    (all, events ++ later)

/-- `le_ecred_conn_req`; whether the response could be sent changes nothing. -/
def ecredConnReq (config : L2capConfig) (env : L2capEnv)
    (psm mtu mps credits : Nat) (scids : List Nat) :
    L2capConn × List L2capEvent :=
  if ecredChanMax < scids.length then (conn, [])
  else if mtu < ecredMinMtu ∨ mps < ecredMinMtu then (conn, [])
  else
    match conn.serverLookupPsm psm with
    | none => (conn, [])
    | some server =>
      if conn.checkSecurity env server ≠ success then (conn, [])
      else ecredAcceptAll config env server mtu mps credits 0 scids conn

def reconfTargets (mtu : Nat) : List Nat → Option (List Nat)
  | [] => some []
  | scid :: rest =>
    match conn.lookupTxCid scid with
    | none => none
    | some address =>
      if mtu < (conn.chan address).tx.mtu then none
      else (reconfTargets mtu rest).map (address :: ·)

/-- `le_ecred_reconf_req`: the buffer of the response is not tested. -/
def ecredReconfReq (env : L2capEnv) (ident mtu mps : Nat) (scids : List Nat) :
    L2capConn :=
  let changed :=
    if mps < ecredMinMtu ∨ mtu < ecredMinMtu then conn
    else
      match conn.reconfTargets mtu scids with
      | none => conn
      | some chans =>
        if (chans.any fun address => mps < (conn.chan address).tx.mps) &&
            1 < chans.length then conn
        else
          chans.foldl (fun conn address => conn.set address fun chan =>
            { chan with tx := { chan.tx with mtu, mps } }) conn
  if env.alloc ident then changed else { changed with halted := true }

def raisable (err : Nat) : Bool :=
  if err = errEncryption then decide (conn.secLevel < 2)
  else if err = errAuthentication then decide (conn.secLevel < 4)
  else false

/-- `l2cap_change_security`, with whether it returned 0. -/
def changeSecurity (env : L2capEnv) (address err : Nat) : L2capConn × Bool :=
  if !(conn.chan address).encryptPending && conn.raisable err &&
      env.setSecurity address then
    (conn.set address fun chan => { chan with encryptPending := true }, true)
  else (conn, false)

def answered (ident : Nat) : L2capConn :=
  conn.channels.foldl (fun conn address =>
    if (conn.chan address).ident = ident then conn.set address forgetRequest
    else conn) conn

/-- The loop of `le_ecred_conn_rsp` for results about security. -/
def ecredSecure (env : L2capEnv) (ident result : Nat) :
    Nat → L2capConn → L2capConn
  | 0, conn => conn
  | fuel + 1, conn =>
    match conn.lookupIdent ident with
    | none => conn
    | some address =>
      let canceled := conn.set address cancelRtx
      match canceled.changeSecurity env address result with
      | (pending, true) => pending.answered ident
      | (refused, false) =>
        ecredSecure env ident result fuel
          ((refused.chanRemove address).chanDel address)

/-- The loop for results with connected channels.  The destination CIDs are
the response's, followed by what the memory behind it holds. -/
def ecredComplete (env : L2capEnv) (ident mtu mps credits : Nat)
    (dcids : Nat → Nat) :
    Nat → Nat → L2capConn → L2capConn × List L2capEvent
  | 0, _, conn => (conn, [])
  | fuel + 1, index, conn =>
    match conn.lookupIdent ident with
    | none => (conn, [])
    | some address =>
      let canceled := conn.set address cancelRtx
      if dcids index = 0 then
        ecredComplete env ident mtu mps credits dcids fuel (index + 1)
          ((canceled.chanRemove address).chanDel address)
      else
        match canceled.lookupTxCid (dcids index) with
        | some other =>
          ecredComplete env ident mtu mps credits dcids fuel (index + 1)
            (((canceled.chanRemove address).chanDel
              address).chanDisconnect env other)
        | none =>
          let (finished, events) :=
            ecredComplete env ident mtu mps credits dcids fuel (index + 1)
              (canceled.set address (establish (dcids index) mtu mps credits))
          (finished, .connected address (conn.chan address).state
              (conn.chan address).connecting :: events)

/-- The loop `while ((chan = l2cap_remove_ident(conn, ident)))`. -/
def dropIdent (ident : Nat) : Nat → L2capConn → L2capConn
  | 0, conn => conn
  | fuel + 1, conn =>
    match conn.lookupIdent ident with
    | none => conn
    | some address =>
      dropIdent ident fuel ((conn.chanRemove address).chanDel address)

/-- Each pass takes a channel off the list, or takes the identifier away from
one; only a pass of the first kind gives it to another. -/
def ecredFuel : Nat := 3 * conn.channels.length

def ecredConnRsp (env : L2capEnv) (ident mtu mps credits result : Nat)
    (dcids : Nat → Nat) : L2capConn × List L2capEvent :=
  if result = errAuthentication ∨ result = errEncryption then
    (ecredSecure env ident result conn.channels.length conn, [])
  else if result = success ∨ result = errInvalidScid ∨
      result = errScidInUse ∨ result = errNoResources then
    ecredComplete env ident mtu mps credits dcids conn.ecredFuel 0 conn
  else (dropIdent ident conn.channels.length conn, [])

def leConnRsp (env : L2capEnv) (ident dcid mtu mps credits result : Nat) :
    L2capConn × List L2capEvent :=
  match conn.lookupIdent ident with
  | none => (conn, [])
  | some address =>
    let taken :=
      if result = success ∨ result = errAuthentication ∨
          result = errEncryption then conn
      else conn.chanRemove address
    let reset := taken.set address fun chan =>
      { chan with rtx := false, ident := 0, request := none }
    if result = success then
      (reset.set address (establish dcid mtu mps credits),
        [.connected address (conn.chan address).state
          (conn.chan address).connecting])
    else if result = errAuthentication ∨ result = errEncryption then
      match reset.changeSecurity env address result with
      | (pending, true) => (pending, [])
      | (refused, false) => ((refused.chanRemove address).chanDel address, [])
    else (reset.chanDel address, [])

/-- `l2cap_remove_rx_cid` protects the fixed channels. -/
def findDyn (cid : Nat) : Option Nat :=
  if isDyn cid then conn.lookupRxCid cid else none

def disconnReq (env : L2capEnv) (ident dcid : Nat) : L2capConn :=
  match conn.findDyn dcid with
  | none => conn
  | some address =>
    if env.alloc ident then (conn.chanRemove address).chanDel address
    else conn.chanRemove address

def disconnRsp (scid : Nat) : L2capConn :=
  match conn.findDyn scid with
  | none => conn
  | some address => (conn.chanRemove address).chanDel address

def leCredits (env : L2capEnv) (cid credits : Nat) : L2capConn :=
  match conn.lookupTxCid cid with
  | none => conn
  | some address =>
    if 0xffff < (conn.chan address).tx.credits + credits then
      conn.chanDisconnect env address
    else conn.set address (giveTxCredits credits)

/-- `reject_cmd` takes one channel off. -/
def rejectCmd (ident : Nat) : L2capConn :=
  match conn.lookupIdent ident with
  | none => conn
  | some address => ((conn.answered ident).chanRemove address).chanDel address

def reconfigured (result : Nat) (chan : LeChan) : LeChan :=
  { chan with
    rx := if result = success then { chan.rx with mtu := chan.pendingRxMtu }
      else chan.rx
    pendingRxMtu := 0
    ident := 0
    request := none }

/-- `le_ecred_reconf_rsp`. -/
def reconfDone (ident result : Nat) : Nat → L2capConn → L2capConn
  | 0, conn => conn
  | fuel + 1, conn =>
    match conn.lookupIdent ident with
    | none => conn
    | some address =>
      reconfDone ident result fuel (conn.set address (reconfigured result))

def ecredReconfRsp (ident result : Nat) : L2capConn :=
  reconfDone ident result conn.channels.length conn

/-- `l2cap_rtx_timeout` takes the other channels of the identifier along. -/
def rtxTimeout (address : Nat) : L2capConn :=
  let fired := conn.set address cancelRtx
  if (conn.chan address).attached then
    let gone := (fired.chanRemove address).chanDel address
    dropIdent (conn.chan address).ident gone.channels.length gone
  else { fired with halted := true }

def unlinkIdent (ident : Nat) : Nat → L2capConn → L2capConn × List Nat
  | 0, conn => (conn, [])
  | fuel + 1, conn =>
    match conn.lookupIdent ident with
    | none => (conn, [])
    | some address =>
      let (unlinked, others) :=
        unlinkIdent ident fuel (conn.chanRemove address)
      (unlinked, address :: others)

def encryptChange (env : L2capEnv) (failed : Bool) (address : Nat) :
    L2capConn :=
  if !(conn.chan address).encryptPending then conn
  else
    let cleared := conn.set address fun chan =>
      { chan with encryptPending := false }
    if failed then (cleared.chanRemove address).chanDel address
    else if (conn.chan address).ident ≠ 0 then
      let (unlinked, group) := unlinkIdent (conn.chan address).ident
        cleared.channels.length cleared
      unlinked.ecredConnReqSend env group
    else
      match cleared.leConnReqSend env address with
      | (sent, true) => sent
      | (refused, false) => (refused.chanRemove address).chanDel address

def nodeAfter (address : Nat) : List Nat → Option Nat
  | [] => none
  | head :: rest => if head = address then rest.head? else nodeAfter address rest

/-- `bt_l2cap_security_changed` reads the next node before it visits one. -/
def securityLoop (env : L2capEnv) (failed : Bool) :
    Nat → Option Nat → L2capConn → L2capConn
  | 0, _, conn => conn
  | _ + 1, none, conn => conn
  | fuel + 1, some address, conn =>
    securityLoop env failed fuel (nodeAfter address conn.channels)
      (conn.encryptChange env failed address)

def securityChanged (env : L2capEnv) (failed : Bool) (secLevel : Nat) :
    L2capConn :=
  let raised := { conn with secLevel }
  securityLoop env failed conn.channels.length raised.channels.head? raised

def fixedChan (cid : Nat) : LeChan :=
  { attached := true
    state := .disconnected
    psm := 0
    ident := 0
    requiredSecLevel := 0
    encryptPending := false
    rtx := false
    expired := false
    rx := { LeEndpoint.zero with cid }
    tx := { LeEndpoint.zero with cid }
    pendingRxMtu := 0
    recv := true
    allocBuf := false
    request := none }

def linkUp (fixed : List Nat) : L2capConn :=
  { conn with
    chan := fun address =>
      if address ∈ fixed then fixedChan address else conn.chan address
    channels := fixed
    secLevel := 1 }

/-- `bt_l2cap_disconnected` deletes every channel; the next link starts with
the fixed channels that accept it. -/
def newLink (accepts : Nat → Bool) : L2capConn :=
  (conn.channels.foldl chanDel conn).linkUp (fixedCids.filter accepts)

end L2capConn

inductive L2capSignal where
  | leConnReq (psm scid mtu mps credits : Nat)
  | leConnRsp (dcid mtu mps credits result : Nat)
  | disconnReq (dcid scid : Nat)
  | disconnRsp (dcid scid : Nat)
  | leCredits (cid credits : Nat)
  | cmdReject
  | ecredConnReq (psm mtu mps credits : Nat) (scids : List Nat)
  | ecredConnRsp (mtu mps credits result : Nat) (dcids : Nat → Nat)
  | ecredReconfReq (mtu mps : Nat) (scids : List Nat)
  | ecredReconfRsp (result : Nat)

/-- `layOut` is what the application, or another connection, leaves in a
released object: it may keep a dynamic CID and an identifier.  The work queue runs
the handler `timeout` some time after the timer did `expire`. -/
inductive L2capInput where
  | layOut (address : Nat) (chan : LeChan)
  | connect (address psm : Nat)
  | ecredConnect (chans : List Nat) (psm : Nat)
  | reconfigure (chans : List Nat) (mtu : Nat)
  | disconnect (address : Nat)
  | signal (ident : Nat) (signal : L2capSignal)
  | expire (address : Nat)
  | timeout (address : Nat)
  | securityChanged (failed : Bool) (secLevel : Nat)
  | newLink (accepts : Nat → Bool)

namespace L2capConn

open L2cap

variable (conn : L2capConn)

def releasedChan (chan old : LeChan) : LeChan :=
  { chan with
    attached := false
    state := .disconnected
    rtx := false
    expired := old.expired
    request := none }

def Released (address : Nat) : Prop :=
  (conn.chan address).attached = false ∧ address ∉ conn.channels ∧
    address ∉ fixedCids

instance (address : Nat) : Decidable (conn.Released address) :=
  inferInstanceAs (Decidable (_ ∧ _))

/-- `l2cap_recv`, reached while the signalling channel is listed. -/
def recvSignal (config : L2capConfig) (env : L2capEnv) (ident : Nat)
    (signal : L2capSignal) : L2capConn × List L2capEvent :=
  if (conn.lookupRxCid cidLeSig).isNone ∨ ident = 0 then (conn, [])
  else
    match signal with
    | .leConnReq psm scid mtu mps credits =>
      conn.leConnReq config env ident psm scid mtu mps credits
    | .leConnRsp dcid mtu mps credits result =>
      conn.leConnRsp env ident dcid mtu mps credits result
    | .disconnReq dcid _ => (conn.disconnReq env ident dcid, [])
    | .disconnRsp _ scid => (conn.disconnRsp scid, [])
    | .leCredits cid credits => (conn.leCredits env cid credits, [])
    | .cmdReject => (conn.rejectCmd ident, [])
    | .ecredConnReq psm mtu mps credits scids =>
      conn.ecredConnReq config env psm mtu mps credits scids
    | .ecredConnRsp mtu mps credits result dcids =>
      conn.ecredConnRsp env ident mtu mps credits result dcids
    | .ecredReconfReq mtu mps scids =>
      (conn.ecredReconfReq env ident mtu mps scids, [])
    | .ecredReconfRsp result => (conn.ecredReconfRsp ident result, [])

def step (config : L2capConfig) (env : L2capEnv) :
    L2capInput → L2capConn × List L2capEvent
  | .layOut address chan =>
    if conn.Released address ∧ (chan.rx.cid = 0 ∨ isDyn chan.rx.cid) then
      (conn.set address (releasedChan chan), [])
    else (conn, [])
  | .connect address psm =>
    if conn.Released address then
      (conn.chanConnect config env address psm, [])
    else (conn, [])
  | .ecredConnect chans psm =>
    if chans.Nodup ∧ ∀ address ∈ chans, conn.Released address then
      (conn.ecredChanConnect config env chans psm, [])
    else (conn, [])
  | .reconfigure chans mtu =>
    if ∀ address ∈ chans, address ∉ fixedCids then
      (conn.ecredChanReconfigure env chans mtu, [])
    else (conn, [])
  | .disconnect address =>
    if address ∉ fixedCids then (conn.chanDisconnect env address, [])
    else (conn, [])
  | .signal ident signal => conn.recvSignal config env ident signal
  | .expire address =>
    if (conn.chan address).rtx then
      (conn.set address fun chan => { chan with expired := true }, [])
    else (conn, [])
  | .timeout address =>
    if (conn.chan address).expired then
      let taken := conn.set address fun chan => { chan with expired := false }
      (taken.rtxTimeout address, [])
    else (conn, [])
  | .securityChanged failed secLevel =>
    (conn.securityChanged env failed secLevel, [])
  | .newLink accepts => (conn.newLink accepts, [])

def blankChan : LeChan :=
  { fixedChan 0 with attached := false }

def start (servers : List L2capServer) (accepts : Nat → Bool) : L2capConn :=
  linkUp
    { chan := fun _ => blankChan
      channels := []
      ident := 0
      secLevel := 1
      servers
      halted := false }
    (fixedCids.filter accepts)

end L2capConn

/-- A step takes its input together with the environment's answers; nothing
runs any more once a null pointer was written. -/
def l2capMachine (config : L2capConfig) :
    Machine L2capConn (L2capEnv × L2capInput) L2capEvent where
  step conn input :=
    if conn.halted then (conn, []) else conn.step config input.1 input.2

namespace L2capConn

variable (conn : L2capConn) (address : Nat) (change : LeChan → LeChan)

@[simp] theorem set_channels :
    (conn.set address change).channels = conn.channels := rfl

@[simp] theorem set_chan_self :
    (conn.set address change).chan address = change (conn.chan address) :=
  update_self _ _ _

theorem set_chan_ne {other : Nat} (different : other ≠ address) :
    (conn.set address change).chan other = conn.chan other :=
  update_of_ne different _ _

theorem set_same (same : change (conn.chan address) = conn.chan address) :
    conn.set address change = conn := by
  unfold set
  rw [same, update_eq_self]

@[simp] theorem getIdent_chan : conn.getIdent.chan = conn.chan := rfl

@[simp] theorem getIdent_channels :
    conn.getIdent.channels = conn.channels := rfl

@[simp] theorem chanRemove_chan :
    (conn.chanRemove address).chan = conn.chan := rfl

@[simp] theorem chanRemove_channels :
    (conn.chanRemove address).channels = conn.channels.erase address := rfl

@[simp] theorem chanDel_channels :
    (conn.chanDel address).channels = conn.channels := rfl

@[simp] theorem setIdent_channels (ident : Nat) :
    (conn.setIdent ident address).channels = conn.channels := rfl

@[simp] theorem chanSendReq_channels (env : L2capEnv) (ident : Nat) :
    (conn.chanSendReq env ident address).channels = conn.channels := by
  unfold chanSendReq
  split
  · rfl
  · rfl

@[simp] theorem noteRequest_channels (env : L2capEnv) (ident : Nat)
    (request : L2capRequest) :
    (conn.noteRequest env ident request address).channels = conn.channels := by
  unfold noteRequest
  split
  · rfl
  · rfl

structure Adds (conn : L2capConn) (address : Nat) (added : L2capConn) :
    Prop where
  channels : added.channels = conn.channels ++ [address]
  others : ∀ other, other ≠ address → added.chan other = conn.chan other
  chan : ∃ cid, added.chan address =
      attachChan { conn.chan address with
        rx := { (conn.chan address).rx with cid } } ∧
    ((0 < (conn.chan address).rx.cid ∧ cid = (conn.chan address).rx.cid) ∨
      ((conn.chan address).rx.cid = 0 ∧ L2cap.isDyn cid = true ∧
        conn.lookupRxCid cid = none))
  ident : added.ident = conn.ident
  halted : added.halted = conn.halted

variable {conn} {address}

theorem chanAdd_adds {added : L2capConn}
    (success : conn.chanAdd address = some added) : conn.Adds address added := by
  obtain ⟨_, found, rfl⟩ := Option.map_eq_some_iff.mp success
  unfold allocCid at found
  split at found
  · rename_i held
    cases found
    refine ⟨rfl, ?_, ⟨(conn.chan address).rx.cid, ?_, .inl ⟨held, rfl⟩⟩, rfl, rfl⟩
    · intro other different
      exact set_chan_ne conn address attachChan different
    · exact set_chan_self conn address attachChan
  · rename_i unset
    split at found
    · rename_i cid search
      cases found
      have isFree := find?_some search
      have inRange := mem_of_find?_eq_some search
      refine ⟨rfl, ?_, ⟨cid, ?_, .inr ⟨by omega, ?_, by simpa using isFree⟩⟩,
        rfl, rfl⟩
      · intro other different
        exact (set_chan_ne _ address attachChan different).trans
          (set_chan_ne conn address _ different)
      · refine (set_chan_self _ address attachChan).trans ?_
        rw [set_chan_self]
      · rw [mem_range'_1] at inRange
        unfold L2cap.isDyn
        rw [Bool.and_eq_true, decide_eq_true_eq, decide_eq_true_eq]
        omega
    · exact nomatch found

end L2capConn

end ZephyrBluetooth.Host
