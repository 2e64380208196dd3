import ZephyrBluetooth.Data.Slots
import ZephyrBluetooth.Mesh.FriendPoll
import ZephyrBluetooth.Mesh.NetPdu
import ZephyrBluetooth.Mesh.SegRx

namespace ZephyrBluetooth.Mesh

open Data List

/-! The buffers that a Friend holds for one Low Power node (`friend.c`): the
Friend Queue, the segments of incomplete messages and the last PDU sent. -/

/-- A buffer of `friend_buf_pool`, with `NET_BUF_FRAGS` of its flags. -/
structure FriendBuf where
  data : List Byte
  frags : Bool
  deriving DecidableEq

/-- `struct bt_mesh_friend_seg` -/
structure FrndSeg where
  queue : List FriendBuf
  segCount : Nat

def FrndSeg.empty : FrndSeg := ⟨[], 0⟩

/-- What a friendship has done: the messages that were queued, the operations on
its subscription list, and how many buffers it had when it took one. -/
structure FrndLog where
  accepted : List (List FriendBuf)
  subOps : List (SubOp × Nat)
  taken : List Nat

def FrndLog.empty : FrndLog := ⟨[], [], []⟩

/-- `struct bt_mesh_friend`.  `linked` tells whether `last->frags` still points
to the queue that the buffer was taken from, `leaked` counts the buffers that no
pointer reaches any more, and `faulted` tells whether a linked buffer was
released, which releases the queue behind it as well. -/
structure Frnd where
  lpn : Nat
  numElem : Nat
  netIdx : Option Nat
  fsn : Bool
  sendLast : Bool
  pendingReq : Bool
  pendingBuf : Bool
  established : Bool
  subList : List Nat
  seg : List FrndSeg
  last : Option FriendBuf
  linked : Bool
  queue : List FriendBuf
  queueSize : Nat
  leaked : Nat
  faulted : Bool
  log : FrndLog

structure FriendConfig where
  queueSize : Nat
  subListSize : Nat
  segRx : Nat
  lpnCount : Nat
  queueSize_pos : 2 ≤ queueSize
  queueSize_le : queueSize ≤ 65536
  lpnCount_le : lpnCount ≤ 1000

def FriendConfig.bufCount (cfg : FriendConfig) : Nat :=
  (cfg.queueSize + 1) * cfg.lpnCount

def Frnd.boot (cfg : FriendConfig) : Frnd where
  lpn := addrUnassigned
  numElem := 0
  netIdx := none
  fsn := false
  sendLast := false
  pendingReq := false
  pendingBuf := false
  established := false
  subList := List.replicate cfg.subListSize addrUnassigned
  seg := List.replicate cfg.segRx .empty
  last := none
  linked := false
  queue := []
  queueSize := 0
  leaked := 0
  faulted := false
  log := .empty

/-- What the layers around the Friend Queue answer.  `encrypt` is
`encrypt_friend_pdu`, with its success and what it leaves in the buffer. -/
structure FriendEnv where
  primary : Nat
  hasAddr : Nat → Bool
  enabled : Bool
  ivIndex : Nat
  ivuInProgress : Bool
  netFlags : Nat
  seq : Nat
  alloc : Bool
  encrypt : List Byte → Bool × List Byte
  advAlloc : Bool

structure FriendPduInfo where
  src : Nat
  dst : Nat
  seq : Nat
  ttl : Nat
  ctl : Bool
  ivIndex : Nat

/-- A lower transport PDU for the Low Power node: unsegmented, or the segment of
a message of `segN + 1` segments. -/
structure FriendSdu where
  type : FriendPduType
  segN : Fin 32
  seqAuth : Option Nat
  sbuf : List Byte

theorem one_lt_segments : 1 < 32 := by decide

def FriendSdu.segCount (sdu : FriendSdu) : Nat :=
  if sdu.type = .single then 1 else sdu.segN + 1

def dec32 (value : Nat) : Nat :=
  (value + 2 ^ 32 - 1) % 2 ^ 32

namespace Frnd

def segHeld (frnd : Frnd) : Nat :=
  (frnd.seg.map fun seg => seg.queue.length).sum

def held (frnd : Frnd) : Nat :=
  frnd.queue.length + frnd.segHeld + frnd.last.toList.length

def reserved (frnd : Frnd) : Nat :=
  (frnd.seg.map FrndSeg.segCount).sum

def isLpnUnicast (frnd : Frnd) (addr : Nat) : Bool :=
  frnd.lpn != addrUnassigned && decide (frnd.lpn ≤ addr) &&
    decide (addr < frnd.lpn + frnd.numElem)

/-- Whether `bt_mesh_friend_find` returns the allocated context. -/
def isFound (established : Bool) (netIdx addr : Nat) (frnd : Frnd) : Bool :=
  (!established || frnd.established) && frnd.netIdx == some netIdx &&
    frnd.isLpnUnicast addr

def matchesLpn (netIdx addr : Nat) (frnd : Frnd) : Bool :=
  if !frnd.established then
    false
  else if frnd.netIdx != some netIdx then
    false
  else if addrIsUnicast addr then
    frnd.isLpnUnicast addr
  else
    frnd.subList.contains addr

def unrefLast (frnd : Frnd) : Frnd :=
  { frnd with
    last := none
    linked := false
    faulted := frnd.faulted || frnd.last.isSome && frnd.linked }

def dropLast (frnd : Frnd) : Frnd :=
  { frnd with
    last := none
    linked := false
    leaked := frnd.leaked + frnd.last.toList.length }

def clear (frnd : Frnd) : Frnd :=
  { frnd.unrefLast with
    netIdx := none
    fsn := false
    pendingReq := false
    pendingBuf := false
    established := false
    subList := frnd.subList.map fun _ => addrUnassigned
    seg := frnd.seg.map fun _ => .empty
    queue := []
    queueSize := 0
    log := .empty }

def pduBytes (info : FriendPduInfo) (sdu : List Byte) : List Byte :=
  BitVec.ofNat 8 (info.ivIndex % 2 * 2 ^ 7) ::
    BitVec.ofNat 8 (info.ttl % 2 ^ 7 + info.ctl.toNat * 2 ^ 7) ::
    (be24 info.seq ++ be16 info.src ++ be16 info.dst ++ sdu)

/-- `create_friend_pdu`; no buffer can be taken when all of the pool are in the
hands of this friendship. -/
def createPdu (cfg : FriendConfig) (env : FriendEnv) (info : FriendPduInfo)
    (sdu : List Byte) (frnd : Frnd) : Option (FriendBuf × Frnd) :=
  if env.alloc ∧ frnd.held + frnd.leaked < cfg.bufCount then
    some (⟨pduBytes info sdu, false⟩,
      { frnd with
        log := { frnd.log with
          taken := frnd.log.taken ++ [frnd.held + frnd.leaked] } })
  else
    none

def encodeCtl (cfg : FriendConfig) (env : FriendEnv) (ctlOp : Nat)
    (sdu : List Byte) (frnd : Frnd) : Option (FriendBuf × Frnd) :=
  frnd.createPdu cfg env
    { src := env.primary
      dst := frnd.lpn
      seq := 0
      ttl := 0
      ctl := true
      ivIndex := ivBefore env.ivIndex env.ivuInProgress }
    (BitVec.ofNat 8 (ctlOp % 2 ^ 7) :: sdu)

def encodeUpdate (cfg : FriendConfig) (env : FriendEnv) (md : Nat)
    (frnd : Frnd) : Option (FriendBuf × Frnd) :=
  frnd.encodeCtl cfg env 0x02 (BitVec.ofNat 8 env.netFlags ::
      (bytes32 env.ivIndex ++ [BitVec.ofNat 8 md]))

def sendNext (env : FriendEnv) (created : Option (FriendBuf × Frnd))
    (frnd : Frnd) : Frnd :=
  match created with
  | none => frnd
  | some (buf, taken) =>
    if (env.encrypt buf.data).1 then
      { taken.unrefLast with
        last := some { buf with data := (env.encrypt buf.data).2 }
        sendLast := true }
    else
      { taken with leaked := taken.leaked + 1 }

def enqueueSubCfm (cfg : FriendConfig) (env : FriendEnv) (xact : Byte)
    (frnd : Frnd) : Frnd :=
  frnd.sendNext env (frnd.encodeCtl cfg env 0x09 [xact])

def enqueueOffer (cfg : FriendConfig) (env : FriendEnv) (offer : List Byte)
    (frnd : Frnd) : Frnd :=
  frnd.sendNext env (frnd.encodeCtl cfg env 0x04 offer)

def enqueueBuf (buf : FriendBuf) (frnd : Frnd) : Frnd :=
  { frnd with
    queue := frnd.queue ++ [buf]
    queueSize := (frnd.queueSize + 1) % 2 ^ 32
    log := { frnd.log with accepted := frnd.log.accepted ++ [[buf]] } }

def enqueueUpdate (cfg : FriendConfig) (env : FriendEnv) (md : Nat)
    (frnd : Frnd) : Frnd :=
  match frnd.encodeUpdate cfg env md with
  | none => frnd
  | some (buf, taken) => taken.enqueueBuf buf

def subAdd (addr : Nat) : List Nat → List Nat
  | [] => []
  | first :: rest =>
    if first = addrUnassigned then addr :: rest
    else first :: subAdd addr rest

def subRem (addr : Nat) : List Nat → List Nat
  | [] => []
  | first :: rest =>
    if first = addr then addrUnassigned :: rest
    else first :: subRem addr rest

def subChange (op : SubOp) (list : List Nat) (addr : Nat) : List Nat :=
  match op with
  | .add => subAdd addr list
  | .rem => subRem addr list

def pullAddrs : List Byte → List Nat
  | high :: low :: rest => be16Of high low :: pullAddrs rest
  | _ => []

def sub (cfg : FriendConfig) (env : FriendEnv) (op : SubOp)
    (netIdx src : Nat) (buf : List Byte) (frnd : Frnd) : Frnd :=
  match buf with
  | xact :: high :: low :: rest =>
    if !frnd.isFound true netIdx src then
      frnd
    else if frnd.pendingBuf then
      frnd
    else
      let addrs := pullAddrs (high :: low :: rest)
      enqueueSubCfm cfg env xact
        { frnd with
          pendingReq := true
          subList := addrs.foldl (subChange op) frnd.subList
          log := { frnd.log with
            subOps := frnd.log.subOps ++ addrs.map fun addr => (op, addr) } }
  | _ => frnd

def poll (cfg : FriendConfig) (env : FriendEnv) (netIdx src : Nat)
    (buf : List Byte) (frnd : Frnd) : Frnd :=
  match buf with
  | [] => frnd
  | fsn :: _ =>
    if !frnd.isFound false netIdx src then
      frnd
    else if 2 ≤ fsn.toNat then
      frnd
    else if frnd.pendingBuf then
      frnd
    else
      let polled := { frnd with pendingReq := true, established := true }
      if fsn.toNat = frnd.fsn.toNat ∧ frnd.last.isSome then
        { polled with sendLast := true }
      else
        let next := { polled.unrefLast with fsn := decide (fsn.toNat = 1) }
        if frnd.queue.isEmpty then next.enqueueUpdate cfg env 0 else next

/-- `bt_mesh_friend_req`, once its checks have led to this context. -/
def request (cfg : FriendConfig) (env : FriendEnv) (netIdx addr numElem : Nat)
    (credErr : Bool) (offer : List Byte) (frnd : Frnd) : Frnd :=
  let cleared := if frnd.netIdx.isSome then frnd.clear else frnd
  let opened :=
    { cleared with lpn := addr, numElem := numElem, netIdx := some netIdx }
  if credErr then opened.clear else opened.enqueueOffer cfg env offer

end Frnd

def FriendBuf.src (buf : FriendBuf) : Nat :=
  be16Of (buf.data.getD 5 0) (buf.data.getD 6 0)

def FriendBuf.seqZero (buf : FriendBuf) : Nat :=
  be16Of (buf.data.getD 10 0) (buf.data.getD 11 0) / 2 ^ 2 % 2 ^ 13

def FrndSeg.isSeg (src seqZero : Nat) (seg : FrndSeg) : Bool :=
  match seg.queue with
  | [] => false
  | buf :: _ => src == buf.src && seqZero == buf.seqZero

def getSeg (src seqZero segCount : Nat) (segs : List FrndSeg) :
    Option (Nat × FrndSeg) :=
  match segs.findIdx? fun seg => seg.isSeg src seqZero with
  | some slot => segs[slot]?.map fun seg => (slot, seg)
  | none =>
    (segs.findIdx? fun seg => seg.queue.isEmpty).map fun slot =>
      (slot, ⟨[], segCount % 2 ^ 8⟩)

def FriendBuf.isSegack (seqAuth src : Nat) (buf : FriendBuf) : Bool :=
  decide (buf.data.length = 16) &&
    decide (2 ^ 7 ≤ (buf.data.getD 1 0).toNat) && src == buf.src &&
    decide ((buf.data.getD 9 0).toNat % 2 ^ 7 = 0) &&
    buf.seqZero == seqZeroOf seqAuth

namespace Frnd

def purgeOldAck (seqAuth src : Nat) (frnd : Frnd) : Frnd :=
  if frnd.queue.any (FriendBuf.isSegack seqAuth src) then
    { frnd with
      queue := frnd.queue.eraseP (FriendBuf.isSegack seqAuth src)
      queueSize := dec32 frnd.queueSize }
  else
    frnd

def hasSpace (cfg : FriendConfig) (addr : Nat) (seqAuth : Option Nat)
    (segCount : Nat) (frnd : Frnd) : Bool :=
  if cfg.queueSize < segCount then
    false
  else if seqAuth.any fun auth =>
      frnd.seg.any fun seg => seg.isSeg addr (seqZeroOf auth) then
    true
  else
    decide (segCount < (cfg.queueSize + 2 ^ 32 - frnd.reserved % 2 ^ 32) % 2 ^ 32)

/-- The loop of `friend_queue_prepare_space`. -/
def evict (segCount : Nat) :
    (pendingSegments : Bool) → (availSpace queueSize : Nat) →
      List FriendBuf → Bool × Nat × List FriendBuf
  | pendingSegments, availSpace, queueSize, [] =>
    (!(pendingSegments || decide (availSpace < segCount)), queueSize, [])
  | pendingSegments, availSpace, queueSize, buf :: rest =>
    if pendingSegments || decide (availSpace < segCount) then
      evict segCount buf.frags ((availSpace + 1) % 2 ^ 8) (dec32 queueSize) rest
    else
      (true, queueSize, buf :: rest)

def prepareSpace (cfg : FriendConfig) (addr : Nat) (seqAuth : Option Nat)
    (segCount : Nat) (frnd : Frnd) : Bool × Frnd :=
  if !frnd.hasSpace cfg addr seqAuth segCount then
    (false, frnd)
  else
    let (ready, queueSize, queue) :=
      evict segCount false
        ((cfg.queueSize + 2 ^ 32 - frnd.queueSize) % 2 ^ 32 % 2 ^ 8)
        frnd.queueSize frnd.queue
    (ready, { frnd with queue := queue, queueSize := queueSize })

def enqueuePdu (type : FriendPduType) (src segCount : Nat) (buf : FriendBuf)
    (frnd : Frnd) : Frnd :=
  if type = .single then
    frnd.enqueueBuf buf
  else
    match getSeg src buf.seqZero segCount frnd.seg with
    | none => frnd
    | some (slot, seg) =>
      if type = .complete then
        { frnd with
          seg := frnd.seg.set slot .empty
          queue := frnd.queue ++ (seg.queue ++ [buf])
          queueSize := (frnd.queueSize + seg.segCount) % 2 ^ 32
          log := { frnd.log with
            accepted := frnd.log.accepted ++ [seg.queue ++ [buf]] } }
      else
        { frnd with
          seg := frnd.seg.set slot
            { seg with queue := seg.queue ++ [{ buf with frags := true }] } }

/-- What `friend_lpn_enqueue_rx` and `friend_lpn_enqueue_tx` have in common. -/
def lpnEnqueue (cfg : FriendConfig) (env : FriendEnv) (info : FriendPduInfo)
    (sdu : FriendSdu) (frnd : Frnd) : Frnd :=
  let purged :=
    match sdu.type, sdu.seqAuth with
    | .single, some seqAuth => frnd.purgeOldAck seqAuth info.src
    | _, _ => frnd
  match purged.createPdu cfg env info sdu.sbuf with
  | none => purged
  | some (buf, taken) => taken.enqueuePdu sdu.type info.src sdu.segCount buf

def lpnEnqueueRx (cfg : FriendConfig) (env : FriendEnv) (rx : NetRx)
    (recvTtl : Nat) (sdu : FriendSdu) (frnd : Frnd) : Frnd :=
  if env.hasAddr rx.addr then
    frnd
  else
    frnd.lpnEnqueue cfg env
      { src := rx.addr
        dst := rx.recvDst
        seq := rx.seq
        ttl := if rx.netIf = .local then recvTtl else recvTtl - 1
        ctl := rx.ctl
        ivIndex := netIviRx env.ivIndex rx }
      sdu

/-- `bt_mesh_friend_enqueue_rx` for this context. -/
def enqueueRx (cfg : FriendConfig) (env : FriendEnv) (rx : NetRx)
    (netIdx recvTtl : Nat) (sdu : FriendSdu) (frnd : Frnd) : Frnd :=
  if !rx.friendMatch || decide (recvTtl ≤ 1) && rx.netIf != .local ||
      !env.enabled then
    frnd
  else if !frnd.matchesLpn netIdx rx.recvDst then
    frnd
  else if frnd.matchesLpn netIdx rx.addr then
    frnd
  else
    match frnd.prepareSpace cfg rx.addr sdu.seqAuth sdu.segCount with
    | (false, evicted) => evicted
    | (true, evicted) => evicted.lpnEnqueueRx cfg env rx recvTtl sdu

/-- The fields of `struct bt_mesh_net_tx` that the Friend Queue reads. -/
structure Tx where
  netIdx : Nat
  src : Nat
  addr : Nat
  sendTtl : Nat
  ctl : Bool

def lpnEnqueueTx (cfg : FriendConfig) (env : FriendEnv) (tx : Tx)
    (sdu : FriendSdu) (frnd : Frnd) : Frnd :=
  frnd.lpnEnqueue cfg env
    { src := tx.src
      dst := tx.addr
      seq := env.seq
      ttl := tx.sendTtl
      ctl := tx.ctl
      ivIndex := ivBefore env.ivIndex env.ivuInProgress }
    sdu

/-- `bt_mesh_friend_enqueue_tx` for this context. -/
def enqueueTx (cfg : FriendConfig) (env : FriendEnv) (tx : Tx)
    (sdu : FriendSdu) (frnd : Frnd) : Frnd :=
  if !frnd.matchesLpn tx.netIdx tx.addr || !env.enabled then
    frnd
  else
    match frnd.prepareSpace cfg tx.src sdu.seqAuth sdu.segCount with
    | (false, evicted) => evicted
    | (true, evicted) => evicted.lpnEnqueueTx cfg env tx sdu

/-- `bt_mesh_friend_clear_incomplete` for this context. -/
def clearIncomplete (netIdx src dst seqAuth : Nat) (frnd : Frnd) : Frnd :=
  if !frnd.matchesLpn netIdx dst then
    frnd
  else
    match frnd.seg.findIdx? fun seg => seg.isSeg src (seqZeroOf seqAuth) with
    | none => frnd
    | some slot => { frnd with seg := frnd.seg.set slot .empty }

def updateOverwrite (md : Bool) (data : List Byte) : List Byte :=
  if data.length = 16 ∧ 2 ^ 7 ≤ (data.getD 1 0).toNat ∧
      (data.getD 9 0).toNat % 2 ^ 7 = 0x02 then
    data.set 15 (BitVec.ofNat 8 md.toNat)
  else
    data

/-- `friend_timeout` from its label `send_last` on. -/
def sendBuf (env : FriendEnv) (frnd : Frnd) : Frnd :=
  if env.advAlloc then
    { frnd with pendingReq := false, pendingBuf := true }
  else
    frnd

/-- `friend_timeout` once the queue had a buffer. -/
def sendQueued (env : FriendEnv) (buf : FriendBuf) (rest : List FriendBuf)
    (frnd : Frnd) : Frnd :=
  let result := env.encrypt (updateOverwrite (!rest.isEmpty) buf.data)
  let popped := { frnd.dropLast with queue := rest }
  if result.1 then
    sendBuf env
      { popped with
        last := some ⟨result.2, false⟩
        queueSize := dec32 frnd.queueSize }
  else
    { popped with
      last := some { buf with data := result.2 }
      linked := !rest.isEmpty }

def timeout (env : FriendEnv) (frnd : Frnd) : Frnd :=
  if frnd.netIdx.isNone then
    frnd
  else if frnd.sendLast && frnd.last.isSome then
    { frnd with sendLast := false }.sendBuf env
  else if frnd.established && !frnd.pendingReq then
    frnd.clear
  else
    match frnd.queue with
    | [] => frnd.dropLast.clear
    | buf :: rest => frnd.sendQueued env buf rest

def bufSendStart (frnd : Frnd) : Frnd :=
  let started := { frnd with pendingBuf := false }
  if !frnd.established && frnd.last.isSome then started.unrefLast else started

/-- `bt_mesh_friend_sec_update` for this context. -/
def secUpdate (cfg : FriendConfig) (env : FriendEnv) (netIdx : Option Nat)
    (frnd : Frnd) : Frnd :=
  if frnd.netIdx.isNone then frnd
  else if netIdx.isNone ∨ frnd.netIdx = netIdx then
    frnd.enqueueUpdate cfg env 0
  else frnd

def subnetEvt (cfg : FriendConfig) (env : FriendEnv) (netIdx : Nat)
    (evt : KeyEvt) (credErr : Bool) (frnd : Frnd) : Frnd :=
  if frnd.netIdx ≠ some netIdx then
    frnd
  else
    match evt with
    | .added => frnd
    | .deleted => frnd.clear
    | .updated => if credErr then frnd.clear else frnd
    | .swapped => frnd.enqueueUpdate cfg env 0
    | .revoked => frnd.enqueueUpdate cfg env 0

end Frnd

/-- `clear` stands for every caller of `friend_clear` that ends the friendship. -/
inductive FrndInput where
  | enqueueRx (env : FriendEnv) (rx : NetRx) (netIdx recvTtl : Nat) (sdu : FriendSdu)
  | enqueueTx (env : FriendEnv) (tx : Frnd.Tx) (sdu : FriendSdu)
  | clearIncomplete (netIdx src dst seqAuth : Nat)
  | poll (env : FriendEnv) (netIdx src : Nat) (buf : List Byte)
  | sub (env : FriendEnv) (op : SubOp) (netIdx src : Nat) (buf : List Byte)
  | request (env : FriendEnv) (netIdx addr numElem : Nat) (credErr : Bool)
      (offer : List Byte)
  | timeout (env : FriendEnv)
  | bufSendStart
  | secUpdate (env : FriendEnv) (netIdx : Option Nat)
  | subnetEvt (env : FriendEnv) (netIdx : Nat) (evt : KeyEvt) (credErr : Bool)
  | clear

def frndStep (cfg : FriendConfig) (frnd : Frnd) : FrndInput → Frnd
  | .enqueueRx env rx netIdx recvTtl sdu =>
    frnd.enqueueRx cfg env rx netIdx recvTtl sdu
  | .enqueueTx env tx sdu => frnd.enqueueTx cfg env tx sdu
  | .clearIncomplete netIdx src dst seqAuth =>
    frnd.clearIncomplete netIdx src dst seqAuth
  | .poll env netIdx src buf => frnd.poll cfg env netIdx src buf
  | .sub env op netIdx src buf => frnd.sub cfg env op netIdx src buf
  | .request env netIdx addr numElem credErr offer =>
    frnd.request cfg env netIdx addr numElem credErr offer
  | .timeout env => frnd.timeout env
  | .bufSendStart => frnd.bufSendStart
  | .secUpdate env netIdx => frnd.secUpdate cfg env netIdx
  | .subnetEvt env netIdx evt credErr => frnd.subnetEvt cfg env netIdx evt credErr
  | .clear => frnd.clear

def frndMachine (cfg : FriendConfig) : Machine Frnd FrndInput Empty where
  step frnd input := (frndStep cfg frnd input, [])

/-- A PDU for the Low Power node, once the checks of the callers are passed.
`own` tells that it came back over the loopback. -/
structure Offered where
  env : FriendEnv
  info : FriendPduInfo
  sdu : FriendSdu
  own : Bool

def FrndInput.offered (frnd : Frnd) : FrndInput → Option Offered
  | .enqueueRx env rx netIdx recvTtl sdu =>
    if !rx.friendMatch || decide (recvTtl ≤ 1) && rx.netIf != .local ||
        !env.enabled || !frnd.matchesLpn netIdx rx.recvDst ||
        frnd.matchesLpn netIdx rx.addr then
      none
    else
      some
        { env := env
          info :=
            { src := rx.addr
              dst := rx.recvDst
              seq := rx.seq
              ttl := if rx.netIf = .local then recvTtl else recvTtl - 1
              ctl := rx.ctl
              ivIndex := netIviRx env.ivIndex rx }
          sdu := sdu
          own := env.hasAddr rx.addr }
  | .enqueueTx env tx sdu =>
    if !frnd.matchesLpn tx.netIdx tx.addr || !env.enabled then
      none
    else
      some
        { env := env
          info :=
            { src := tx.src
              dst := tx.addr
              seq := env.seq
              ttl := tx.sendTtl
              ctl := tx.ctl
              ivIndex := ivBefore env.ivIndex env.ivuInProgress }
          sdu := sdu
          own := false }
  | _ => none

namespace Frnd

def deliver (cfg : FriendConfig) (offer : Offered) (frnd : Frnd) : Frnd :=
  match frnd.prepareSpace cfg offer.info.src offer.sdu.seqAuth
      offer.sdu.segCount with
  | (false, evicted) => evicted
  | (true, evicted) =>
    if offer.own then evicted
    else evicted.lpnEnqueue cfg offer.env offer.info offer.sdu

def polled (frnd : Frnd) : Option (FriendBuf × List FriendBuf) :=
  if frnd.netIdx.isNone || frnd.sendLast && frnd.last.isSome ||
      frnd.established && !frnd.pendingReq then
    none
  else
    match frnd.queue with
    | [] => none
    | buf :: rest => some (buf, rest)

def subHandled (netIdx src : Nat) (buf : List Byte) (frnd : Frnd) : Bool :=
  decide (3 ≤ buf.length) && frnd.isFound true netIdx src && !frnd.pendingBuf

variable {cfg : FriendConfig} {env : FriendEnv} {frnd : Frnd}

theorem enqueueRx_eq (rx : NetRx) (netIdx recvTtl : Nat) (sdu : FriendSdu) :
    frnd.enqueueRx cfg env rx netIdx recvTtl sdu =
      match (FrndInput.enqueueRx env rx netIdx recvTtl sdu).offered frnd with
      | none => frnd
      | some offer => frnd.deliver cfg offer := by
  unfold enqueueRx FrndInput.offered
  dsimp only
  cases (!rx.friendMatch || decide (recvTtl ≤ 1) && rx.netIf != .local ||
    !env.enabled) with
  | true => rfl
  | false =>
    cases frnd.matchesLpn netIdx rx.recvDst with
    | false => rfl
    | true =>
      cases frnd.matchesLpn netIdx rx.addr with
      | true => rfl
      | false => rfl

theorem enqueueTx_eq (tx : Tx) (sdu : FriendSdu) :
    frnd.enqueueTx cfg env tx sdu =
      match (FrndInput.enqueueTx env tx sdu).offered frnd with
      | none => frnd
      | some offer => frnd.deliver cfg offer := by
  unfold enqueueTx FrndInput.offered
  dsimp only
  cases (!frnd.matchesLpn tx.netIdx tx.addr || !env.enabled) with
  | true => rfl
  | false => rfl

theorem lpnEnqueue_cases (info : FriendPduInfo) (sdu : FriendSdu) :
    ∃ purged : Frnd, (purged = frnd ∨ ∃ seqAuth, sdu.type = .single ∧
        sdu.seqAuth = some seqAuth ∧
        purged = frnd.purgeOldAck seqAuth info.src) ∧
      frnd.lpnEnqueue cfg env info sdu =
        match purged.createPdu cfg env info sdu.sbuf with
        | none => purged
        | some (buf, taken) =>
          taken.enqueuePdu sdu.type info.src sdu.segCount buf := by
  unfold lpnEnqueue
  split
  · rename_i seqAuth type auth
    exact ⟨_, .inr ⟨seqAuth, type, auth, rfl⟩, rfl⟩
  · exact ⟨_, .inl rfl, rfl⟩

theorem createPdu_spec {info : FriendPduInfo} {sdu : List Byte}
    {buf : FriendBuf} {taken : Frnd}
    (created : frnd.createPdu cfg env info sdu = some (buf, taken)) :
    frnd.held + frnd.leaked < cfg.bufCount ∧ buf = ⟨pduBytes info sdu, false⟩ ∧
      taken = { frnd with
        log := { frnd.log with
          taken := frnd.log.taken ++ [frnd.held + frnd.leaked] } } := by
  unfold createPdu at created
  split at created
  · rename_i free
    cases created
    exact ⟨free.2, rfl, rfl⟩
  · cases created

theorem enqueuePdu_incomplete (src segCount : Nat) (buf : FriendBuf) :
    frnd.enqueuePdu .incomplete src segCount buf =
      match getSeg src buf.seqZero segCount frnd.seg with
      | none => frnd
      | some (slot, seg) =>
        { frnd with
          seg := frnd.seg.set slot
            { seg with queue := seg.queue ++ [{ buf with frags := true }] } } :=
  rfl

theorem enqueuePdu_complete (src segCount : Nat) (buf : FriendBuf) :
    frnd.enqueuePdu .complete src segCount buf =
      match getSeg src buf.seqZero segCount frnd.seg with
      | none => frnd
      | some (slot, seg) =>
        { frnd with
          seg := frnd.seg.set slot .empty
          queue := frnd.queue ++ (seg.queue ++ [buf])
          queueSize := (frnd.queueSize + seg.segCount) % 2 ^ 32
          log := { frnd.log with
            accepted := frnd.log.accepted ++ [seg.queue ++ [buf]] } } :=
  rfl

theorem getSeg_spec {src seqZero segCount : Nat} {segs : List FrndSeg}
    {slot : Nat} {seg : FrndSeg}
    (found : getSeg src seqZero segCount segs = some (slot, seg)) :
    ∃ old, segs[slot]? = some old ∧ old.queue = seg.queue ∧
      (seg = old ∧ old.isSeg src seqZero = true ∨ seg = ⟨[], segCount % 2 ^ 8⟩ ∧
          ∀ other ∈ segs, other.isSeg src seqZero = false) := by
  unfold getSeg at found
  split at found
  · rename_i place search
    obtain ⟨bound, isSeg, _⟩ := findIdx?_eq_some_iff_getElem.mp search
    rw [getElem?_eq_getElem bound] at found
    cases found
    exact ⟨_, getElem?_eq_getElem bound, rfl, .inl ⟨rfl, isSeg⟩⟩
  · rename_i search
    obtain ⟨place, free, pair⟩ := Option.map_eq_some_iff.mp found
    cases pair
    obtain ⟨bound, isFree, _⟩ := findIdx?_eq_some_iff_getElem.mp free
    refine ⟨_, List.getElem?_eq_getElem bound, List.isEmpty_iff.mp isFree,
      .inr ⟨rfl, ?_⟩⟩
    intro other member
    exact eq_false_of_ne_true (by simpa using
      List.findIdx?_eq_none_iff.mp search other member)

theorem polled_queue {buf : FriendBuf} {rest : List FriendBuf}
    (polled : frnd.polled = some (buf, rest)) : frnd.queue = buf :: rest := by
  unfold Frnd.polled at polled
  split at polled
  · cases polled
  split at polled
  · cases polled
  rename_i queue
  cases polled
  exact queue

theorem timeout_eq :
    frnd.timeout env = match frnd.polled with
      | some (buf, rest) => frnd.sendQueued env buf rest
      | none =>
        if frnd.netIdx.isNone then frnd
        else if frnd.sendLast && frnd.last.isSome then
          { frnd with sendLast := false }.sendBuf env
        else if frnd.established && !frnd.pendingReq then frnd.clear
        else frnd.dropLast.clear := by
  unfold timeout polled
  cases frnd.netIdx.isNone with
  | true => rfl
  | false =>
    cases frnd.sendLast && frnd.last.isSome with
    | true => rfl
    | false =>
      cases frnd.established && !frnd.pendingReq with
      | true => rfl
      | false =>
        cases frnd.queue with
        | nil => rfl
        | cons => rfl

/-! `FriendQueue` is what the delivery of the queue needs of a friendship. -/

structure Refines (frnd : Frnd) (link : FriendQueue) : Prop where
  established : link.established = frnd.established
  fsn : link.fsn = frnd.fsn
  sendLast : link.sendLast = frnd.sendLast
  pendingReq : link.pendingReq = frnd.pendingReq
  adv : link.adv.isSome = frnd.pendingBuf
  last : link.last.isSome = frnd.last.isSome
  queue : link.queue.length = frnd.queue.length

/-- No buffer and no key is missing. -/
structure Serves (cfg : FriendConfig) (env : FriendEnv) (frnd : Frnd) : Prop where
  alloc : env.alloc = true
  free : frnd.held + frnd.leaked < cfg.bufCount
  encrypts : ∀ data, (env.encrypt data).1 = true
  advAlloc : env.advAlloc = true

theorem Serves.encodeCtl (serves : Serves cfg env frnd) (ctlOp : Nat)
    (sdu : List Byte) : ∃ buf log,
      frnd.encodeCtl cfg env ctlOp sdu = some (buf, { frnd with log }) :=
  ⟨_, _, if_pos ⟨serves.alloc, serves.free⟩⟩

section

variable {link : FriendQueue} (refines : frnd.Refines link) (serves : Serves cfg env frnd)
include refines serves

theorem Refines.enqueueSubCfm (xact : Byte) :
    (frnd.enqueueSubCfm cfg env xact).Refines (link.enqueueSubCfm xact) := by
  obtain ⟨buf, log, created⟩ := serves.encodeCtl 0x09 [xact]
  unfold Frnd.enqueueSubCfm sendNext
  rw [created]
  simp only [serves.encrypts, if_true]
  exact ⟨refines.established, refines.fsn, rfl, refines.pendingReq, refines.adv, rfl,
    refines.queue⟩

theorem Refines.enqueueUpdate (md : Nat) :
    (frnd.enqueueUpdate cfg env md).Refines (link.enqueue true) := by
  obtain ⟨buf, log, created⟩ := serves.encodeCtl 0x02
    (BitVec.ofNat 8 env.netFlags :: (bytes32 env.ivIndex ++ [BitVec.ofNat 8 md]))
  unfold Frnd.enqueueUpdate encodeUpdate
  rw [created]
  have longer : (link.queue ++ [QueuePdu.mk link.order.length true]).length =
      (frnd.queue ++ [buf]).length := by
    rw [length_append, length_append, refines.queue]
    rfl
  exact ⟨refines.established, refines.fsn, refines.sendLast, refines.pendingReq,
    refines.adv, refines.last, longer⟩

theorem Refines.sub (op : SubOp) {netIdx src : Nat} (xact high low : Byte)
    (rest : List Byte) (found : frnd.isFound true netIdx src = true)
    (live : frnd.established = true) :
    (frnd.sub cfg env op netIdx src (xact :: high :: low :: rest)).Refines
      (link.sub xact) := by
  have alive : link.established = true := refines.established.trans live
  unfold Frnd.sub FriendQueue.sub
  simp only [found, alive, refines.adv, Bool.not_true, Bool.false_eq_true, if_false,
    Bool.true_eq_false, false_or]
  split
  · exact refines
  · have asked : Refines
        { frnd with
          pendingReq := true
          subList := (pullAddrs (high :: low :: rest)).foldl (subChange op) frnd.subList
          log := { frnd.log with
            subOps := frnd.log.subOps ++
              (pullAddrs (high :: low :: rest)).map fun addr => (op, addr) } }
        { link with pendingReq := true } :=
      ⟨refines.established, refines.fsn, refines.sendLast, rfl, refines.adv,
        refines.last, refines.queue⟩
    have confirmed := asked.enqueueSubCfm
      ⟨serves.alloc, serves.free, serves.encrypts, serves.advAlloc⟩ xact
    rwa [alive] at confirmed

theorem Refines.poll {netIdx src : Nat} (fsn : Byte) (bit : fsn.toNat < 2)
    (found : frnd.isFound false netIdx src = true) (live : frnd.established = true) :
    (frnd.poll cfg env netIdx src [fsn]).Refines
      (link.poll (decide (fsn.toNat = 1))) := by
  have alive : link.established = true := refines.established.trans live
  have same : decide (fsn.toNat = 1) = link.fsn ∧ link.last.isSome = true ↔
      fsn.toNat = frnd.fsn.toNat ∧ frnd.last.isSome = true := by
    rw [refines.fsn, refines.last]
    refine and_congr_left fun _ => ?_
    cases frnd.fsn with
    | false => simp; omega
    | true => simp
  unfold Frnd.poll FriendQueue.poll
  simp only [found, alive, refines.adv, Bool.not_true, Bool.false_eq_true, if_false,
    Bool.true_eq_false, false_or, if_neg (not_le.mpr bit), same]
  split
  · exact refines
  split
  · exact ⟨rfl, refines.fsn, rfl, rfl, refines.adv, refines.last, refines.queue⟩
  have empty : frnd.queue.isEmpty = link.queue.isEmpty := by
    rw [Bool.eq_iff_iff, isEmpty_iff_length_eq_zero, ← refines.queue,
      isEmpty_iff_length_eq_zero]
  have next : Refines
      { ({ frnd with pendingReq := true, established := true }).unrefLast with
        fsn := decide (fsn.toNat = 1) }
      { ({ link with pendingReq := true, established := true }).discardLast with
        fsn := decide (fsn.toNat = 1) } :=
    ⟨rfl, rfl, refines.sendLast, rfl, refines.adv, rfl, refines.queue⟩
  rw [empty]
  change (if link.queue.isEmpty = true then _ else _ : Frnd).Refines
    (if link.queue.isEmpty = true then _ else _)
  split
  · refine next.enqueueUpdate ⟨serves.alloc, ?_, serves.encrypts, serves.advAlloc⟩ 0
    refine Nat.lt_of_le_of_lt (Nat.add_le_add_right ?_ _) serves.free
    exact Nat.add_le_add_left (Nat.zero_le _) _
  · exact next

theorem Refines.timeout (allocated : frnd.netIdx.isSome = true)
    (live : frnd.established = true) (quiet : frnd.pendingBuf = false) :
    (frnd.timeout env).Refines link.timeout := by
  have alive : link.established = true := refines.established.trans live
  have length := refines.queue
  unfold Frnd.timeout FriendQueue.timeout
  simp only [Option.isNone_eq_false_iff.mpr allocated, live, alive, refines.adv, quiet,
    refines.sendLast, refines.last, refines.pendingReq, Bool.false_eq_true, if_false,
    Bool.true_eq_false, or_self, Bool.and_eq_true, Bool.true_and, Bool.not_eq_true']
  split
  · rename_i again
    unfold sendBuf
    rw [if_pos serves.advAlloc]
    exact ⟨rfl, refines.fsn, rfl, rfl, refines.last.trans again.2,
      refines.last, refines.queue⟩
  split
  · exact ⟨rfl, rfl, refines.sendLast, rfl, rfl, rfl, rfl⟩
  cases here : frnd.queue with
  | nil =>
    rw [here] at length
    rw [eq_nil_of_length_eq_zero length]
    exact ⟨rfl, rfl, refines.sendLast, rfl, rfl, rfl, rfl⟩
  | cons buf rest =>
    rw [here] at length
    obtain ⟨pdu, others, there⟩ := exists_cons_of_length_eq_add_one length
    rw [there] at length ⊢
    unfold sendQueued sendBuf
    simp only [serves.encrypts, serves.advAlloc, if_true]
    exact ⟨live.symm, refines.fsn, rfl, rfl, rfl, rfl, Nat.succ.inj length⟩

end

end Frnd

def friendTestConfig : FriendConfig where
  queueSize := 16
  subListSize := 3
  segRx := 1
  lpnCount := 2
  queueSize_pos := by decide
  queueSize_le := by decide
  lpnCount_le := by decide

def plainEnv : FriendEnv where
  primary := 0x0001
  hasAddr addr := addr == 0x0001
  enabled := true
  ivIndex := 5
  ivuInProgress := false
  netFlags := 0
  seq := 7
  alloc := true
  encrypt data := (true, data)
  advAlloc := true

def newFriendship : List FrndInput :=
  [.request plainEnv 0 0x0010 1 false [], .timeout plainEnv, .bufSendStart,
    .poll plainEnv 0 0x0010 [0x00], .timeout plainEnv, .bufSendStart]

def lpnTx : Frnd.Tx where
  netIdx := 0
  src := 0x0001
  addr := 0x0010
  sendTtl := 7
  ctl := false

def shortSdu : FriendSdu where
  type := .single
  segN := .last 31
  seqAuth := none
  sbuf := [0x42, 0xaa, 0xbb, 0xcc, 0xdd, 0xee]

def polledMessage : List FrndInput :=
  newFriendship ++ [.enqueueTx plainEnv lpnTx shortSdu,
    .poll plainEnv 0 0x0010 [0x01], .timeout plainEnv, .bufSendStart]

end ZephyrBluetooth.Mesh
