import ZephyrBluetooth.Mesh.KeyTables
import ZephyrBluetooth.Mesh.NetPdu
import ZephyrBluetooth.Mesh.SegRx

namespace ZephyrBluetooth.Mesh

/-! Access messages: the keys that `app_keys.c` chooses for sending and tries on
reception, and the network PDUs that carry the messages. -/

def keyDevLocal : Nat := 0xfffe

def keyDevRemote : Nat := 0xfffd

/-- What the upper layers of a node read.  The device keys of other nodes are
known with `CONFIG_BT_MESH_CDB` only. -/
structure AccessNode where
  net : NetNode
  apps : List AppKey
  vas : List VirtualAddr
  devKey : Key
  cdb : Option (Nat → Option Key)

/-- `bt_mesh_keys_resolve`: the subnet, the key and its AID. -/
def keysResolve (node : AccessNode) (appIdx netIdx addr : Nat) :
    Except Errno (Nat × Key × Byte) :=
  if isDevKey appIdx then
    match subnetGet node.net.subs netIdx with
    | none => .error .inval
    | some slot =>
      if appIdx = keyDevRemote ∧ node.net.hasAddr addr = false then
        match node.cdb.bind fun nodeGet => nodeGet addr with
        | none => .error .inval
        | some devKey => .ok (slot, devKey, 0)
      else
        .ok (slot, node.devKey, 0)
  else
    match (appGet node.apps appIdx).bind fun place => node.apps[place]? with
    | none => .error .inval
    | some app =>
      match subnetGet node.net.subs app.netIdx with
      | none => .error .inval
      | some slot =>
        match node.net.subs[slot]? with
        | none => .error .inval
        | some sub =>
          if sub.krPhase = .phase2 ∧ app.updated = true then
            .ok (slot, app.keys.new.val, app.keys.new.id)
          else
            .ok (slot, app.keys.old.val, app.keys.old.id)

def AppKey.rxCred (newKey : Bool) (app : AppKey) : AppCred :=
  if newKey && app.updated then app.keys.new else app.keys.old

def appKeyFind {Plain : Type} (node : AccessNode) (devKey : Bool) (aid : Byte)
    (rx : NetDecoded) (cb : Key → Option Plain) : Option (Nat × Plain) :=
  if devKey then
    let remote :=
      if rx.netIf ≠ .local then
        (node.cdb.bind fun nodeGet => nodeGet rx.addr).bind cb
      else
        none
    match remote with
    | some plain => some (keyDevRemote, plain)
    | none =>
      if addrIsUnicast rx.recvDst then
        (cb node.devKey).map fun plain => (keyDevLocal, plain)
      else
        none
  else
    node.apps.findSome? fun app =>
      if app.appIdx = keyUnused then
        none
      else if app.netIdx ≠ rx.netIdx then
        none
      else if (app.rxCred rx.ref.newKey).id ≠ aid then
        none
      else
        (cb (app.rxCred rx.ref.newKey).val).map fun plain => (app.appIdx, plain)

structure AppCryptoCtx where
  devKey : Bool
  aszmic : Bool
  src : Nat
  dst : Nat
  seqNum : Nat
  ivIndex : Nat
  ad : Option Uuid

def createAppNonce (ctx : AppCryptoCtx) : List Byte :=
  (if ctx.devKey then 0x02 else 0x01) ::
    bytes32 (ctx.seqNum ||| if ctx.aszmic then 2 ^ 31 else 0) ++ be16 ctx.src ++
      be16 ctx.dst ++ bytes32 ctx.ivIndex

def appEncrypt (cipher : Cipher) (key : Key) (ctx : AppCryptoCtx)
    (plain : List Byte) : Option (List Byte) :=
  cipher.ccmEncrypt key (createAppNonce ctx) ctx.ad plain (appMicLen ctx.aszmic)

def appDecrypt (cipher : Cipher) (key : Key) (ctx : AppCryptoCtx)
    (sealed : List Byte) : Option (List Byte) :=
  cipher.ccmDecrypt key (createAppNonce ctx) ctx.ad sealed (appMicLen ctx.aszmic)

def AccessNode.labelOf (node : AccessNode) (addr : Nat) : Option Uuid :=
  if addrIsVirtual addr then vaLabelGet addr node.vas else none

def NetNode.ivIndexTx (node : NetNode) : Nat :=
  ivBefore node.ivIndex node.ivuInProgress

/-- `trans_encrypt`; `seq` is the next sequence number. -/
def transEncrypt (cipher : Cipher) (node : AccessNode) (tx : NetTx) (seq : Nat)
    (key : Key) (msg : List Byte) : Option (List Byte) :=
  appEncrypt cipher key
    { devKey := isDevKey tx.appIdx
      aszmic := tx.aszmic
      src := tx.src
      dst := tx.addr
      seqNum := seq
      ivIndex := node.net.ivIndexTx
      ad := node.labelOf tx.addr }
    msg

/-- `sdu_recv` of a message to the node itself: the AppKey index and the message
that the access layer is given. -/
def sduRecv (cipher : Cipher) (node : AccessNode) (rx : NetDecoded) (hdr : Byte)
    (aszmic : Bool) (seqNum : Nat) (sdu : List Byte) :
    Option (Nat × List Byte) :=
  appKeyFind node (!hdr.getLsbD 6) (hdr &&& 0x3f) rx fun key =>
    appDecrypt cipher key
      { devKey := !hdr.getLsbD 6
        aszmic := aszmic
        src := rx.addr
        dst := rx.recvDst
        seqNum := seqNum
        ivIndex := ivBefore node.net.ivIndex rx.oldIv
        ad := node.labelOf rx.recvDst }
      sdu

/-- The first byte of the transport PDUs of a message with an application key:
`UNSEG_HDR` and `SEG_HDR`. -/
def accessHdr (seg : Bool) (aid : Byte) : Byte :=
  (if seg then 0x80 else 0x00) ||| 0x40 ||| (aid &&& 0x3f)

def netTxCredGet (cfg : Config) (node : NetNode) (tx : NetTx) (sub : Subnet) :
    NetCred :=
  if cfg.lowPower && tx.friendCred && node.lpn.frnd != addrUnassigned then
    node.lpn.cred.get sub.txIdx
  else
    sub.txCred

/-- `net_header_encode`; `seq` is what `bt_mesh_next_seq` returns. -/
def netHeaderEncode (node : NetNode) (tx : NetTx) (seq : Nat) (nid : Byte)
    (payload : List Byte) (tailroom : Nat) : Option NetBuf :=
  let ctl := decide (tx.appIdx = keyUnused)
  if ctl = true ∧ tailroom < 8 then
    none
  else if tailroom < 4 then
    none
  else
    some
      { first := nid ||| if node.ivIndexTx % 2 = 1 then 0x80 else 0
        ctlTtl := BitVec.ofNat 8 tx.sendTtl ||| if ctl then 0x80 else 0
        seq := BitVec.ofNat 24 seq
        src := BitVec.ofNat 16 tx.src
        rest := be16 tx.addr ++ payload }

def netEncode (cfg : Config) (cipher : Cipher) (node : NetNode) (tx : NetTx)
    (seq : Nat) (payload : List Byte) (tailroom : Nat) (proxy : Bool) :
    Option NetBuf :=
  match node.subs[tx.sub]? with
  | none => none
  | some sub =>
    let cred := netTxCredGet cfg node tx sub
    (netHeaderEncode node tx seq cred.nid payload tailroom).bind fun buf =>
      netEncrypt cfg cipher buf cred node.ivIndexTx proxy

def NetNode.HearsIv (node : NetNode) (ivIndex : Nat) : Prop :=
  node.ivIndex = ivIndex ∨ node.ivIndex = (ivIndex + 1) % 2 ^ 32

variable {buf : NetBuf}

theorem NetNode.HearsIv.rx {node : NetNode} {ivIndex : Nat}
    (hears : node.HearsIv ivIndex) (fits : ivIndex < 2 ^ 32)
    (ivi : buf.ivi = decide (ivIndex % 2 = 1)) :
    node.ivIndexRx buf = ivIndex := by
  unfold NetNode.ivIndexRx NetNode.oldIv ivBefore
  rw [ivi]
  rcases hears with same | ahead
  · rw [same]
    simp only [bne_self_eq_false, Bool.toNat_false]
    omega
  · have differs : (decide (ivIndex % 2 = 1) != decide (node.ivIndex % 2 = 1)) =
        true := by
      have turned : node.ivIndex % 2 = 1 ↔ ¬ ivIndex % 2 = 1 := by omega
      simp only [turned, decide_not]
      exact Bool.bne_not_self _
    rw [differs, ahead]
    simp only [Bool.toNat_true]
    omega

theorem NetNode.ivIndexTx_lt (node : NetNode) : node.ivIndexTx < 2 ^ 32 :=
  Nat.mod_lt _ (by decide)

theorem netHeaderEncode_buf {node : NetNode} {tx : NetTx} {seq tailroom : Nat}
    {nid : Byte} {payload : List Byte} (small : nid.msb = false)
    (encoded : netHeaderEncode node tx seq nid payload tailroom = some buf) :
    buf.nid = nid ∧ buf.ivi = decide (node.ivIndexTx % 2 = 1) ∧
      buf.seq = BitVec.ofNat 24 seq ∧ buf.src = BitVec.ofNat 16 tx.src ∧
      buf.rest = be16 tx.addr ++ payload := by
  unfold netHeaderEncode at encoded
  dsimp only at encoded
  split at encoded
  · cases encoded
  split at encoded
  · cases encoded
  cases encoded
  have first : ∀ odd : Bool, (nid ||| if odd then 0x80 else 0) &&& 0x7f = nid ∧
        (nid ||| if odd then 0x80 else 0).msb = odd := by
    intro odd
    have high := highBit_or_low (if odd then 0x80 else 0) small
    rw [BitVec.or_comm nid]
    cases odd with
    | false => exact high
    | true => exact high
  have parity := first (decide (node.ivIndexTx % 2 = 1))
  simp only [decide_eq_true_eq] at parity
  exact ⟨parity.1, parity.2, rfl, rfl, rfl⟩

theorem dst_be16 {addr : Nat} {payload : List Byte} (fits : addr < 2 ^ 16)
    (rest : buf.rest = be16 addr ++ payload) : buf.dst = addr := by
  unfold NetBuf.dst
  rw [rest]
  simp only [be16, List.cons_append, BitVec.toNat_ofNat]
  omega

end ZephyrBluetooth.Mesh
