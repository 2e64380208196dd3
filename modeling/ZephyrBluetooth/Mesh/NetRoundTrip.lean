import ZephyrBluetooth.Mesh.Access
import ZephyrBluetooth.Mesh.NetRelay

namespace ZephyrBluetooth.Mesh

/-! What `bt_mesh_net_encode` makes of a transport PDU, `bt_mesh_net_decode` undoes
on a node that holds the credentials. -/

/-- A transport PDU that is encoded with its header: with the MIC, the network PDU
has a legal length.  Only proxy configuration messages have no destination. -/
structure LegalPdu (netIf : NetIf) (tx : NetTx) (payload : List Byte) : Prop where
  ttl : tx.sendTtl < 2 ^ 7
  src : tx.src < 2 ^ 16
  unicast : addrIsUnicast tx.src = true
  dst : tx.addr < 2 ^ 16
  assigned : netIf ≠ .proxyCfg → tx.addr ≠ addrUnassigned
  length :
    if tx.appIdx = keyUnused then 1 ≤ payload.length ∧ payload.length ≤ 12
    else 5 ≤ payload.length ∧ payload.length ≤ 16

/-- A node that holds the credentials of a PDU, and no others that would open it,
and has not seen the PDU before. -/
structure Awaits (cfg : Config) (cipher : Cipher) (netIf : NetIf) (cred : NetCred)
    (pdu : NetBuf) (src seq : Nat) (receiver : NetNode) : Prop where
  holds : ∃ ref ∈ netCredRefs cfg receiver, ref.cred = cred
  alone : ∀ ref ∈ netCredRefs cfg receiver,
    (netDecrypt cfg cipher netIf receiver pdu ref.cred).isSome = true →
      ref.cred = cred
  foreign : receiver.hasAddr src = false
  fresh : netIf = .adv → dupValue pdu ∉ receiver.dupCache
  unseen : netIf = .adv → ∀ entry ∈ receiver.msgCache,
    ¬ (entry.1 = src ∧ entry.2 = seq % 2 ^ 17)

structure ReadAs (tx : NetTx) (seq : Nat) (payload : List Byte) (rx : NetDecoded)
    (out : NetBuf) : Prop where
  ctl : rx.ctl = decide (tx.appIdx = keyUnused)
  recvTtl : rx.recvTtl = tx.sendTtl
  seq : rx.seq = seq % 2 ^ 24
  addr : rx.addr = tx.src
  recvDst : rx.recvDst = tx.addr
  payload : out.rest = be16 tx.addr ++ payload

section RoundTrip

variable {cfg senderCfg : Config} {crypto : Crypto} {cipher : Cipher} {netIf : NetIf}
variable {sender receiver : NetNode} {tx : NetTx} {sub : Subnet}
variable {seq tailroom : Nat} {payload : List Byte} {pdu : NetBuf}

theorem NetNode.HearsIv.oldIv {node : NetNode} {ivIndex : Nat} {buf : NetBuf}
    (hears : node.HearsIv ivIndex) (ivi : buf.ivi = decide (ivIndex % 2 = 1)) :
    node.oldIv buf = true ↔ node.ivIndex ≠ ivIndex := by
  unfold NetNode.oldIv
  rw [ivi, bne_iff_ne, ne_eq, decide_eq_decide]
  rcases hears with same | _
  · simp [same]
  have turned : node.ivIndex % 2 = 1 ↔ ¬ ivIndex % 2 = 1 := by omega
  constructor
  · intro _ same
    rw [same] at turned
    omega
  · intro _ parity
    omega

theorem netHeaderEncode_ctlTtl {nid : Byte} {buf : NetBuf}
    (small : tx.sendTtl < 2 ^ 7)
    (encoded : netHeaderEncode sender tx seq nid payload tailroom = some buf) :
    buf.ctl = decide (tx.appIdx = keyUnused) ∧ buf.ttl = tx.sendTtl := by
  have low : (BitVec.ofNat 8 tx.sendTtl).msb = false := by
    rw [BitVec.msb_eq_decide, BitVec.toNat_ofNat, decide_eq_false_iff_not]
    omega
  have header : buf.ctlTtl = BitVec.ofNat 8 tx.sendTtl |||
      if decide (tx.appIdx = keyUnused) then 0x80 else 0 := by
    unfold netHeaderEncode at encoded
    dsimp only at encoded
    split at encoded
    · cases encoded
    split at encoded
    · cases encoded
    · cases encoded
      rfl
  have split : ∀ ctl : Bool,
      ((BitVec.ofNat 8 tx.sendTtl ||| if ctl then 0x80 else 0) &&& 0x7f : Byte) =
          BitVec.ofNat 8 tx.sendTtl ∧
        ((BitVec.ofNat 8 tx.sendTtl ||| if ctl then 0x80 else 0) : Byte).msb = ctl := by
    intro ctl
    have bits := highBit_or_low (if ctl then 0x80 else 0) low
    rw [BitVec.or_comm]
    cases ctl with
    | false => exact bits
    | true => exact bits
  obtain ⟨ttl, ctl⟩ := split (decide (tx.appIdx = keyUnused))
  unfold NetBuf.ctl NetBuf.ttl
  rw [header, ttl, ctl, BitVec.toNat_ofNat]
  exact ⟨rfl, Nat.mod_eq_of_lt (by omega)⟩

theorem netEncode_header {proxy : Bool} (found : sender.subs[tx.sub]? = some sub)
    (encoded : netEncode senderCfg cipher sender tx seq payload tailroom proxy =
      some pdu) :
    ∃ buf, netHeaderEncode sender tx seq (netTxCredGet senderCfg sender tx sub).nid
        payload tailroom = some buf ∧
      netEncrypt senderCfg cipher buf (netTxCredGet senderCfg sender tx sub)
        sender.ivIndexTx proxy = some pdu := by
  unfold netEncode at encoded
  rw [found] at encoded
  exact Option.bind_eq_some_iff.mp encoded

/-- Decoding undoes encoding, and `old_iv` tells the IV index of the sender. -/
theorem netDecode_netEncode {key : Key} {salt : List Byte} (correct : cipher.Correct)
    (nids : SevenBitNids crypto) (found : sender.subs[tx.sub]? = some sub)
    (derived : crypto.k2 key salt = some (netTxCredGet senderCfg sender tx sub))
    (legal : LegalPdu netIf tx payload)
    (sameNonce : netIf = .proxyCfg → senderCfg.gattProxy = cfg.gattProxy)
    (encoded : netEncode senderCfg cipher sender tx seq payload tailroom
      (netIf = .proxyCfg) = some pdu)
    (hearsIv : receiver.HearsIv sender.ivIndexTx)
    (awaits : Awaits cfg cipher netIf (netTxCredGet senderCfg sender tx sub) pdu tx.src
      (seq % 2 ^ 24) receiver) : ∃ (rx : NetDecoded) (out : NetBuf),
      (netDecode cfg cipher netIf receiver pdu).1 = .ok (rx, out) ∧
      ReadAs tx seq payload rx out ∧
      (rx.oldIv = true ↔ receiver.ivIndex ≠ sender.ivIndexTx) ∧
      ivBefore receiver.ivIndex rx.oldIv = sender.ivIndexTx := by
  obtain ⟨buf, header, sent⟩ := netEncode_header found encoded
  obtain ⟨nid, ivi, bufSeq, bufSrc, rest⟩ :=
    netHeaderEncode_buf (nids key salt _ derived) header
  obtain ⟨ctl, ttl⟩ := netHeaderEncode_ctlTtl legal.ttl header
  have iv := hearsIv.rx sender.ivIndexTx_lt ivi
  have oldIv := hearsIv.oldIv ivi
  have first := netEncrypt_first sent
  have pduOldIv : receiver.oldIv pdu = receiver.oldIv buf := by
    simp only [NetNode.oldIv, NetBuf.ivi, first]
  have src : buf.src.toNat = tx.src := by
    rw [bufSrc, BitVec.toNat_ofNat]
    exact Nat.mod_eq_of_lt legal.src
  have seqSame : buf.seq.toNat = seq % 2 ^ 24 := by
    rw [bufSeq, BitVec.toNat_ofNat]
  have dst := dst_be16 legal.dst rest
  have length : pdu.len = 9 + payload.length + buf.micLen := by
    rw [netEncrypt_len correct sent]
    simp only [NetBuf.len, rest, be16, List.length_append, List.length_cons,
      List.length_nil]
    omega
  have lengths : netMinPduLen ≤ pdu.len ∧ pdu.len ≤ netMaxPduLen := by
    have fits := legal.length
    rw [length, NetBuf.micLen, ctl]
    unfold netMinPduLen netMaxPduLen
    split at fits
    next control => simp [control]; omega
    next access => simp [access]; omega
  rw [netEncrypt_config (by simpa using sameNonce), ← iv] at sent
  have opens := netDecrypt_inverts correct sent nid (by rw [src]; exact legal.unicast)
    (by rw [src]; exact awaits.foreign) (by rw [src, seqSame]; exact awaits.unseen)
  obtain ⟨_, held, refCred⟩ := awaits.holds
  rw [← refCred] at opens
  obtain ⟨other, _, _, search⟩ := netCredFind_found held opens (by
    intro other member opened
    rw [refCred]
    exact awaits.alone other member opened)
  refine ⟨netDecoded netIf receiver pdu other buf, buf, ?_, ?_, ?_, ?_⟩
  · refine netDecode_eq_ok.mpr
      ⟨other, ⟨lengths.1, lengths.2, awaits.fresh, search, ?_⟩, rfl⟩
    rw [dst]
    exact legal.assigned
  · exact ⟨ctl, ttl, seqSame, src, dst, rest⟩
  · show receiver.oldIv pdu = true ↔ _
    rw [pduOldIv]
    exact oldIv
  · show ivBefore receiver.ivIndex (receiver.oldIv pdu) = _
    rw [pduOldIv]
    exact iv

end RoundTrip

def controlTx : NetTx where
  sub := 0
  appIdx := keyUnused
  addr := 0xc000
  sendTtl := 5
  src := 0x10
  xmit := 0
  aid := 0
  aszmic := false
  friendCred := false

def aheadNode : NetNode :=
  { refreshingNode with elemAddr := 0x40, ivIndex := 1, dupCache := [1, 2] }

theorem netDecode_netEncode_ahead :
    ∃ (pdu : NetBuf) (rx : NetDecoded) (out : NetBuf),
      netEncode plainConfig plainCipher refreshingNode controlTx (2 ^ 24 + 3)
        [0x0a, 1, 2] 8 false = some pdu ∧
      (netDecode plainConfig plainCipher .adv aheadNode pdu).1 = .ok (rx, out) ∧
      ReadAs controlTx (2 ^ 24 + 3) [0x0a, 1, 2] rx out ∧
      (rx.oldIv = true ↔ aheadNode.ivIndex ≠ refreshingNode.ivIndexTx) ∧
      ivBefore aheadNode.ivIndex rx.oldIv = refreshingNode.ivIndexTx := by
  obtain ⟨sub, pdu, found, derived, encoded, awaits⟩ :
      ∃ (sub : Subnet) (pdu : NetBuf), refreshingNode.subs[controlTx.sub]? = some sub ∧
        nidCrypto.k2 7 [0] =
          some (netTxCredGet plainConfig refreshingNode controlTx sub) ∧
        netEncode plainConfig plainCipher refreshingNode controlTx (2 ^ 24 + 3)
          [0x0a, 1, 2] 8 false = some pdu ∧
        Awaits plainConfig plainCipher .adv
          (netTxCredGet plainConfig refreshingNode controlTx sub) pdu 0x10
          ((2 ^ 24 + 3) % 2 ^ 24) aheadNode := by
    refine ⟨_, _, rfl, rfl, rfl, ?_⟩
    refine ⟨?_, by decide, by decide, by decide, by decide⟩
    exact ⟨_, List.mem_cons_self, rfl⟩
  have legal : LegalPdu .adv controlTx [0x0a, 1, 2] :=
    ⟨by decide, by decide, by decide, by decide, by decide, by decide⟩
  obtain ⟨rx, out, decoded, read, oldIv, iv⟩ :=
    netDecode_netEncode plainCipher_correct nidCrypto_nids found derived legal
      NetIf.noConfusion encoded (.inr (by decide)) awaits
  exact ⟨pdu, rx, out, encoded, decoded, read, oldIv, iv⟩

end ZephyrBluetooth.Mesh
