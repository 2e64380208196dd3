import ZephyrBluetooth.Mesh.NetPdu

namespace ZephyrBluetooth.Mesh

def relayToAdv (node : NetNode) : NetIf → Bool
  | .adv => node.relayEnabled
  | .proxy => node.proxyEnabled
  | .local | .proxyCfg => false

/-- What `bt_mesh_net_relay` hands to the proxy clients and to the advertiser. -/
structure NetRelayed where
  pdu : NetBuf
  toProxy : Bool
  toAdv : Bool

/-- The buffer that `bt_mesh_net_relay` encrypts: one hop less, and the NID only
replaced after friendship credentials. -/
def relayBuf (buf : NetBuf) (rx : NetDecoded) (sub : Subnet) : NetBuf :=
  let aged :=
    { buf with
      ctlTtl := buf.ctlTtl &&& 0x80 ||| BitVec.ofNat 8 (rx.recvTtl - 1) }
  if rx.ref.friendCred then
    { aged with first := aged.first &&& 0x80 ||| sub.txCred.nid }
  else
    aged

/-- `bt_mesh_net_relay`; `buffer` tells whether `bt_mesh_adv_create` finds a
buffer. -/
def netRelay (cfg : Config) (cipher : Cipher) (node : NetNode) (buf : NetBuf)
    (rx : NetDecoded) (buffer : Bool) : Option NetRelayed :=
  if rx.recvTtl ≤ 1 then
    none
  else if rx.netIf = .adv ∧ rx.ref.friendCred = false ∧
      node.relayEnabled = false ∧ node.proxyEnabled = false then
    none
  else if !buffer then
    none
  else
    match node.subs[rx.ref.sub]? with
    | none => none
    | some sub =>
      (netEncrypt cfg cipher (relayBuf buf rx sub) sub.txCred
          (ivBefore node.ivIndex rx.oldIv) false).map fun pdu =>
        { pdu := pdu
          toProxy := cfg.gattProxy && (rx.ref.friendCred || node.proxyEnabled)
          toAdv := relayToAdv node rx.netIf || rx.ref.friendCred }

def NetRelayed.transmitted (relayed : NetRelayed) : Bool :=
  relayed.toProxy || relayed.toAdv

/-- A node that holds the credentials of a PDU, and no others that would open it,
and that takes the PDU in. -/
structure Hears (cfg : Config) (cipher : Cipher) (netIf : NetIf)
    (ivIndex : Nat) (cred : NetCred) (pdu : NetBuf) (src : BitVec 16)
    (seq : BitVec 24) (receiver : NetNode) : Prop where
  sameIv : receiver.ivIndex = ivIndex
  takesIn : receiver.TakesIn netIf src seq
  fresh : netIf = .adv → dupValue pdu ∉ receiver.dupCache
  holds : ∃ ref ∈ netCredRefs cfg receiver, ref.cred = cred
  alone : ∀ ref ∈ netCredRefs cfg receiver,
    (netDecrypt cfg cipher netIf receiver pdu ref.cred).isSome = true →
      ref.cred = cred

structure OneHopLess (rx : NetDecoded) (buf : NetBuf) (seen : NetDecoded)
    (out : NetBuf) : Prop where
  ctl : seen.ctl = rx.ctl
  seq : seen.seq = rx.seq
  addr : seen.addr = rx.addr
  recvDst : seen.recvDst = rx.recvDst
  payload : out.rest = buf.rest
  recvTtl : seen.recvTtl + 1 = rx.recvTtl

structure RelayDecodable (cipher : Cipher) (node : NetNode) (cred : NetCred)
    (rx : NetDecoded) (buf : NetBuf) (pdu : NetBuf) : Prop where
  nid : pdu.nid = cred.nid
  decoded : ∀ (cfg : Config) (netIf : NetIf) (receiver : NetNode),
    Hears cfg cipher netIf node.ivIndex cred pdu buf.src buf.seq receiver →
      ∃ seen out, (netDecode cfg cipher netIf receiver pdu).1 = .ok (seen, out) ∧
        OneHopLess rx buf seen out

section Relay

variable {cfg : Config} {crypto : Crypto} {cipher : Cipher} {netIf : NetIf}
variable {node : NetNode} {pdu buf : NetBuf} {rx : NetDecoded} {sub : Subnet}
variable {relayed : NetRelayed}

theorem netRelay_eq_some {buffer : Bool}
    (done : netRelay cfg cipher node buf rx buffer = some relayed)
    (found : node.subs[rx.ref.sub]? = some sub) :
    ¬ rx.recvTtl ≤ 1 ∧ netEncrypt cfg cipher (relayBuf buf rx sub) sub.txCred
        (ivBefore node.ivIndex rx.oldIv) false = some relayed.pdu := by
  unfold netRelay at done
  split at done
  · cases done
  next hops =>
    split at done
    · cases done
    split at done
    · cases done
    rw [found] at done
    obtain ⟨_, encrypted, rfl⟩ := Option.map_eq_some_iff.mp done
    exact ⟨hops, encrypted⟩

theorem relayBuf_first (buf : NetBuf) (rx : NetDecoded) (sub : Subnet)
    (small : sub.txCred.nid.msb = false) :
    (relayBuf buf rx sub).ivi = buf.ivi ∧ (relayBuf buf rx sub).nid =
        if rx.ref.friendCred then sub.txCred.nid else buf.nid := by
  unfold relayBuf
  cases rx.ref.friendCred with
  | false => exact ⟨rfl, rfl⟩
  | true =>
    obtain ⟨low, high⟩ := highBit_or_low buf.first small
    exact ⟨high, low⟩

theorem relayBuf_hop (sub : Subnet) (ttl : rx.recvTtl = buf.ttl)
    (hops : ¬ rx.recvTtl ≤ 1) : (relayBuf buf rx sub).ctl = buf.ctl ∧
      (relayBuf buf rx sub).ttl + 1 = buf.ttl := by
  have header : (relayBuf buf rx sub).ctlTtl =
      buf.ctlTtl &&& 0x80 ||| BitVec.ofNat 8 (rx.recvTtl - 1) := by
    unfold relayBuf
    split <;> rfl
  have bound : buf.ttl < 2 ^ 7 := by
    have below := Nat.and_lt_two_pow buf.ctlTtl.toNat (show 0x7f < 2 ^ 7 by decide)
    simpa [NetBuf.ttl] using below
  have small : (BitVec.ofNat 8 (rx.recvTtl - 1)).msb = false := by
    rw [BitVec.msb_eq_decide, BitVec.toNat_ofNat, decide_eq_false_iff_not]
    omega
  obtain ⟨low, high⟩ := highBit_or_low buf.ctlTtl small
  constructor
  · simp only [NetBuf.ctl, header]
    exact high
  · simp only [NetBuf.ttl] at bound ttl ⊢
    rw [header, low, BitVec.toNat_ofNat]
    omega

theorem relayBuf_kept (buf : NetBuf) (rx : NetDecoded) (sub : Subnet) :
    (relayBuf buf rx sub).seq = buf.seq ∧ (relayBuf buf rx sub).src = buf.src ∧
      (relayBuf buf rx sub).rest = buf.rest := by
  unfold relayBuf
  split <;> exact ⟨rfl, rfl, rfl⟩

theorem netDecode_hears {sender : Config} {receiver : NetNode} {cred : NetCred}
    {ivIndex : Nat} (correct : cipher.Correct) (named : buf.nid = cred.nid)
    (sent : netEncrypt sender cipher buf cred (receiver.ivIndexRx buf) false =
      some pdu) (long : netMinPduLen ≤ pdu.len) (short : pdu.len ≤ netMaxPduLen)
    (assigned : buf.dst ≠ addrUnassigned)
    (hears : Hears cfg cipher netIf ivIndex cred pdu buf.src buf.seq receiver) :
    ∃ ref, (netDecode cfg cipher netIf receiver pdu).1 =
      .ok (netDecoded netIf receiver pdu ref buf, buf) := by
  obtain ⟨ref, held, same⟩ := hears.holds
  rw [netEncrypt_plain sender cfg] at sent
  have opens := netDecrypt_netEncrypt correct sent named hears.takesIn
  rw [← same] at opens
  have alone : ∀ other ∈ netCredRefs cfg receiver,
      (netDecrypt cfg cipher netIf receiver pdu other.cred).isSome = true →
        other.cred = ref.cred := by
    intro other member opened
    rw [same]
    exact hears.alone other member opened
  obtain ⟨found, _, _, search⟩ := netCredFind_found held opens alone
  refine ⟨found, netDecode_eq_ok.mpr ⟨found, ?_, rfl⟩⟩
  exact ⟨long, short, hears.fresh, search, fun _ => assigned⟩

structure Relays (cfg : Config) (cipher : Cipher) (netIf : NetIf)
    (node : NetNode) (pdu buf : NetBuf) (rx : NetDecoded) (sub : Subnet)
    (relayed : NetRelayed) : Prop where
  accepts : NetAccepts cfg cipher netIf node pdu rx.ref buf
  decoded : rx = netDecoded netIf node pdu rx.ref buf
  hops : ¬ rx.recvTtl ≤ 1
  small : sub.txCred.nid.msb = false
  encrypted : netEncrypt cfg cipher (relayBuf buf rx sub) sub.txCred
    (ivBefore node.ivIndex rx.oldIv) false = some relayed.pdu

theorem relays_of_accepted {buffer : Bool} (nids : SevenBitNids crypto)
    (ok : TableOk cfg crypto node.subs)
    (accepted : (netDecode cfg cipher netIf node pdu).1 = .ok (rx, buf))
    (done : netRelay cfg cipher node buf rx buffer = some relayed)
    (found : node.subs[rx.ref.sub]? = some sub) :
    Relays cfg cipher netIf node pdu buf rx sub relayed := by
  obtain ⟨ref, accepts, same⟩ := netDecode_eq_ok.mp accepted
  obtain rfl : ref = rx.ref := by rw [same]; rfl
  obtain ⟨hops, encrypted⟩ := netRelay_eq_some done found
  refine ⟨accepts, same, hops, ?_, encrypted⟩
  obtain ⟨held, _⟩ := netCredFind_some accepts.found
  obtain ⟨owner, ownerAt, valid⟩ := netCredRefs_valid held
  obtain rfl : sub = owner := Option.some.inj (found.symm.trans ownerAt)
  have fine := ok.each _ _ found
  exact nids _ _ _ (fine.txCred (fine.txValid valid))

theorem Relays.nid (correct : cipher.Correct)
    (relays : Relays cfg cipher netIf node pdu buf rx sub relayed) :
    relayed.pdu.nid = if rx.ref.friendCred then sub.txCred.nid else pdu.nid := by
  obtain ⟨_, opened⟩ := netCredFind_some relays.accepts.found
  obtain ⟨first, _, _⟩ := netDecrypt_opened correct opened
  obtain ⟨_, nid⟩ := relayBuf_first buf rx sub relays.small
  have bufNid : buf.nid = pdu.nid := by simp only [NetBuf.nid, first]
  rw [← bufNid, ← nid]
  simp only [NetBuf.nid, netEncrypt_first relays.encrypted]

theorem Relays.decodes (correct : cipher.Correct)
    (relays : Relays cfg cipher netIf node pdu buf rx sub relayed)
    (bearer : netIf = .adv ∨ netIf = .proxy)
    (named : relayed.pdu.nid = sub.txCred.nid) {receiverCfg : Config}
    {receiverIf : NetIf} {receiver : NetNode}
    (hears : Hears receiverCfg cipher receiverIf node.ivIndex sub.txCred
      relayed.pdu buf.src buf.seq receiver) :
    ∃ seen out, (netDecode receiverCfg cipher receiverIf receiver relayed.pdu).1 =
      .ok (seen, out) ∧ OneHopLess rx buf seen out := by
  obtain ⟨_, opened⟩ := netCredFind_some relays.accepts.found
  obtain ⟨first, _, length⟩ := netDecrypt_opened correct opened
  have recvTtl : rx.recvTtl = buf.ttl := by rw [relays.decoded]; rfl
  obtain ⟨ivi, _⟩ := relayBuf_first buf rx sub relays.small
  obtain ⟨ctl, ttl⟩ := relayBuf_hop sub recvTtl relays.hops
  obtain ⟨seq, src, rest⟩ := relayBuf_kept buf rx sub
  have dst : (relayBuf buf rx sub).dst = buf.dst := by
    simp only [NetBuf.dst, rest]
  have ivSame : receiver.ivIndexRx (relayBuf buf rx sub) =
      ivBefore node.ivIndex rx.oldIv := by
    have oldIv : rx.oldIv = node.oldIv pdu := by rw [relays.decoded]; rfl
    have bufIvi : buf.ivi = pdu.ivi := by simp only [NetBuf.ivi, first]
    simp only [NetNode.ivIndexRx, NetNode.oldIv, hears.sameIv, ivi, bufIvi, oldIv]
  have lengthSame : relayed.pdu.len = pdu.len := by
    rw [netEncrypt_len correct relays.encrypted, length]
    simp only [NetBuf.len, NetBuf.micLen, rest, ctl]
  have assigned : (relayBuf buf rx sub).dst ≠ addrUnassigned := by
    rw [dst]
    apply relays.accepts.assigned
    rcases bearer with rfl | rfl <;> exact NetIf.noConfusion
  have bufNamed : (relayBuf buf rx sub).nid = sub.txCred.nid := by
    rw [← named]
    simp only [NetBuf.nid, netEncrypt_first relays.encrypted]
  have encrypted := relays.encrypted
  rw [← ivSame] at encrypted
  rw [← src, ← seq] at hears
  obtain ⟨_, decoded⟩ := netDecode_hears correct bufNamed encrypted
    (lengthSame ▸ relays.accepts.long) (lengthSame ▸ relays.accepts.short)
    assigned hears
  refine ⟨_, _, decoded, ?_⟩
  rw [relays.decoded] at seq src ttl ctl dst rest ⊢
  exact ⟨ctl, congrArg BitVec.toNat seq, congrArg BitVec.toNat src, dst, rest, ttl⟩

/-- A relayed PDU can be decoded exactly if it was received with friendship
credentials, or with credentials of the NID that the subnet transmits with. -/
theorem relay_decodable_iff {buffer : Bool} (correct : cipher.Correct)
    (nids : SevenBitNids crypto) (ok : TableOk cfg crypto node.subs)
    (bearer : netIf = .adv ∨ netIf = .proxy)
    (accepted : (netDecode cfg cipher netIf node pdu).1 = .ok (rx, buf))
    (done : netRelay cfg cipher node buf rx buffer = some relayed)
    (found : node.subs[rx.ref.sub]? = some sub) :
    RelayDecodable cipher node sub.txCred rx buf relayed.pdu ↔
      rx.ref.friendCred = true ∨ pdu.nid = sub.txCred.nid := by
  have relays := relays_of_accepted nids ok accepted done found
  have nid := relays.nid correct
  constructor
  · intro decodable
    rw [decodable.nid] at nid
    split at nid
    next friend => exact .inl friend
    next => exact .inr nid.symm
  · intro condition
    have named : relayed.pdu.nid = sub.txCred.nid := by
      rw [nid]
      split
      · rfl
      next plain => exact condition.resolve_left plain
    refine ⟨named, ?_⟩
    intro receiverCfg receiverIf receiver hears
    exact relays.decodes correct bearer named hears

end Relay

/-! A node in phase 1 of a Key Refresh, with a cipher whose MIC names the key. -/

def plainCipher : Cipher where
  ecb key _ := some (key <<< 80)
  ccmEncrypt key _ _ plain mic := some (plain ++ List.replicate mic (key.setWidth 8))
  ccmDecrypt key _ _ sealed mic :=
    let plain := sealed.take (sealed.length - mic)
    if sealed = plain ++ List.replicate mic (key.setWidth 8) then some plain else none

theorem plainCipher_correct : plainCipher.Correct where
  inverse := by
    intro key nonce ad plain mic sealed done
    cases done
    simp [plainCipher]
  sealedLength := by
    intro key nonce ad plain mic sealed done
    cases done
    simp
  plainLength := by
    intro key nonce ad sealed mic plain done
    simp only [plainCipher] at done
    split at done
    next same =>
      cases done
      have length := congrArg List.length same
      simpa using length
    next => cases done

def nidCrypto : Crypto :=
  { plainCrypto with
    k2 := fun key _ => some ⟨(key.setWidth 7).setWidth 8, key, key⟩ }

theorem nidCrypto_nids : SevenBitNids nidCrypto := by
  intro key p cred derived
  cases derived
  simp [BitVec.msb_setWidth]

def refreshingNode : NetNode where
  ivIndex := 0
  ivuInProgress := false
  elemAddr := 0x10
  elemCount := 1
  subs := (subnetMachine plainConfig nidCrypto).run (emptyTable 1) addedSubnet
  frnd := []
  lpn := .boot
  dupCache := [0, 0]
  dupCacheNext := 0
  msgCache := [(0, 0), (0, 0)]
  msgCacheNext := 0
  relayEnabled := true
  proxyEnabled := true

theorem refreshingNode_ok : TableOk plainConfig nidCrypto refreshingNode.subs :=
  tableOk_run plainConfig nidCrypto (TableOk.empty plainConfig nidCrypto 1) addedSubnet

def sampleBuf (key : Byte) : NetBuf :=
  ⟨key, 5, 1, 2, [0xc0, 0, 1, 2, 3, 4, 5, 6, 7]⟩

def sampleNetPdu (key : Byte) : NetBuf :=
  ⟨key, 5, 1, 2 ^^^ key.setWidth 16,
    [0xc0, 0, 1, 2, 3, 4, 5, 6, 7] ++ List.replicate 4 key⟩

def sampleDecoded (key : Byte) (newKey : Bool) : NetDecoded where
  netIf := .adv
  ref := ⟨0, newKey, false, ⟨key, key.setWidth 128, key.setWidth 128⟩⟩
  netIdx := 1
  oldIv := false
  ctl := false
  recvTtl := 5
  sendTtl := ttlDefault
  seq := 1
  addr := 2
  recvDst := 0xc000
  msgCacheIdx := 0

theorem relay_decodable_old :
    ∃ (sub : Subnet) (relayed : NetRelayed), refreshingNode.subs[0]? = some sub ∧
      netRelay plainConfig plainCipher refreshingNode (sampleBuf 7)
        (sampleDecoded 7 false) true = some relayed ∧ relayed.transmitted = true ∧
      RelayDecodable plainCipher refreshingNode sub.txCred
        (sampleDecoded 7 false) (sampleBuf 7) relayed.pdu := by
  obtain ⟨sub, relayed, found, done, transmitted, nid⟩ :
      ∃ (sub : Subnet) (relayed : NetRelayed), refreshingNode.subs[0]? = some sub ∧
        netRelay plainConfig plainCipher refreshingNode (sampleBuf 7)
          (sampleDecoded 7 false) true = some relayed ∧
        relayed.transmitted = true ∧ (sampleNetPdu 7).nid = sub.txCred.nid :=
    ⟨_, _, rfl, rfl, rfl, by decide⟩
  have accepted : (netDecode plainConfig plainCipher .adv refreshingNode
      (sampleNetPdu 7)).1 = .ok (sampleDecoded 7 false, sampleBuf 7) := rfl
  refine ⟨sub, relayed, found, done, transmitted, ?_⟩
  exact (relay_decodable_iff plainCipher_correct nidCrypto_nids
    refreshingNode_ok (.inl rfl) accepted done found).mpr (.inr nid)

/-- Received under the new key, relayed under the old key and still named after
the new one: a node with both keys does not decode it. -/
theorem relay_misnamed :
    (netDecode plainConfig plainCipher .adv refreshingNode (sampleNetPdu 8)).1 =
        .ok (sampleDecoded 8 true, sampleBuf 8) ∧
      ∃ (sub : Subnet) (relayed : NetRelayed), refreshingNode.subs[0]? = some sub ∧
        netRelay plainConfig plainCipher refreshingNode (sampleBuf 8)
          (sampleDecoded 8 true) true = some relayed ∧
        relayed.transmitted = true ∧
        (netDecode plainConfig plainCipher .adv
          { refreshingNode with elemAddr := 0x20 } relayed.pdu).1 = .error .noEnt ∧
        ¬ RelayDecodable plainCipher refreshingNode sub.txCred
          (sampleDecoded 8 true) (sampleBuf 8) relayed.pdu := by
  refine ⟨rfl, _, _, rfl, rfl, rfl, rfl, ?_⟩
  intro decodable
  exact absurd decodable.nid (by decide)

end ZephyrBluetooth.Mesh
