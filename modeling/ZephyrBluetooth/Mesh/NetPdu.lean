import Mathlib.Tactic.IntervalCases
import ZephyrBluetooth.Mesh.Lpn

namespace ZephyrBluetooth.Mesh

open BitVec List Option

variable {crypto : Crypto} {ivIndex : Nat} {proxy : Bool} {cred : NetCred}

/-! Network PDUs: their encryption and obfuscation in `crypto.c`, and how
`net.c` and `subnet.c` find the credentials of a received one. -/

/-- The bytes of a network PDU.  The first byte is IVI and NID, the next six are
obfuscated, and the rest, from the destination on, is encrypted. -/
structure NetBuf where
  first : Byte
  ctlTtl : Byte
  seq : BitVec 24
  src : BitVec 16
  rest : List Byte

variable {buf out pdu : NetBuf}

namespace NetBuf

def len (buf : NetBuf) : Nat := 7 + buf.rest.length

def ivi (buf : NetBuf) : Bool := buf.first.msb

def nid (buf : NetBuf) : Byte := buf.first &&& 0x7f

def ctl (buf : NetBuf) : Bool := buf.ctlTtl.msb

def ttl (buf : NetBuf) : Nat := (buf.ctlTtl &&& 0x7f).toNat

def dst (buf : NetBuf) : Nat :=
  match buf.rest with
  | high :: low :: _ => high.toNat * 2 ^ 8 + low.toNat
  | _ => addrUnassigned

def micLen (buf : NetBuf) : Nat := if buf.ctl then 8 else 4

end NetBuf

def netMinPduLen : Nat := 18

def netMaxPduLen : Nat := 29

def be24 (value : Nat) : List Byte :=
  BitVec.ofNat 8 (value / 2 ^ 16) :: be16 value

def bytes32 (value : Nat) : List Byte :=
  be16 (value / 2 ^ 16) ++ be16 value

/-- `bt_encrypt_be`, `bt_ccm_encrypt` and `bt_ccm_decrypt`.  The MIC follows the
encrypted data. -/
structure Cipher where
  ecb : Key → List Byte → Option (BitVec 128)
  ccmEncrypt : Key → List Byte → Option Key → List Byte → Nat → Option (List Byte)
  ccmDecrypt : Key → List Byte → Option Key → List Byte → Nat → Option (List Byte)

structure Cipher.Correct (cipher : Cipher) : Prop where
  inverse : ∀ key nonce ad plain mic sealed,
    cipher.ccmEncrypt key nonce ad plain mic = some sealed →
      cipher.ccmDecrypt key nonce ad sealed mic = some plain
  sealedLength : ∀ key nonce ad plain mic sealed,
    cipher.ccmEncrypt key nonce ad plain mic = some sealed →
      sealed.length = plain.length + mic
  plainLength : ∀ key nonce ad sealed mic plain,
    cipher.ccmDecrypt key nonce ad sealed mic = some plain →
      sealed.length = plain.length + mic

def createNetNonce (buf : NetBuf) (ivIndex : Nat) : List Byte :=
  [0x00, buf.ctlTtl] ++ be24 buf.seq.toNat ++ be16 buf.src.toNat ++ [0, 0] ++
    bytes32 ivIndex

def createProxyNonce (buf : NetBuf) (ivIndex : Nat) : List Byte :=
  [0x03, 0x00] ++ be24 buf.seq.toNat ++ be16 buf.src.toNat ++ [0, 0] ++
    bytes32 ivIndex

section Crypto

variable (cfg : Config) (cipher : Cipher)

def privacyRandom (buf : NetBuf) (ivIndex : Nat) : List Byte :=
  List.replicate 5 0 ++ bytes32 ivIndex ++ buf.rest.take 7

def netObfuscate (buf : NetBuf) (ivIndex : Nat) (privacy : Key) : Option NetBuf :=
  (cipher.ecb privacy (privacyRandom buf ivIndex)).map fun tmp =>
    { buf with
      ctlTtl := buf.ctlTtl ^^^ tmp.extractLsb' 120 8
      seq := buf.seq ^^^ tmp.extractLsb' 96 24
      src := buf.src ^^^ tmp.extractLsb' 80 16 }

/-- The nonce of `bt_mesh_net_encrypt` and `bt_mesh_net_decrypt`;
`CONFIG_BT_MESH_PROXY` is selected by `CONFIG_BT_MESH_GATT_PROXY` alone. -/
def netNonce (buf : NetBuf) (ivIndex : Nat) (proxy : Bool) : List Byte :=
  if cfg.gattProxy && proxy then createProxyNonce buf ivIndex
  else createNetNonce buf ivIndex

def meshNetEncrypt (enc : Key) (buf : NetBuf) (ivIndex : Nat) (proxy : Bool) :
    Option NetBuf :=
  (cipher.ccmEncrypt enc (netNonce cfg buf ivIndex proxy) none buf.rest
    buf.micLen).map fun sealed => { buf with rest := sealed }

def meshNetDecrypt (enc : Key) (buf : NetBuf) (ivIndex : Nat) (proxy : Bool) :
    Option NetBuf :=
  (cipher.ccmDecrypt enc (netNonce cfg buf ivIndex proxy) none buf.rest
    buf.micLen).map fun plain => { buf with rest := plain }

def netEncrypt (buf : NetBuf) (cred : NetCred) (ivIndex : Nat) (proxy : Bool) :
    Option NetBuf :=
  (meshNetEncrypt cfg cipher cred.enc buf ivIndex proxy).bind fun sealed =>
    netObfuscate cipher sealed ivIndex cred.privacy

end Crypto

structure NetNode where
  ivIndex : Nat
  ivuInProgress : Bool
  elemAddr : Nat
  elemCount : Nat
  subs : List Subnet
  frnd : List Friend
  lpn : Lpn
  dupCache : List (BitVec 32)
  dupCacheNext : Nat
  msgCache : List (Nat × Nat)
  msgCacheNext : Nat
  relayEnabled : Bool
  proxyEnabled : Bool

def NetNode.hasAddr (node : NetNode) (addr : Nat) : Bool :=
  decide ((addr + 2 ^ 16 - node.elemAddr) % 2 ^ 16 < node.elemCount)

/-- Credentials with the place that `bt_mesh_net_cred_find` found them at. -/
structure CredRef where
  sub : Nat
  newKey : Bool
  friendCred : Bool
  cred : NetCred

variable {ref : CredRef}

def keyRefs (subs : List Subnet) (slot : Nat) (friendCred : Bool)
    (cred : Subnet → Bool → NetCred) : List CredRef :=
  match subs[slot]? with
  | none => []
  | some sub =>
    [false, true].filterMap fun idx =>
      if (sub.keys.get idx).valid then
        some ⟨slot, idx, friendCred, cred sub idx⟩
      else
        none

/-- The credentials in the order of `bt_mesh_net_cred_find`. -/
def netCredRefs (cfg : Config) (node : NetNode) : List CredRef :=
  if cfg.lowPower && node.lpn.state = .waitUpdate then
    match node.lpn.sub with
    | none => []
    | some slot => keyRefs node.subs slot true fun _ idx => node.lpn.cred.get idx
  else
    (if cfg.friend then
      node.frnd.flatMap fun frnd =>
        match frnd.subnet with
        | none => []
        | some slot => keyRefs node.subs slot true fun _ idx => frnd.cred.get idx
    else
      []) ++
      node.subs.zipIdx.flatMap fun entry =>
        if entry.1.netIdx = keyUnused then
          []
        else
          keyRefs node.subs entry.2 false fun sub idx => (sub.keys.get idx).msg

def msgCacheMatch (node : NetNode) (buf : NetBuf) : Bool :=
  node.msgCache.any fun entry =>
    entry.1 = buf.src.toNat ∧ entry.2 = buf.seq.toNat % 2 ^ 17

section Decode

variable (cfg : Config) (cipher : Cipher) (netIf : NetIf)

def NetNode.oldIv (node : NetNode) (buf : NetBuf) : Bool :=
  buf.ivi != decide (node.ivIndex % 2 = 1)

/-- `BT_MESH_NET_IVI_RX` of a received PDU. -/
def NetNode.ivIndexRx (node : NetNode) (buf : NetBuf) : Nat :=
  ivBefore node.ivIndex (node.oldIv buf)

def netDecrypt (node : NetNode) (pdu : NetBuf) (cred : NetCred) : Option NetBuf :=
  if pdu.nid ≠ cred.nid then
    none
  else
    match netObfuscate cipher pdu (node.ivIndexRx pdu) cred.privacy with
    | none => none
    | some out =>
      if !addrIsUnicast out.src.toNat then
        none
      else if node.hasAddr out.src.toNat then
        none
      else if netIf = .adv ∧ msgCacheMatch node out then
        none
      else
        meshNetDecrypt cfg cipher cred.enc out (node.ivIndexRx pdu)
          (netIf = .proxyCfg)

def netCredFind (node : NetNode) (pdu : NetBuf) : Option (CredRef × NetBuf) :=
  (netCredRefs cfg node).findSome? fun ref =>
    (netDecrypt cfg cipher netIf node pdu ref.cred).map fun out => (ref, out)

/-- `struct bt_mesh_net_rx` as `bt_mesh_net_decode` fills it in. -/
structure NetDecoded where
  netIf : NetIf
  ref : CredRef
  netIdx : Nat
  oldIv : Bool
  ctl : Bool
  recvTtl : Nat
  sendTtl : Nat
  seq : Nat
  addr : Nat
  recvDst : Nat
  msgCacheIdx : Nat

def ttlDefault : Nat := 0xff

def getBe32 (bytes : List Byte) : BitVec 32 :=
  (bytes.take 4).foldl (fun word byte => word <<< 8 ||| byte.setWidth 32) 0

/-- The value that `check_dup` remembers of a PDU. -/
def dupValue (pdu : NetBuf) : BitVec 32 :=
  getBe32 (pdu.rest.drop (pdu.rest.length - 4)) ^^^
    getBe32 (pdu.rest.drop (pdu.rest.length - 8))

def checkDup (node : NetNode) (pdu : NetBuf) : Bool × NetNode :=
  if dupValue pdu ∈ node.dupCache then
    (true, node)
  else
    (false,
      { node with
        dupCache := node.dupCache.set node.dupCacheNext (dupValue pdu)
        dupCacheNext := (node.dupCacheNext + 1) % node.dupCache.length })

def msgCacheAdd (node : NetNode) (rx : NetDecoded) : NetNode :=
  { node with
    msgCache := node.msgCache.set node.msgCacheNext
      (rx.addr % 2 ^ 15, rx.seq % 2 ^ 17)
    msgCacheNext := (node.msgCacheNext + 1) % node.msgCache.length }

/-- What `bt_mesh_net_decode` reads from the PDU once its credentials are found. -/
def netDecoded (node : NetNode) (pdu : NetBuf) (ref : CredRef) (out : NetBuf) :
    NetDecoded where
  netIf := netIf
  ref := ref
  netIdx := (node.subs[ref.sub]?.map (·.netIdx)).getD keyUnused
  oldIv := node.oldIv pdu
  ctl := out.ctl
  recvTtl := out.ttl
  sendTtl := if out.ttl = 0 then 0 else ttlDefault
  seq := out.seq.toNat
  addr := out.src.toNat
  recvDst := out.dst
  msgCacheIdx := node.msgCacheNext

def netDecode (node : NetNode) (pdu : NetBuf) :
    Except Errno (NetDecoded × NetBuf) × NetNode :=
  if pdu.len < netMinPduLen then
    (.error .inval, node)
  else if netMaxPduLen < pdu.len then
    (.error .inval, node)
  else
    let (dup, checked) :=
      if netIf = .adv then checkDup node pdu else (false, node)
    if dup then
      (.error .inval, checked)
    else
      match netCredFind cfg cipher netIf checked pdu with
      | none => (.error .noEnt, checked)
      | some (ref, out) =>
        let rx := netDecoded netIf checked pdu ref out
        if netIf ≠ .proxyCfg ∧ rx.recvDst = addrUnassigned then
          (.error .badMsg, checked)
        else
          (.ok (rx, out), msgCacheAdd checked rx)

end Decode

def Subnet.txCred (sub : Subnet) : NetCred := (sub.keys.get sub.txIdx).msg

variable {cfg : Config}

theorem KeysOk.msg {keys : SubnetKeys} (ok : KeysOk cfg crypto keys)
    (valid : keys.valid = true) : crypto.k2 keys.net [0] = some keys.msg := by
  have derived := ok.derived valid
  unfold deriveKeys at derived
  obtain ⟨_, k2, rest⟩ := bind_eq_some_iff.mp derived
  obtain ⟨_, _, rest⟩ := bind_eq_some_iff.mp rest
  obtain ⟨_, _, rest⟩ := bind_eq_some_iff.mp rest
  obtain ⟨_, _, same⟩ := map_eq_some_iff.mp rest
  rw [← same]
  exact k2

theorem SubnetOk.txValid {sub : Subnet} (ok : SubnetOk cfg crypto sub) {idx : Bool}
    (valid : (sub.keys.get idx).valid = true) :
    (sub.keys.get sub.txIdx).valid = true := by
  have used : sub.netIdx ≠ keyUnused := by
    intro free
    obtain ⟨_, old, new⟩ := ok.unused free
    cases idx with
    | false => exact absurd valid (by simp [Slots.get, old])
    | true => exact absurd valid (by simp [Slots.get, new])
  cases phase : sub.krPhase with
  | normal =>
    have tx : sub.txIdx = false := by simp [Subnet.txIdx, phase]
    rw [tx]
    exact (ok.normal used phase).1
  | phase1 =>
    have tx : sub.txIdx = false := by simp [Subnet.txIdx, phase]
    rw [tx]
    exact ok.phase1 phase
  | phase2 =>
    have tx : sub.txIdx = true := by simp [Subnet.txIdx, phase]
    rw [tx]
    exact ok.refresh (by rw [phase]; exact KrPhase.noConfusion)
  | phase3 => exact absurd phase ok.below3

theorem SubnetOk.txCred {sub : Subnet} (ok : SubnetOk cfg crypto sub)
    (valid : (sub.keys.get sub.txIdx).valid = true) :
    crypto.k2 (sub.keys.get sub.txIdx).net [0] = some sub.txCred :=
  (ok.keys sub.txIdx).msg valid

def SevenBitNids (crypto : Crypto) : Prop :=
  ∀ key p cred, crypto.k2 key p = some cred → cred.nid.msb = false

section RoundTrips

variable {cfg : Config} {cipher : Cipher}

theorem highBit_or_low (high : Byte) {low : Byte} (small : low.msb = false) :
    (high &&& 0x80 ||| low) &&& 0x7f = low ∧
      (high &&& 0x80 ||| low).msb = high.msb := by
  have top : low.getLsbD 7 = false := by
    simpa [msb_eq_getLsbD_last] using small
  constructor
  · ext place bound
    simp only [getElem_and, getElem_or]
    interval_cases place <;> simp_all [getLsbD_eq_getElem]
  · simp only [msb_or, msb_and, small, Bool.or_false]
    exact Bool.and_true high.msb

theorem netObfuscate_again {privacy : Key}
    (done : netObfuscate cipher buf ivIndex privacy = some out) :
    netObfuscate cipher out ivIndex privacy = some buf := by
  unfold netObfuscate at done
  obtain ⟨tmp, ecb, rfl⟩ := map_eq_some_iff.mp done
  have same : cipher.ecb privacy (privacyRandom buf ivIndex) = some tmp := ecb
  simp only [netObfuscate, privacyRandom] at same ⊢
  rw [same]
  simp [xor_assoc]

theorem meshNetDecrypt_encrypt (correct : cipher.Correct) {enc : Key}
    {sealed : NetBuf}
    (done : meshNetEncrypt cfg cipher enc buf ivIndex proxy = some sealed) :
    meshNetDecrypt cfg cipher enc sealed ivIndex proxy = some buf := by
  unfold meshNetEncrypt at done
  obtain ⟨body, ccm, rfl⟩ := map_eq_some_iff.mp done
  have opened := correct.inverse _ _ _ _ _ _ ccm
  have nonce : netNonce cfg { buf with rest := body } ivIndex proxy =
      netNonce cfg buf ivIndex proxy := rfl
  have mic : NetBuf.micLen { buf with rest := body } = buf.micLen := rfl
  unfold meshNetDecrypt
  rw [nonce, mic, opened]
  rfl

theorem netEncrypt_config {cfg other : Config}
    (same : proxy = true → cfg.gattProxy = other.gattProxy) (buf : NetBuf)
    (cred : NetCred) (ivIndex : Nat) :
    netEncrypt cfg cipher buf cred ivIndex proxy =
      netEncrypt other cipher buf cred ivIndex proxy := by
  cases proxy with
  | false =>
    simp only [netEncrypt, meshNetEncrypt, netNonce, Bool.and_false,
      Bool.false_eq_true, if_false]
  | true => simp only [netEncrypt, meshNetEncrypt, netNonce, same rfl]

theorem netEncrypt_plain (cfg other : Config) (buf : NetBuf) (cred : NetCred)
    (ivIndex : Nat) : netEncrypt cfg cipher buf cred ivIndex false =
      netEncrypt other cipher buf cred ivIndex false := by
  apply netEncrypt_config
  intro proxy
  cases proxy

theorem netEncrypt_first
    (done : netEncrypt cfg cipher buf cred ivIndex proxy = some pdu) :
    pdu.first = buf.first := by
  obtain ⟨_, encrypted, obfuscated⟩ := bind_eq_some_iff.mp done
  obtain ⟨_, _, rfl⟩ := map_eq_some_iff.mp obfuscated
  obtain ⟨_, _, rfl⟩ := map_eq_some_iff.mp encrypted
  rfl

theorem netEncrypt_len (correct : cipher.Correct)
    (done : netEncrypt cfg cipher buf cred ivIndex proxy = some pdu) :
    pdu.len = buf.len + buf.micLen := by
  obtain ⟨_, encrypted, obfuscated⟩ := bind_eq_some_iff.mp done
  obtain ⟨_, _, rfl⟩ := map_eq_some_iff.mp obfuscated
  obtain ⟨_, ccm, rfl⟩ := map_eq_some_iff.mp encrypted
  have length := correct.sealedLength _ _ _ _ _ _ ccm
  simp only [NetBuf.len]
  omega

/-- A node takes in what was encrypted for its IV index, unless it is the source
of the message or has already seen it. -/
structure NetNode.TakesIn (netIf : NetIf) (node : NetNode) (src : BitVec 16)
    (seq : BitVec 24) : Prop where
  bearer : netIf = .adv ∨ netIf = .proxy
  unicast : addrIsUnicast src.toNat = true
  foreign : node.hasAddr src.toNat = false
  unseen : netIf = .adv →
    ∀ entry ∈ node.msgCache, ¬ (entry.1 = src.toNat ∧ entry.2 = seq.toNat % 2 ^ 17)

section

variable {netIf : NetIf} {node : NetNode}

section

variable (correct : cipher.Correct)
include correct

theorem netDecrypt_inverts
    (done : netEncrypt cfg cipher buf cred (node.ivIndexRx buf)
      (netIf = .proxyCfg) = some pdu) (named : buf.nid = cred.nid)
    (unicast : addrIsUnicast buf.src.toNat = true)
    (foreign : node.hasAddr buf.src.toNat = false) (unseen : netIf = .adv →
      ∀ entry ∈ node.msgCache,
      ¬ (entry.1 = buf.src.toNat ∧ entry.2 = buf.seq.toNat % 2 ^ 17)) :
    netDecrypt cfg cipher netIf node pdu cred = some buf := by
  have first := netEncrypt_first done
  have nid : pdu.nid = cred.nid := by
    rw [← named]
    simp only [NetBuf.nid, first]
  have ivIndex : node.ivIndexRx pdu = node.ivIndexRx buf := by
    simp only [NetNode.ivIndexRx, NetNode.oldIv, NetBuf.ivi, first]
  obtain ⟨_, encrypted, obfuscated⟩ := bind_eq_some_iff.mp done
  have opened := meshNetDecrypt_encrypt correct encrypted
  obtain ⟨body, _, rfl⟩ := map_eq_some_iff.mp encrypted
  have cached : ¬ (netIf = .adv ∧
      msgCacheMatch node { buf with rest := body } = true) := by
    rintro ⟨adv, seen⟩
    obtain ⟨entry, member, same⟩ := any_eq_true.mp seen
    exact unseen adv entry member (of_decide_eq_true same)
  unfold netDecrypt
  rw [if_neg (not_not_intro nid), ivIndex, netObfuscate_again obfuscated]
  dsimp only
  rw [unicast, foreign, if_neg (by simp), if_neg (by simp), if_neg cached]
  exact opened

theorem netDecrypt_netEncrypt
    (done : netEncrypt cfg cipher buf cred (node.ivIndexRx buf) false = some pdu)
    (named : buf.nid = cred.nid) (takesIn : node.TakesIn netIf buf.src buf.seq) :
    netDecrypt cfg cipher netIf node pdu cred = some buf := by
  have plain : decide (netIf = .proxyCfg) = false := by
    rcases takesIn.bearer with rfl | rfl <;> rfl
  rw [← plain] at done
  exact netDecrypt_inverts correct done named takesIn.unicast takesIn.foreign
    takesIn.unseen

theorem netDecrypt_opened
    (opened : netDecrypt cfg cipher netIf node pdu cred = some out) :
    out.first = pdu.first ∧ addrIsUnicast out.src.toNat = true ∧
      pdu.len = out.len + out.micLen := by
  unfold netDecrypt at opened
  split at opened
  · cases opened
  split at opened
  · cases opened
  next plain obfuscated =>
    split at opened
    · cases opened
    next unicast =>
      split at opened
      · cases opened
      split at opened
      · cases opened
      obtain ⟨_, _, rfl⟩ := map_eq_some_iff.mp obfuscated
      obtain ⟨_, ccm, rfl⟩ := map_eq_some_iff.mp opened
      have length := correct.plainLength _ _ _ _ _ _ ccm
      refine ⟨rfl, by simpa using unicast, ?_⟩
      simp only [NetBuf.len] at length ⊢
      have mic : ∀ rest other : List Byte, ∀ first ctlTtl seq src,
          NetBuf.micLen ⟨first, ctlTtl, seq, src, rest⟩ =
            NetBuf.micLen ⟨first, ctlTtl, seq, src, other⟩ :=
        fun _ _ _ _ _ _ => rfl
      rw [mic _ pdu.rest]
      omega

end

theorem netCredFind_found (held : ref ∈ netCredRefs cfg node)
    (opens : netDecrypt cfg cipher netIf node pdu ref.cred = some out)
    (alone : ∀ other ∈ netCredRefs cfg node,
      (netDecrypt cfg cipher netIf node pdu other.cred).isSome = true →
      other.cred = ref.cred) :
    ∃ found ∈ netCredRefs cfg node, found.cred = ref.cred ∧
      netCredFind cfg cipher netIf node pdu = some (found, out) := by
  cases search : netCredFind cfg cipher netIf node pdu with
  | none =>
    have missed := findSome?_eq_none_iff.mp search ref held
    rw [opens] at missed
    cases missed
  | some =>
    obtain ⟨found, member, result⟩ := exists_of_findSome?_eq_some search
    obtain ⟨_, done, rfl⟩ := map_eq_some_iff.mp result
    have same := alone found member (by rw [done]; rfl)
    rw [same, opens] at done
    cases done
    exact ⟨found, member, same, rfl⟩

theorem netCredFind_some
    (found : netCredFind cfg cipher netIf node pdu = some (ref, out)) :
    ref ∈ netCredRefs cfg node ∧
      netDecrypt cfg cipher netIf node pdu ref.cred = some out := by
  obtain ⟨_, member, result⟩ := exists_of_findSome?_eq_some found
  obtain ⟨_, done, same⟩ := map_eq_some_iff.mp result
  cases same
  exact ⟨member, done⟩

end

theorem mem_keyRefs {subs : List Subnet} {slot : Nat} {friendCred : Bool}
    {cred : Subnet → Bool → NetCred} : ref ∈ keyRefs subs slot friendCred cred ↔
      ∃ sub, subs[slot]? = some sub ∧ (sub.keys.get ref.newKey).valid = true ∧
        ref = ⟨slot, ref.newKey, friendCred, cred sub ref.newKey⟩ := by
  unfold keyRefs
  cases subs[slot]? with
  | none => simp
  | some sub =>
    simp only [mem_filterMap, some.injEq, exists_eq_left']
    constructor
    · rintro ⟨_, _, entry⟩
      split at entry
      next valid =>
        cases entry
        exact ⟨valid, rfl⟩
      next => cases entry
    · rintro ⟨valid, same⟩
      refine ⟨ref.newKey, ?_, ?_⟩
      · cases ref.newKey <;> simp
      · rw [if_pos valid, ← same]

theorem netCredRefs_valid {node : NetNode}
    (held : ref ∈ netCredRefs cfg node) : ∃ sub, node.subs[ref.sub]? = some sub ∧
      (sub.keys.get ref.newKey).valid = true := by
  have of_keyRefs : ∀ (slot : Nat) (friendCred : Bool)
      (cred : Subnet → Bool → NetCred), ref ∈ keyRefs node.subs slot friendCred cred →
        ∃ sub, node.subs[ref.sub]? = some sub ∧
          (sub.keys.get ref.newKey).valid = true := by
    intro slot friendCred cred member
    obtain ⟨sub, found, valid, same⟩ := mem_keyRefs.mp member
    have slotSame : ref.sub = slot := by rw [same]
    exact ⟨sub, by rw [slotSame]; exact found, valid⟩
  unfold netCredRefs at held
  split at held
  · split at held
    · cases held
    · exact of_keyRefs _ _ _ held
  · rcases mem_append.mp held with friend | subnet
    · split at friend
      · obtain ⟨_, _, member⟩ := mem_flatMap.mp friend
        split at member
        · cases member
        · exact of_keyRefs _ _ _ member
      · cases friend
    · obtain ⟨_, _, member⟩ := mem_flatMap.mp subnet
      split at member
      · cases member
      · exact of_keyRefs _ _ _ member

@[simp] theorem netCredFind_checkDup (cfg : Config) (cipher : Cipher)
    (netIf : NetIf) (node : NetNode) (seen pdu : NetBuf) :
    netCredFind cfg cipher netIf (checkDup node seen).2 pdu =
      netCredFind cfg cipher netIf node pdu := by
  unfold checkDup
  split <;> rfl

@[simp] theorem netDecoded_checkDup (netIf : NetIf) (node : NetNode)
    (seen pdu : NetBuf) (ref : CredRef) (out : NetBuf) :
    netDecoded netIf (checkDup node seen).2 pdu ref out =
      netDecoded netIf node pdu ref out := by
  unfold checkDup
  split <;> rfl

theorem checkDup_fst (node : NetNode) (pdu : NetBuf) :
    (checkDup node pdu).1 = true ↔ dupValue pdu ∈ node.dupCache := by
  unfold checkDup
  split <;> simp [*]

structure NetAccepts (cfg : Config) (cipher : Cipher) (netIf : NetIf)
    (node : NetNode) (pdu : NetBuf) (ref : CredRef) (out : NetBuf) : Prop where
  long : netMinPduLen ≤ pdu.len
  short : pdu.len ≤ netMaxPduLen
  fresh : netIf = .adv → dupValue pdu ∉ node.dupCache
  found : netCredFind cfg cipher netIf node pdu = some (ref, out)
  assigned : netIf ≠ .proxyCfg → out.dst ≠ addrUnassigned

theorem netDecode_eq_ok {netIf : NetIf} {node : NetNode} {rx : NetDecoded} :
    (netDecode cfg cipher netIf node pdu).1 = .ok (rx, out) ↔
      ∃ ref, NetAccepts cfg cipher netIf node pdu ref out ∧
        rx = netDecoded netIf node pdu ref out := by
  obtain ⟨dup, checked, checking, dupIff, findSame, rxSame⟩ :
      ∃ (dup : Bool) (checked : NetNode),
        (if netIf = .adv then checkDup node pdu else (false, node)) =
          (dup, checked) ∧
        (dup = true ↔ netIf = .adv ∧ dupValue pdu ∈ node.dupCache) ∧
        netCredFind cfg cipher netIf checked pdu =
          netCredFind cfg cipher netIf node pdu ∧
        ∀ ref out, netDecoded netIf checked pdu ref out =
          netDecoded netIf node pdu ref out := by
    by_cases adv : netIf = .adv
    · refine ⟨(checkDup node pdu).1, (checkDup node pdu).2, if_pos adv, ?_, ?_, ?_⟩
      · rw [checkDup_fst]
        simp [adv]
      · exact netCredFind_checkDup ..
      · exact fun ref out => netDecoded_checkDup ..
    · exact ⟨false, node, if_neg adv, by simp [adv], rfl, fun _ _ => rfl⟩
  unfold netDecode
  rw [checking]
  dsimp only
  constructor
  · intro accepted
    split at accepted
    · cases accepted
    next long =>
      split at accepted
      · cases accepted
      next short =>
        split at accepted
        · cases accepted
        next fresh =>
          split at accepted
          · cases accepted
          next ref found searched =>
            split at accepted
            · cases accepted
            next assigned =>
              simp only [Except.ok.injEq, Prod.mk.injEq] at accepted
              obtain ⟨rfl, rfl⟩ := accepted
              rw [rxSame] at assigned ⊢
              refine ⟨ref, ⟨not_lt.mp long, not_lt.mp short, ?_, ?_, ?_⟩, rfl⟩
              · intro adv repeated
                exact fresh (dupIff.mpr ⟨adv, repeated⟩)
              · rw [← findSame]
                exact searched
              · intro plain unassigned
                exact assigned ⟨plain, unassigned⟩
  · rintro ⟨ref, accepts, rfl⟩
    have fresh : ¬ dup = true := by
      intro repeated
      obtain ⟨adv, member⟩ := dupIff.mp repeated
      exact accepts.fresh adv member
    have assigned : ¬ (netIf ≠ .proxyCfg ∧
        (netDecoded netIf node pdu ref out).recvDst = addrUnassigned) := by
      rintro ⟨plain, unassigned⟩
      exact accepts.assigned plain unassigned
    rw [if_neg (not_lt.mpr accepts.long), if_neg (not_lt.mpr accepts.short),
      if_neg fresh, findSame, accepts.found]
    dsimp only
    rw [rxSame, if_neg assigned]

end RoundTrips

end ZephyrBluetooth.Mesh
