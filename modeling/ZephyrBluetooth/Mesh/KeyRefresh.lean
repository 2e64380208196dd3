import ZephyrBluetooth.Mesh.Access
import ZephyrBluetooth.Mesh.KeyStore
import ZephyrBluetooth.Mesh.KeyTablesOk
import ZephyrBluetooth.Mesh.NetRelay

namespace ZephyrBluetooth.Mesh

open Data List Option

/-- The subnet holds both NetKeys of a Key Refresh, or only the new one once the
old one is revoked. -/
def HoldsNetKeys (netIdx : Nat) (oldKey newKey : Key) (sub : Subnet) : Prop :=
  sub.netIdx = netIdx ∧ match sub.krPhase with
    | .normal => sub.keys.old.net = newKey
    | .phase1 | .phase2 =>
      sub.keys.old.net = oldKey ∧ sub.keys.new.net = newKey ∧
        sub.keys.old.valid = true
    | .phase3 => False

/-- The same of an AppKey in a phase of its subnet.  A key that is not updated
stays what it is. -/
def HoldsAppKeys (netIdx appIdx : Nat) (oldKey newKey : Key) (phase : KrPhase)
    (app : AppKey) : Prop :=
  app.netIdx = netIdx ∧ app.appIdx = appIdx ∧ match phase with
    | .normal => app.updated = false ∧ app.keys.old.val = newKey
    | .phase1 | .phase2 | .phase3 =>
      app.keys.old.val = oldKey ∧
        if app.updated then app.keys.new.val = newKey else newKey = oldKey

def AppIds (appId : AppId) (apps : List AppKey) : Prop :=
  ∀ app ∈ apps, app.appIdx ≠ keyUnused →
    appId app.keys.old.val = some app.keys.old.id ∧
      (app.updated = true → appId app.keys.new.val = some app.keys.new.id)

def sentWith (phase : KrPhase) (oldKey newKey : Key) : Key :=
  if phase = .phase1 then oldKey else newKey

/-- The key of an AppKey that `bt_mesh_keys_resolve` chooses. -/
def AppKey.txCred (sub : Subnet) (app : AppKey) : AppCred :=
  if sub.krPhase = .phase2 ∧ app.updated = true then app.keys.new else app.keys.old

section Phases

variable {netIdx appIdx : Nat} {oldNet newNet oldApp newApp : Key}
variable {sub : Subnet} {app : AppKey} {newPhase : KrPhase}

theorem HoldsNetKeys.tx (holds : HoldsNetKeys netIdx oldNet newNet sub) :
    (sub.keys.get sub.txIdx).net = sentWith sub.krPhase oldNet newNet := by
  obtain ⟨_, keys⟩ := holds
  unfold sentWith Subnet.txIdx
  cases phase : sub.krPhase with
  | normal =>
    rw [phase] at keys
    exact keys
  | phase1 =>
    rw [phase] at keys
    exact keys.1
  | phase2 =>
    rw [phase] at keys
    exact keys.2.1
  | phase3 =>
    rw [phase] at keys
    exact keys.elim

theorem HoldsAppKeys.tx (netHolds : HoldsNetKeys netIdx oldNet newNet sub)
    (holds : HoldsAppKeys netIdx appIdx oldApp newApp sub.krPhase app) :
    (app.txCred sub).val = sentWith sub.krPhase oldApp newApp := by
  obtain ⟨_, _, keys⟩ := holds
  unfold sentWith AppKey.txCred
  cases phase : sub.krPhase with
  | normal =>
    rw [phase] at keys
    simpa using keys.2
  | phase1 =>
    rw [phase] at keys
    simpa using keys.1
  | phase2 =>
    rw [phase] at keys
    cases updated : app.updated with
    | true =>
      rw [updated] at keys
      simpa using keys.2
    | false =>
      rw [updated] at keys
      have same : newApp = oldApp := keys.2
      simpa [same] using keys.1
  | phase3 =>
    have impossible := netHolds.2
    rw [phase] at impossible
    exact impossible.elim

variable {cfg : Config} {crypto : Crypto} {phase : KrPhase}

theorem HoldsNetKeys.rx (fine : SubnetOk cfg crypto sub)
    (used : netIdx ≠ keyUnused) (holds : HoldsNetKeys netIdx oldNet newNet sub)
    (permitted : phase = .phase1 → sub.krPhase ≠ .normal) :
    ∃ idx, (sub.keys.get idx).valid = true ∧
      (sub.keys.get idx).net = sentWith phase oldNet newNet := by
  obtain ⟨named, keys⟩ := holds
  have inUse : sub.netIdx ≠ keyUnused := by
    rw [named]
    exact used
  have newValid : sub.krPhase ≠ .normal → (sub.keys.get true).valid = true :=
    fine.refresh
  unfold sentWith
  cases own : sub.krPhase with
  | normal =>
    rw [own] at keys
    refine ⟨false, (fine.normal inUse own).1, ?_⟩
    rw [if_neg fun early => permitted early own]
    exact keys
  | phase3 =>
    rw [own] at keys
    exact keys.elim
  | phase1 =>
    rw [own] at keys newValid
    split
    · exact ⟨false, keys.2.2, keys.1⟩
    · exact ⟨true, newValid KrPhase.noConfusion, keys.2.1⟩
  | phase2 =>
    rw [own] at keys newValid
    split
    · exact ⟨false, keys.2.2, keys.1⟩
    · exact ⟨true, newValid KrPhase.noConfusion, keys.2.1⟩

theorem HoldsAppKeys.rx (fine : SubnetOk cfg crypto sub)
    (used : netIdx ≠ keyUnused) (distinct : oldNet ≠ newNet)
    (netHolds : HoldsNetKeys netIdx oldNet newNet sub)
    (holds : HoldsAppKeys netIdx appIdx oldApp newApp sub.krPhase app) {idx : Bool}
    (valid : (sub.keys.get idx).valid = true)
    (same : (sub.keys.get idx).net = sentWith phase oldNet newNet) :
    (app.rxCred idx).val = sentWith phase oldApp newApp := by
  obtain ⟨named, netKeys⟩ := netHolds
  obtain ⟨_, _, appKeys⟩ := holds
  have inUse : sub.netIdx ≠ keyUnused := by
    rw [named]
    exact used
  have paired : sub.krPhase = .phase1 ∨ sub.krPhase = .phase2 →
      (app.rxCred idx).val = sentWith phase oldApp newApp := by
    intro refreshes
    have net : sub.keys.old.net = oldNet ∧ sub.keys.new.net = newNet := by
      rcases refreshes with own | own <;> rw [own] at netKeys <;>
        exact ⟨netKeys.1, netKeys.2.1⟩
    have keys : app.keys.old.val = oldApp ∧
        if app.updated then app.keys.new.val = newApp else newApp = oldApp := by
      rcases refreshes with own | own <;> rw [own] at appKeys <;> exact appKeys
    unfold sentWith at same ⊢
    unfold AppKey.rxCred
    cases idx with
    | false =>
      by_cases early : phase = .phase1
      · simpa [early] using keys.1
      · rw [if_neg early] at same
        exact absurd (net.1.symm.trans same) distinct
    | true =>
      by_cases early : phase = .phase1
      · rw [if_pos early] at same
        exact absurd (same.symm.trans net.2) distinct
      rw [if_neg early]
      cases updated : app.updated with
      | true =>
        rw [updated] at keys
        exact keys.2
      | false =>
        rw [updated] at keys
        exact keys.1.trans (show newApp = oldApp from keys.2).symm
  cases own : sub.krPhase with
  | phase1 => exact paired (.inl own)
  | phase2 => exact paired (.inr own)
  | phase3 =>
    rw [own] at netKeys
    exact netKeys.elim
  | normal =>
    rw [own] at netKeys appKeys
    obtain ⟨_, revoked⟩ := fine.normal inUse own
    cases idx with
    | true =>
      have contrary : sub.keys.new.valid = true := valid
      rw [revoked] at contrary
      cases contrary
    | false =>
      unfold sentWith at same ⊢
      split at same
      · exact absurd (same.symm.trans netKeys) distinct
      next late =>
        rw [if_neg late]
        exact appKeys.2

end Phases

theorem findSome?_alone {Item Result : Type} {find : Item → Option Result}
    {items : List Item} {item : Item} {result : Result} (member : item ∈ items)
    (hit : find item = some result)
    (alone : ∀ other ∈ items, ∀ found, find other = some found → found = result) :
    items.findSome? find = some result := by
  cases search : items.findSome? find with
  | none =>
    have missed := findSome?_eq_none_iff.mp search item member
    rw [hit] at missed
    cases missed
  | some found =>
    obtain ⟨other, there, gave⟩ := exists_of_findSome?_eq_some search
    rw [alone other there found gave]

def SixBitAids (appId : AppId) : Prop :=
  ∀ key id, appId key = some id → id &&& 0x3f = id

theorem accessHdr_akf (seg : Bool) (aid : Byte) :
    (accessHdr seg aid).getLsbD 6 = true := by
  unfold accessHdr
  cases seg <;> simp

theorem accessHdr_aid (seg : Bool) {aid : Byte} (small : aid &&& 0x3f = aid) :
    accessHdr seg aid &&& 0x3f = aid := by
  unfold accessHdr
  rw [BitVec.and_or_distrib_right, BitVec.and_or_distrib_right, BitVec.and_assoc,
    BitVec.and_self, small]
  cases seg <;> simp

section Reception

variable {cfg : Config} {node : NetNode} {slot : Nat} {sub : Subnet} {idx : Bool}

theorem netCredRefs_key
    (awake : cfg.lowPower = true → node.lpn.state ≠ .waitUpdate)
    (found : node.subs[slot]? = some sub) (used : sub.netIdx ≠ keyUnused)
    (valid : (sub.keys.get idx).valid = true) :
    ⟨slot, idx, false, (sub.keys.get idx).msg⟩ ∈ netCredRefs cfg node := by
  have listens : ¬ (cfg.lowPower && node.lpn.state = .waitUpdate) = true := by
    rw [Bool.and_eq_true]
    rintro ⟨lowPower, waiting⟩
    exact awake lowPower (of_decide_eq_true waiting)
  unfold netCredRefs
  rw [if_neg listens]
  apply mem_append_right
  apply mem_flatMap.mpr
  refine ⟨(sub, slot), mem_zipIdx_iff_getElem?.mpr found, ?_⟩
  rw [if_neg used]
  exact mem_keyRefs.mpr ⟨sub, found, valid, rfl⟩

theorem netCredRefs_plain {ref : CredRef} (held : ref ∈ netCredRefs cfg node)
    (plain : ref.friendCred = false) : ∃ sub, node.subs[ref.sub]? = some sub ∧
      (sub.keys.get ref.newKey).valid = true ∧
      ref.cred = (sub.keys.get ref.newKey).msg := by
  have friendly : ∀ (place : Nat) (cred : Subnet → Bool → NetCred),
      ref ∉ keyRefs node.subs place true cred := by
    intro place cred member
    obtain ⟨_, _, _, same⟩ := mem_keyRefs.mp member
    rw [same] at plain
    cases plain
  unfold netCredRefs at held
  split at held
  · split at held
    · cases held
    · exact absurd held (friendly _ _)
  · rcases mem_append.mp held with friend | subnet
    · split at friend
      · obtain ⟨_, _, member⟩ := mem_flatMap.mp friend
        split at member
        · cases member
        · exact absurd member (friendly _ _)
      · cases friend
    · obtain ⟨entry, _, member⟩ := mem_flatMap.mp subnet
      split at member
      · cases member
      obtain ⟨sub, found, valid, same⟩ := mem_keyRefs.mp member
      have place : ref.sub = entry.2 := by rw [same]
      have cred : ref.cred = (sub.keys.get ref.newKey).msg := by rw [same]
      exact ⟨sub, by rw [place]; exact found, valid, cred⟩

end Reception

/-- The NetKeys of a subnet and the AppKeys of one index bound to it, before and
after a Key Refresh. -/
structure RefreshKeys where
  netIdx : Nat
  appIdx : Nat
  oldNet : Key
  newNet : Key
  oldApp : Key
  newApp : Key

structure AccessNode.Holds (cfg : Config) (crypto : Crypto) (appId : AppId)
    (keys : RefreshKeys) (node : AccessNode) (slot : Nat) (sub : Subnet)
    (app : AppKey) : Prop where
  tableOk : TableOk cfg crypto node.net.subs
  unique : KeysUnique AppKey.key node.apps
  ids : AppIds appId node.apps
  subAt : node.net.subs[slot]? = some sub
  stored : app ∈ node.apps
  net : HoldsNetKeys keys.netIdx keys.oldNet keys.newNet sub
  app : HoldsAppKeys keys.netIdx keys.appIdx keys.oldApp keys.newApp sub.krPhase app

def NetKeyAlone (cfg : Config) (cipher : Cipher) (netIf : NetIf) (node : NetNode)
    (netKey : Key) (pdu : NetBuf) : Prop :=
  ∀ ref ∈ netCredRefs cfg node,
    (netDecrypt cfg cipher netIf node pdu ref.cred).isSome = true →
      ref.friendCred = false ∧
        (node.subs[ref.sub]?.map fun sub => (sub.keys.get ref.newKey).net) =
          some netKey

def AppKeyAlone (cipher : Cipher) (apps : List AppKey) (ctx : AppCryptoCtx)
    (key : Key) (sealed : List Byte) : Prop :=
  ∀ app ∈ apps, ∀ idx,
    (appDecrypt cipher (app.rxCred idx).val ctx sealed).isSome = true →
      (app.rxCred idx).val = key

instance (cfg : Config) (cipher : Cipher) (netIf : NetIf) (node : NetNode)
    (netKey : Key) (pdu : NetBuf) :
    Decidable (NetKeyAlone cfg cipher netIf node netKey pdu) :=
  inferInstanceAs (Decidable (∀ ref ∈ netCredRefs cfg node, _ → _))

instance (cipher : Cipher) (apps : List AppKey) (ctx : AppCryptoCtx) (key : Key)
    (sealed : List Byte) : Decidable (AppKeyAlone cipher apps ctx key sealed) :=
  inferInstanceAs (Decidable (∀ app ∈ apps, ∀ _, _ → _))

def NetKeyUnshared (subs : List Subnet) (slot : Nat) (netKey : Key) : Prop :=
  ∀ (other : Nat) (twin : Subnet) (idx : Bool), subs[other]? = some twin →
    (twin.keys.get idx).valid = true → (twin.keys.get idx).net = netKey →
      other = slot

def AppKeyUnshared (apps : List AppKey) (sub : Subnet) (netKey : Key)
    (appIdx : Nat) (key : Key) : Prop :=
  ∀ app ∈ apps, app.appIdx ≠ keyUnused → app.netIdx = sub.netIdx →
    ∀ idx, (sub.keys.get idx).net = netKey → (app.rxCred idx).val = key →
      app.appIdx = appIdx

/-- The receiver listens on the bearer, with the IV index and the label UUID of
the message. -/
structure Reaches (cfg : Config) (netIf : NetIf) (sender receiver : AccessNode)
    (tx : NetTx) (seq : Nat) : Prop where
  awake : cfg.lowPower = true → receiver.net.lpn.state ≠ .waitUpdate
  takesIn : receiver.net.TakesIn netIf (BitVec.ofNat 16 tx.src) (BitVec.ofNat 24 seq)
  hearsIv : receiver.net.HearsIv sender.net.ivIndexTx
  label : receiver.labelOf tx.addr = sender.labelOf tx.addr

def NetTx.cryptoCtx (node : AccessNode) (tx : NetTx) (seq : Nat) : AppCryptoCtx where
  devKey := isDevKey tx.appIdx
  aszmic := tx.aszmic
  src := tx.src
  dst := tx.addr
  seqNum := seq
  ivIndex := node.net.ivIndexTx
  ad := node.labelOf tx.addr

section TwoNodes

variable {cfg senderCfg : Config} {crypto : Crypto} {cipher : Cipher} {appId : AppId}
variable {keys : RefreshKeys} {node : AccessNode} {slot : Nat} {sub : Subnet}
variable {app : AppKey} {netIf : NetIf}

theorem AppIds.rx (ids : AppIds appId node.apps) (stored : app ∈ node.apps)
    (used : app.appIdx ≠ keyUnused) (idx : Bool) :
    appId (app.rxCred idx).val = some (app.rxCred idx).id := by
  obtain ⟨old, new⟩ := ids app stored used
  unfold AppKey.rxCred
  split
  next both =>
    rw [Bool.and_eq_true] at both
    exact new both.2
  next => exact old

theorem AppIds.tx (ids : AppIds appId node.apps) (stored : app ∈ node.apps)
    (used : app.appIdx ≠ keyUnused) (sub : Subnet) :
    appId (app.txCred sub).val = some (app.txCred sub).id := by
  obtain ⟨old, new⟩ := ids app stored used
  unfold AppKey.txCred
  split
  next both => exact new both.2
  next => exact old

namespace AccessNode.Holds

section

variable (holds : node.Holds cfg crypto appId keys slot sub app)
  (netUsed : keys.netIdx ≠ keyUnused)
include holds netUsed

theorem resolves (appUsed : keys.appIdx ≠ keyUnused)
    (appKey : isDevKey keys.appIdx = false) (netIdx addr : Nat) :
    keysResolve node keys.appIdx netIdx addr =
      .ok (slot, (app.txCred sub).val, (app.txCred sub).id) := by
  obtain ⟨place, there⟩ := mem_iff_getElem?.mp holds.stored
  have named : app.key = some keys.appIdx :=
    AppKey.key_eq_some.mpr ⟨holds.app.2.1, appUsed⟩
  have lookup : ((appGet node.apps keys.appIdx).bind fun place => node.apps[place]?) =
      some app := by
    have found := slotByKey_found holds.unique there named
    rw [← appAt_eq node.apps appUsed] at found
    unfold appAt at found
    rw [find?_eq_bind_findIdx?_getElem?] at found
    exact found
  have bound : app.netIdx = sub.netIdx := holds.app.1.trans holds.net.1.symm
  have subnet : subnetGet node.net.subs app.netIdx = some slot := by
    rw [bound]
    apply subnetGet_eq holds.tableOk holds.subAt
    rw [holds.net.1]
    exact netUsed
  unfold keysResolve AppKey.txCred
  rw [if_neg (by simp [appKey]), lookup]
  dsimp only
  rw [subnet]
  dsimp only
  rw [holds.subAt]
  dsimp only
  split <;> rfl

theorem txCred : crypto.k2 (sentWith sub.krPhase keys.oldNet keys.newNet) [0] =
      some sub.txCred := by
  have fine := holds.tableOk.each slot sub holds.subAt
  have own : sub.krPhase = .phase1 → sub.krPhase ≠ .normal := by
    intro early
    rw [early]
    exact KrPhase.noConfusion
  obtain ⟨_, valid, _⟩ := holds.net.rx fine netUsed own
  rw [← holds.net.tx]
  exact fine.txCred (fine.txValid valid)

theorem encodes (nids : SevenBitNids crypto) {tx : NetTx} {seq tailroom : Nat}
    {payload : List Byte} {pdu : NetBuf} (place : tx.sub = slot)
    (managed : (cfg.lowPower && tx.friendCred && node.net.lpn.frnd !=
      addrUnassigned) = false)
    (encoded : netEncode cfg cipher node.net tx seq payload tailroom false =
      some pdu) :
    ∃ buf, netEncrypt cfg cipher buf sub.txCred node.net.ivIndexTx false = some pdu ∧
      buf.nid = sub.txCred.nid ∧ buf.ivi = decide (node.net.ivIndexTx % 2 = 1) ∧
      buf.seq = BitVec.ofNat 24 seq ∧ buf.src = BitVec.ofNat 16 tx.src ∧
      buf.rest = be16 tx.addr ++ payload := by
  have small := nids _ _ _ (holds.txCred netUsed)
  have cred : netTxCredGet cfg node.net tx sub = sub.txCred := by
    unfold netTxCredGet
    rw [managed]
    rfl
  unfold netEncode at encoded
  rw [place, holds.subAt] at encoded
  dsimp only at encoded
  rw [cred] at encoded
  obtain ⟨buf, header, sent⟩ := bind_eq_some_iff.mp encoded
  exact ⟨buf, sent, netHeaderEncode_buf small header⟩

theorem netCredFind (correct : cipher.Correct) {phase : KrPhase}
    (permitted : phase = .phase1 → sub.krPhase ≠ .normal) {netKey : Key}
    (used : netKey = sentWith phase keys.oldNet keys.newNet) {cred : NetCred}
    (derived : crypto.k2 netKey [0] = some cred)
    (awake : cfg.lowPower = true → node.net.lpn.state ≠ .waitUpdate)
    {buf pdu : NetBuf}
    (sent : netEncrypt senderCfg cipher buf cred (node.net.ivIndexRx buf) false =
      some pdu)
    (named : buf.nid = cred.nid) (takesIn : node.net.TakesIn netIf buf.src buf.seq)
    (alone : NetKeyAlone cfg cipher netIf node.net netKey pdu)
    (unshared : NetKeyUnshared node.net.subs slot netKey) :
    ∃ ref, Mesh.netCredFind cfg cipher netIf node.net pdu = some (ref, buf) ∧
      ref.sub = slot ∧ (sub.keys.get ref.newKey).valid = true ∧
      (sub.keys.get ref.newKey).net = netKey := by
  have credOf : ∀ (place : Nat) (twin : Subnet) (idx : Bool),
      node.net.subs[place]? = some twin → (twin.keys.get idx).valid = true →
      (twin.keys.get idx).net = netKey → (twin.keys.get idx).msg = cred := by
    intro place twin idx there valid same
    have own := ((holds.tableOk.each place twin there).keys idx).msg valid
    rw [same, derived] at own
    exact (some.inj own).symm
  obtain ⟨idx, valid, same⟩ :=
    holds.net.rx (holds.tableOk.each slot sub holds.subAt) netUsed permitted
  rw [← used] at same
  have subUsed : sub.netIdx ≠ keyUnused := by
    rw [holds.net.1]
    exact netUsed
  have held := netCredRefs_key awake holds.subAt subUsed valid
  rw [credOf slot sub idx holds.subAt valid same] at held
  rw [netEncrypt_plain senderCfg cfg] at sent
  have opens := netDecrypt_netEncrypt correct sent named takesIn
  have onlyCred : ∀ ref ∈ netCredRefs cfg node.net,
      (netDecrypt cfg cipher netIf node.net pdu ref.cred).isSome = true →
        ref.cred = cred := by
    intro ref member opened
    obtain ⟨plain, key⟩ := alone ref member opened
    obtain ⟨twin, there, twinValid, credSame⟩ := netCredRefs_plain member plain
    rw [there] at key
    rw [credSame]
    exact credOf ref.sub twin ref.newKey there twinValid (some.inj key)
  obtain ⟨ref, member, refCred, search⟩ := netCredFind_found held opens onlyCred
  have opened : (netDecrypt cfg cipher netIf node.net pdu ref.cred).isSome = true := by
    rw [refCred]
    simp only [opens, isSome_some]
  obtain ⟨plain, key⟩ := alone ref member opened
  obtain ⟨twin, there, twinValid, _⟩ := netCredRefs_plain member plain
  rw [there] at key
  have twinKey := some.inj key
  have here := unshared ref.sub twin ref.newKey there twinValid twinKey
  have owner : twin = sub := by
    rw [here, holds.subAt] at there
    exact (some.inj there).symm
  rw [owner] at twinValid twinKey
  exact ⟨ref, search, here, twinValid, twinKey⟩

end

theorem sduRecv (holds : node.Holds cfg crypto appId keys slot sub app)
    (appUsed : keys.appIdx ≠ keyUnused) (seg : Bool) {netKey key : Key}
    {rx : NetDecoded} {ctx : AppCryptoCtx} {aid : Byte} {sealed msg : List Byte}
    (aids : SixBitAids appId) (named : appId key = some aid)
    (found : (app.rxCred rx.ref.newKey).val = key)
    (subnet : rx.netIdx = sub.netIdx)
    (used : (sub.keys.get rx.ref.newKey).net = netKey)
    (context : ctx =
      { devKey := false
        aszmic := ctx.aszmic
        src := rx.addr
        dst := rx.recvDst
        seqNum := ctx.seqNum
        ivIndex := ivBefore node.net.ivIndex rx.oldIv
        ad := node.labelOf rx.recvDst })
    (opens : appDecrypt cipher key ctx sealed = some msg)
    (alone : AppKeyAlone cipher node.apps ctx key sealed)
    (unshared : AppKeyUnshared node.apps sub netKey keys.appIdx key) :
    Mesh.sduRecv cipher node rx (accessHdr seg aid) ctx.aszmic ctx.seqNum sealed =
      some (keys.appIdx, msg) := by
  have bound : app.netIdx = rx.netIdx := by
    rw [subnet, holds.app.1, holds.net.1]
  have mine : app.appIdx = keys.appIdx := holds.app.2.1
  have inUse : app.appIdx ≠ keyUnused := by
    rw [mine]
    exact appUsed
  have aidSame : (app.rxCred rx.ref.newKey).id = aid := by
    have own := holds.ids.rx holds.stored inUse rx.ref.newKey
    rw [found, named] at own
    exact (some.inj own).symm
  unfold Mesh.sduRecv appKeyFind
  rw [accessHdr_akf, accessHdr_aid seg (aids key aid named), if_neg (by simp)]
  simp only [Bool.not_true]
  rw [← context]
  apply findSome?_alone holds.stored
  · rw [if_neg inUse, if_neg (not_not_intro bound), if_neg (not_not_intro aidSame),
      found, opens, ← mine]
    rfl
  · intro other member result tried
    split at tried
    · cases tried
    next otherUsed =>
      split at tried
      · cases tried
      next otherBound =>
        split at tried
        · cases tried
        next =>
          obtain ⟨_, opened, rfl⟩ := map_eq_some_iff.mp tried
          have keySame := alone other member rx.ref.newKey (by rw [opened]; rfl)
          have idxSame := unshared other member otherUsed
            ((not_not.mp otherBound).trans subnet) rx.ref.newKey used keySame
          rw [keySame, opens] at opened
          rw [idxSame, some.inj opened]

end AccessNode.Holds

/-- In every pair of phases but the one in which the receiver has revoked the
keys of the sender, the receiver finds the NetKey and the AppKey of a message. -/
theorem key_refresh_talks {sender receiver : AccessNode}
    {senderSlot receiverSlot : Nat} {senderSub receiverSub : Subnet}
    {senderApp receiverApp : AppKey} {tx : NetTx}
    {netIdx seq pduSeq tailroom : Nat} {key : Key} {aid : Byte} {seg : Bool}
    {msg sealed payload : List Byte} {pdu : NetBuf}
    (correct : cipher.Correct) (nids : SevenBitNids crypto) (aids : SixBitAids appId)
    (netUsed : keys.netIdx ≠ keyUnused) (appUsed : keys.appIdx ≠ keyUnused)
    (appKey : isDevKey keys.appIdx = false) (distinct : keys.oldNet ≠ keys.newNet)
    (sends : sender.Holds senderCfg crypto appId keys senderSlot senderSub senderApp)
    (receives : receiver.Holds cfg crypto appId keys receiverSlot receiverSub
      receiverApp)
    (permitted : senderSub.krPhase = .phase1 → receiverSub.krPhase ≠ .normal)
    (named : tx.appIdx = keys.appIdx) (srcFits : tx.src < 2 ^ 16)
    (dstFits : tx.addr < 2 ^ 16)
    (managed : (senderCfg.lowPower && tx.friendCred &&
      sender.net.lpn.frnd != addrUnassigned) = false)
    (reaches : Reaches cfg netIf sender receiver tx pduSeq)
    (resolved : keysResolve sender tx.appIdx netIdx tx.addr = .ok (tx.sub, key, aid))
    (encrypted : transEncrypt cipher sender tx seq key msg = some sealed)
    (encoded : netEncode senderCfg cipher sender.net tx pduSeq payload tailroom
      false = some pdu) (netAlone : NetKeyAlone cfg cipher netIf receiver.net
      (sentWith senderSub.krPhase keys.oldNet keys.newNet) pdu)
    (appAlone : AppKeyAlone cipher receiver.apps (tx.cryptoCtx sender seq) key sealed)
    (netUnshared : NetKeyUnshared receiver.net.subs receiverSlot
      (sentWith senderSub.krPhase keys.oldNet keys.newNet))
    (appUnshared : AppKeyUnshared receiver.apps receiverSub
      (sentWith senderSub.krPhase keys.oldNet keys.newNet) keys.appIdx key) :
    ∃ (ref : CredRef) (out : NetBuf),
      netCredFind cfg cipher netIf receiver.net pdu = some (ref, out) ∧
      out.seq = BitVec.ofNat 24 pduSeq ∧ out.rest = be16 tx.addr ++ payload ∧
      sduRecv cipher receiver (netDecoded netIf receiver.net pdu ref out)
        (accessHdr seg aid) tx.aszmic seq sealed = some (tx.appIdx, msg) := by
  rw [named, sends.resolves netUsed appUsed appKey, Except.ok.injEq] at resolved
  obtain ⟨slotSame, pair⟩ := Prod.mk.inj resolved
  obtain ⟨keySame, aidSame⟩ := Prod.mk.inj pair
  have derived := sends.txCred netUsed
  obtain ⟨buf, sent, nid, ivi, bufSeq, bufSrc, rest⟩ :=
    sends.encodes netUsed nids slotSame.symm managed encoded
  have iv := reaches.hearsIv.rx sender.net.ivIndexTx_lt ivi
  have ivPdu : receiver.net.ivIndexRx pdu = sender.net.ivIndexTx := by
    rw [← iv]
    simp only [NetNode.ivIndexRx, NetNode.oldIv, NetBuf.ivi, netEncrypt_first sent]
  have takesIn := reaches.takesIn
  rw [← bufSeq, ← bufSrc] at takesIn
  rw [← iv] at sent
  obtain ⟨ref, search, place, valid, netKey⟩ :=
    receives.netCredFind netUsed correct permitted rfl derived reaches.awake sent nid
      takesIn netAlone netUnshared
  refine ⟨ref, buf, search, bufSeq, rest, ?_⟩
  have ownApp : senderApp.appIdx = keys.appIdx := sends.app.2.1
  have senderUsed : senderApp.appIdx ≠ keyUnused := by
    rw [ownApp]
    exact appUsed
  have aidNamed := sends.ids.tx sends.stored senderUsed senderSub
  rw [keySame, aidSame] at aidNamed
  have receiverKey : (receiverApp.rxCred ref.newKey).val = key := by
    rw [← keySame, sends.app.tx sends.net]
    exact receives.app.rx (receives.tableOk.each _ _ receives.subAt) netUsed distinct
      receives.net valid netKey
  have subnet : (netDecoded netIf receiver.net pdu ref buf).netIdx =
      receiverSub.netIdx := by
    simp only [netDecoded, place, receives.subAt, map_some, getD_some]
  have src : (netDecoded netIf receiver.net pdu ref buf).addr = tx.src := by
    simp only [netDecoded, bufSrc, BitVec.toNat_ofNat]
    exact Nat.mod_eq_of_lt srcFits
  have dst : (netDecoded netIf receiver.net pdu ref buf).recvDst = tx.addr :=
    dst_be16 dstFits rest
  have opens : appDecrypt cipher key (tx.cryptoCtx sender seq) sealed = some msg :=
    correct.inverse _ _ _ _ _ _ encrypted
  have context : tx.cryptoCtx sender seq =
      { devKey := false
        aszmic := (tx.cryptoCtx sender seq).aszmic
        src := (netDecoded netIf receiver.net pdu ref buf).addr
        dst := (netDecoded netIf receiver.net pdu ref buf).recvDst
        seqNum := (tx.cryptoCtx sender seq).seqNum
        ivIndex := ivBefore receiver.net.ivIndex
          (netDecoded netIf receiver.net pdu ref buf).oldIv
        ad := receiver.labelOf (netDecoded netIf receiver.net pdu ref buf).recvDst } := by
    have ivRx : ivBefore receiver.net.ivIndex
        (netDecoded netIf receiver.net pdu ref buf).oldIv = sender.net.ivIndexTx :=
      ivPdu
    rw [src, dst, ivRx, reaches.label, NetTx.cryptoCtx, named, appKey]
  have received := receives.sduRecv appUsed seg aids aidNamed receiverKey subnet netKey
    context opens appAlone appUnshared
  rw [named]
  exact received

end TwoNodes

def sampleRefresh : RefreshKeys := ⟨1, 3, 7, 8, 5, 6⟩

def sampleAppKey : AppKey := ⟨1, 3, true, ⟨⟨5, 5⟩, ⟨6, 6⟩⟩⟩

/-- Another AppKey of the subnet, with the same AID as the new AppKey 3 if the
lower bits of its value are 6. -/
def otherAppKey (val : Key) : AppKey := ⟨1, 4, false, ⟨⟨6, val⟩, .zero⟩⟩

def refreshNode (elemAddr : Nat) (inputs : List SubnetInput) (apps : List AppKey) :
    AccessNode where
  net :=
    { refreshingNode with
      elemAddr := elemAddr
      subs := (subnetMachine plainConfig nidCrypto).run (emptyTable 2) inputs }
  apps := apps
  vas := []
  devKey := 0
  cdb := none

def toPhase2 : List SubnetInput :=
  addedSubnet ++ [.krPhaseSet ⟨1, one_le_maxNetIdx⟩ 2]

def sampleSender : AccessNode := refreshNode 0x20 toPhase2 [sampleAppKey]

/-- A node in phase 1 with another subnet, whose key may be that of the first. -/
def sampleReceiver (net : Key) (app : Key) : AccessNode :=
  refreshNode 0x10 (.add ⟨2, by decide⟩ net :: addedSubnet)
    [otherAppKey app, sampleAppKey]

def sampleMessageTx : NetTx where
  sub := 0
  appIdx := 3
  addr := 0xc000
  sendTtl := 5
  src := 0x20
  xmit := 0
  aid := 6
  aszmic := false
  friendCred := false

def sampleSealed : List Byte := [1, 2] ++ List.replicate 4 6

def sampleMessagePdu : NetBuf :=
  ⟨8, 5, 9, 0x20 ^^^ 8, [0xc0, 0, 0x46] ++ sampleSealed ++ List.replicate 4 8⟩

theorem plainAppId_aids : SixBitAids plainAppId := by
  intro key id derived
  cases derived
  ext place bound
  interval_cases place <;> simp

theorem sampleSender_sends : keysResolve sampleSender 3 1 0xc000 = .ok (0, 6, 6) ∧
      transEncrypt plainCipher sampleSender sampleMessageTx 9 6 [1, 2] =
        some sampleSealed ∧
      netEncode plainConfig plainCipher sampleSender.net sampleMessageTx 9
        (accessHdr false 6 :: sampleSealed) 8 false = some sampleMessagePdu := by
  refine ⟨rfl, rfl, rfl⟩

def SampleSubnet (phase : KrPhase) (sub : Subnet) : Prop :=
  sub.krPhase = phase ∧ sub.netIdx = 1 ∧ sub.keys.old.net = 7 ∧
    sub.keys.new.net = 8 ∧ sub.keys.old.valid = true

theorem SampleSubnet.holds {phase : KrPhase} {sub : Subnet}
    (sample : SampleSubnet phase sub) (refreshes : phase = .phase1 ∨ phase = .phase2) :
    HoldsNetKeys sampleRefresh.netIdx sampleRefresh.oldNet sampleRefresh.newNet sub ∧
      HoldsAppKeys sampleRefresh.netIdx sampleRefresh.appIdx sampleRefresh.oldApp
        sampleRefresh.newApp sub.krPhase sampleAppKey := by
  obtain ⟨own, named, keys⟩ := sample
  unfold HoldsNetKeys
  rw [own]
  rcases refreshes with rfl | rfl
  · exact ⟨⟨named, keys⟩, rfl, rfl, rfl, rfl⟩
  · exact ⟨⟨named, keys⟩, rfl, rfl, rfl, rfl⟩

theorem sampleSender_holds : ∃ sub : Subnet, sub.krPhase = .phase2 ∧
      sampleSender.Holds plainConfig nidCrypto plainAppId sampleRefresh 0 sub
        sampleAppKey := by
  obtain ⟨sub, found, sample⟩ :
      ∃ sub : Subnet, sampleSender.net.subs[0]? = some sub ∧ SampleSubnet .phase2 sub :=
    ⟨_, rfl, rfl, rfl, rfl, rfl, rfl⟩
  obtain ⟨net, app⟩ := sample.holds (.inr rfl)
  refine ⟨sub, sample.1, ?ok, .of_pairwise (by decide), ?ids, found, ?stored, net, app⟩
  case ok =>
    exact tableOk_run plainConfig nidCrypto (TableOk.empty plainConfig nidCrypto 2)
      toPhase2
  case ids =>
    intro key member _
    obtain rfl := mem_singleton.mp member
    exact ⟨rfl, fun _ => rfl⟩
  case stored => exact mem_singleton.mpr rfl

theorem sampleReceiver_holds (net app : Key) (named : plainAppId app = some 6) :
    ∃ sub : Subnet, sub.krPhase = .phase1 ∧
      (sampleReceiver net app).Holds plainConfig nidCrypto plainAppId sampleRefresh 1
        sub sampleAppKey := by
  obtain ⟨sub, found, sample⟩ :
      ∃ sub : Subnet, (sampleReceiver net app).net.subs[1]? = some sub ∧
        SampleSubnet .phase1 sub :=
    ⟨_, rfl, rfl, rfl, rfl, rfl, rfl⟩
  obtain ⟨netKeys, appKeys⟩ := sample.holds (.inl rfl)
  refine ⟨sub, sample.1, ?ok, ?unique, ?ids, found, ?stored, netKeys, appKeys⟩
  case ok =>
    exact tableOk_run plainConfig nidCrypto (TableOk.empty plainConfig nidCrypto 2)
      (.add ⟨2, by decide⟩ net :: addedSubnet)
  case unique =>
    apply KeysUnique.of_pairwise
    simp [sampleReceiver, refreshNode, otherAppKey, sampleAppKey, AppKey.key, keyUnused]
  case ids =>
    intro key member _
    rcases mem_pair.mp member with rfl | rfl
    · exact ⟨named, Bool.noConfusion⟩
    · exact ⟨rfl, fun _ => rfl⟩
  case stored => exact mem_pair.mpr (.inr rfl)

theorem sampleReceiver_reached (net app : Key) :
    Reaches plainConfig .adv sampleSender (sampleReceiver net app) sampleMessageTx 9 where
  awake := fun _ => LpnState.noConfusion
  takesIn :=
    { bearer := .inl rfl
      unicast := rfl
      foreign := by
        apply decide_eq_false
        show ¬ (0x20 + 2 ^ 16 - 0x10) % 2 ^ 16 < 1
        decide
      unseen := by
        intro _
        show ∀ entry ∈ refreshingNode.msgCache, ¬ (entry.1 = 0x20 ∧ entry.2 = 9 % 2 ^ 17)
        decide }
  hearsIv := .inl rfl
  label := rfl

theorem key_refresh_talks_collision : ∃ (ref : CredRef) (out : NetBuf),
      netCredFind plainConfig plainCipher .adv (sampleReceiver 0x88 0x46).net
        sampleMessagePdu = some (ref, out) ∧
      out.seq = 9 ∧ out.rest = be16 0xc000 ++ accessHdr false 6 :: sampleSealed ∧
      sduRecv plainCipher (sampleReceiver 0x88 0x46)
        (netDecoded .adv (sampleReceiver 0x88 0x46).net sampleMessagePdu ref out)
        (accessHdr false 6) false 9 sampleSealed = some (3, [1, 2]) := by
  obtain ⟨_, senderPhase, sends⟩ := sampleSender_holds
  obtain ⟨_, _, receives⟩ := sampleReceiver_holds 0x88 0x46 rfl
  obtain ⟨resolved, encrypted, encoded⟩ := sampleSender_sends
  refine key_refresh_talks plainCipher_correct nidCrypto_nids plainAppId_aids
    (by decide) (by decide) rfl (by decide) sends receives ?permitted rfl (by decide)
    (by decide) rfl (sampleReceiver_reached 0x88 0x46) resolved encrypted encoded
    ?netAlone ?appAlone ?netUnshared ?appUnshared
  case permitted =>
    intro early
    rw [senderPhase] at early
    cases early
  case netAlone =>
    rw [senderPhase]
    decide
  case appAlone => decide
  case netUnshared =>
    rw [senderPhase]
    intro other twin idx there valid same
    have only : ∀ entry ∈ (sampleReceiver 0x88 0x46).net.subs.zipIdx, ∀ idx,
        (entry.1.keys.get idx).valid = true → (entry.1.keys.get idx).net = 8 →
          entry.2 = 1 := by
      decide
    exact only (twin, other) (mem_zipIdx_iff_getElem?.mpr there) idx valid same
  case appUnshared =>
    intro app member _ _ idx _ same
    have only : ∀ app ∈ (sampleReceiver 0x88 0x46).apps, ∀ idx,
        (app.rxCred idx).val = 6 → app.appIdx = 3 := by decide
    exact only app member idx same

/-- What the receiver, in phase 1, makes of the message of the sender, in phase 2;
no wrong key opens it. -/
def RefreshOutcome (sender receiver : AccessNode) (tx : NetTx)
    (received : Option (Nat × List Byte)) : Prop :=
  ∃ (senderSub receiverSub : Subnet) (pdu : NetBuf),
    senderSub.krPhase = .phase2 ∧ receiverSub.krPhase = .phase1 ∧
    sender.Holds plainConfig nidCrypto plainAppId sampleRefresh 0 senderSub
      sampleAppKey ∧
    receiver.Holds plainConfig nidCrypto plainAppId sampleRefresh 1 receiverSub
      sampleAppKey ∧
    transEncrypt plainCipher sender tx 9 6 [1, 2] = some sampleSealed ∧
    netEncode plainConfig plainCipher sender.net tx 9
      (accessHdr false 6 :: sampleSealed) 8 false = some pdu ∧
    NetKeyAlone plainConfig plainCipher .adv receiver.net 8 pdu ∧
    AppKeyAlone plainCipher receiver.apps (tx.cryptoCtx sender 9) 6 sampleSealed ∧
    ((netCredFind plainConfig plainCipher .adv receiver.net pdu).bind fun found =>
      sduRecv plainCipher receiver
        (netDecoded .adv receiver.net pdu found.1 found.2) (accessHdr false 6) false 9
        sampleSealed) = received

def waitingReceiver : AccessNode :=
  { sampleReceiver 0x88 0x46 with
    net :=
      { (sampleReceiver 0x88 0x46).net with
        lpn := { Lpn.boot with state := .waitUpdate, frnd := 0x30, sub := some 1 } } }

def friendSender : AccessNode :=
  { sampleSender with
    net :=
      { sampleSender.net with
        lpn :=
          { Lpn.boot with
            state := .established
            frnd := 0x30
            sub := some 0
            cred := ⟨⟨0x17, 0x17, 0x17⟩, ⟨0x18, 0x18, 0x18⟩⟩ } } }

/-- Another AppKey with the same value is found first; another subnet with the
same NetKey hides the AppKey; and friendship credentials are not tried by, or are
all that is tried by, one of the nodes. -/
theorem key_refresh_mistaken :
    RefreshOutcome sampleSender (sampleReceiver 0x88 6) sampleMessageTx
        (some (4, [1, 2])) ∧
      RefreshOutcome sampleSender (sampleReceiver 8 0x46) sampleMessageTx none ∧
      RefreshOutcome sampleSender waitingReceiver sampleMessageTx none ∧
      RefreshOutcome friendSender (sampleReceiver 0x88 0x46)
        { sampleMessageTx with friendCred := true } none := by
  obtain ⟨senderSub, senderPhase, sends⟩ := sampleSender_holds
  have friendSends : friendSender.Holds plainConfig nidCrypto plainAppId sampleRefresh 0
      senderSub sampleAppKey :=
    ⟨sends.tableOk, sends.unique, sends.ids, sends.subAt, sends.stored, sends.net,
      sends.app⟩
  have receiverHolds := fun net app => sampleReceiver_holds net app
  refine ⟨?sameApp, ?sameNet, ?waiting, ?friend⟩
  case sameApp =>
    obtain ⟨receiverSub, phase, receives⟩ := receiverHolds 0x88 6 rfl
    refine ⟨senderSub, receiverSub, _, senderPhase, phase, sends, receives, rfl, rfl,
      by decide, by decide, rfl⟩
  case sameNet =>
    obtain ⟨receiverSub, phase, receives⟩ := receiverHolds 8 0x46 rfl
    refine ⟨senderSub, receiverSub, _, senderPhase, phase, sends, receives, rfl, rfl,
      by decide, by decide, rfl⟩
  case waiting =>
    obtain ⟨receiverSub, phase, receives⟩ := receiverHolds 0x88 0x46 rfl
    have waits : waitingReceiver.Holds plainConfig nidCrypto plainAppId sampleRefresh 1
        receiverSub sampleAppKey :=
      ⟨receives.tableOk, receives.unique, receives.ids, receives.subAt,
        receives.stored, receives.net, receives.app⟩
    refine ⟨senderSub, receiverSub, _, senderPhase, phase, sends, waits, rfl, rfl,
      by decide, by decide, rfl⟩
  case friend =>
    obtain ⟨receiverSub, phase, receives⟩ := receiverHolds 0x88 0x46 rfl
    refine ⟨senderSub, receiverSub, _, senderPhase, phase, friendSends, receives, rfl,
      rfl, by decide, by decide, rfl⟩

end ZephyrBluetooth.Mesh
