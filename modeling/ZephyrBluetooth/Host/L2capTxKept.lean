import Mathlib.Algebra.GroupWithZero.Nat
import ZephyrBluetooth.Host.L2capAttach

namespace ZephyrBluetooth.Host

variable {mps : Nat}

/-! What the commands of a connection do to the transmit parameters of its
channels. -/

structure LeChan.Roomy (chan : LeChan) : Prop where
  small : chan.tx.mps < 2 ^ 16
  wide : chan.tx.credits = 0 ∨ L2cap.sduHdrSize < chan.tx.mps

namespace L2capConn

open L2cap

def Roomy (conn : L2capConn) : Prop :=
  ∀ address, address ∉ fixedCids → (conn.chan address).attached = true →
    (conn.chan address).Roomy

variable {conn : L2capConn}

namespace Roomy

variable {conn : L2capConn} {change : LeChan → LeChan} {address : Nat}

section

variable (roomy : conn.Roomy)
include roomy

theorem set
    (fits : address ∉ fixedCids → (change (conn.chan address)).attached = true →
      (change (conn.chan address)).Roomy) : (conn.set address change).Roomy := by
  intro other dynamic attached
  by_cases same : other = address
  · subst same
    rw [set_chan_self] at attached ⊢
    exact fits dynamic attached
  · rw [set_chan_ne _ _ _ same] at attached ⊢
    exact roomy other dynamic attached

theorem enter {added : L2capConn} (adds : conn.Adds address added)
    (fits : (change (added.chan address)).Roomy) :
    (added.set address change).Roomy := by
  intro other dynamic attached
  by_cases same : other = address
  · subst same
    rw [set_chan_self] at attached ⊢
    exact fits
  · rw [set_chan_ne _ _ _ same, adds.others other same] at attached ⊢
    exact roomy other dynamic attached

theorem keep
    (still : (change (conn.chan address)).attached = true →
      (conn.chan address).attached = true)
    (same : (change (conn.chan address)).tx = (conn.chan address).tx) :
    (conn.set address change).Roomy := by
  apply roomy.set
  intro dynamic attached
  obtain ⟨small, wide⟩ := roomy address dynamic (still attached)
  exact ⟨same.symm ▸ small, same.symm ▸ wide⟩

theorem del (address : Nat) : (conn.chanDel address).Roomy :=
  roomy.keep nofun rfl

end

theorem closed : ClosedFully Roomy where
  cancel _ roomy := roomy.keep id rfl
  drop address roomy := del roomy address
  halt roomy := roomy
  set _ mild roomy := roomy.keep (fun attached => mild.attached _ ▸ attached)
    (mild.tx _)
  getIdent roomy := roomy
  request _ _ roomy := roomy.keep id rfl
  remove _ roomy := roomy

theorem ready (roomy : conn.Roomy) (config : L2capConfig) (address : Nat) :
    ((conn.chanTxInit address).chanRxInit config address).Roomy := by
  have cleared : (conn.chanTxInit address).Roomy :=
    roomy.set fun _ _ => ⟨Nat.two_pow_pos 16, .inl rfl⟩
  exact cleared.keep id rfl

theorem ready_chan (conn : L2capConn) (config : L2capConfig) (address : Nat) :
    (((conn.chanTxInit address).chanRxInit config address).chan address).Roomy := by
  have cleared :
      (((conn.chanTxInit address).chanRxInit config address).chan address).tx =
        .zero := by
    unfold chanRxInit chanTxInit
    rw [set_chan_self, set_chan_self]
    rfl
  refine ⟨?_, .inl ?_⟩
  · rw [cleared]
    exact Nat.two_pow_pos 16
  · rw [cleared]
    rfl

theorem added (roomy : conn.Roomy) {added : L2capConn}
    (adds : conn.Adds address added) (fits : (conn.chan address).Roomy)
    (psm : Nat) : (added.set address fun chan => { chan with psm }).Roomy := by
  apply roomy.enter adds
  obtain ⟨_, chan, _⟩ := adds.chan
  rw [chan]
  exact ⟨fits.small, fits.wide⟩

theorem chanConnect (roomy : conn.Roomy) (config : L2capConfig) (env : L2capEnv)
    (address psm : Nat) : (conn.chanConnect config env address psm).Roomy := by
  unfold L2capConn.chanConnect
  split
  · exact roomy
  simp only
  generalize raising : (conn.set address fun chan =>
    { chan with requiredSecLevel := max chan.requiredSecLevel 1 }) = raised
  have raisedRoomy : raised.Roomy := by
    rw [← raising]
    exact roomy.keep id rfl
  split
  · exact raisedRoomy
  have readied := raisedRoomy.ready config address
  split
  · exact readied
  rename_i added adding
  have entered := readied.added (chanAdd_adds adding)
    (ready_chan raised config address) psm
  split
  · split
    · exact closed.set address (mild_encryptPending true) entered
    · exact closed.drop address entered
  · have sent := closed.leConnReqSend entered env address
    split
    · rename_i result request
      rw [request] at sent
      exact sent
    · rename_i result request
      rw [request] at sent
      exact closed.drop address sent

theorem ecredInit (roomy : conn.Roomy) (config : L2capConfig)
    (address psm : Nat) : (conn.ecredInit config address psm).1.Roomy := by
  unfold L2capConn.ecredInit
  split
  · exact roomy
  have readied := roomy.ready config address
  simp only
  split
  · exact readied
  rename_i added adding
  exact readied.added (chanAdd_adds adding) (ready_chan conn config address) psm

theorem ecredInitAll (config : L2capConfig) (psm : Nat) (added : List Nat)
    (addresses : List Nat) (roomy : conn.Roomy) :
    (L2capConn.ecredInitAll config psm added addresses conn).1.Roomy := by
  induction addresses generalizing added conn with
  | nil => exact roomy
  | cons address rest ih =>
    have first := roomy.ecredInit config address psm
    unfold L2capConn.ecredInitAll
    split
    · rename_i ready init
      rw [init] at first
      exact ih _ first
    · rename_i failed init
      rw [init] at first
      exact foldl_holds (fun _ address _ roomy => closed.remove address roomy) first

theorem ecredChanConnect (roomy : conn.Roomy) (config : L2capConfig)
    (env : L2capEnv) (chans : List Nat) (psm : Nat) :
    (conn.ecredChanConnect config env chans psm).Roomy := by
  have all := ecredInitAll config psm [] (chans.take ecredChanMax) roomy
  unfold L2capConn.ecredChanConnect
  split
  · rename_i ready init
    rw [init] at all
    exact closed.ecredConnReqSend all env _
  · rename_i failed init
    rw [init] at all
    exact all

theorem chanAccept (roomy : conn.Roomy) (config : L2capConfig) (env : L2capEnv)
    (server : L2capServer) (index scid mtu : Nat) (credits : Nat)
    (small : mps < 2 ^ 16) (wide : L2cap.sduHdrSize < mps) :
    (conn.chanAccept config env server index scid mtu mps credits).1.Roomy := by
  unfold L2capConn.chanAccept
  split
  · exact roomy
  split
  · exact roomy
  split
  · exact roomy
  rename_i address _
  split
  · exact roomy
  simp only
  have leveled : (conn.set address fun chan =>
      { chan with requiredSecLevel := server.secLevel }).Roomy :=
    roomy.keep id rfl
  split
  · exact leveled
  · rename_i added adding
    exact leveled.enter (chanAdd_adds adding) ⟨small, .inr wide⟩

theorem leConnReq (roomy : conn.Roomy) (config : L2capConfig) (env : L2capEnv)
    (ident psm scid mtu : Nat) (credits : Nat) (small : mps < 2 ^ 16) :
    (conn.leConnReq config env ident psm scid mtu mps credits).1.Roomy := by
  refine leConnReq_holds roomy fun least server => ?_
  have wide : L2cap.sduHdrSize < mps := Nat.lt_of_lt_of_le (by decide) least
  exact roomy.chanAccept config env server 0 scid mtu credits small wide

theorem ecredAcceptAll (config : L2capConfig) (env : L2capEnv)
    (server : L2capServer) (mtu : Nat) (credits : Nat) (small : mps < 2 ^ 16)
    (wide : L2cap.sduHdrSize < mps) (index : Nat) (scids : List Nat)
    (roomy : conn.Roomy) :
    (L2capConn.ecredAcceptAll config env server mtu mps credits index scids
      conn).1.Roomy := by
  induction scids generalizing index conn with
  | nil => exact roomy
  | cons scid rest ih =>
    have first := roomy.chanAccept config env server index scid mtu credits
      small wide
    exact ih (index + 1) first

section

variable (roomy : conn.Roomy)
include roomy

theorem ecredConnReq (config : L2capConfig) (env : L2capEnv)
    (psm mtu : Nat) (credits : Nat) (scids : List Nat) (small : mps < 2 ^ 16) :
    (conn.ecredConnReq config env psm mtu mps credits scids).1.Roomy := by
  refine ecredConnReq_holds roomy fun least server _ => ?_
  have wide : L2cap.sduHdrSize < mps := Nat.lt_of_lt_of_le (by decide) least
  exact ecredAcceptAll config env server mtu credits small wide 0 scids roomy

theorem ecredReconfReq (env : L2capEnv) (ident mtu : Nat)
    (scids : List Nat) (small : mps < 2 ^ 16) :
    (conn.ecredReconfReq env ident mtu mps scids).Roomy := by
  unfold L2capConn.ecredReconfReq
  generalize changes : (if mps < ecredMinMtu ∨ mtu < ecredMinMtu then conn
    else _ : L2capConn) = resized
  have targets : resized.Roomy := by
    rw [← changes]
    split
    · exact roomy
    rename_i valid
    have wide : L2cap.sduHdrSize < mps := by
      unfold ecredMinMtu at valid
      unfold L2cap.sduHdrSize
      omega
    split
    · exact roomy
    rename_i chans _
    split
    · exact roomy
    · exact foldl_holds
        (fun _ _ _ roomy => roomy.set fun _ _ => ⟨small, .inr wide⟩) roomy
  split
  · exact targets
  · exact closed.halt targets

theorem establish (address dcid mtu : Nat) (credits : Nat)
    (small : mps < 2 ^ 16) (wide : L2cap.sduHdrSize < mps) :
    (conn.set address (L2capConn.establish dcid mtu mps credits)).Roomy :=
  roomy.set fun _ _ => ⟨small, .inr wide⟩

theorem leConnRsp (env : L2capEnv) (ident dcid mtu : Nat)
    (credits : Nat) {result : Nat} (small : mps < 2 ^ 16)
    (wide : conn.lookupIdent ident ≠ none → result = success →
      L2cap.sduHdrSize < mps) :
    (conn.leConnRsp env ident dcid mtu mps credits result).1.Roomy := by
  unfold L2capConn.leConnRsp
  split
  · exact roomy
  rename_i address found
  simp only
  generalize taking : (if result = success ∨ result = errAuthentication ∨
    result = errEncryption then conn else conn.chanRemove address) = taken
  have kept : taken.Roomy := by
    rw [← taking]
    split
    · exact roomy
    · exact closed.remove address roomy
  have reset : (taken.set address fun chan =>
      { chan with rtx := false, ident := 0, request := none }).Roomy :=
    kept.keep id rfl
  split
  · rename_i succeeded
    have named : conn.lookupIdent ident ≠ none := by
      rw [found]
      exact Option.some_ne_none _
    exact reset.establish address dcid mtu credits small (wide named succeeded)
  · split
    · have secured := closed.changeSecurity reset env address result
      split
      · rename_i pending change
        rw [change] at secured
        exact secured
      · rename_i refused change
        rw [change] at secured
        exact closed.drop address secured
    · exact reset.del address

end

theorem ecredComplete (env : L2capEnv) (ident mtu : Nat) (credits : Nat)
    (dcids : Nat → Nat) (small : mps < 2 ^ 16) (wide : L2cap.sduHdrSize < mps)
    (fuel index : Nat) (roomy : conn.Roomy) :
    (L2capConn.ecredComplete env ident mtu mps credits dcids fuel index
      conn).1.Roomy := by
  induction fuel generalizing index conn with
  | zero => exact roomy
  | succ fuel ih =>
    unfold L2capConn.ecredComplete
    split
    · exact roomy
    rename_i address _
    have canceled := closed.cancel address roomy
    have deleted := closed.drop address canceled
    simp only
    split
    · exact ih _ deleted
    split
    · exact ih _ (closed.chanDisconnect deleted env _)
    · exact ih _ (canceled.establish address _ mtu credits small wide)

def connects (result : Nat) : Prop :=
  result = success ∨ result = errInvalidScid ∨ result = errScidInUse ∨
    result = errNoResources

theorem ecredConnRsp (roomy : conn.Roomy) (env : L2capEnv) (ident mtu : Nat)
    (credits : Nat) {result : Nat} (dcids : Nat → Nat) (small : mps < 2 ^ 16)
    (wide : conn.lookupIdent ident ≠ none → connects result →
      L2cap.sduHdrSize < mps) :
    (conn.ecredConnRsp env ident mtu mps credits result dcids).1.Roomy := by
  unfold L2capConn.ecredConnRsp
  split
  · exact closed.ecredSecure env ident result _ roomy
  split
  · rename_i connected
    cases found : conn.lookupIdent ident with
    | none =>
      unfold L2capConn.ecredFuel
      cases 3 * conn.channels.length with
      | zero => exact roomy
      | succ =>
        unfold L2capConn.ecredComplete
        rw [found]
        exact roomy
    | some =>
      have named : conn.lookupIdent ident ≠ none := by
        rw [found]
        exact Option.some_ne_none _
      exact ecredComplete env ident mtu credits dcids small
        (wide named connected) _ _ roomy
  · exact closed.dropIdent ident _ roomy

theorem leCredits (roomy : conn.Roomy) (env : L2capEnv) {cid credits : Nat}
    (wide : ∀ address, conn.lookupTxCid cid = some address →
      address ∈ fixedCids ∨ 0xffff < (conn.chan address).tx.credits + credits ∨
        L2cap.sduHdrSize < (conn.chan address).tx.mps) :
    (conn.leCredits env cid credits).Roomy := by
  unfold L2capConn.leCredits
  split
  · exact roomy
  rename_i address found
  split
  · exact closed.chanDisconnect roomy env address
  rename_i bounded
  apply roomy.set
  intro dynamic attached
  have spared := (wide address found).resolve_left dynamic
  exact ⟨(roomy address dynamic attached).small, .inr (spared.resolve_left bounded)⟩

theorem newLink (roomy : conn.Roomy) (accepts : Nat → Bool) :
    (conn.newLink accepts).Roomy := by
  have deleted : (conn.channels.foldl chanDel conn).Roomy :=
    foldl_holds (fun _ address _ roomy => roomy.del address) roomy
  intro address dynamic attached
  have unlisted : address ∉ fixedCids.filter accepts :=
    fun member => dynamic (List.mem_filter.mp member).1
  simp only [L2capConn.newLink, linkUp, if_neg unlisted] at attached ⊢
  exact deleted address dynamic attached

end Roomy

/-- The parameters in the command are 16-bit values, and a response that opens
channels, or credits, leave room for data behind the SDU length. -/
def PeerRoomy (conn : L2capConn) (ident : Nat) : L2capSignal → Prop
  | .leConnReq _ _ _ mps _ => mps < 2 ^ 16
  | .leConnRsp _ _ mps _ result =>
    mps < 2 ^ 16 ∧ (conn.lookupIdent ident ≠ none → result = success →
      L2cap.sduHdrSize < mps)
  | .leCredits cid credits =>
    ∀ address, conn.lookupTxCid cid = some address → address ∈ fixedCids ∨
        0xffff < (conn.chan address).tx.credits + credits ∨
        L2cap.sduHdrSize < (conn.chan address).tx.mps
  | .ecredConnReq _ _ mps _ _ => mps < 2 ^ 16
  | .ecredConnRsp _ mps _ result _ =>
    mps < 2 ^ 16 ∧ (conn.lookupIdent ident ≠ none → Roomy.connects result →
      L2cap.sduHdrSize < mps)
  | .ecredReconfReq _ mps _ => mps < 2 ^ 16
  | _ => True

def InputRoomy (conn : L2capConn) : L2capInput → Prop
  | .signal ident signal => conn.PeerRoomy ident signal
  | _ => True

theorem Roomy.recvSignal (roomy : conn.Roomy)
    (config : L2capConfig) (env : L2capEnv) {ident : Nat} {signal : L2capSignal}
    (peer : conn.PeerRoomy ident signal) :
    (conn.recvSignal config env ident signal).1.Roomy := by
  unfold L2capConn.recvSignal
  split
  · exact roomy
  cases signal with
  | leConnReq psm scid mtu mps credits =>
    exact roomy.leConnReq config env ident psm scid mtu credits peer
  | leConnRsp dcid mtu mps credits =>
    exact roomy.leConnRsp env ident dcid mtu credits peer.1 peer.2
  | disconnReq dcid => exact Roomy.closed.disconnReq roomy env ident dcid
  | disconnRsp dcid scid => exact Roomy.closed.disconnRsp roomy scid
  | leCredits => exact roomy.leCredits env peer
  | cmdReject => exact Roomy.closed.rejectCmd roomy ident
  | ecredConnReq psm mtu mps credits scids =>
    exact roomy.ecredConnReq config env psm mtu credits scids peer
  | ecredConnRsp mtu mps credits result dcids =>
    exact roomy.ecredConnRsp env ident mtu credits dcids peer.1 peer.2
  | ecredReconfReq mtu mps scids =>
    exact roomy.ecredReconfReq env ident mtu scids peer
  | ecredReconfRsp result => exact Roomy.closed.reconfDone ident result _ roomy

theorem Roomy.step (roomy : conn.Roomy)
    (config : L2capConfig) (env : L2capEnv) {input : L2capInput}
    (fits : conn.InputRoomy input) : (conn.step config env input).1.Roomy := by
  have closed := Roomy.closed
  cases input with
  | layOut address chan =>
    simp only [L2capConn.step]
    split
    · have laid : (conn.set address (releasedChan chan)).Roomy :=
        roomy.set nofun
      exact laid
    · exact roomy
  | connect address psm =>
    simp only [L2capConn.step]
    split
    · exact roomy.chanConnect config env address psm
    · exact roomy
  | ecredConnect chans psm =>
    simp only [L2capConn.step]
    split
    · exact roomy.ecredChanConnect config env chans psm
    · exact roomy
  | reconfigure chans mtu =>
    simp only [L2capConn.step]
    split
    · exact closed.ecredChanReconfigure roomy env chans mtu
    · exact roomy
  | disconnect address =>
    simp only [L2capConn.step]
    split
    · exact closed.chanDisconnect roomy env address
    · exact roomy
  | signal => exact roomy.recvSignal config env fits
  | expire address =>
    simp only [L2capConn.step]
    split
    · exact closed.set address (mild_expired true) roomy
    · exact roomy
  | timeout address =>
    simp only [L2capConn.step]
    split
    · exact closed.rtxTimeout (closed.set address (mild_expired false) roomy) address
    · exact roomy
  | securityChanged failed secLevel =>
    have raised : Roomy { conn with secLevel } := roomy
    exact closed.securityLoop env failed _ raised
  | newLink accepts => exact roomy.newLink accepts

theorem start_roomy (servers : List L2capServer) (accepts : Nat → Bool) :
    (start servers accepts).Roomy := by
  intro address dynamic attached
  have unlisted : address ∉ fixedCids.filter accepts :=
    fun member => dynamic (List.mem_filter.mp member).1
  simp only [start, linkUp, if_neg unlisted] at attached
  cases attached

end L2capConn

end ZephyrBluetooth.Host
