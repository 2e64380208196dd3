import ZephyrBluetooth.Host.L2capClosed

namespace ZephyrBluetooth.Host

open Data List Option

variable {config : L2capConfig} {psm : Nat}

namespace L2capConn

open L2cap

/-- The list holds the attached channels, and a connection request is only
outstanding on an attached channel. -/
structure Kept (conn : L2capConn) : Prop where
  nodup : conn.channels.Nodup
  listed : ∀ address, address ∈ conn.channels ↔ (conn.chan address).attached = true
  connecting : ∀ address, (conn.chan address).connecting = true →
    (conn.chan address).attached = true

namespace Kept

variable {conn : L2capConn}

section

variable (kept : conn.Kept) {address : Nat} {change : LeChan → LeChan}
include kept

theorem set
    (attached : (change (conn.chan address)).attached = (conn.chan address).attached)
    (connecting : (change (conn.chan address)).connecting = true →
      (conn.chan address).attached = true) : (conn.set address change).Kept := by
  refine ⟨kept.nodup, ?_, ?_⟩
  · intro other
    by_cases same : other = address
    · subst same
      rw [set_chan_self, attached]
      exact kept.listed other
    · rw [set_chan_ne _ _ _ same]
      exact kept.listed other
  · intro other
    by_cases same : other = address
    · subst same
      rw [set_chan_self, attached]
      exact connecting
    · rw [set_chan_ne _ _ _ same]
      exact kept.connecting other

section

variable (attached : ∀ chan, (change chan).attached = chan.attached)
include attached

theorem adjust (request : ∀ chan, (change chan).request = chan.request) :
    (conn.set address change).Kept := by
  apply kept.set (attached _)
  unfold LeChan.connecting
  rw [request]
  exact kept.connecting address

theorem forget (request : ∀ chan, (change chan).request = none) :
    (conn.set address change).Kept := by
  apply kept.set (attached _)
  unfold LeChan.connecting
  rw [request]
  simp

end

end

section

variable (kept : conn.Kept)
include kept

theorem dropLate (address : Nat) (change : LeChan → LeChan) :
    (((conn.chanRemove address).set address change).chanDel address).Kept := by
  refine ⟨kept.nodup.erase address, ?_, ?_⟩
  · intro other
    rw [chanDel_channels, set_channels, chanRemove_channels,
      kept.nodup.mem_erase_iff]
    by_cases same : other = address
    · subst same
      simp [chanDel]
    rw [chanDel, set_chan_ne _ _ _ same, set_chan_ne _ _ _ same,
      chanRemove_chan, kept.listed other]
    exact and_iff_right same
  · intro other
    by_cases same : other = address
    · subst same
      simp [chanDel, LeChan.connecting]
    · rw [chanDel, set_chan_ne _ _ _ same, set_chan_ne _ _ _ same]
      exact kept.connecting other

theorem drop (address : Nat) :
    ((conn.chanRemove address).chanDel address).Kept := by
  have dropped := kept.dropLate address id
  rwa [set_same _ _ _ rfl] at dropped

theorem getIdent : conn.getIdent.Kept :=
  ⟨kept.nodup, kept.listed, kept.connecting⟩

theorem halt : Kept { conn with halted := true } :=
  ⟨kept.nodup, kept.listed, kept.connecting⟩

end

theorem closed : Closed Kept where
  cancel _ kept := kept.adjust (fun _ => rfl) (fun _ => rfl)
  drop address kept := kept.drop address
  halt kept := kept.halt
  set address mild kept := kept.set (mild.attached _) fun held =>
    kept.connecting address (mild.connecting _ held)
  getIdent kept := kept.getIdent

section

variable (kept : conn.Kept)
include kept

theorem noteRequest (env : L2capEnv) (ident : Nat)
    (request : L2capRequest) (address : Nat)
    (attached : (conn.chan address).attached = true ∨
      (request ≠ .leConn ∧ request ≠ .ecredConn)) :
    (conn.noteRequest env ident request address).Kept := by
  unfold L2capConn.noteRequest
  split
  · apply kept.set rfl
    rcases attached with held | other
    · exact fun _ => held
    · intro connecting
      simp [LeChan.connecting, other] at connecting
  · exact kept

theorem leConnReqSend (env : L2capEnv) {address : Nat}
    (attached : (conn.chan address).attached = true) :
    (conn.leConnReqSend env address).1.Kept := by
  unfold L2capConn.leConnReqSend
  have drawn := closed.setIdent kept.getIdent conn.nextIdent address
  have held : ((conn.getIdent.setIdent conn.nextIdent address).chan
      address).attached = true := by
    simpa [L2capConn.setIdent] using attached
  simp only
  split
  · exact closed.chanSendReq (drawn.noteRequest env _ _ _ (.inl held)) env _ _
  · exact drawn

theorem added {address : Nat}
    (fresh : (conn.chan address).attached = false) {added : L2capConn}
    (success : conn.chanAdd address = some added) : added.Kept := by
  have adds := chanAdd_adds success
  obtain ⟨_, chan, -⟩ := adds.chan
  have unlisted : address ∉ conn.channels := by
    rw [kept.listed address, fresh]
    exact Bool.false_ne_true
  refine ⟨?_, ?_, ?_⟩
  · rw [adds.channels]
    rw [← concat_eq_append]
    exact kept.nodup.concat unlisted
  · intro other
    rw [adds.channels, mem_append, mem_singleton]
    by_cases same : other = address
    · subst same
      rw [chan]
      exact iff_of_true (.inr rfl) rfl
    · rw [adds.others other same, kept.listed other]
      exact or_iff_left same
  · intro other connecting
    by_cases same : other = address
    · subst same
      rw [chan]
      rfl
    · rw [adds.others other same] at connecting ⊢
      exact kept.connecting other connecting

theorem ready (config : L2capConfig) (address : Nat) :
    ((conn.chanTxInit address).chanRxInit config address).Kept := by
  have cleared : (conn.chanTxInit address).Kept :=
    kept.adjust (fun _ => rfl) (fun _ => rfl)
  exact cleared.adjust (fun _ => rfl) (fun _ => rfl)

theorem chanConnect (config : L2capConfig) (env : L2capEnv) {address : Nat}
    (fresh : (conn.chan address).attached = false) (psm : Nat) :
    (conn.chanConnect config env address psm).Kept := by
  unfold L2capConn.chanConnect
  split
  · exact kept
  have raised : (conn.set address fun chan =>
      { chan with requiredSecLevel := max chan.requiredSecLevel 1 }).Kept :=
    kept.adjust (fun _ => rfl) (fun _ => rfl)
  simp only
  split
  · exact raised
  have ready := raised.ready config address
  split
  · exact ready
  rename_i added success
  have listed := ready.added (by simpa [chanRxInit, chanTxInit]) success
  have named : (added.set address fun chan => { chan with psm }).Kept :=
    listed.adjust (fun _ => rfl) (fun _ => rfl)
  split
  · split
    · exact named.adjust (fun _ => rfl) (fun _ => rfl)
    · exact named.drop address
  · have attached : ((added.set address fun chan =>
        { chan with psm }).chan address).attached = true := by
      obtain ⟨_, chan, -⟩ := (chanAdd_adds success).chan
      rw [set_chan_self, chan]
      rfl
    have sent := named.leConnReqSend env attached
    split
    · rename_i result request
      rw [request] at sent
      exact sent
    · rename_i result request
      rw [request] at sent
      exact sent.drop address

theorem noteAll (env : L2capEnv) (ident : Nat) {addresses : List Nat}
    (attached : ∀ address ∈ addresses, (conn.chan address).attached = true) :
    (addresses.foldl (L2capConn.noteRequest · env ident .ecredConn) conn).Kept := by
  induction addresses generalizing conn with
  | nil => exact kept
  | cons address rest ih =>
    apply ih
    · exact kept.noteRequest env ident _ _ (.inl (attached address (by simp)))
    · intro other member
      have held := attached other (mem_cons_of_mem _ member)
      unfold L2capConn.noteRequest
      split
      · by_cases same : other = address
        · subst same
          rw [set_chan_self]
          exact held
        · rw [set_chan_ne _ _ _ same]
          exact held
      · exact held

end

end Kept

theorem setIdent_attached (conn : L2capConn) (ident address other : Nat) :
    ((conn.setIdent ident address).chan other).attached =
      (conn.chan other).attached := by
  unfold setIdent
  by_cases same : other = address
  · subst same
    rw [set_chan_self]
  · rw [set_chan_ne _ _ _ same]

theorem setIdents_attached (conn : L2capConn) (ident : Nat)
    (addresses : List Nat) (other : Nat) :
    ((addresses.foldl (setIdent · ident) conn).chan other).attached =
      (conn.chan other).attached := by
  induction addresses generalizing conn with
  | nil => rfl
  | cons address rest ih => rw [foldl_cons, ih, setIdent_attached]

theorem offered_fresh {conn : L2capConn} {env : L2capEnv} {index address : Nat}
    (offer : conn.offered env index = .ok address) :
    (conn.chan address).attached = false := by
  unfold offered at offer
  split at offer
  · split at offer
    · exact nomatch offer
    rename_i released
    cases offer
    simp only [not_or, Bool.not_eq_true] at released
    exact released.1
  · exact nomatch offer

namespace Kept

variable {conn : L2capConn}

theorem ecredConnReqSend (kept : conn.Kept) (env : L2capEnv)
    {addresses : List Nat}
    (attached : ∀ address ∈ addresses, (conn.chan address).attached = true) :
    (conn.ecredConnReqSend env addresses).Kept := by
  cases addresses with
  | nil => exact kept
  | cons first rest =>
    unfold L2capConn.ecredConnReqSend
    simp only
    split
    · have numbered : ((first :: rest).foldl
          (L2capConn.setIdent · conn.nextIdent) conn.getIdent).Kept :=
        foldl_holds (fun _ address _ kept => closed.setIdent kept _ address)
          kept.getIdent
      apply closed.chanSendReq
      apply numbered.noteAll
      intro address member
      rw [setIdents_attached]
      exact attached address member
    · exact kept.getIdent.halt

theorem chanAccept (kept : conn.Kept) (config : L2capConfig)
    (env : L2capEnv) (server : L2capServer) (index scid mtu mps credits : Nat) :
    (conn.chanAccept config env server index scid mtu mps credits).1.Kept := by
  unfold L2capConn.chanAccept
  split
  · exact kept
  split
  · exact kept
  split
  · exact kept
  rename_i address offer
  have fresh : (conn.chan address).attached = false := offered_fresh offer
  split
  · exact kept
  have leveled : (conn.set address fun chan =>
      { chan with requiredSecLevel := server.secLevel }).Kept :=
    kept.adjust (fun _ => rfl) (fun _ => rfl)
  simp only
  split
  · exact leveled
  rename_i added success
  have listed := leveled.added (by simpa) success
  apply listed.adjust
  · exact fun _ => rfl
  · exact fun _ => rfl

theorem leConnReq (kept : conn.Kept) (config : L2capConfig)
    (env : L2capEnv) (ident psm scid mtu mps credits : Nat) :
    (conn.leConnReq config env ident psm scid mtu mps credits).1.Kept := by
  exact leConnReq_holds kept fun _ _ => kept.chanAccept config env _ _ _ _ _ _

theorem ecredAcceptAll (config : L2capConfig) (env : L2capEnv)
    (server : L2capServer) (mtu mps credits : Nat) (scids : List Nat)
    (index : Nat) {conn : L2capConn} (kept : conn.Kept) :
    (L2capConn.ecredAcceptAll config env server mtu mps credits index scids
      conn).1.Kept := by
  induction scids generalizing index conn with
  | nil => exact kept
  | cons scid rest ih =>
    exact ih (index + 1)
      (kept.chanAccept config env server index scid mtu mps credits)

theorem ecredConnReq (kept : conn.Kept) (config : L2capConfig)
    (env : L2capEnv) (psm mtu mps credits : Nat) (scids : List Nat) :
    (conn.ecredConnReq config env psm mtu mps credits scids).1.Kept := by
  exact ecredConnReq_holds kept fun _ server _ =>
    ecredAcceptAll config env server mtu mps credits scids 0 kept

theorem ecredComplete (env : L2capEnv) (ident mtu mps credits : Nat)
    (dcids : Nat → Nat) (fuel index : Nat) {conn : L2capConn} (kept : conn.Kept) :
    (L2capConn.ecredComplete env ident mtu mps credits dcids fuel index
      conn).1.Kept := by
  induction fuel generalizing conn index with
  | zero => exact kept
  | succ fuel ih =>
    unfold L2capConn.ecredComplete
    split
    · exact kept
    rename_i address _
    have canceled := closed.cancel address kept
    simp only
    split
    · exact ih _ (canceled.drop address)
    split
    · exact ih _ (closed.chanDisconnect (canceled.drop address) env _)
    · apply ih
      exact canceled.forget (fun _ => rfl) (fun _ => rfl)

theorem ecredConnRsp (kept : conn.Kept) (env : L2capEnv)
    (ident mtu mps credits result : Nat) (dcids : Nat → Nat) :
    (conn.ecredConnRsp env ident mtu mps credits result dcids).1.Kept := by
  unfold L2capConn.ecredConnRsp
  split
  · exact closed.ecredSecure env ident result _ kept
  split
  · exact ecredComplete env ident mtu mps credits dcids _ _ kept
  · exact closed.dropIdent ident _ kept

theorem leConnRsp (kept : conn.Kept) (env : L2capEnv)
    (ident dcid mtu mps credits result : Nat) :
    (conn.leConnRsp env ident dcid mtu mps credits result).1.Kept := by
  unfold L2capConn.leConnRsp
  split
  · exact kept
  rename_i address _
  have reset : (conn.set address fun chan =>
      { chan with rtx := false, ident := 0, request := none }).Kept :=
    kept.forget (fun _ => rfl) (fun _ => rfl)
  by_cases succeeded : result = success
  · simp only [succeeded, true_or, if_true]
    exact reset.forget (fun _ => rfl) (fun _ => rfl)
  by_cases security : result = errAuthentication ∨ result = errEncryption
  · have secured := closed.changeSecurity reset env address result
    simp only [succeeded, security, false_or, if_true, if_false]
    split
    · rename_i pending change
      rw [change] at secured
      exact secured
    · rename_i refused change
      rw [change] at secured
      exact secured.drop address
  · simp only [succeeded, security, false_or, if_false]
    exact kept.dropLate address _

theorem ecredInit (kept : conn.Kept) (config : L2capConfig) {address : Nat}
    (fresh : (conn.chan address).attached = false) (psm : Nat) :
    (conn.ecredInit config address psm).1.Kept := by
  unfold L2capConn.ecredInit
  split
  · exact kept
  have ready := kept.ready config address
  simp only
  split
  · exact ready
  rename_i added success
  have listed := ready.added (by simpa [chanRxInit, chanTxInit]) success
  have named : (added.set address fun chan => { chan with psm }).Kept :=
    listed.adjust (fun _ => rfl) (fun _ => rfl)
  exact named

end Kept

theorem ecredInit_others (conn : L2capConn) (config : L2capConfig)
    (address psm : Nat) {other : Nat} (different : other ≠ address) :
    (conn.ecredInit config address psm).1.chan other = conn.chan other := by
  have ready : ((conn.chanTxInit address).chanRxInit config address).chan
      other = conn.chan other := by
    unfold chanRxInit chanTxInit
    rw [set_chan_ne _ _ _ different, set_chan_ne _ _ _ different]
  unfold ecredInit
  split
  · rfl
  simp only
  split
  · exact ready
  rename_i added success
  rw [set_chan_ne _ _ _ different, (chanAdd_adds success).others other different]
  exact ready

theorem ecredInit_attached {conn ready : L2capConn} {address : Nat}
    (success : conn.ecredInit config address psm = (ready, true)) :
    (ready.chan address).attached = true := by
  unfold ecredInit at success
  split at success
  · exact nomatch success
  simp only at success
  split at success
  · exact nomatch success
  rename_i added adding
  cases success
  obtain ⟨_, chan, -⟩ := (chanAdd_adds adding).chan
  rw [set_chan_self, chan]
  rfl

theorem ecredInitAll_kept {chans added : List Nat} {conn ready : L2capConn}
    (kept : conn.Kept) (nodup : chans.Nodup)
    (fresh : ∀ address ∈ chans, (conn.chan address).attached = false)
    (success : ecredInitAll config psm added chans conn = (ready, true)) :
    ready.Kept ∧ (∀ address ∈ chans, (ready.chan address).attached = true) ∧
      ∀ other, other ∉ chans → ready.chan other = conn.chan other := by
  induction chans generalizing conn added with
  | nil =>
    cases success
    exact ⟨kept, by simp, fun _ _ => rfl⟩
  | cons address rest ih =>
    obtain ⟨notLater, restNodup⟩ := nodup_cons.mp nodup
    unfold ecredInitAll at success
    split at success
    · rename_i first done
      have firstKept := kept.ecredInit config (fresh address (by simp)) psm
      rw [done] at firstKept
      have firstOthers : ∀ other, other ≠ address →
          first.chan other = conn.chan other := by
        intro other different
        have same := conn.ecredInit_others config address psm different
        rwa [done] at same
      obtain ⟨readyKept, restAttached, others⟩ :=
        ih firstKept restNodup (by
          intro other member
          have different : other ≠ address := fun equal => notLater (equal ▸ member)
          rw [firstOthers other different]
          exact fresh other (mem_cons_of_mem _ member)) success
      refine ⟨readyKept, ?_, ?_⟩
      · intro other member
        rcases mem_cons.mp member with rfl | later
        · rw [others other notLater]
          exact ecredInit_attached done
        · exact restAttached other later
      · intro other absent
        rw [mem_cons, not_or] at absent
        rw [others other absent.2, firstOthers other absent.1]
    · exact nomatch success

def cids (conn : L2capConn) : List Nat :=
  conn.channels.map fun address => (conn.chan address).rx.cid

/-- The CID of a channel that holds `kept` when it is attached. -/
def givenCid (used : List Nat) (kept : Nat) : Option Nat :=
  if 0 < kept then some kept
  else
    (List.range' cidDynStart (cidDynEnd + 1 - cidDynStart)).find? fun cid =>
      cid ∉ used

def cidsLast : List Nat → List Nat → Bool
  | _, [] => true
  | used, kept :: rest =>
    match givenCid used kept with
    | none => false
    | some cid => cidsLast (used ++ [cid]) rest

theorem lookupRxCid_isNone (conn : L2capConn) (cid : Nat) :
    (conn.lookupRxCid cid).isNone = decide (cid ∉ conn.cids) := by
  unfold lookupRxCid cids
  rw [Bool.eq_iff_iff, decide_eq_true_iff, isNone_iff_eq_none,
    find?_eq_none, List.mem_map]
  simp only [decide_eq_true_eq, not_exists, not_and]

theorem chanAdd_givenCid (conn : L2capConn) (address : Nat) :
    (conn.chanAdd address).map (fun added => (added.chan address).rx.cid) =
      givenCid conn.cids (conn.chan address).rx.cid := by
  unfold chanAdd allocCid givenCid
  split
  · simp [chanLink, attachChan]
  simp only [lookupRxCid_isNone]
  split
  · rename_i cid search
    rw [search]
    simp [chanLink, attachChan]
  · rename_i search
    rw [search]
    rfl

theorem Adds.cids_eq {conn added : L2capConn} {address : Nat}
    (adds : conn.Adds address added) (fresh : address ∉ conn.channels) :
    added.cids = conn.cids ++ [(added.chan address).rx.cid] := by
  unfold cids
  rw [adds.channels, map_append, map_singleton]
  congr 1
  apply map_congr_left
  intro other member
  rw [adds.others other (fun equal => fresh (equal ▸ member))]

theorem ready_cids {conn : L2capConn} {address : Nat}
    (fresh : address ∉ conn.channels) :
    ((conn.chanTxInit address).chanRxInit config address).cids = conn.cids := by
  apply map_congr_left
  intro other member
  have different : other ≠ address := fun equal => fresh (equal ▸ member)
  unfold chanRxInit chanTxInit
  rw [set_chan_ne _ _ _ different, set_chan_ne _ _ _ different]

theorem ecredInit_given {conn : L2capConn} {config : L2capConfig}
    {address psm : Nat} (valid : ¬(psm < 0x0001 ∨ 0x00ff < psm))
    (fresh : address ∉ conn.channels) {cid : Nat}
    (given : givenCid conn.cids (conn.chan address).rx.cid = some cid) :
    ∃ ready, conn.ecredInit config address psm = (ready, true) ∧
      ready.cids = conn.cids ++ [cid] ∧
      ready.channels = conn.channels ++ [address] := by
  have sameCid : (((conn.chanTxInit address).chanRxInit config address).chan
      address).rx.cid = (conn.chan address).rx.cid := by
    simp [chanRxInit, chanTxInit, rxInit]
  have sameCids : ((conn.chanTxInit address).chanRxInit config
      address).cids = conn.cids := ready_cids fresh
  have search := chanAdd_givenCid
    ((conn.chanTxInit address).chanRxInit config address) address
  rw [sameCid, sameCids, given] at search
  obtain ⟨added, success, isCid⟩ := map_eq_some_iff.mp search
  have adds := chanAdd_adds success
  have addedCids := adds.cids_eq fresh
  rw [isCid, sameCids] at addedCids
  refine ⟨added.set address fun chan => { chan with psm }, ?_, ?_, ?_⟩
  · unfold ecredInit
    rw [if_neg valid]
    simp only [success]
  · rw [← addedCids]
    apply map_congr_left
    intro other _
    by_cases same : other = address
    · subst same
      rw [set_chan_self]
    · rw [set_chan_ne _ _ _ same]
  · exact adds.channels

theorem ecredInitAll_last {config : L2capConfig} {psm : Nat}
    (valid : ¬(psm < 0x0001 ∨ 0x00ff < psm)) {chans added : List Nat}
    {conn : L2capConn} (nodup : chans.Nodup)
    (fresh : ∀ address ∈ chans, address ∉ conn.channels)
    (last : cidsLast conn.cids
      (chans.map fun address => (conn.chan address).rx.cid) = true) :
    (ecredInitAll config psm added chans conn).2 = true := by
  induction chans generalizing conn added with
  | nil => rfl
  | cons address rest ih =>
    obtain ⟨notLater, restNodup⟩ := nodup_cons.mp nodup
    rw [map_cons] at last
    unfold cidsLast at last
    split at last
    · exact nomatch last
    rename_i cid given
    obtain ⟨ready, done, cidsEq, channelsEq⟩ :=
      @ecredInit_given conn config address psm valid
        (fresh address (by simp)) cid given
    have others : ∀ other ∈ rest, ready.chan other = conn.chan other := by
      intro other member
      have different : other ≠ address := fun equal => notLater (equal ▸ member)
      have same := conn.ecredInit_others config address psm different
      rwa [done] at same
    unfold ecredInitAll
    rw [done]
    apply ih restNodup
    · intro other member
      rw [channelsEq, mem_append, mem_singleton, not_or]
      exact ⟨fresh other (mem_cons_of_mem _ member),
        fun equal => notLater (equal ▸ member)⟩
    · rw [cidsEq]
      have same : (rest.map fun address => (ready.chan address).rx.cid) =
          rest.map fun address => (conn.chan address).rx.cid := by
        apply map_congr_left
        intro other member
        rw [others other member]
      rw [same]
      exact last

theorem leConnReqSend_channels (conn : L2capConn) (env : L2capEnv)
    (address : Nat) :
    (conn.leConnReqSend env address).1.channels = conn.channels := by
  unfold leConnReqSend
  simp only
  split
  · rw [chanSendReq_channels, noteRequest_channels, setIdent_channels,
      getIdent_channels]
  · rfl

theorem leConnReqSend_others (conn : L2capConn) (env : L2capEnv)
    (address : Nat) {other : Nat} (different : other ≠ address) :
    (conn.leConnReqSend env address).1.chan other = conn.chan other := by
  have drawn : (conn.getIdent.setIdent conn.nextIdent address).chan other =
      conn.chan other := by
    unfold setIdent
    rw [set_chan_ne _ _ _ different, getIdent_chan]
  unfold leConnReqSend
  simp only
  split
  · unfold chanSendReq noteRequest
    split
    · rw [set_chan_ne _ _ _ different, set_chan_ne _ _ _ different]
      exact drawn
    · exact drawn
  · exact drawn

theorem leConnReqSend_encryptPending (conn : L2capConn) (env : L2capEnv)
    (address : Nat) :
    ((conn.leConnReqSend env address).1.chan address).encryptPending =
      (conn.chan address).encryptPending := by
  unfold leConnReqSend chanSendReq noteRequest setIdent
  simp only
  split
  · split
    · simp
    · simp
  · simp

def Resumes (conn : L2capConn) (address : Nat) : Prop :=
  (conn.chan address).encryptPending = true → (conn.chan address).ident = 0

instance (conn : L2capConn) (address : Nat) :
    Decidable (conn.Resumes address) :=
  inferInstanceAs (Decidable (_ → _))

structure Visits (conn : L2capConn) (address : Nat) (visited : L2capConn) :
    Prop where
  kept : visited.Kept
  channels : visited.channels = conn.channels ∨
    visited.channels = conn.channels.erase address
  others : ∀ other, other ≠ address → visited.chan other = conn.chan other
  resumes : address ∈ visited.channels → visited.Resumes address

theorem visits_drop {conn changed : L2capConn} {address : Nat}
    (kept : changed.Kept) (channels : changed.channels = conn.channels)
    (others : ∀ other, other ≠ address → changed.chan other = conn.chan other) :
    conn.Visits address ((changed.chanRemove address).chanDel address) := by
  refine ⟨kept.drop address, .inr ?_, ?_, ?_⟩
  · rw [chanDel_channels, chanRemove_channels, channels]
  · intro other different
    unfold chanDel
    rw [set_chan_ne _ _ _ different]
    exact others other different
  · intro listed
    rw [chanDel_channels, chanRemove_channels, kept.nodup.mem_erase_iff] at listed
    exact absurd rfl listed.1

theorem encryptChange_visits {conn : L2capConn} (kept : conn.Kept)
    (env : L2capEnv) {failed : Bool} {address : Nat}
    (listed : address ∈ conn.channels)
    (fine : failed = true ∨ conn.Resumes address) :
    conn.Visits address (conn.encryptChange env failed address) := by
  have cleared : (conn.set address fun chan =>
      { chan with encryptPending := false }).Kept :=
    kept.adjust (fun _ => rfl) (fun _ => rfl)
  have clearedOthers : ∀ other, other ≠ address →
      (conn.set address fun chan => { chan with encryptPending := false }).chan
        other = conn.chan other :=
    fun other different => set_chan_ne _ _ _ different
  unfold encryptChange
  split
  · rename_i idle
    refine ⟨kept, .inl rfl, fun _ _ => rfl, ?_⟩
    intro _ pending
    rw [pending] at idle
    exact absurd idle (by decide)
  · rename_i pending
    simp only [Bool.not_eq_true, Bool.not_eq_false'] at pending
    split
    · exact visits_drop cleared rfl clearedOthers
    rename_i succeeded
    have reset := (fine.resolve_left succeeded) pending
    rw [if_neg (not_not.mpr reset)]
    have attached : ((conn.set address fun chan =>
        { chan with encryptPending := false }).chan address).attached = true := by
      rw [set_chan_self]
      exact (kept.listed address).mp listed
    have sent := cleared.leConnReqSend env attached
    have channels := leConnReqSend_channels (conn.set address fun chan =>
      { chan with encryptPending := false }) env address
    have others : ∀ other, other ≠ address → ((conn.set address fun chan =>
          { chan with encryptPending := false }).leConnReqSend env
            address).1.chan other = conn.chan other := by
      intro other different
      rw [leConnReqSend_others _ _ _ different]
      exact clearedOthers other different
    split
    · rename_i result request
      rw [request] at sent channels others
      refine ⟨sent, .inl channels, others, ?_⟩
      intro _ stillPending
      have same := leConnReqSend_encryptPending (conn.set address fun chan =>
        { chan with encryptPending := false }) env address
      rw [request, set_chan_self] at same
      exact absurd (same.symm.trans stillPending) Bool.false_ne_true
    · rename_i result request
      rw [request] at sent channels others
      exact visits_drop sent channels others

theorem nodeAfter_mem_erase {address next : Nat} {channels : List Nat}
    (after : nodeAfter address channels = some next) :
    next ∈ channels.erase address := by
  induction channels with
  | nil => exact nomatch after
  | cons head rest ih =>
    unfold nodeAfter at after
    split at after
    · rename_i same
      rw [same, erase_cons_head]
      exact mem_of_head? after
    · rename_i different
      rw [erase_cons_tail (by simpa using different)]
      exact mem_cons_of_mem _ (ih after)

theorem securityLoop_kept (env : L2capEnv) (failed : Bool) (fuel : Nat)
    {current : Option Nat} {conn : L2capConn} (kept : conn.Kept)
    (listed : ∀ address, current = some address → address ∈ conn.channels)
    (fine : failed = true ∨ ∀ address ∈ conn.channels, conn.Resumes address) :
    (securityLoop env failed fuel current conn).Kept := by
  induction fuel generalizing current conn with
  | zero => exact kept
  | succ fuel ih =>
    cases current with
    | none => exact kept
    | some address =>
      have here := listed address rfl
      have visits := encryptChange_visits kept env here
        (fine.imp_right fun all => all address here)
      have smaller : ∀ other ∈ (conn.encryptChange env failed
          address).channels, other ∈ conn.channels := by
        intro other member
        rcases visits.channels with same | erased
        · rwa [same] at member
        · rw [erased] at member
          exact mem_of_mem_erase member
      apply ih visits.kept
      · intro next after
        have inErased := nodeAfter_mem_erase after
        rcases visits.channels with same | erased
        · rw [same]
          exact mem_of_mem_erase inErased
        · rw [erased]
          exact inErased
      · apply fine.imp_right
        intro all other member
        by_cases same : other = address
        · subst same
          exact visits.resumes member
        unfold Resumes
        rw [visits.others other same]
        exact all other (smaller other member)

/-- A flag that deletion clears is set on channels that are not deleted only. -/
theorem deleteAll_flag {flag : LeChan → Bool} {address : Nat}
    (cleared : ∀ conn, flag ((chanDel conn address).chan address) = false)
    (conn : L2capConn) (addresses : List Nat) :
    flag ((addresses.foldl chanDel conn).chan address) = true →
      address ∉ addresses ∧ flag (conn.chan address) = true := by
  induction addresses generalizing conn with
  | nil => exact fun held => ⟨by simp, held⟩
  | cons head rest ih =>
    intro held
    obtain ⟨notLater, still⟩ := ih (conn.chanDel head) held
    by_cases same : address = head
    · subst same
      rw [cleared] at still
      cases still
    · unfold chanDel at still
      rw [set_chan_ne _ _ _ same] at still
      rw [mem_cons, not_or]
      exact ⟨⟨same, notLater⟩, still⟩

theorem linkUp_kept {conn : L2capConn} {fixed : List Nat} (nodup : fixed.Nodup)
    (released : ∀ address, (conn.chan address).attached = false)
    (idle : ∀ address, (conn.chan address).connecting = false) :
    (conn.linkUp fixed).Kept := by
  refine ⟨nodup, ?_, ?_⟩
  · intro address
    unfold linkUp
    simp only
    split
    · rename_i member
      exact iff_of_true member rfl
    rename_i absent
    rw [released address]
    exact iff_of_false absent Bool.false_ne_true
  · intro address
    unfold linkUp
    simp only
    split
    · exact fun _ => rfl
    · rw [idle address]
      exact nofun

theorem Kept.newLink {conn : L2capConn} (kept : conn.Kept)
    (accepts : Nat → Bool) : (conn.newLink accepts).Kept := by
  apply linkUp_kept
  · exact List.Nodup.filter _ (by decide)
  · intro address
    rw [Bool.eq_false_iff]
    intro held
    obtain ⟨absent, attached⟩ := @deleteAll_flag (·.attached) address
      (fun conn => by unfold chanDel; rw [set_chan_self]) conn conn.channels held
    exact absent ((kept.listed address).mpr attached)
  · intro address
    rw [Bool.eq_false_iff]
    intro held
    obtain ⟨absent, connecting⟩ := @deleteAll_flag (·.connecting) address
      (fun conn => by unfold chanDel; rw [set_chan_self]; rfl) conn conn.channels held
    exact absent ((kept.listed address).mpr (kept.connecting address connecting))

theorem start_kept (servers : List L2capServer) (accepts : Nat → Bool) :
    (start servers accepts).Kept := by
  apply linkUp_kept
  · exact List.Nodup.filter _ (by decide)
  · exact fun _ => rfl
  · exact fun _ => rfl

/-- What no channel being orphaned means: an attached channel is listed, and so
is a channel whose connection request is outstanding. -/
structure NoOrphan (conn : L2capConn) : Prop where
  attached : ∀ address, (conn.chan address).attached = true → address ∈ conn.channels
  outstanding : ∀ address, (conn.chan address).connecting = true →
    address ∈ conn.channels

theorem Kept.noOrphan {conn : L2capConn} (kept : conn.Kept) :
    conn.NoOrphan where
  attached address := (kept.listed address).mpr
  outstanding address held :=
    (kept.listed address).mpr (kept.connecting address held)

/-- The steps that take no attached channel off the list: an enhanced request
gets CIDs for all its channels or for none, a disconnection request finds a
buffer for its response, and no channel of an enhanced request waits for
encryption when encryption succeeds. -/
def Retains (conn : L2capConn) (env : L2capEnv) : L2capInput → Prop
  | .ecredConnect chans psm =>
    let kept := (chans.take ecredChanMax).map fun address =>
      (conn.chan address).rx.cid
    (psm < 0x0001 ∨ 0x00ff < psm) ∨ cidsLast conn.cids kept = true ∨
      kept.head?.any (fun first => givenCid conn.cids first = none)
  | .signal ident (.disconnReq dcid _) =>
    conn.findDyn dcid = none ∨ env.alloc ident = true
  | .securityChanged failed _ =>
    failed = true ∨ ∀ address ∈ conn.channels, conn.Resumes address
  | _ => True

theorem ecredInitAll_failsFirst {address : Nat} {rest : List Nat} {conn : L2capConn}
    (fails : (conn.ecredInit config address psm).2 = false) :
    ecredInitAll config psm [] (address :: rest) conn =
      ((conn.ecredInit config address psm).1, false) := by
  unfold ecredInitAll
  split
  · rename_i done
    rw [done] at fails
    exact nomatch fails
  · rename_i failed done
    rw [done]
    rfl

theorem ecredInit_refused {config : L2capConfig} {psm address : Nat}
    {conn : L2capConn} (fresh : address ∉ conn.channels)
    (refused : (psm < 0x0001 ∨ 0x00ff < psm) ∨
      givenCid conn.cids (conn.chan address).rx.cid = none) :
    (conn.ecredInit config address psm).2 = false := by
  unfold ecredInit
  split
  · rfl
  rename_i valid
  have sameCid : (((conn.chanTxInit address).chanRxInit config
      address).chan address).rx.cid = (conn.chan address).rx.cid := by
    simp [chanRxInit, chanTxInit, rxInit]
  have sameCids : ((conn.chanTxInit address).chanRxInit config
      address).cids = conn.cids := ready_cids fresh
  have search := chanAdd_givenCid
    ((conn.chanTxInit address).chanRxInit config address) address
  rw [sameCid, sameCids, refused.resolve_left valid] at search
  have none := map_eq_none_iff.mp search
  simp only [none]

theorem Kept.ecredChanConnect {conn : L2capConn} (kept : conn.Kept)
    (config : L2capConfig) (env : L2capEnv) {chans : List Nat} (nodup : chans.Nodup)
    (released : ∀ address ∈ chans, conn.Released address)
    (retains : conn.Retains env (.ecredConnect chans psm)) :
    (conn.ecredChanConnect config env chans psm).Kept := by
  have subset : ∀ address ∈ chans.take ecredChanMax, address ∈ chans :=
    fun address member => mem_of_mem_take member
  have shortNodup : (chans.take ecredChanMax).Nodup :=
    nodup.sublist (take_sublist _ _)
  have fresh : ∀ address ∈ chans.take ecredChanMax,
      (conn.chan address).attached = false :=
    fun address member => (released address (subset address member)).1
  have unlisted : ∀ address ∈ chans.take ecredChanMax, address ∉ conn.channels :=
    fun address member => (released address (subset address member)).2.1
  unfold L2capConn.ecredChanConnect
  split
  · rename_i ready success
    obtain ⟨readyKept, attached, -⟩ :=
      ecredInitAll_kept kept shortNodup fresh success
    exact readyKept.ecredConnReqSend env attached
  · rename_i failed failure
    cases short : chans.take ecredChanMax with
    | nil =>
      rw [short] at failure
      exact nomatch failure
    | cons first =>
      have member : first ∈ chans.take ecredChanMax := by
        rw [short]
        exact mem_cons_self
      have refused : (psm < 0x0001 ∨ 0x00ff < psm) ∨
          givenCid conn.cids (conn.chan first).rx.cid = none := by
        rcases retains with invalid | last | first
        · exact .inl invalid
        · by_cases invalid : psm < 0x0001 ∨ 0x00ff < psm
          · exact .inl invalid
          have done := @ecredInitAll_last config psm invalid _ []
            conn shortNodup unlisted last
          rw [failure] at done
          exact nomatch done
        · rw [short] at first
          refine .inr ?_
          simpa using first
      have fails := @ecredInit_refused config _ _ _ (unlisted first member) refused
      rw [short, ecredInitAll_failsFirst fails] at failure
      cases failure
      exact kept.ecredInit config (fresh first member) psm

theorem Kept.step {conn : L2capConn} (kept : conn.Kept) (config : L2capConfig)
    (env : L2capEnv) {input : L2capInput} (retains : conn.Retains env input) :
    (conn.step config env input).1.Kept := by
  unfold L2capConn.step
  cases input with
  | layOut address chan =>
    simp only
    split
    · rename_i released
      have laid : (conn.set address (releasedChan chan)).Kept := by
        apply kept.set
        · exact released.1.1.symm
        · exact nofun
      exact laid
    · exact kept
  | connect address psm =>
    simp only
    split
    · rename_i released
      exact kept.chanConnect config env released.1 psm
    · exact kept
  | ecredConnect chans psm =>
    simp only
    split
    · rename_i released
      exact kept.ecredChanConnect config env released.1 released.2 retains
    · exact kept
  | reconfigure chans mtu =>
    simp only
    split
    · exact closed.ecredChanReconfigure kept env chans mtu
    · exact kept
  | disconnect address =>
    simp only
    split
    · exact closed.chanDisconnect kept env address
    · exact kept
  | signal ident signal =>
    simp only
    unfold recvSignal
    split
    · exact kept
    cases signal with
    | leConnReq psm scid mtu mps credits =>
      exact kept.leConnReq config env ident psm scid mtu mps credits
    | leConnRsp dcid mtu mps credits result =>
      exact kept.leConnRsp env ident dcid mtu mps credits result
    | disconnReq dcid scid =>
      simp only
      unfold disconnReq
      split
      · exact kept
      rename_i address found
      split
      · exact kept.drop address
      rename_i noBuffer
      rcases retains with absent | buffer
      · rw [absent] at found
        exact nomatch found
      · exact absurd buffer noBuffer
    | disconnRsp dcid scid => exact closed.disconnRsp kept scid
    | leCredits cid credits =>
      have gives : ∀ {conn : L2capConn} (address credits : Nat),
          conn.Kept → (conn.set address (giveTxCredits credits)).Kept :=
        fun _ _ kept => kept.adjust (fun _ => rfl) (fun _ => rfl)
      exact closed.leCredits kept gives env cid credits
    | cmdReject => exact closed.rejectCmd kept ident
    | ecredConnReq psm mtu mps credits scids =>
      exact kept.ecredConnReq config env psm mtu mps credits scids
    | ecredConnRsp mtu mps credits result dcids =>
      exact kept.ecredConnRsp env ident mtu mps credits result dcids
    | ecredReconfReq mtu mps scids =>
      have sizes : ∀ {conn : L2capConn} (address mtu mps : Nat),
          conn.Kept → (conn.set address fun chan =>
            { chan with tx := { chan.tx with mtu, mps } }).Kept :=
        fun _ _ _ kept => kept.adjust (fun _ => rfl) (fun _ => rfl)
      exact closed.ecredReconfReq kept sizes env ident mtu mps scids
    | ecredReconfRsp result => exact closed.reconfDone ident result _ kept
  | expire address =>
    simp only
    split
    · exact closed.set address (mild_expired true) kept
    · exact kept
  | timeout address =>
    simp only
    split
    · exact closed.rtxTimeout (closed.set address (mild_expired false) kept) address
    · exact kept
  | securityChanged failed secLevel =>
    have raised : Kept { conn with secLevel } :=
      ⟨kept.nodup, kept.listed, kept.connecting⟩
    apply securityLoop_kept env failed _ raised
    · exact fun address head => mem_of_head? head
    · exact retains
  | newLink accepts => exact kept.newLink accepts

end L2capConn

/-- Along runs whose steps retain what they attach, no channel is orphaned. -/
theorem l2cap_no_orphan (config : L2capConfig) (servers : List L2capServer)
    (accepts : Nat → Bool) (inputs : List (L2capEnv × L2capInput))
    (retained : (l2capMachine config).Along
      (fun conn input => conn.Retains input.1 input.2)
      (.start servers accepts) inputs) :
    (l2capMachine config).Always L2capConn.NoOrphan
      (.start servers accepts) inputs := by
  apply Machine.Always.mono (fun _ kept => L2capConn.Kept.noOrphan kept)
  apply Machine.always_of_along _ (L2capConn.start_kept servers accepts) retained
  intro conn input kept retains
  unfold Machine.next l2capMachine
  simp only
  split
  · exact kept
  · exact kept.step config input.1 retains

def sampleEnv : L2capEnv where
  alloc _ := true
  send _ := true
  setSecurity _ := true
  ltkPresent := false
  accept _ := .ok 20

def sampleConfig : L2capConfig := ⟨251, 2⟩

theorem l2cap_no_orphan_refused :
    (l2capMachine sampleConfig).Always L2capConn.NoOrphan
      (.start [⟨0x80, 1⟩] fun _ => true)
      [(sampleEnv, .ecredConnect [10, 11] 0x80),
        (sampleEnv, .signal 1 (.ecredConnRsp 64 64 1 5 fun _ => 0)),
        (sampleEnv, .securityChanged true 1),
        (sampleEnv, .signal 7 (.leConnReq 0x80 0x40 64 64 1)),
        (sampleEnv, .signal 8 (.disconnReq 0x41 0x40))] := by
  apply l2cap_no_orphan
  refine ⟨.inr (.inl (by decide)), trivial, .inl rfl, trivial, .inr rfl, trivial⟩

/-- An enhanced request is refused for security.  Once security has been
raised its channel is taken off the list for the new request, and stays off. -/
theorem l2cap_retry_orphans :
    ¬ ∀ (config : L2capConfig) (servers : List L2capServer)
      (accepts : Nat → Bool) (inputs : List (L2capEnv × L2capInput)),
      (l2capMachine config).Always L2capConn.NoOrphan
        (.start servers accepts) inputs := by
  intro claimed
  have noOrphan := (claimed sampleConfig [] (fun _ => true)
    [(sampleEnv, .ecredConnect [10] 0x80),
      (sampleEnv, .signal 1 (.ecredConnRsp 64 64 1 5 fun _ => 0)),
      (sampleEnv, .securityChanged false 2)]).last
  have listed := noOrphan.attached 10 (by decide)
  exact absurd listed (by decide)

end ZephyrBluetooth.Host
