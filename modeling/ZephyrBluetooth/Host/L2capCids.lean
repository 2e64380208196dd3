import ZephyrBluetooth.Host.L2capAttach

namespace ZephyrBluetooth.Host

open Data List

variable {change : LeChan → LeChan} {config : L2capConfig}

/-! The channels of a connection hold different CIDs. -/

namespace L2capConn

open L2cap

def Open (conn : L2capConn) (address : Nat) : Prop :=
  (conn.chan address).state = .connected ∧ isDyn (conn.chan address).rx.cid = true

instance (conn : L2capConn) (address : Nat) : Decidable (conn.Open address) :=
  inferInstanceAs (Decidable (_ ∧ _))

structure Distinct (conn : L2capConn) : Prop where
  nodup : conn.channels.Nodup
  rx : ∀ left ∈ conn.channels, ∀ right ∈ conn.channels,
    (conn.chan left).rx.cid = (conn.chan right).rx.cid → left = right
  tx : ∀ left ∈ conn.channels, ∀ right ∈ conn.channels,
    conn.Open left → conn.Open right →
      (conn.chan left).tx.cid = (conn.chan right).tx.cid → left = right

structure Narrows (conn changed : L2capConn) : Prop where
  channels : changed.channels.Sublist conn.channels
  rx : ∀ address ∈ changed.channels,
    (changed.chan address).rx.cid = (conn.chan address).rx.cid
  tx : ∀ address ∈ changed.channels, (changed.chan address).state = .connected →
      (conn.chan address).state = .connected ∧
        (changed.chan address).tx.cid = (conn.chan address).tx.cid

theorem Distinct.narrow {conn changed : L2capConn} (distinct : conn.Distinct)
    (narrows : conn.Narrows changed) : changed.Distinct := by
  have member : ∀ address ∈ changed.channels, address ∈ conn.channels :=
    fun address listed => narrows.channels.subset listed
  have stillOpen : ∀ address ∈ changed.channels, changed.Open address →
      conn.Open address := by
    intro address listed isOpen
    refine ⟨(narrows.tx address listed isOpen.1).1, ?_⟩
    rw [← narrows.rx address listed]
    exact isOpen.2
  refine ⟨distinct.nodup.sublist narrows.channels, ?_, ?_⟩
  · intro left leftListed right rightListed same
    rw [narrows.rx left leftListed, narrows.rx right rightListed] at same
    exact distinct.rx left (member left leftListed) right
      (member right rightListed) same
  · intro left leftListed right rightListed leftOpen rightOpen same
    rw [(narrows.tx left leftListed leftOpen.1).2,
      (narrows.tx right rightListed rightOpen.1).2] at same
    exact distinct.tx left (member left leftListed) right
      (member right rightListed) (stillOpen left leftListed leftOpen)
      (stillOpen right rightListed rightOpen) same

def Quiet (change : LeChan → LeChan) : Prop :=
  ∀ chan, (change chan).rx.cid = chan.rx.cid ∧ ((change chan).state = .connected →
      chan.state = .connected ∧ (change chan).tx.cid = chan.tx.cid)

namespace Narrows

variable {conn changed : L2capConn}

theorem refl (conn : L2capConn) : conn.Narrows conn :=
  ⟨List.Sublist.refl _, fun _ _ => rfl, fun _ _ connected => ⟨connected, rfl⟩⟩

section

variable (first : conn.Narrows changed)
include first

theorem trans {later : L2capConn}
    (second : changed.Narrows later) : conn.Narrows later := by
  refine ⟨second.channels.trans first.channels, ?_, ?_⟩
  · intro address listed
    rw [second.rx address listed]
    exact first.rx address (second.channels.subset listed)
  · intro address listed connected
    obtain ⟨before, same⟩ := second.tx address listed connected
    obtain ⟨atFirst, sameFirst⟩ :=
      first.tx address (second.channels.subset listed) before
    exact ⟨atFirst, same.trans sameFirst⟩

theorem set {address : Nat} (quiet : Quiet change) :
    conn.Narrows (changed.set address change) := by
  apply first.trans
  refine ⟨List.Sublist.refl _, ?_, ?_⟩
  · intro other _
    by_cases same : other = address
    · subst same
      rw [set_chan_self]
      exact (quiet _).1
    · rw [set_chan_ne _ _ _ same]
  · intro other _ connected
    by_cases same : other = address
    · subst same
      rw [set_chan_self] at connected ⊢
      exact (quiet _).2 connected
    · rw [set_chan_ne _ _ _ same] at connected ⊢
      exact ⟨connected, rfl⟩

theorem setUnlisted {address : Nat} (unlisted : address ∉ changed.channels)
    (change : LeChan → LeChan) : conn.Narrows (changed.set address change) := by
  apply first.trans
  have same : ∀ other ∈ changed.channels,
      (changed.set address change).chan other = changed.chan other := by
    intro other listed
    exact set_chan_ne _ _ _ fun equal => unlisted (equal ▸ listed)
  refine ⟨List.Sublist.refl _, ?_, ?_⟩
  · intro other listed
    rw [same other listed]
  · intro other listed connected
    rw [same other listed] at connected ⊢
    exact ⟨connected, rfl⟩

theorem remove (address : Nat) : conn.Narrows (changed.chanRemove address) := by
  apply first.trans
  exact ⟨erase_sublist, fun _ _ => rfl, fun _ _ connected => ⟨connected, rfl⟩⟩

theorem del (address : Nat) : conn.Narrows (changed.chanDel address) := by
  apply first.set
  intro chan
  exact ⟨rfl, nofun⟩

end

end Narrows

theorem Mild.quiet (mild : Mild change) : Quiet change :=
  fun chan => ⟨mild.cid chan, fun connected =>
    ⟨mild.state chan connected, by rw [mild.tx]⟩⟩

theorem Distinct.set {conn : L2capConn} (distinct : conn.Distinct) {address : Nat}
    (quiet : Quiet change) : (conn.set address change).Distinct :=
  distinct.narrow ((Narrows.refl conn).set quiet)

theorem Distinct.closed : ClosedFully Distinct where
  cancel _ distinct := distinct.set (mild_rtx false).quiet
  drop address distinct :=
    distinct.narrow (((Narrows.refl _).remove address).del address)
  halt distinct := distinct.narrow ⟨List.Sublist.refl _, fun _ _ => rfl,
    fun _ _ connected => ⟨connected, rfl⟩⟩
  set _ mild distinct := distinct.set mild.quiet
  getIdent distinct := distinct.narrow ⟨List.Sublist.refl _, fun _ _ => rfl,
    fun _ _ connected => ⟨connected, rfl⟩⟩
  request _ _ distinct :=
    distinct.set fun _ => ⟨rfl, fun connected => ⟨connected, rfl⟩⟩
  remove address distinct := distinct.narrow ((Narrows.refl _).remove address)

def Unheld (conn : L2capConn) (address : Nat) : Prop :=
  (conn.chan address).rx.cid = 0 ∨ (conn.chan address).rx.cid ∉ conn.cids

instance (conn : L2capConn) (address : Nat) :
    Decidable (conn.Unheld address) :=
  inferInstanceAs (Decidable (_ ∨ _))

namespace Distinct

variable {conn : L2capConn} {address : Nat}

theorem added (distinct : conn.Distinct) (unlisted : address ∉ conn.channels)
    (unheld : conn.Unheld address) {added : L2capConn}
    (success : conn.chanAdd address = some added) : added.Distinct := by
  have adds := chanAdd_adds success
  obtain ⟨cid, chan, given⟩ := adds.chan
  have fresh : cid ∉ conn.cids := by
    rcases given with ⟨held, rfl⟩ | ⟨-, -, free⟩
    · exact unheld.resolve_left (Nat.ne_of_gt held)
    have isFree := conn.lookupRxCid_isNone cid
    rw [free] at isFree
    simpa using isFree
  have isCid : (added.chan address).rx.cid = cid := by
    rw [chan]
    rfl
  have closed : ¬added.Open address := by
    intro isOpen
    have dynamic := isOpen.2
    rw [isCid] at dynamic
    have connected := isOpen.1
    rw [chan] at connected
    unfold attachChan at connected
    simp only [dynamic, if_true] at connected
    exact nomatch connected
  have member : ∀ other ∈ added.channels,
      other = address ∨ (other ≠ address ∧ other ∈ conn.channels) := by
    intro other listed
    rw [adds.channels, mem_append, mem_singleton] at listed
    by_cases same : other = address
    · exact .inl same
    · exact .inr ⟨same, listed.resolve_right same⟩
  have cidHeld : ∀ other ∈ conn.channels, (conn.chan other).rx.cid ≠ cid := by
    intro other listed equal
    exact fresh (mem_map.mpr ⟨other, listed, equal⟩)
  refine ⟨?_, ?_, ?_⟩
  · rw [adds.channels, ← concat_eq_append]
    exact distinct.nodup.concat unlisted
  · intro left leftListed right rightListed same
    rcases member left leftListed with rfl | ⟨leftNe, leftOld⟩
    · rcases member right rightListed with rfl | ⟨rightNe, rightOld⟩
      · rfl
      · rw [isCid, adds.others right rightNe] at same
        exact absurd same.symm (cidHeld right rightOld)
    · rcases member right rightListed with rfl | ⟨rightNe, rightOld⟩
      · rw [isCid, adds.others left leftNe] at same
        exact absurd same (cidHeld left leftOld)
      · rw [adds.others left leftNe, adds.others right rightNe] at same
        exact distinct.rx left leftOld right rightOld same
  · intro left leftListed right rightListed leftOpen rightOpen same
    rcases member left leftListed with rfl | ⟨leftNe, leftOld⟩
    · exact absurd leftOpen closed
    rcases member right rightListed with rfl | ⟨rightNe, rightOld⟩
    · exact absurd rightOpen closed
    unfold Open at leftOpen rightOpen
    rw [adds.others left leftNe] at leftOpen same
    rw [adds.others right rightNe] at rightOpen same
    exact distinct.tx left leftOld right rightOld leftOpen rightOpen same

theorem enter (distinct : conn.Distinct)
    (rx : (change (conn.chan address)).rx.cid = (conn.chan address).rx.cid)
    (free : isDyn (conn.chan address).rx.cid = true →
      ∀ other ∈ conn.channels, other ≠ address → conn.Open other →
        (conn.chan other).tx.cid ≠ (change (conn.chan address)).tx.cid) :
    (conn.set address change).Distinct := by
  have sameRx : ∀ other, ((conn.set address change).chan other).rx.cid =
      (conn.chan other).rx.cid := by
    intro other
    by_cases same : other = address
    · subst same
      rw [set_chan_self]
      exact rx
    · rw [set_chan_ne _ _ _ same]
  have others : ∀ other, other ≠ address → (conn.set address change).Open
      other → conn.Open other := by
    intro other different isOpen
    unfold Open at isOpen
    rwa [set_chan_ne _ _ _ different] at isOpen
  refine ⟨distinct.nodup, ?_, ?_⟩
  · intro left leftListed right rightListed same
    rw [sameRx, sameRx] at same
    exact distinct.rx left leftListed right rightListed same
  · intro left leftListed right rightListed leftOpen rightOpen same
    by_cases leftSame : left = address
    · by_cases rightSame : right = address
      · rw [leftSame, rightSame]
      subst leftSame
      have dynamic := leftOpen.2
      rw [sameRx] at dynamic
      rw [set_chan_self, set_chan_ne _ _ _ rightSame] at same
      exact absurd same.symm (free dynamic right rightListed rightSame
        (others right rightSame rightOpen))
    · by_cases rightSame : right = address
      · subst rightSame
        have dynamic := rightOpen.2
        rw [sameRx] at dynamic
        rw [set_chan_self, set_chan_ne _ _ _ leftSame] at same
        exact absurd same (free dynamic left leftListed leftSame
          (others left leftSame leftOpen))
      · rw [set_chan_ne _ _ _ leftSame, set_chan_ne _ _ _ rightSame] at same
        exact distinct.tx left leftListed right rightListed
          (others left leftSame leftOpen) (others right rightSame rightOpen)
          same

end Distinct

theorem ready_narrows {conn : L2capConn} {config : L2capConfig} {address : Nat}
    (unlisted : address ∉ conn.channels) :
    conn.Narrows ((conn.chanTxInit address).chanRxInit config address) :=
  ((Narrows.refl conn).setUnlisted unlisted _).setUnlisted unlisted _

theorem ready_unheld {conn : L2capConn} {address : Nat}
    (unlisted : address ∉ conn.channels) (unheld : conn.Unheld address) :
    ((conn.chanTxInit address).chanRxInit config address).Unheld address := by
  have sameCid : (((conn.chanTxInit address).chanRxInit config
      address).chan address).rx.cid = (conn.chan address).rx.cid := by
    simp [chanRxInit, chanTxInit, rxInit]
  unfold Unheld
  rw [sameCid, ready_cids unlisted]
  exact unheld

theorem set_unheld {conn : L2capConn} {address : Nat}
    (same : ∀ chan, (change chan).rx.cid = chan.rx.cid)
    (unheld : conn.Unheld address) :
    (conn.set address change).Unheld address := by
  have sameCid : ∀ other, ((conn.set address change).chan other).rx.cid =
      (conn.chan other).rx.cid := by
    intro other
    by_cases equal : other = address
    · subst equal
      rw [set_chan_self]
      exact same _
    · rw [set_chan_ne _ _ _ equal]
  have sameCids : (conn.set address change).cids = conn.cids := by
    apply map_congr_left
    exact fun other _ => sameCid other
  unfold Unheld
  rw [sameCid, sameCids]
  exact unheld

theorem lookupTxCid_none {conn : L2capConn} {cid : Nat}
    (absent : conn.lookupTxCid cid = none) :
    ∀ other ∈ conn.channels, (conn.chan other).tx.cid ≠ cid := by
  intro other listed equal
  unfold lookupTxCid at absent
  rw [find?_eq_none] at absent
  exact absent other listed (by simpa using equal)

namespace Distinct

variable {conn : L2capConn}

theorem chanConnect (distinct : conn.Distinct) (config : L2capConfig)
    (env : L2capEnv) {address : Nat} (unlisted : address ∉ conn.channels)
    (unheld : conn.Unheld address) (psm : Nat) :
    (conn.chanConnect config env address psm).Distinct := by
  unfold L2capConn.chanConnect
  split
  · exact distinct
  have raised : (conn.set address fun chan =>
      { chan with
        requiredSecLevel := max chan.requiredSecLevel 1 }).Distinct :=
    distinct.narrow ((Narrows.refl conn).setUnlisted unlisted _)
  have raisedUnheld : (conn.set address fun chan =>
      { chan with requiredSecLevel := max chan.requiredSecLevel 1 }).Unheld
        address :=
    set_unheld (fun _ => rfl) unheld
  simp only
  split
  · exact raised
  have ready := raised.narrow (@ready_narrows _ config _ unlisted)
  split
  · exact ready
  rename_i added success
  have listed := ready.added unlisted (ready_unheld unlisted raisedUnheld) success
  have named : (added.set address fun chan => { chan with psm }).Distinct :=
    listed.set fun _ => ⟨rfl, fun connected => ⟨connected, rfl⟩⟩
  split
  · split
    · exact named.set (mild_encryptPending true).quiet
    · exact closed.drop address named
  · have sent := closed.leConnReqSend named env address
    split
    · rename_i result request
      rw [request] at sent
      exact sent
    · rename_i result request
      rw [request] at sent
      exact closed.drop address sent

theorem offered_unlisted {env : L2capEnv} {index address : Nat}
    (offer : conn.offered env index = .ok address) : address ∉ conn.channels := by
  unfold offered at offer
  split at offer
  · split at offer
    · exact nomatch offer
    rename_i released
    cases offer
    simp only [not_or] at released
    exact released.2.1
  · exact nomatch offer

theorem chanAccept (distinct : conn.Distinct) (config : L2capConfig)
    (env : L2capEnv) (server : L2capServer)
    {index : Nat} (scid mtu mps credits : Nat)
    (unheld : ∀ address, conn.offered env index = .ok address →
      conn.Unheld address) :
    (conn.chanAccept config env server index scid mtu mps credits).1.Distinct := by
  unfold L2capConn.chanAccept
  split
  · exact distinct
  split
  · exact distinct
  rename_i unused
  split
  · exact distinct
  rename_i address offer
  have unlisted := offered_unlisted offer
  split
  · exact distinct
  have leveled : (conn.set address fun chan =>
      { chan with requiredSecLevel := server.secLevel }).Distinct :=
    distinct.narrow ((Narrows.refl conn).setUnlisted unlisted _)
  simp only
  split
  · exact leveled
  rename_i added success
  have listed := leveled.added unlisted
    (set_unheld (fun _ => rfl) (unheld address offer)) success
  have adds := chanAdd_adds success
  have entered : (added.set address
      (acceptChan config server scid mtu mps credits)).Distinct := by
    apply listed.enter rfl
    intro _ other inAdded different _
    have inConn : other ∈ conn.channels := by
      rw [adds.channels, mem_append, mem_singleton] at inAdded
      exact inAdded.resolve_right different
    have absent : conn.lookupTxCid scid = none := by
      simpa using unused
    rw [adds.others other different, set_chan_ne _ _ _ different]
    exact lookupTxCid_none absent other inConn
  exact entered

theorem leConnRsp (distinct : conn.Distinct) (env : L2capEnv)
    (ident dcid mtu mps credits result : Nat)
    (separate : ∀ address, conn.lookupIdent ident = some address →
      result = success → isDyn (conn.chan address).rx.cid = true →
      ∀ other ∈ conn.channels, other ≠ address → conn.Open other →
        (conn.chan other).tx.cid ≠ dcid) :
    (conn.leConnRsp env ident dcid mtu mps credits result).1.Distinct := by
  unfold L2capConn.leConnRsp
  split
  · exact distinct
  rename_i address found
  have reset : ∀ taken : L2capConn, conn.Narrows taken →
      conn.Narrows (taken.set address fun chan =>
        { chan with rtx := false, ident := 0, request := none }) :=
    fun taken narrows => narrows.set fun _ =>
      ⟨rfl, fun connected => ⟨connected, rfl⟩⟩
  have kept := distinct.narrow (reset conn (.refl conn))
  by_cases succeeded : result = success
  · simp only [succeeded, true_or, if_true]
    apply kept.enter rfl
    intro dynamic other listed different isOpen
    rw [set_chan_self] at dynamic
    unfold Open at isOpen
    rw [set_chan_ne _ _ _ different] at isOpen ⊢
    exact separate address found succeeded dynamic other listed different isOpen
  · by_cases security : result = errAuthentication ∨ result = errEncryption
    · have secured := closed.changeSecurity kept env address result
      simp only [succeeded, security, false_or, if_true, if_false]
      split
      · rename_i pending change
        rw [change] at secured
        exact secured
      · rename_i refused change
        rw [change] at secured
        exact closed.drop address secured
    · simp only [succeeded, security, false_or, if_false]
      exact distinct.narrow
        ((reset _ ((Narrows.refl conn).remove address)).del address)

theorem ecredComplete (env : L2capEnv) (ident mtu mps credits : Nat)
    (dcids : Nat → Nat) (fuel index : Nat) {conn : L2capConn}
    (distinct : conn.Distinct) :
    (L2capConn.ecredComplete env ident mtu mps credits dcids fuel index
      conn).1.Distinct := by
  induction fuel generalizing conn index with
  | zero => exact distinct
  | succ fuel ih =>
    unfold L2capConn.ecredComplete
    split
    · exact distinct
    rename_i address _
    have canceled := closed.cancel address distinct
    simp only
    split
    · exact ih _ (closed.drop address canceled)
    split
    · exact ih _ (closed.chanDisconnect (closed.drop address canceled) env _)
    rename_i unused
    apply ih
    apply canceled.enter rfl
    intro _ other listed _ _
    exact lookupTxCid_none unused other listed

theorem linkUp (conn : L2capConn) {fixed : List Nat} (nodup : fixed.Nodup) :
    (conn.linkUp fixed).Distinct := by
  have fixedChans : ∀ address ∈ fixed,
      (conn.linkUp fixed).chan address = fixedChan address := by
    intro address member
    unfold L2capConn.linkUp
    simp only
    rw [if_pos member]
  refine ⟨nodup, ?_, ?_⟩
  · intro left leftListed right rightListed same
    rw [fixedChans left leftListed, fixedChans right rightListed] at same
    exact same
  · intro left leftListed right rightListed leftOpen
    unfold Open at leftOpen
    rw [fixedChans left leftListed] at leftOpen
    exact nomatch leftOpen.1

theorem newLink (conn : L2capConn) (accepts : Nat → Bool) :
    (conn.newLink accepts).Distinct := by
  exact linkUp _ (List.Nodup.filter _ (by decide))

theorem start (servers : List L2capServer) (accepts : Nat → Bool) :
    (L2capConn.start servers accepts).Distinct := by
  exact linkUp _ (List.Nodup.filter _ (by decide))

end Distinct

def keptFree : List Nat → List Nat → Bool
  | _, [] => true
  | used, kept :: rest =>
    (kept = 0 || kept ∉ used) && match givenCid used kept with
      | none => true
      | some cid => keptFree (used ++ [cid]) rest

theorem ecredInit_distinct {conn : L2capConn} (distinct : conn.Distinct)
    (config : L2capConfig) {address : Nat} (unlisted : address ∉ conn.channels)
    (unheld : conn.Unheld address) (psm : Nat) :
    (conn.ecredInit config address psm).1.Distinct := by
  unfold ecredInit
  split
  · exact distinct
  have ready := distinct.narrow (@ready_narrows _ config _ unlisted)
  simp only
  split
  · exact ready
  rename_i added success
  have listed := ready.added unlisted (ready_unheld unlisted unheld) success
  have named : (added.set address fun chan => { chan with psm }).Distinct :=
    listed.set fun _ => ⟨rfl, fun connected => ⟨connected, rfl⟩⟩
  exact named

theorem ecredInit_failed {conn failed : L2capConn} {address psm : Nat}
    (unlisted : address ∉ conn.channels)
    (failure : conn.ecredInit config address psm = (failed, false)) :
    conn.Narrows failed := by
  unfold ecredInit at failure
  split at failure
  · cases failure
    exact .refl _
  simp only at failure
  split at failure
  · cases failure
    exact ready_narrows unlisted
  · exact nomatch failure

theorem ecredInitAll_distinct {config : L2capConfig} {psm : Nat}
    {chans added : List Nat} {conn : L2capConn} (distinct : conn.Distinct)
    (nodup : chans.Nodup) (unlisted : ∀ address ∈ chans, address ∉ conn.channels)
    (free : (psm < 0x0001 ∨ 0x00ff < psm) ∨ keptFree conn.cids
      (chans.map fun address => (conn.chan address).rx.cid) = true) :
    (ecredInitAll config psm added chans conn).1.Distinct := by
  induction chans generalizing conn added with
  | nil => exact distinct
  | cons address rest ih =>
    obtain ⟨notLater, restNodup⟩ := nodup_cons.mp nodup
    have fresh := unlisted address (by simp)
    unfold ecredInitAll
    split
    · rename_i ready done
      have valid : ¬(psm < 0x0001 ∨ 0x00ff < psm) := by
        intro invalid
        have refused := @ecredInit_refused config psm address conn fresh
          (.inl invalid)
        rw [done] at refused
        exact nomatch refused
      have freeHere := free.resolve_left valid
      rw [map_cons] at freeHere
      unfold keptFree at freeHere
      rw [Bool.and_eq_true] at freeHere
      obtain ⟨unheld, freeLater⟩ := freeHere
      have unheldHere : conn.Unheld address := by
        unfold Unheld
        simpa using unheld
      have firstDistinct := ecredInit_distinct distinct config fresh unheldHere psm
      rw [done] at firstDistinct
      cases given : givenCid conn.cids (conn.chan address).rx.cid with
      | none =>
        have refused := @ecredInit_refused config psm address conn fresh (.inr given)
        rw [done] at refused
        exact nomatch refused
      | some cid =>
        rw [given] at freeLater
        obtain ⟨_, sameDone, cidsEq, channelsEq⟩ :=
          @ecredInit_given conn config address psm valid fresh cid given
        rw [done] at sameDone
        cases sameDone
        apply ih firstDistinct restNodup
        · intro other member
          rw [channelsEq, mem_append, mem_singleton, not_or]
          exact ⟨unlisted other (mem_cons_of_mem _ member),
            fun equal => notLater (equal ▸ member)⟩
        · refine .inr ?_
          rw [cidsEq]
          have sameKept :
              (rest.map fun address => (ready.chan address).rx.cid) =
                rest.map fun address => (conn.chan address).rx.cid := by
            apply map_congr_left
            intro other member
            have different : other ≠ address :=
              fun equal => notLater (equal ▸ member)
            have eq := conn.ecredInit_others config address psm different
            rw [done] at eq
            rw [eq]
          rw [sameKept]
          exact freeLater
    · rename_i failed failure
      exact foldl_holds (fun _ address _ distinct =>
        Distinct.closed.remove address distinct)
        (distinct.narrow (ecredInit_failed fresh failure))

/-- Every object the accept callback hands out for the request is unheld when
it is attached. -/
def AcceptsUnheld (config : L2capConfig) (env : L2capEnv)
    (server : L2capServer) (mtu mps credits : Nat) :
    Nat → List Nat → L2capConn → Prop
  | _, [], _ => True
  | index, scid :: rest, conn =>
    (∀ address, conn.offered env index = .ok address → conn.Unheld address) ∧
    AcceptsUnheld config env server mtu mps credits (index + 1) rest
      (conn.chanAccept config env server index scid mtu mps credits).1

theorem ecredAcceptAll_distinct {env : L2capEnv} {server : L2capServer}
    {mtu mps credits index : Nat} {scids : List Nat} {conn : L2capConn}
    (distinct : conn.Distinct)
    (unheld : AcceptsUnheld config env server mtu mps credits index scids conn) :
    (ecredAcceptAll config env server mtu mps credits index scids
      conn).1.Distinct := by
  induction scids generalizing index conn with
  | nil => exact distinct
  | cons scid rest ih =>
    exact ih
      (distinct.chanAccept config env server scid mtu mps credits unheld.1)
      unheld.2

/-- The steps that give out no CID twice: objects are attached with no CID or
an unheld one, and a successful LE connection response does not repeat the
remote CID of another open channel. -/
def Separates (config : L2capConfig) (conn : L2capConn) (env : L2capEnv) :
    L2capInput → Prop
  | .connect address _ => conn.Unheld address
  | .ecredConnect chans psm =>
    (psm < 0x0001 ∨ 0x00ff < psm) ∨
      keptFree conn.cids ((chans.take ecredChanMax).map fun address =>
        (conn.chan address).rx.cid) = true
  | .signal _ (.leConnReq _ _ _ _ _) =>
    ∀ address, conn.offered env 0 = .ok address → conn.Unheld address
  | .signal _ (.ecredConnReq psm mtu mps credits scids) =>
    ∀ server, conn.serverLookupPsm psm = some server →
      AcceptsUnheld config env server mtu mps credits 0 scids conn
  | .signal ident (.leConnRsp dcid _ _ _ result) =>
    ∀ address, conn.lookupIdent ident = some address →
      result = success → isDyn (conn.chan address).rx.cid = true →
      ∀ other ∈ conn.channels, other ≠ address → conn.Open other →
        (conn.chan other).tx.cid ≠ dcid
  | _ => True

theorem Distinct.signal {conn : L2capConn} (distinct : conn.Distinct)
    (env : L2capEnv) (ident : Nat) {signal : L2capSignal}
    (separates : conn.Separates config env (.signal ident signal)) :
    (conn.recvSignal config env ident signal).1.Distinct := by
  unfold recvSignal
  split
  · exact distinct
  cases signal with
  | leConnReq psm scid mtu mps credits =>
    exact leConnReq_holds distinct fun _ _ =>
      distinct.chanAccept config env _ scid mtu mps credits separates
  | leConnRsp dcid mtu mps credits result =>
    exact distinct.leConnRsp env ident dcid mtu mps credits result separates
  | disconnReq dcid => exact Distinct.closed.disconnReq distinct env ident dcid
  | disconnRsp dcid scid => exact Distinct.closed.disconnRsp distinct scid
  | leCredits cid credits =>
    have gives : ∀ {conn : L2capConn} (address credits : Nat),
        conn.Distinct → (conn.set address (giveTxCredits credits)).Distinct :=
      fun _ _ distinct => distinct.set fun _ =>
        ⟨rfl, fun connected => ⟨connected, rfl⟩⟩
    exact Distinct.closed.leCredits distinct gives env cid credits
  | cmdReject => exact Distinct.closed.rejectCmd distinct ident
  | ecredConnReq =>
    exact ecredConnReq_holds distinct fun _ server found =>
      ecredAcceptAll_distinct distinct (separates server found)
  | ecredConnRsp mtu mps credits result dcids =>
    simp only
    unfold ecredConnRsp
    split
    · exact Distinct.closed.ecredSecure env ident result _ distinct
    split
    · exact Distinct.ecredComplete env ident mtu mps credits dcids _ _ distinct
    · exact Distinct.closed.dropIdent ident _ distinct
  | ecredReconfReq mtu mps scids =>
    have sizes : ∀ {conn : L2capConn} (address mtu mps : Nat),
        conn.Distinct → (conn.set address fun chan =>
          { chan with tx := { chan.tx with mtu, mps } }).Distinct :=
      fun _ _ _ distinct => distinct.set fun _ =>
        ⟨rfl, fun connected => ⟨connected, rfl⟩⟩
    exact Distinct.closed.ecredReconfReq distinct sizes env ident mtu mps scids
  | ecredReconfRsp result =>
    exact Distinct.closed.reconfDone ident result _ distinct

theorem Distinct.step {conn : L2capConn} (distinct : conn.Distinct) (env : L2capEnv)
    {input : L2capInput} (separates : conn.Separates config env input) :
    (conn.step config env input).1.Distinct := by
  have closed := Distinct.closed
  unfold L2capConn.step
  cases input with
  | layOut address chan =>
    simp only
    split
    · rename_i released
      have laid := (Narrows.refl conn).setUnlisted released.1.2.1
        (releasedChan chan)
      exact distinct.narrow laid
    · exact distinct
  | connect address psm =>
    simp only
    split
    · rename_i released
      exact distinct.chanConnect config env released.2.1 separates psm
    · exact distinct
  | ecredConnect chans psm =>
    simp only
    split
    · rename_i released
      have ready := @ecredInitAll_distinct config psm
        (chans.take ecredChanMax) [] conn distinct
        (released.1.sublist (take_sublist _ _))
        (fun address member =>
          (released.2 address (mem_of_mem_take member)).2.1) separates
      unfold ecredChanConnect
      split
      · rename_i result success
        rw [success] at ready
        exact closed.ecredConnReqSend ready env _
      · rename_i result failure
        rw [failure] at ready
        exact ready
    · exact distinct
  | reconfigure chans mtu =>
    simp only
    split
    · exact closed.ecredChanReconfigure distinct env chans mtu
    · exact distinct
  | disconnect address =>
    simp only
    split
    · exact closed.chanDisconnect distinct env address
    · exact distinct
  | signal ident signal => exact distinct.signal env ident separates
  | expire address =>
    simp only
    split
    · exact closed.set address (mild_expired true) distinct
    · exact distinct
  | timeout address =>
    simp only
    split
    · exact closed.rtxTimeout (closed.set address (mild_expired false) distinct) address
    · exact distinct
  | securityChanged =>
    apply closed.securityLoop
    exact distinct.narrow ⟨List.Sublist.refl _, fun _ _ => rfl,
      fun _ _ connected => ⟨connected, rfl⟩⟩
  | newLink accepts => exact Distinct.newLink conn accepts

structure CidsUnique (conn : L2capConn) : Prop where
  rx : conn.channels.Pairwise fun left right =>
    (conn.chan left).rx.cid ≠ (conn.chan right).rx.cid
  tx : conn.channels.Pairwise fun left right =>
    conn.Open left → conn.Open right →
      (conn.chan left).tx.cid ≠ (conn.chan right).tx.cid

theorem Distinct.cidsUnique {conn : L2capConn} (distinct : conn.Distinct) :
    conn.CidsUnique where
  rx := distinct.nodup.pairwise_of_forall_ne fun left leftListed right
    rightListed different same =>
      different (distinct.rx left leftListed right rightListed same)
  tx := distinct.nodup.pairwise_of_forall_ne fun left leftListed right
    rightListed different leftOpen rightOpen same =>
      different (distinct.tx left leftListed right rightListed leftOpen
        rightOpen same)

end L2capConn

/-- Along runs that attach unheld objects and do not repeat remote CIDs, the
CIDs of a connection are unique. -/
theorem l2cap_cids_unique (config : L2capConfig) (servers : List L2capServer)
    (accepts : Nat → Bool) (inputs : List (L2capEnv × L2capInput))
    (separate : (l2capMachine config).Along
      (fun conn input => conn.Separates config input.1 input.2)
      (.start servers accepts) inputs) :
    (l2capMachine config).Always L2capConn.CidsUnique
      (.start servers accepts) inputs := by
  apply Machine.Always.mono (fun _ distinct =>
    L2capConn.Distinct.cidsUnique distinct)
  apply Machine.always_of_along _ (L2capConn.Distinct.start servers accepts) separate
  intro conn input distinct separates
  unfold Machine.next l2capMachine
  simp only
  split
  · exact distinct
  · exact distinct.step input.1 separates

theorem l2cap_cids_unique_reused :
    (l2capMachine sampleConfig).Always L2capConn.CidsUnique
      (.start [⟨0x80, 1⟩] fun _ => true) [(sampleEnv, .connect 10 0x80),
        (sampleEnv, .signal 1 (.leConnRsp 0x40 64 64 1 0)),
        (sampleEnv, .signal 9 (.disconnReq 0x40 0x40)),
        (sampleEnv, .connect 11 0x80),
        (sampleEnv, .layOut 10 L2capConn.blankChan),
        (sampleEnv, .connect 10 0x80),
        (sampleEnv, .signal 2 (.leConnRsp 0x41 64 64 1 0)),
        (sampleEnv, .signal 3 (.leConnRsp 0x42 64 64 1 0)),
        (sampleEnv, .signal 7 (.leConnReq 0x80 0x43 64 64 1))] := by
  apply l2cap_cids_unique
  refine ⟨.inl rfl, ?_, trivial, .inl rfl, trivial, .inl rfl, ?_, ?_, ?_, trivial⟩
  · intro address found
    cases found
    decide
  · intro address found
    cases found
    decide
  · intro address found
    cases found
    decide
  · intro address found
    cases found
    decide

/-- The object of a disconnected channel keeps its CID.  When it is used again
after another channel got that CID, two listed channels have it. -/
theorem l2cap_cid_reused : ¬ ∀ (config : L2capConfig) (servers : List L2capServer)
      (accepts : Nat → Bool) (inputs : List (L2capEnv × L2capInput)),
      (l2capMachine config).Always L2capConn.CidsUnique
        (.start servers accepts) inputs := by
  intro claimed
  have unique := (claimed sampleConfig [] (fun _ => true)
    [(sampleEnv, .connect 10 0x80),
      (sampleEnv, .signal 1 (.leConnRsp 0x40 64 64 1 0)),
      (sampleEnv, .signal 9 (.disconnReq 0x40 0x40)),
      (sampleEnv, .connect 11 0x80),
      (sampleEnv, .connect 10 0x80)]).last
  exact absurd unique.rx (by decide)

end ZephyrBluetooth.Host
