import ZephyrBluetooth.Host.L2capListed

namespace ZephyrBluetooth.Host

open Data List

variable {address count : Nat} {conn : L2capConn}

namespace L2capConn

open L2cap

theorem answered_chan (conn : L2capConn) (ident other : Nat) :
    (conn.answered ident).chan other = conn.chan other ∨
      ((conn.chan other).ident = ident ∧ (conn.answered ident).chan other =
          forgetRequest (conn.chan other)) := by
  unfold answered
  generalize conn.channels = addresses
  induction addresses generalizing conn with
  | nil => exact .inl rfl
  | cons address rest ih =>
    rw [foldl_cons]
    split
    · rename_i carries
      by_cases same : other = address
      · subst same
        rcases ih (conn.set other forgetRequest) with kept | again
        · rw [kept, set_chan_self]
          exact .inr ⟨carries, rfl⟩
        · rw [again.2, set_chan_self]
          exact .inr ⟨carries, rfl⟩
      · rcases ih (conn.set address forgetRequest) with kept | again
        · rw [kept, set_chan_ne _ _ _ same]
          exact .inl rfl
        · rw [set_chan_ne _ _ _ same] at again
          exact .inr again
    · exact ih conn

theorem answered_rest (conn : L2capConn) (ident : Nat) :
    (conn.answered ident).channels = conn.channels ∧
      (conn.answered ident).halted = conn.halted := by
  have kept : ∀ (addresses : List Nat) (later : L2capConn),
      (addresses.foldl (fun conn address =>
        if (conn.chan address).ident = ident then conn.set address forgetRequest
        else conn) later).channels = later.channels ∧
      (addresses.foldl (fun conn address =>
        if (conn.chan address).ident = ident then conn.set address forgetRequest
        else conn) later).halted = later.halted := by
    intro addresses
    induction addresses with
    | nil => exact fun later => ⟨rfl, rfl⟩
    | cons address rest ih =>
      intro later
      rw [foldl_cons]
      split
      · exact ih (later.set address forgetRequest)
      · exact ih later
  exact kept conn.channels conn

theorem answered_kept (conn : L2capConn) (ident other : Nat) :
    ((conn.answered ident).chan other).rtx = (conn.chan other).rtx ∧
      ((conn.answered ident).chan other).ident = (conn.chan other).ident := by
  rcases conn.answered_chan ident other with kept | ⟨-, forgets⟩
  · rw [kept]
    exact ⟨rfl, rfl⟩
  · rw [forgets]
    exact ⟨rfl, rfl⟩

variable {ident : Nat}

theorem lookupIdent_first
    (alone : conn.Alone ident) (found : conn.lookupIdent ident = some address) :
    ∀ other, other ≠ address → (conn.chan other).rtx = true →
      (conn.chan other).ident ≠ ident := by
  intro other different running carries
  have first := alone other running carries
  rw [found, Option.some_inj] at first
  exact different first.symm

namespace Timed

variable {conn : L2capConn}

theorem rejectCmd (timed : conn.Timed) (nonzero : ident ≠ 0)
    (alone : conn.Alone ident) : (conn.rejectCmd ident).Timed := by
  unfold L2capConn.rejectCmd
  split
  · exact timed
  rename_i address found
  have carried := (lookupIdent_some found).2
  have dynamic : address ∉ fixedCids := timed.dynamic (carried ▸ nonzero)
  have rest := conn.answered_rest ident
  apply timed.answer (lookupIdent_first alone found)
  · intro other different
    unfold chanDel
    rw [set_chan_ne _ _ _ different, chanRemove_chan]
    exact conn.answered_chan ident other
  · rw [chanDel_channels, chanRemove_channels, rest.1]
    exact timed.nodup.erase address
  · intro other listed
    rw [chanDel_channels, chanRemove_channels, rest.1] at listed
    exact mem_of_mem_erase listed
  · exact rest.2
  · unfold chanDel
    rw [set_chan_self]
    simp [dynamic]
  · unfold chanDel
    rw [set_chan_self, chanRemove_chan]
    exact (conn.answered_kept ident address).2.trans carried
  · exact nonzero
  · exact dynamic

theorem changeSecurity (timed : conn.Timed) (env : L2capEnv) (err : Nat)
    (dynamic : address ∉ fixedCids) :
    (conn.changeSecurity env address err).1.Timed := by
  unfold L2capConn.changeSecurity
  split
  · have raised : (conn.set address fun chan =>
        { chan with encryptPending := true }).Timed :=
      timed.tweak (fun _ running => running) (fun _ => rfl) (fun _ => rfl)
        fun _ _ => .inr dynamic
    exact raised
  · exact timed

theorem changeSecurity_refused {conn refused : L2capConn} {env : L2capEnv}
    {err : Nat} (fails : conn.changeSecurity env address err = (refused, false)) :
    refused = conn := by
  unfold L2capConn.changeSecurity at fails
  split at fails
  · exact nomatch fails
  · cases fails
    rfl

theorem changeSecurity_pending {conn pending : L2capConn} {env : L2capEnv}
    {err : Nat} (succeeds : conn.changeSecurity env address err = (pending, true)) :
    pending = conn.set address fun chan =>
      { chan with encryptPending := true } := by
  unfold L2capConn.changeSecurity at succeeds
  split at succeeds
  · cases succeeds
    rfl
  · exact nomatch succeeds

theorem ecredSecure (env : L2capEnv) (result fuel : Nat) (nonzero : ident ≠ 0)
    (timed : conn.Timed) (alone : conn.Alone ident) :
    (L2capConn.ecredSecure env ident result fuel conn).Timed := by
  induction fuel generalizing conn with
  | zero => exact timed
  | succ fuel ih =>
    unfold L2capConn.ecredSecure
    split
    · exact timed
    rename_i address found
    have carried := (lookupIdent_some found).2
    have dynamic : address ∉ fixedCids := timed.dynamic (carried ▸ nonzero)
    have first := lookupIdent_first alone found
    simp only
    split
    · rename_i pending secured
      have raised := changeSecurity_pending secured
      rw [set_set] at raised
      have rest := pending.answered_rest ident
      have others : ∀ other, other ≠ address →
          pending.chan other = conn.chan other := by
        intro other different
        rw [raised, set_chan_ne _ _ _ different]
      have selfKept := pending.answered_kept ident address
      apply timed.answer first
      · intro other different
        have answers := pending.answered_chan ident other
        rw [others other different] at answers
        exact answers
      · rw [rest.1, raised]
        exact timed.nodup
      · intro other listed
        rw [rest.1, raised] at listed
        exact listed
      · rw [rest.2, raised]
        rfl
      · rw [selfKept.1, raised, set_chan_self]
        rfl
      · rw [selfKept.2, raised, set_chan_self]
        exact carried
      · exact nonzero
      · exact dynamic
    · rename_i refused unsecured
      rw [changeSecurity_refused unsecured]
      have dropped := (timed.cancel address).drop address
      apply ih dropped
      intro other running carries
      by_cases same : other = address
      · subst same
        unfold chanDel at running
        rw [set_chan_self] at running
        simp [dynamic] at running
      · unfold chanDel at running carries
        rw [set_chan_ne _ _ _ same, chanRemove_chan,
          set_chan_ne _ _ _ same] at running carries
        exact absurd carries (first other same running)

theorem leConnRsp (timed : conn.Timed) (env : L2capEnv)
    (dcid mtu mps credits result : Nat) (nonzero : ident ≠ 0) :
    (conn.leConnRsp env ident dcid mtu mps credits result).1.Timed := by
  unfold L2capConn.leConnRsp
  split
  · exact timed
  rename_i address found
  have carried := (lookupIdent_some found).2
  have dynamic : address ∉ fixedCids := timed.dynamic (carried ▸ nonzero)
  simp only
  generalize takes : (if result = success ∨ result = errAuthentication ∨
    result = errEncryption then conn else conn.chanRemove address) = taken
  have takenTimed : taken.Timed := by
    rw [← takes]
    split
    · exact timed
    · exact timed.remove address
  have resetTimed : (taken.set address fun chan =>
      { chan with rtx := false, ident := 0, request := none }).Timed :=
    takenTimed.settle rfl (fun _ => rfl) (fun _ => rfl)
  split
  · have connected : ((taken.set address fun chan =>
        { chan with rtx := false, ident := 0, request := none }).set address
          (establish dcid mtu mps credits)).Timed := by
      apply resetTimed.settle
      · rw [set_chan_self]
        rfl
      · exact fun _ => rfl
      · exact fun _ => rfl
    exact connected
  · split
    · have secured := resetTimed.changeSecurity env result dynamic
      split
      · rename_i pending asked
        rw [asked] at secured
        exact secured
      · rename_i refused asked
        rw [asked] at secured
        exact secured.drop address
    · rename_i notSuccess notSecurity
      have removed : taken = conn.chanRemove address := by
        rw [← takes, if_neg]
        rw [not_or]
        exact ⟨notSuccess, notSecurity⟩
      have deleted : ((taken.set address fun chan =>
          { chan with
            rtx := false
            ident := 0
            request := none }).chanDel address).Timed := by
        apply resetTimed.unlisted
        · rw [removed, set_channels, chanRemove_channels, timed.nodup.mem_erase_iff]
          exact fun listed => listed.1 rfl
        · rw [set_chan_self]
          rfl
        · exact fun fixed => absurd fixed dynamic
      exact deleted

theorem leCredits (timed : conn.Timed) (env : L2capEnv) {cid credits : Nat}
    (free : ∀ address, conn.lookupTxCid cid = some address →
      0xffff < (conn.chan address).tx.credits + credits →
        address ∉ fixedCids ∧ conn.Fresh [address]) :
    (conn.leCredits env cid credits).Timed := by
  unfold L2capConn.leCredits
  split
  · exact timed
  rename_i address found
  split
  · rename_i overflows
    obtain ⟨dynamic, fresh⟩ := free address found overflows
    exact timed.chanDisconnect env fresh dynamic
  · exact timed.tweak (fun _ running => running) (fun _ => rfl)
      (fun _ => rfl) fun _ pending => .inl pending

end Timed

/-- What a run of the loop of `le_ecred_conn_rsp` needs: the channels of the
identifier wait for their connection, enough identifiers are left for the
disconnections, and no destination CID is that of a fixed channel. -/
structure Completes (conn : L2capConn) (ident : Nat) (dcids : Nat → Nat)
    (index fuel : Nat) : Prop where
  waiting : ∀ address ∈ conn.channels, (conn.chan address).ident = ident →
    (conn.chan address).state = .connect ∧ (conn.chan address).connecting = true
  fresh : conn.FreshFor conn.channels.length
  apart : ∀ address ∈ conn.channels, address ∈ fixedCids →
    ∀ later, index ≤ later → later < index + fuel →
      (conn.chan address).tx.cid ≠ dcids later

namespace Completes

variable {conn : L2capConn} {ident index fuel : Nat} {dcids : Nat → Nat}

theorem next (completes : conn.Completes ident dcids index (fuel + 1))
    {changed : L2capConn} (fresh : changed.FreshFor changed.channels.length)
    (channels : ∀ other ∈ changed.channels, other ∈ conn.channels)
    (carriers : ∀ other ∈ changed.channels,
      (changed.chan other).ident = ident → changed.chan other = conn.chan other)
    (fixed : ∀ other ∈ changed.channels, other ∈ fixedCids →
      changed.chan other = conn.chan other) :
    changed.Completes ident dcids (index + 1) fuel := by
  refine ⟨?_, fresh, ?_⟩
  · intro other listed carries
    have same := carriers other listed carries
    rw [same] at carries ⊢
    exact completes.waiting other (channels other listed) carries
  · intro other listed isFixed later fromHere below
    rw [fixed other listed isFixed]
    exact completes.apart other (channels other listed) isFixed later
      (by omega) (by omega)

end Completes

def refuse (conn : L2capConn) (address : Nat) : L2capConn :=
  ((conn.set address cancelRtx).chanRemove address).chanDel address

theorem refuse_ne (conn : L2capConn) {other : Nat} (different : other ≠ address) :
    (conn.refuse address).chan other = conn.chan other := by
  unfold refuse chanDel
  rw [set_chan_ne _ _ _ different, chanRemove_chan, set_chan_ne _ _ _ different]

theorem refuse_channels (conn : L2capConn) (address : Nat) :
    (conn.refuse address).channels = conn.channels.erase address := rfl

theorem Timed.refuse (timed : conn.Timed) (address : Nat) :
    (conn.refuse address).Timed :=
  (timed.cancel address).drop address

theorem FreshFor.cancel (fresh : conn.FreshFor count)
    (address : Nat) : (conn.set address cancelRtx).FreshFor count := by
  refine FreshFor.mono fresh (Nat.le_refl count) rfl ?_
  intro other carries
  refine .inr ?_
  by_cases same : other = address
  · subst same
    rw [set_chan_self] at carries ⊢
    exact ⟨.inl (carries.resolve_right nofun), rfl⟩
  · rw [set_chan_ne _ _ _ same] at carries ⊢
    exact ⟨carries, rfl⟩

namespace Completes

variable {conn : L2capConn} {ident index fuel : Nat} {dcids : Nat → Nat}

section

variable (completes : conn.Completes ident dcids index (fuel + 1))
  (timed : conn.Timed)
include completes timed

theorem refuse (address : Nat) :
    (conn.refuse address).Completes ident dcids (index + 1) fuel := by
  have left : ∀ other ∈ (conn.refuse address).channels,
      other ≠ address ∧ other ∈ conn.channels := by
    intro other listed
    rw [refuse_channels, timed.nodup.mem_erase_iff] at listed
    exact listed
  apply completes.next
  · apply (completes.fresh.cancel address).drop
    rw [refuse_channels]
    exact length_erase_le
  · exact fun other listed => (left other listed).2
  · exact fun other listed _ => conn.refuse_ne (left other listed).1
  · exact fun other listed _ => conn.refuse_ne (left other listed).1

theorem disconnect (env : L2capEnv) {other : Nat}
    (found : conn.lookupIdent ident = some address)
    (holder : (conn.set address cancelRtx).lookupTxCid (dcids index) = some other) :
    ((conn.refuse address).chanDisconnect env other).Completes ident dcids
        (index + 1) fuel ∧
      ((conn.refuse address).chanDisconnect env other).Timed := by
  obtain ⟨listed, carried⟩ := lookupIdent_some found
  by_cases attached : ((conn.refuse address).chan other).attached = true
  · have different : other ≠ address := by
      intro same
      rw [same] at attached
      unfold L2capConn.refuse chanDel at attached
      rw [set_chan_self] at attached
      exact nomatch attached
    have draws := chanDisconnect_draws env attached
    have holds : (conn.chan other).tx.cid = dcids index := by
      have equal := find?_some holder
      rw [set_chan_ne _ _ _ different] at equal
      exact of_decide_eq_true equal
    have otherListed : other ∈ conn.channels := by
      exact mem_of_find?_eq_some holder
    have dynamic : other ∉ fixedCids := by
      intro fixed
      exact completes.apart other otherListed fixed index (Nat.le_refl index)
        (by omega) holds
    obtain ⟨count, length⟩ : ∃ count, conn.channels.length = count + 1 :=
      Nat.exists_eq_succ_of_ne_zero (Nat.ne_of_gt (length_pos_of_mem listed))
    have fresh := completes.fresh
    rw [length] at fresh
    have refusedFresh : (conn.refuse address).FreshFor (count + 1) :=
      (fresh.cancel address).drop (Nat.le_refl _) address
    have shorter : (conn.channels.erase address).length = count := by
      rw [length_erase_of_mem listed, length]
      rfl
    refine ⟨?_, draws.timed (timed.refuse address)
      (refusedFresh.fresh [other]) dynamic⟩
    have left : ∀ later ∈ (conn.refuse address).channels,
        later ≠ address ∧ later ∈ conn.channels := by
      intro later inRest
      rw [refuse_channels, timed.nodup.mem_erase_iff] at inRest
      exact inRest
    have notDrawn : ident ≠ (conn.refuse address).nextIdent := by
      have unused := fresh.unused address (.inl listed) 0 (Nat.succ_pos count)
      rw [carried, drawn_zero] at unused
      exact unused
    apply completes.next
    · rw [draws.channels, refuse_channels, shorter]
      exact draws.freshFor refusedFresh
    · intro later inRest
      rw [draws.channels] at inRest
      exact (left later inRest).2
    · intro later inRest carries
      rw [draws.channels] at inRest
      have notOther : later ≠ other := by
        intro same
        rw [same, draws.ident] at carries
        exact notDrawn carries.symm
      rw [draws.others later notOther]
      exact conn.refuse_ne (left later inRest).1
    · intro later inRest fixed
      rw [draws.channels] at inRest
      have notOther : later ≠ other := fun same => dynamic (same ▸ fixed)
      rw [draws.others later notOther]
      exact conn.refuse_ne (left later inRest).1
  · unfold chanDisconnect
    rw [if_neg attached]
    exact ⟨completes.refuse timed address, timed.refuse address⟩

theorem establish (nonzero : ident ≠ 0) (dcid mtu mps credits : Nat)
    (found : conn.lookupIdent ident = some address) :
    ((conn.set address cancelRtx).set address
        (L2capConn.establish dcid mtu mps credits)).Completes ident dcids
        (index + 1) fuel ∧ ((conn.set address cancelRtx).set address
        (L2capConn.establish dcid mtu mps credits)).Timed := by
  obtain ⟨_, carried⟩ := lookupIdent_some found
  have dynamic : address ∉ fixedCids := timed.dynamic (carried ▸ nonzero)
  have others : ∀ other, other ≠ address → ((conn.set address cancelRtx).set address
        (L2capConn.establish dcid mtu mps credits)).chan other =
          conn.chan other := by
    intro other different
    rw [set_chan_ne _ _ _ different, set_chan_ne _ _ _ different]
  refine ⟨?_, ?_⟩
  · apply completes.next
    · refine FreshFor.mono completes.fresh (Nat.le_refl _) ?_ ?_
      · rfl
      intro other carries
      by_cases same : other = address
      · subst same
        rw [set_chan_self]
        exact .inl rfl
      · rw [others other same] at carries ⊢
        exact .inr ⟨carries, rfl⟩
    · exact fun other inList => inList
    · intro other inList carries
      apply others other
      intro same
      rw [same, set_chan_self] at carries
      exact nonzero carries.symm
    · intro other inList fixed
      exact others other fun same => dynamic (same ▸ fixed)
  · apply (timed.cancel address).settle
    · rw [set_chan_self]
      rfl
    · exact fun _ => rfl
    · exact fun _ => rfl

end

theorem loop (env : L2capEnv) (mtu mps credits fuel : Nat)
    (nonzero : ident ≠ 0) {index : Nat}
    (timed : conn.Timed) (completes : conn.Completes ident dcids index fuel) :
    (ecredComplete env ident mtu mps credits dcids fuel index conn).1.Timed ∧
      Asked (ecredComplete env ident mtu mps credits dcids fuel index conn).2 := by
  have silent : Asked [] := nofun
  induction fuel generalizing index conn with
  | zero => exact ⟨timed, silent⟩
  | succ fuel ih =>
    unfold ecredComplete
    split
    · exact ⟨timed, silent⟩
    rename_i address found
    obtain ⟨listed, carried⟩ := lookupIdent_some found
    simp only
    split
    · exact ih (timed.refuse address) (completes.refuse timed address)
    split
    · rename_i other holder
      obtain ⟨next, nextTimed⟩ := completes.disconnect timed env found holder
      exact ih nextTimed next
    · obtain ⟨next, nextTimed⟩ := completes.establish timed nonzero
        (dcids index) mtu mps credits found
      obtain ⟨finalTimed, asked⟩ := ih nextTimed next
      refine ⟨finalTimed, ?_⟩
      obtain ⟨state, connecting⟩ := completes.waiting address listed carried
      intro event emitted
      rcases mem_cons.mp emitted with first | later
      · rw [first, state, connecting]
        exact ⟨address, rfl⟩
      · exact asked event later

end Completes

theorem unlinkIdent_unlinks (ident fuel : Nat)
    (timed : conn.Timed) : (unlinkIdent ident fuel conn).1.Timed ∧
      (unlinkIdent ident fuel conn).1.chan = conn.chan ∧
      (unlinkIdent ident fuel conn).1.ident = conn.ident ∧
      (∀ other ∈ (unlinkIdent ident fuel conn).1.channels, other ∈ conn.channels) ∧
      ∀ member ∈ (unlinkIdent ident fuel conn).2, (conn.chan member).ident = ident ∧
          member ∉ (unlinkIdent ident fuel conn).1.channels := by
  induction fuel generalizing conn with
  | zero =>
    exact ⟨timed, rfl, rfl, fun _ listed => listed,
      nofun⟩
  | succ fuel ih =>
    unfold unlinkIdent
    split
    · exact ⟨timed, rfl, rfl, fun _ listed => listed,
        nofun⟩
    rename_i address found
    obtain ⟨lastTimed, sameChan, counter, subset, members⟩ :=
      ih (timed.remove address)
    refine ⟨lastTimed, sameChan, counter,
      fun other listed => mem_of_mem_erase (subset other listed), ?_⟩
    intro member inGroup
    rcases mem_cons.mp inGroup with same | later
    · rw [same]
      refine ⟨(lookupIdent_some found).2, ?_⟩
      intro listed
      have stays := subset address listed
      rw [chanRemove_channels, timed.nodup.mem_erase_iff] at stays
      exact stays.1 rfl
    · exact members member later

theorem FreshFor.skip {conn changed : L2capConn} (fresh : conn.FreshFor (count + 1))
    (chan : changed.chan = conn.chan)
    (channels : ∀ other ∈ changed.channels, other ∈ conn.channels)
    (counter : changed.ident = conn.nextIdent) : changed.FreshFor count := by
  have next : ∀ index, changed.drawn index = conn.drawn (index + 1) := by
    intro index
    rw [← drawn_getIdent]
    unfold drawn nextIdent getIdent
    rw [counter]
  refine ⟨by have := fresh.few; omega, ?_⟩
  intro other carries index below
  rw [next, chan]
  rw [chan] at carries
  exact fresh.unused other (carries.imp_left (channels other)) (index + 1) (by omega)

theorem ecredConnReqSend_freshFor
    (fresh : conn.FreshFor (count + 1)) (env : L2capEnv) (group : List Nat) :
    (conn.ecredConnReqSend env group).FreshFor count := by
  cases group with
  | nil =>
    refine FreshFor.mono fresh (Nat.le_succ count) rfl ?_
    exact fun address carries => .inr ⟨carries, rfl⟩
  | cons first rest =>
    by_cases available : env.alloc conn.nextIdent = true
    · exact (conn.ecredConnReqSend_requests available first rest).freshFor fresh
    · rw [conn.ecredConnReqSend_halts available]
      exact fresh.skip rfl (fun _ listed => listed) rfl

theorem encryptChange_timed (timed : conn.Timed) (env : L2capEnv)
    {failed : Bool} (address : Nat)
    (fresh : failed = true ∨ conn.FreshFor (count + 1)) :
    (conn.encryptChange env failed address).Timed ∧ (failed = true ∨
        (conn.encryptChange env failed address).FreshFor count) := by
  have clearedTimed : (conn.set address fun chan =>
      { chan with encryptPending := false }).Timed :=
    timed.tweak (fun _ running => running) (fun _ => rfl) (fun _ => rfl)
      (by simp)
  have fewer : failed = true ∨ conn.FreshFor count := by
    apply fresh.imp_right
    intro enough
    refine FreshFor.mono enough (Nat.le_succ count) rfl ?_
    exact fun other carries => .inr ⟨carries, rfl⟩
  unfold encryptChange
  split
  · exact ⟨timed, fewer⟩
  rename_i pending
  have dynamic : address ∉ fixedCids := by
    intro fixed
    rw [(timed.fixed address fixed).encryptPending] at pending
    exact nomatch pending
  simp only
  split
  · rename_i fails
    exact ⟨clearedTimed.drop address, .inl fails⟩
  rename_i succeeds
  have enough := fresh.resolve_left succeeds
  have clearedFresh : (conn.set address fun chan =>
      { chan with encryptPending := false }).FreshFor (count + 1) := by
    refine FreshFor.mono enough (Nat.le_refl _) rfl ?_
    intro other carries
    refine .inr ?_
    by_cases same : other = address
    · subst same
      rw [set_chan_self] at carries ⊢
      exact ⟨carries, rfl⟩
    · rw [set_chan_ne _ _ _ same] at carries ⊢
      exact ⟨carries, rfl⟩
  split
  · rename_i numbered
    obtain ⟨unlinkedTimed, sameChan, counter, subset, members⟩ :=
      unlinkIdent_unlinks (conn.chan address).ident (conn.set address fun chan =>
          { chan with encryptPending := false }).channels.length clearedTimed
    have unlinkedFresh : (unlinkIdent (conn.chan address).ident
        (conn.set address fun chan =>
          { chan with encryptPending := false }).channels.length
        (conn.set address fun chan =>
          { chan with encryptPending := false })).1.FreshFor (count + 1) := by
      refine FreshFor.mono clearedFresh (Nat.le_refl _) counter ?_
      intro other carries
      rw [sameChan] at carries ⊢
      exact .inr ⟨carries.imp_left (subset other), rfl⟩
    refine ⟨?_, .inr (ecredConnReqSend_freshFor unlinkedFresh env _)⟩
    apply unlinkedTimed.ecredConnReqSend env (unlinkedFresh.fresh _)
    · intro member inGroup
      apply clearedTimed.dynamic
      rw [(members member inGroup).1]
      exact numbered
    · exact .inr (.inr fun member inGroup => (members member inGroup).2)
  · have draws := leConnReqSend_draws (conn.set address fun chan =>
      { chan with encryptPending := false }) env address
    split
    · rename_i sent request
      rw [request] at draws
      exact ⟨draws.timed clearedTimed (clearedFresh.fresh _) dynamic,
        .inr (draws.freshFor clearedFresh)⟩
    · rename_i refused request
      rw [request] at draws
      have drawnTimed := draws.timed clearedTimed (clearedFresh.fresh _) dynamic
      exact ⟨drawnTimed.drop address,
        .inr ((draws.freshFor clearedFresh).drop (Nat.le_refl _) address)⟩

theorem securityLoop_timed (env : L2capEnv) (failed : Bool) (fuel : Nat)
    {current : Option Nat} (timed : conn.Timed)
    (fresh : failed = true ∨ conn.FreshFor fuel) :
    (securityLoop env failed fuel current conn).Timed := by
  induction fuel generalizing current conn with
  | zero => exact timed
  | succ fuel ih =>
    cases current with
    | none => exact timed
    | some address =>
      obtain ⟨nextTimed, nextFresh⟩ := encryptChange_timed timed env address fresh
      exact ih nextTimed nextFresh

theorem deleteAll_idle (conn : L2capConn) (addresses : List Nat)
    (idle : ∀ address ∈ fixedCids, Idle (conn.chan address)) :
    (∀ address ∈ fixedCids, Idle ((addresses.foldl chanDel conn).chan address)) ∧
      ∀ address, ((addresses.foldl chanDel conn).chan address).rtx = true →
        (addresses.foldl chanDel conn).chan address = conn.chan address := by
  induction addresses generalizing conn with
  | nil => exact ⟨idle, fun _ _ => rfl⟩
  | cons head rest ih =>
    have stops : ((conn.chanDel head).chan head).rtx = false := by
      unfold chanDel
      rw [set_chan_self]
      by_cases fixed : head ∈ fixedCids
      · simp [(idle head fixed).rtx]
      · simp [fixed]
    have others : ∀ other, other ≠ head →
        (conn.chanDel head).chan other = conn.chan other :=
      fun other different => set_chan_ne _ _ _ different
    have stillIdle : ∀ address ∈ fixedCids,
        Idle ((conn.chanDel head).chan address) := by
      intro address fixed
      by_cases same : address = head
      · subst same
        refine ⟨stops, ?_, ?_⟩
        · unfold chanDel
          rw [set_chan_self]
          exact (idle address fixed).ident
        · unfold chanDel
          rw [set_chan_self]
          exact (idle address fixed).encryptPending
      · rw [others address same]
        exact idle address fixed
    obtain ⟨laterIdle, laterSame⟩ := ih (conn.chanDel head) stillIdle
    refine ⟨laterIdle, ?_⟩
    intro address running
    have same := laterSame address running
    rw [foldl_cons, same]
    apply others address
    intro isHead
    rw [foldl_cons, same, isHead, stops] at running
    exact nomatch running

theorem fixedChan_idle (cid : Nat) : Idle (fixedChan cid) :=
  ⟨rfl, rfl, rfl⟩

theorem linkUp_timed (fixed : Nat → Bool)
    (idle : ∀ address ∈ fixedCids, Idle (conn.chan address))
    (waiting : ∀ address, (conn.chan address).rtx = true →
      (conn.chan address).request ≠ none)
    (numbered : ∀ address, (conn.chan address).rtx = true →
      (conn.chan address).ident ≠ 0) :
    (conn.linkUp (fixedCids.filter fixed)).Timed := by
  have running : ∀ address,
      ((conn.linkUp (fixedCids.filter fixed)).chan address).rtx = true →
        (conn.linkUp (fixedCids.filter fixed)).chan address = conn.chan address := by
    intro address runs
    unfold linkUp at runs ⊢
    simp only at runs ⊢
    split at runs
    · exact nomatch runs
    · rename_i outside
      rw [if_neg outside]
  refine ⟨List.Nodup.filter _ (by decide), ?_, ?_, ?_, ?_⟩
  · intro address runs
    have same := running address runs
    rw [same] at runs ⊢
    exact waiting address runs
  · intro address runs
    have same := running address runs
    rw [same] at runs ⊢
    exact numbered address runs
  · intro address isFixed
    unfold linkUp
    simp only
    split
    · exact fixedChan_idle address
    · exact idle address isFixed
  · intro _ holder runs other listed sameIdent
    have same := running holder runs
    rw [same] at runs sameIdent
    have zero : ((conn.linkUp (fixedCids.filter fixed)).chan other).ident =
        0 := by
      have inFixed : other ∈ fixedCids.filter fixed := listed
      unfold linkUp
      simp only
      rw [if_pos inFixed]
      rfl
    rw [zero] at sameIdent
    exact absurd sameIdent.symm (numbered holder runs)

theorem Timed.newLink (timed : conn.Timed)
    (accepts : Nat → Bool) : (conn.newLink accepts).Timed := by
  obtain ⟨idle, same⟩ := deleteAll_idle conn conn.channels timed.fixed
  apply linkUp_timed accepts idle
  · intro address running
    have unchanged := same address running
    rw [unchanged] at running ⊢
    exact timed.waiting address running
  · intro address running
    have unchanged := same address running
    rw [unchanged] at running ⊢
    exact timed.numbered address running

theorem start_timed (servers : List L2capServer) (accepts : Nat → Bool) :
    (start servers accepts).Timed := by
  apply linkUp_timed
  · exact fun _ _ => ⟨rfl, rfl, rfl⟩
  · exact nofun
  · exact nofun

def Awaits (conn : L2capConn) : Prop :=
  ∀ address, (conn.chan address).rtx = true → (conn.chan address).request ≠ none

def Spares (conn changed : L2capConn) : Prop :=
  ∀ address, (conn.chan address).attached = true →
    (changed.chan address).attached = false → (conn.chan address).request ≠ none

theorem Timed.setExpired (timed : conn.Timed) (address : Nat) (expired : Bool) :
    (conn.set address fun chan => { chan with expired }).Timed :=
  timed.tweak (fun _ => id) (fun _ => rfl) (fun _ => rfl) fun _ => .inl

theorem set_expired_same (conn : L2capConn) (address : Nat) (expired : Bool)
    (other : Nat) :
    ((conn.set address fun chan => { chan with expired }).chan other).attached =
        (conn.chan other).attached ∧
      ((conn.set address fun chan => { chan with expired }).chan other).request =
        (conn.chan other).request := by
  by_cases same : other = address
  · subst same
    rw [set_chan_self]
    exact ⟨rfl, rfl⟩
  · rw [set_chan_ne _ _ _ same]
    exact ⟨rfl, rfl⟩

theorem dropIdent_chan (ident fuel : Nat)
    (nodup : conn.channels.Nodup) (address : Nat) :
    (dropIdent ident fuel conn).chan address = conn.chan address ∨
      (address ∈ conn.channels ∧ (conn.chan address).ident = ident) := by
  induction fuel generalizing conn with
  | zero => exact .inl rfl
  | succ fuel ih =>
    unfold dropIdent
    split
    · exact .inl rfl
    rename_i first found
    by_cases same : address = first
    · rw [same]
      exact .inr (lookupIdent_some found)
    have unchanged : ((conn.chanRemove first).chanDel first).chan
        address = conn.chan address := by
      unfold chanDel
      rw [set_chan_ne _ _ _ same, chanRemove_chan]
    rcases @ih ((conn.chanRemove first).chanDel first)
      (nodup.erase first) with kept | ⟨listed, carries⟩
    · rw [kept]
      exact .inl unchanged
    · rw [unchanged] at carries
      exact .inr ⟨mem_of_mem_erase listed, carries⟩

theorem Timed.rtxTimeout_spares (timed : conn.Timed)
    (alive : conn.halted = false) (running : (conn.chan address).rtx = true) :
    conn.Spares (conn.rtxTimeout address) := by
  intro other attached detached
  by_cases same : other = address
  · rw [same]
    exact timed.waiting address running
  unfold L2capConn.rtxTimeout at detached
  split at detached
  · have unchanged : (((conn.set address cancelRtx).chanRemove
        address).chanDel address).chan other = conn.chan other := by
      unfold chanDel
      rw [set_chan_ne _ _ _ same, chanRemove_chan, set_chan_ne _ _ _ same]
    have nodup : (((conn.set address cancelRtx).chanRemove
        address).chanDel address).channels.Nodup :=
      timed.nodup.erase address
    rcases dropIdent_chan (conn.chan address).ident
      (((conn.set address cancelRtx).chanRemove
        address).chanDel address).channels.length nodup other with
      kept | ⟨listed, carries⟩
    · rw [kept, unchanged, attached] at detached
      exact nomatch detached
    rw [unchanged] at carries
    exact timed.shared alive address running other (mem_of_mem_erase listed) carries
  · rw [set_chan_ne _ _ _ same, attached] at detached
    exact nomatch detached

/-- A request sent for a channel whose expired work is still queued would leave the
next cancel without effect on the timer it started. -/
def Unqueued (conn : L2capConn) (group : List Nat) : Prop :=
  ∀ member ∈ group, (conn.chan member).expired = false

def OrderlySignal (conn : L2capConn) (ident : Nat) (env : L2capEnv) :
    L2capSignal → Prop
  | .leConnReq _ _ _ _ _ =>
    ∀ address, conn.offered env 0 = .ok address → conn.StaleFree address
  | .leConnRsp _ _ _ _ result =>
    result = success → ∀ address, conn.lookupIdent ident = some address →
      (conn.chan address).state = .connect ∧ (conn.chan address).connecting = true
  | .leCredits cid credits =>
    ∀ address, conn.lookupTxCid cid = some address →
      0xffff < (conn.chan address).tx.credits + credits →
        (address ∉ fixedCids ∧ conn.Fresh [address]) ∧ conn.Unqueued [address]
  | .cmdReject => conn.Alone ident
  | .ecredConnReq _ _ _ _ scids =>
    ∀ index < scids.length, ∀ address,
      conn.offered env index = .ok address → conn.StaleFree address
  | .ecredConnRsp _ _ _ result dcids =>
    if result = errAuthentication ∨ result = errEncryption then
      conn.Alone ident
    else if result = success ∨ result = errInvalidScid ∨
        result = errScidInUse ∨ result = errNoResources then
      conn.Completes ident dcids 0 conn.ecredFuel ∧
        ∀ index, conn.Unqueued (conn.lookupTxCid (dcids index)).toList
    else True
  | .ecredReconfRsp _ =>
    ∀ address ∈ conn.channels, (conn.chan address).ident = ident →
      (conn.chan address).rtx = false
  | _ => True

def Orderly (conn : L2capConn) (env : L2capEnv) : L2capInput → Prop
  | .connect address _ =>
    if conn.secLevel < max (conn.chan address).requiredSecLevel 1 then
      conn.StaleFree address
    else conn.Fresh [address]
  | .ecredConnect chans _ => conn.Fresh (chans.take ecredChanMax)
  | .reconfigure chans _ =>
    conn.Fresh (chans.take ecredChanMax) ∧ (env.send conn.nextIdent = true ∨
        ∀ member ∈ chans.take ecredChanMax, (conn.chan member).rtx = false) ∧
      conn.Unqueued chans
  | .disconnect address =>
    (conn.chan address).attached = true →
      conn.Fresh [address] ∧ conn.Unqueued [address]
  | .signal ident signal => conn.OrderlySignal ident env signal
  | .securityChanged failed _ =>
    (failed = true ∨ conn.FreshFor conn.channels.length) ∧
      conn.Unqueued (conn.channels.filter fun member =>
        (conn.chan member).encryptPending)
  | .timeout address =>
    (conn.chan address).expired = true → (conn.chan address).rtx = true
  | _ => True

theorem asked_nil : Asked [] := nofun

theorem Timed.leConnRsp_asked (env : L2capEnv)
    (ident dcid mtu mps credits result : Nat)
    (waits : result = success → ∀ address, conn.lookupIdent ident = some address →
        (conn.chan address).state = .connect ∧
          (conn.chan address).connecting = true) :
    Asked (conn.leConnRsp env ident dcid mtu mps credits result).2 := by
  unfold L2capConn.leConnRsp
  split
  · exact asked_nil
  rename_i address found
  simp only
  split
  · rename_i successful
    obtain ⟨state, connecting⟩ := waits successful address found
    intro event emitted
    rw [mem_singleton.mp emitted, state, connecting]
    exact ⟨address, rfl⟩
  · split
    · split
      · exact asked_nil
      · exact asked_nil
    · exact asked_nil

theorem Timed.signal (timed : conn.Timed) (config : L2capConfig) (env : L2capEnv)
    {signal : L2capSignal} (orderly : conn.OrderlySignal ident env signal) :
    (conn.recvSignal config env ident signal).1.Timed ∧
      Asked (conn.recvSignal config env ident signal).2 := by
  unfold recvSignal
  split
  · exact ⟨timed, asked_nil⟩
  rename_i handled
  rw [not_or] at handled
  have nonzero := handled.2
  cases signal with
  | leConnReq psm scid mtu mps credits =>
    refine ⟨?_, conn.leConnReq_asked config env ident psm scid mtu mps credits⟩
    exact leConnReq_holds timed fun _ server =>
      timed.chanAccept config env server scid mtu mps credits orderly
  | leConnRsp dcid mtu mps credits result =>
    exact ⟨timed.leConnRsp env dcid mtu mps credits result nonzero,
      leConnRsp_asked env ident dcid mtu mps credits result orderly⟩
  | disconnReq dcid => exact ⟨timed.disconnReq env ident dcid, asked_nil⟩
  | disconnRsp dcid scid => exact ⟨Timed.drops.disconnRsp timed scid, asked_nil⟩
  | leCredits => exact ⟨timed.leCredits env fun address found overflows =>
      (orderly address found overflows).1, asked_nil⟩
  | cmdReject => exact ⟨timed.rejectCmd nonzero orderly, asked_nil⟩
  | ecredConnReq psm mtu mps credits scids =>
    simp only
    unfold ecredConnReq
    split
    · exact ⟨timed, asked_nil⟩
    split
    · exact ⟨timed, asked_nil⟩
    split
    · exact ⟨timed, asked_nil⟩
    split
    · exact ⟨timed, asked_nil⟩
    refine ⟨?_, ecredAcceptAll_asked config env _ mtu mps credits 0 scids conn⟩
    apply Timed.ecredAcceptAll config env _ mtu mps credits scids timed
    intro later _ below
    exact orderly later (by omega)
  | ecredConnRsp mtu mps credits result dcids =>
    simp only
    unfold OrderlySignal at orderly
    simp only at orderly
    unfold ecredConnRsp
    split
    · rename_i security
      rw [if_pos security] at orderly
      exact ⟨Timed.ecredSecure env result _ nonzero timed orderly, asked_nil⟩
    · rename_i otherwise
      rw [if_neg otherwise] at orderly
      split
      · rename_i connects
        rw [if_pos connects] at orderly
        exact Completes.loop env mtu mps credits _ nonzero timed orderly.1
      · exact ⟨Timed.drops.dropIdent ident _ timed, asked_nil⟩
  | ecredReconfReq mtu mps scids =>
    exact ⟨timed.ecredReconfReq env ident mtu mps scids, asked_nil⟩
  | ecredReconfRsp result =>
    exact ⟨Timed.reconfDone ident result _ timed orderly, asked_nil⟩

theorem Timed.step (timed : conn.Timed) (config : L2capConfig) (env : L2capEnv)
    {input : L2capInput} (orderly : conn.Orderly env input) :
    (conn.step config env input).1.Timed ∧ Asked (conn.step config env input).2 := by
  unfold L2capConn.step
  cases input with
  | layOut address chan =>
    simp only
    split
    · rename_i released
      have laid : (conn.set address (releasedChan chan)).Timed :=
        timed.unlisted released.1.2.1 rfl fun fixed => absurd fixed released.1.2.2
      exact ⟨laid, asked_nil⟩
    · exact ⟨timed, asked_nil⟩
  | connect address psm =>
    simp only
    split
    · rename_i released
      exact ⟨timed.chanConnect config env psm released orderly, asked_nil⟩
    · exact ⟨timed, asked_nil⟩
  | ecredConnect chans psm =>
    simp only
    split
    · rename_i released
      exact ⟨timed.ecredChanConnect config env psm released.1 released.2
        orderly, asked_nil⟩
    · exact ⟨timed, asked_nil⟩
  | reconfigure chans mtu =>
    simp only
    split
    · rename_i dynamic
      exact ⟨timed.ecredChanReconfigure env dynamic orderly.1 orderly.2.1, asked_nil⟩
    · exact ⟨timed, asked_nil⟩
  | disconnect address =>
    simp only
    split
    · rename_i dynamic
      refine ⟨?_, asked_nil⟩
      by_cases attached : (conn.chan address).attached = true
      · exact timed.chanDisconnect env (orderly attached).1 dynamic
      unfold L2capConn.chanDisconnect
      rw [if_neg attached]
      exact timed
    · exact ⟨timed, asked_nil⟩
  | signal ident signal => exact timed.signal config env orderly
  | expire address =>
    simp only
    split
    · exact ⟨timed.setExpired address true, asked_nil⟩
    · exact ⟨timed, asked_nil⟩
  | timeout address =>
    simp only
    split
    · exact ⟨Timed.drops.rtxTimeout (timed.setExpired address false) address,
        asked_nil⟩
    · exact ⟨timed, asked_nil⟩
  | securityChanged failed secLevel =>
    have raised : Timed { conn with secLevel } :=
      ⟨timed.nodup, timed.waiting, timed.numbered, timed.fixed, timed.shared⟩
    refine ⟨securityLoop_timed env failed _ raised ?_, asked_nil⟩
    exact orderly.1.imp_right fun fresh => ⟨fresh.few, fresh.unused⟩
  | newLink accepts => exact ⟨timed.newLink accepts, asked_nil⟩

end L2capConn

/-- A step only connects channels whose connection was asked for, and the handler
of a timer only destroys channels that wait. -/
def L2capAnswers (config : L2capConfig) (conn : L2capConn)
    (input : L2capEnv × L2capInput) : Prop :=
  L2capConn.Asked ((l2capMachine config).emit conn input) ∧
    ∀ address, input.2 = .timeout address →
      conn.Spares ((l2capMachine config).next conn input)

theorem L2capConn.Timed.answers {config : L2capConfig}
    (timed : conn.Timed) {input : L2capEnv × L2capInput}
    (orderly : conn.Orderly input.1 input.2) : L2capAnswers config conn input ∧
      ((l2capMachine config).next conn input).Timed := by
  have steps := timed.step config input.1 orderly
  have spared : conn.Spares conn := by
    intro address attached detached
    rw [attached] at detached
    exact nomatch detached
  unfold L2capAnswers Machine.next Machine.emit l2capMachine
  simp only
  split
  · exact ⟨⟨L2capConn.asked_nil, fun _ _ => spared⟩, timed⟩
  rename_i alive
  refine ⟨⟨steps.2, ?_⟩, steps.1⟩
  intro address expires
  rw [expires]
  unfold L2capConn.step
  simp only
  split
  · rename_i queued
    rw [expires] at orderly
    have taken := @L2capConn.Timed.rtxTimeout_spares address _
      (timed.setExpired address false) (Bool.eq_false_iff.mpr alive) (by
        rw [L2capConn.set_chan_self]
        exact orderly queued)
    intro other attached detached
    have same := conn.set_expired_same address false other
    rw [← same.2]
    exact taken other (same.1.trans attached) detached
  · exact spared

/-- Along orderly runs a response only completes the request it answers. -/
theorem l2cap_responses_match (config : L2capConfig)
    (servers : List L2capServer) (accepts : Nat → Bool)
    (inputs : List (L2capEnv × L2capInput)) (orderly : (l2capMachine config).Along
      (fun conn input => conn.Orderly input.1 input.2)
      (.start servers accepts) inputs) :
    (l2capMachine config).Along (L2capAnswers config)
        (.start servers accepts) inputs ∧
      (l2capMachine config).Always L2capConn.Awaits
        (.start servers accepts) inputs := by
  have start := L2capConn.start_timed servers accepts
  constructor
  · apply Machine.along_of_along _ start orderly
    exact fun conn input timed admitted =>
      L2capConn.Timed.answers timed admitted
  · apply Machine.Always.mono (fun _ timed => L2capConn.Timed.waiting timed)
    apply Machine.always_of_along _ start orderly
    exact fun conn input timed admitted =>
      (L2capConn.Timed.answers timed admitted).2

theorem l2cap_responses_match_connected :
    (l2capMachine sampleConfig).Along (L2capAnswers sampleConfig)
        (.start [] fun _ => true) [(sampleEnv, .connect 10 0x80),
          (sampleEnv, .signal 1 (.leConnRsp 0x50 64 64 1 0)),
          (sampleEnv, .expire 10), (sampleEnv, .timeout 10)] ∧
      (l2capMachine sampleConfig).Always L2capConn.Awaits
        (.start [] fun _ => true) [(sampleEnv, .connect 10 0x80),
          (sampleEnv, .signal 1 (.leConnRsp 0x50 64 64 1 0)),
          (sampleEnv, .expire 10), (sampleEnv, .timeout 10)] := by
  apply l2cap_responses_match
  refine ⟨?_, ?_, trivial, ?_, trivial⟩
  · intro other _ _
    have zero : ((L2capConn.start [] fun _ => true).chan other).ident = 0 := by
      unfold L2capConn.start L2capConn.linkUp
      simp only
      split
      · rfl
      · rfl
    rw [zero]
    decide
  · intro _ address found
    have first : address = 10 := by
      rw [show L2capConn.lookupIdent ((l2capMachine sampleConfig).next
        (.start [] fun _ => true) (sampleEnv, .connect 10 0x80)) 1 = some 10
          by decide] at found
      exact (Option.some.inj found).symm
    rw [first]
    decide
  · intro queued
    exact absurd queued (by decide)

theorem l2cap_reconf_rsp_keeps_timer :
    ¬ ∀ (config : L2capConfig) (servers : List L2capServer)
      (accepts : Nat → Bool) (inputs : List (L2capEnv × L2capInput)),
      (l2capMachine config).Along (L2capAnswers config)
          (.start servers accepts) inputs ∧
        (l2capMachine config).Always L2capConn.Awaits
          (.start servers accepts) inputs := by
  intro claimed
  have awaits := (claimed sampleConfig [] (fun _ => true)
    [(sampleEnv, .ecredConnect [10] 0x80),
      (sampleEnv, .signal 1 (.ecredConnRsp 64 64 1 0 fun _ => 0x50)),
      (sampleEnv, .reconfigure [10] 300),
      (sampleEnv, .signal 2 (.ecredReconfRsp 0))]).2.last
  exact absurd (awaits 10 (by decide)) (by decide)

end ZephyrBluetooth.Host
