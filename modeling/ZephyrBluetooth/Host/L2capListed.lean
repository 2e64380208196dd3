import ZephyrBluetooth.Host.L2capRequests

namespace ZephyrBluetooth.Host

open Data List Function

variable {index : Nat}

namespace L2capConn

open L2cap

def StaleFree (conn : L2capConn) (address : Nat) : Prop :=
  ∀ other, other ≠ address → (conn.chan other).rtx = true →
    (conn.chan other).ident ≠ (conn.chan address).ident

def Alone (conn : L2capConn) (ident : Nat) : Prop :=
  ∀ address, (conn.chan address).rtx = true →
    (conn.chan address).ident = ident → conn.lookupIdent ident = some address

theorem lookupIdent_some {conn : L2capConn} {ident address : Nat}
    (found : conn.lookupIdent ident = some address) :
    address ∈ conn.channels ∧ (conn.chan address).ident = ident := by
  have carried := find?_some found
  exact ⟨mem_of_find?_eq_some found, of_decide_eq_true carried⟩

variable {address : Nat}

namespace Timed

variable {conn changed : L2capConn}

section

variable (timed : conn.Timed)
include timed

theorem dynamic
    (numbered : (conn.chan address).ident ≠ 0) : address ∉ fixedCids :=
  fun fixed => numbered (timed.fixed address fixed).ident

theorem cleared {group : List Nat}
    (dynamic : ∀ member ∈ group, member ∉ fixedCids)
    (others : ∀ other, other ∉ group → changed.chan other = conn.chan other)
    (nodup : changed.channels.Nodup)
    (channels : ∀ other ∈ changed.channels, other ∈ group ∨ other ∈ conn.channels)
    (still : ∀ member ∈ group, (changed.chan member).rtx = false)
    (alive : changed.halted = false → conn.halted = false ∧
      ∀ member ∈ group, member ∉ changed.channels) : changed.Timed := by
  have outside : ∀ other, (changed.chan other).rtx = true → other ∉ group := by
    intro other running inGroup
    rw [still other inGroup] at running
    exact nomatch running
  refine ⟨nodup, ?_, ?_, ?_, ?_⟩
  · intro other running
    have unchanged := others other (outside other running)
    rw [unchanged] at running ⊢
    exact timed.waiting other running
  · intro other running
    have unchanged := others other (outside other running)
    rw [unchanged] at running ⊢
    exact timed.numbered other running
  · intro other fixed
    rw [others other fun inGroup => dynamic other inGroup fixed]
    exact timed.fixed other fixed
  · intro runs holder running other listed sameIdent
    obtain ⟨before, unlisted⟩ := alive runs
    have otherOutside : other ∉ group :=
      fun inGroup => unlisted other inGroup listed
    have holderSame := others holder (outside holder running)
    rw [holderSame] at running sameIdent
    rw [others other otherOutside] at sameIdent ⊢
    exact timed.shared before holder running other
      ((channels other listed).resolve_left otherOutside) sameIdent

theorem answer {address ident : Nat}
    (alone : ∀ other, other ≠ address → (conn.chan other).rtx = true →
      (conn.chan other).ident ≠ ident)
    (others : ∀ other, other ≠ address → changed.chan other = conn.chan other ∨
        ((conn.chan other).ident = ident ∧
          changed.chan other = forgetRequest (conn.chan other)))
    (nodup : changed.channels.Nodup)
    (channels : ∀ other ∈ changed.channels, other ∈ conn.channels)
    (halted : changed.halted = conn.halted)
    (still : (changed.chan address).rtx = false)
    (same : (changed.chan address).ident = ident)
    (carried : ident ≠ 0) (dynamic : address ∉ fixedCids) : changed.Timed := by
  have unchanged : ∀ other, (changed.chan other).rtx = true →
      other ≠ address ∧ changed.chan other = conn.chan other := by
    intro other running
    have different : other ≠ address := by
      intro equal
      rw [equal, still] at running
      exact nomatch running
    refine ⟨different, ?_⟩
    rcases others other different with kept | ⟨sameIdent, forgets⟩
    · exact kept
    · rw [forgets] at running
      exact absurd sameIdent (alone other different running)
  refine ⟨nodup, ?_, ?_, ?_, ?_⟩
  · intro other running
    have kept := (unchanged other running).2
    rw [kept] at running ⊢
    exact timed.waiting other running
  · intro other running
    have kept := (unchanged other running).2
    rw [kept] at running ⊢
    exact timed.numbered other running
  · intro other fixed
    have idle := timed.fixed other fixed
    have different : other ≠ address := fun equal => dynamic (equal ▸ fixed)
    rcases others other different with kept | ⟨sameIdent, -⟩
    · rw [kept]
      exact idle
    · exact absurd (sameIdent.symm.trans idle.ident) carried
  · intro runs holder running other listed sameIdent
    rw [halted] at runs
    obtain ⟨holderNe, holderSame⟩ := unchanged holder running
    rw [holderSame] at running sameIdent
    have notIdent := alone holder holderNe running
    have otherNe : other ≠ address := by
      intro equal
      rw [equal, same] at sameIdent
      exact notIdent sameIdent.symm
    rcases others other otherNe with kept | ⟨hasIdent, forgets⟩
    · rw [kept] at sameIdent ⊢
      exact timed.shared runs holder running other (channels other listed) sameIdent
    · rw [forgets] at sameIdent
      exact absurd (sameIdent.symm.trans hasIdent) notIdent

theorem cancel (address : Nat) : (conn.set address cancelRtx).Timed :=
  timed.tweak (by simp [cancelRtx]) (fun _ => rfl) (fun _ => rfl)
    fun _ pending => .inl pending

end

theorem drops : Drops L2capConn.Timed :=
  ⟨fun address timed => timed.cancel address,
    fun address timed => timed.drop address, fun timed => timed.halt⟩

section

variable (timed : conn.Timed)
include timed

theorem ready (config : L2capConfig) (address : Nat) :
    ((conn.chanTxInit address).chanRxInit config address).Timed := by
  have sent : (conn.chanTxInit address).Timed :=
    timed.tweak (fun _ running => running) (fun _ => rfl) (fun _ => rfl)
      fun _ pending => .inl pending
  exact sent.tweak (fun _ running => running) (fun _ => rfl) (fun _ => rfl)
    fun _ pending => .inl pending

theorem ecredReconfReq (env : L2capEnv)
    (ident mtu mps : Nat) (scids : List Nat) :
    (conn.ecredReconfReq env ident mtu mps scids).Timed := by
  have resized : ∀ chans : List Nat,
      (chans.foldl (fun conn address => conn.set address fun chan =>
        { chan with tx := { chan.tx with mtu, mps } }) conn).Timed := by
    intro chans
    refine foldl_holds (fun later address _ laterTimed => ?_) timed
    exact laterTimed.tweak (fun _ running => running) (fun _ => rfl)
      (fun _ => rfl) fun _ pending => .inl pending
  unfold L2capConn.ecredReconfReq
  generalize changes : (if mps < ecredMinMtu ∨ mtu < ecredMinMtu then conn
    else _ : L2capConn) = changed
  have changedTimed : changed.Timed := by
    rw [← changes]
    split
    · exact timed
    split
    · exact timed
    split
    · exact timed
    · exact resized _
  split
  · exact changedTimed
  · exact changedTimed.halt

theorem disconnReq (env : L2capEnv) (ident dcid : Nat) :
    (conn.disconnReq env ident dcid).Timed := by
  unfold L2capConn.disconnReq
  split
  · exact timed
  rename_i address found
  split
  · exact timed.drop address
  · exact timed.remove address

theorem chanDisconnect (env : L2capEnv)
    (fresh : conn.Fresh [address]) (dynamic : address ∉ fixedCids) :
    (conn.chanDisconnect env address).Timed := by
  by_cases attached : (conn.chan address).attached = true
  · exact (chanDisconnect_draws env attached).timed timed fresh dynamic
  unfold L2capConn.chanDisconnect
  rw [if_neg attached]
  exact timed

end

theorem reconfDone (ident result fuel : Nat) {conn : L2capConn}
    (timed : conn.Timed)
    (still : ∀ address ∈ conn.channels, (conn.chan address).ident = ident →
      (conn.chan address).rtx = false) :
    (L2capConn.reconfDone ident result fuel conn).Timed := by
  induction fuel generalizing conn with
  | zero => exact timed
  | succ fuel ih =>
    unfold L2capConn.reconfDone
    split
    · exact timed
    rename_i address found
    obtain ⟨listed, carried⟩ := lookupIdent_some found
    have stops : (reconfigured result (conn.chan address)).rtx = false :=
      still address listed carried
    apply ih
    · exact timed.settle stops (fun _ => rfl) (fun _ => rfl)
    · intro other otherListed otherCarried
      by_cases same : other = address
      · subst same
        rw [set_chan_self]
        exact stops
      · rw [set_chan_ne _ _ _ same] at otherCarried ⊢
        exact still other otherListed otherCarried

end Timed

theorem set_set (conn : L2capConn) (address : Nat)
    (change later : LeChan → LeChan) :
    (conn.set address change).set address later =
      conn.set address (later ∘ change) := by
  unfold set
  simp only [update_self, update_idem, comp_apply]

structure Enters (conn : L2capConn) (address : Nat) (entered : L2capConn) :
    Prop where
  others : ∀ other, other ≠ address → entered.chan other = conn.chan other
  channels : entered.channels = conn.channels ++ [address]
  halted : entered.halted = conn.halted
  counter : entered.ident = conn.ident
  rtx : (entered.chan address).rtx = false
  ident : (entered.chan address).ident = (conn.chan address).ident

theorem chanAdd_secLevel {conn added : L2capConn}
    (success : conn.chanAdd address = some added) :
    added.secLevel = conn.secLevel := by
  obtain ⟨_, found, rfl⟩ := Option.map_eq_some_iff.mp success
  unfold allocCid at found
  split at found
  · cases found
    rfl
  split at found
  · cases found
    rfl
  · exact nomatch found

theorem chanAdd_enters {conn added : L2capConn} {change : LeChan → LeChan}
    (success : (conn.set address change).chanAdd address = some added)
    (ident : ∀ chan, (change chan).ident = chan.ident) :
    conn.Enters address added := by
  have adds := chanAdd_adds success
  obtain ⟨_, chanEq, -⟩ := adds.chan
  refine ⟨?_, adds.channels, adds.halted, adds.ident, ?_, ?_⟩
  · intro other different
    rw [adds.others other different, set_chan_ne _ _ _ different]
  · rw [chanEq]
    rfl
  · rw [chanEq, set_chan_self]
    exact ident _

namespace Enters

variable {conn entered changed : L2capConn} {address : Nat}

section

variable (enters : conn.Enters address entered)
include enters

theorem adjust {change : LeChan → LeChan}
    (rtx : ∀ chan, (change chan).rtx = chan.rtx)
    (ident : ∀ chan, (change chan).ident = chan.ident) :
    conn.Enters address (entered.set address change) := by
  refine ⟨?_, enters.channels, enters.halted, enters.counter, ?_, ?_⟩
  · intro other different
    rw [set_chan_ne _ _ _ different]
    exact enters.others other different
  · rw [set_chan_self, rtx]
    exact enters.rtx
  · rw [set_chan_self, ident]
    exact enters.ident

theorem nodup (timed : conn.Timed) (unlisted : address ∉ conn.channels) :
    entered.channels.Nodup := by
  rw [enters.channels]
  exact timed.nodup.append (nodup_singleton _) (by simpa using unlisted)

theorem listed {other : Nat} (inEntered : other ∈ entered.channels) :
    other = address ∨ other ∈ conn.channels := by
  rw [enters.channels, mem_append, mem_singleton] at inEntered
  exact inEntered.symm

theorem nextIdent : entered.nextIdent = conn.nextIdent := by
  unfold L2capConn.nextIdent
  rw [enters.counter]

theorem timed (timed : conn.Timed) (released : conn.Released address)
    (stale : conn.StaleFree address) : entered.Timed := by
  apply timed.one enters.others (enters.nodup timed released.2.1)
  · exact fun other inEntered => enters.listed inEntered
  · rw [enters.halted]
    exact id
  · rw [enters.rtx]
    exact nofun
  · intro _ _ other different running sameIdent
    rw [enters.ident] at sameIdent
    exact absurd sameIdent.symm (stale other different running)
  · exact fun fixed => absurd fixed released.2.2

theorem drop (timed : conn.Timed) (released : conn.Released address)
    (others : ∀ other, other ≠ address → changed.chan other = entered.chan other)
    (channels : changed.channels = entered.channels)
    (halted : changed.halted = entered.halted) :
    ((changed.chanRemove address).chanDel address).Timed := by
  have nodup := enters.nodup timed released.2.1
  have left : ∀ other ∈ changed.channels.erase address,
      other ≠ address ∧ other ∈ conn.channels := by
    intro other inChanged
    rw [channels, nodup.mem_erase_iff] at inChanged
    exact ⟨inChanged.1, (enters.listed inChanged.2).resolve_left inChanged.1⟩
  apply @Timed.cleared _ _ timed [address]
  · intro member inGroup
    rw [mem_singleton.mp inGroup]
    exact released.2.2
  · intro other outside
    have different : other ≠ address := fun same => outside (mem_singleton.mpr same)
    unfold chanDel
    rw [set_chan_ne _ _ _ different, chanRemove_chan, others other different]
    exact enters.others other different
  · rw [chanDel_channels, chanRemove_channels, channels]
    exact nodup.erase address
  · exact fun other inChanged => .inr (left other inChanged).2
  · intro member inGroup
    rw [mem_singleton.mp inGroup]
    unfold chanDel
    rw [set_chan_self]
    simp [released.2.2]
  · intro alive
    constructor
    · rw [← enters.halted, ← halted]
      exact alive
    · intro member inGroup inChanged
      exact (left member inChanged).1 (mem_singleton.mp inGroup)

theorem requested (timed : conn.Timed) (released : conn.Released address)
    (fresh : conn.Fresh [address]) (draws : entered.Draws address changed) :
    changed.Timed := by
  have request : (changed.chan address).rtx = true →
      (changed.chan address).request ≠ none := by
    apply draws.running_request
    rw [enters.rtx]
    exact nofun
  apply timed.group fresh
  · intro member inGroup
    rw [mem_singleton.mp inGroup]
    exact released.2.2
  · intro other outside
    have different : other ≠ address := fun same => outside (mem_singleton.mpr same)
    rw [draws.others other different, enters.others other different]
  · rw [draws.channels]
    exact enters.nodup timed released.2.1
  · intro other inChanged
    rw [draws.channels] at inChanged
    exact (enters.listed inChanged).imp_left mem_singleton.mpr
  · rw [draws.halted, enters.halted]
    exact id
  · intro member inGroup
    rw [mem_singleton.mp inGroup, ← enters.nextIdent]
    exact draws.ident
  · intro member inGroup running
    rw [mem_singleton.mp inGroup] at running ⊢
    refine ⟨request running, ?_⟩
    intro mate mateIn _
    rw [mem_singleton.mp mateIn]
    exact request running

end

end Enters

namespace Timed

variable {conn changed : L2capConn}

theorem chanConnect (timed : conn.Timed) (config : L2capConfig)
    (env : L2capEnv) (psm : Nat)
    (released : conn.Released address)
    (unshared : if conn.secLevel <
        max (conn.chan address).requiredSecLevel 1 then conn.StaleFree address
      else conn.Fresh [address]) :
    (conn.chanConnect config env address psm).Timed := by
  have raises : (conn.set address fun chan =>
      { chan with requiredSecLevel := max chan.requiredSecLevel 1 }).Timed :=
    timed.tweak (fun _ running => running) (fun _ => rfl) (fun _ => rfl)
      fun _ pending => .inl pending
  unfold L2capConn.chanConnect
  split
  · exact timed
  simp only
  split
  · exact raises
  split
  · exact raises.ready config address
  rename_i added success
  have adds := chanAdd_adds success
  obtain ⟨_, chanEq, -⟩ := adds.chan
  have level : (added.chan address).requiredSecLevel =
      max (conn.chan address).requiredSecLevel 1 := by
    simp only [chanTxInit, chanRxInit, set_chan_self] at chanEq
    rw [chanEq]
    rfl
  have secLevel := chanAdd_secLevel success
  unfold chanRxInit chanTxInit at success
  rw [set_set, set_set] at success
  have linked := chanAdd_enters success fun _ => rfl
  have enters : conn.Enters address (added.set address fun chan =>
      { chan with psm }) :=
    linked.adjust (fun _ => rfl) (fun _ => rfl)
  have requires : (added.set address fun chan =>
        { chan with psm }).secLevel <
      ((added.set address fun chan =>
        { chan with psm }).chan address).requiredSecLevel ↔
      conn.secLevel < max (conn.chan address).requiredSecLevel 1 := by
    rw [set_chan_self, ← level]
    exact iff_of_eq (congrArg (· < _) secLevel)
  split
  · rename_i insufficient
    rw [if_pos (requires.mp insufficient)] at unshared
    split
    · have pending : conn.Enters address ((added.set address fun chan =>
          { chan with psm }).set address fun chan =>
            { chan with encryptPending := true }) :=
        enters.adjust (fun _ => rfl) (fun _ => rfl)
      exact pending.timed timed released unshared
    · exact enters.drop timed released (fun _ _ => rfl) rfl rfl
  · rename_i sufficient
    rw [if_neg (mt requires.mpr sufficient)] at unshared
    have draws := leConnReqSend_draws (added.set address fun chan =>
      { chan with psm }) env address
    split
    · rename_i sent request
      rw [request] at draws
      exact enters.requested timed released unshared draws
    · rename_i failed request
      rw [request] at draws
      exact enters.drop timed released draws.others draws.channels draws.halted

end Timed

theorem offered_iff {conn : L2capConn} {env : L2capEnv} :
    conn.offered env index = .ok address ↔
      env.accept index = .ok address ∧ conn.Released address ∧
        ((conn.chan address).rx.cid = 0 ∨
          isDyn (conn.chan address).rx.cid = true) := by
  unfold offered
  split
  · rename_i given accepted
    constructor
    · intro offer
      split at offer
      · exact nomatch offer
      rename_i free
      cases offer
      rw [not_or, not_or, not_or, not_not] at free
      exact ⟨accepted, ⟨Bool.eq_false_iff.mpr free.1, free.2.1, free.2.2.1⟩,
        free.2.2.2⟩
    · rintro ⟨equal, released, cid⟩
      rw [equal] at accepted
      cases accepted
      rw [if_neg]
      rw [not_or, not_or, not_or, not_not]
      exact ⟨Bool.eq_false_iff.mp released.1, released.2.1, released.2.2, cid⟩
  · rename_i result refused
    constructor
    · exact nofun
    · rintro ⟨equal, -⟩
      rw [equal] at refused
      exact nomatch refused

theorem chanAccept_cases (conn : L2capConn) (config : L2capConfig)
    (env : L2capEnv) (server : L2capServer) (index scid mtu mps credits : Nat) :
    (((conn.chanAccept config env server index scid mtu mps credits).1 = conn ∨
        ∃ address, conn.offered env index = .ok address ∧
          (conn.chanAccept config env server index scid mtu mps credits).1 =
            conn.set address fun chan =>
              { chan with requiredSecLevel := server.secLevel }) ∧
      (conn.chanAccept config env server index scid mtu mps credits).2.1 = []) ∨
    ∃ address, conn.offered env index = .ok address ∧ conn.Enters address
        (conn.chanAccept config env server index scid mtu mps credits).1 ∧
      (conn.chanAccept config env server index scid mtu mps credits).2.1 =
        [.connected address .connect true] := by
  unfold chanAccept
  split
  · exact .inl ⟨.inl rfl, rfl⟩
  split
  · exact .inl ⟨.inl rfl, rfl⟩
  split
  · exact .inl ⟨.inl rfl, rfl⟩
  rename_i address offer
  split
  · exact .inl ⟨.inl rfl, rfl⟩
  simp only
  split
  · exact .inl ⟨.inr ⟨address, offer, rfl⟩, rfl⟩
  rename_i added success
  refine .inr ⟨address, offer, ?_, ?_⟩
  · have linked := chanAdd_enters success fun _ => rfl
    exact linked.adjust (fun _ => rfl) (fun _ => rfl)
  · obtain ⟨cid, chanEq, origin⟩ := (chanAdd_adds success).chan
    rw [set_chan_self] at chanEq origin
    have isDynamic : isDyn cid = true := by
      rcases origin with ⟨held, same⟩ | ⟨-, given, -⟩
      · rcases (offered_iff.mp offer).2.2 with _ | dynamic
        · simp only at held
          omega
        · rw [same]
          exact dynamic
      · exact given
    have state : (added.chan address).state = .connect := by
      rw [chanEq]
      unfold attachChan
      simp only [isDynamic, if_true]
    rw [state]

theorem Timed.chanAccept {conn : L2capConn} (timed : conn.Timed)
    (config : L2capConfig) (env : L2capEnv) (server : L2capServer)
    (scid mtu mps credits : Nat)
    (stale : ∀ address, conn.offered env index = .ok address →
      conn.StaleFree address) :
    (conn.chanAccept config env server index scid mtu mps credits).1.Timed := by
  rcases conn.chanAccept_cases config env server index scid mtu mps credits
    with ⟨same | ⟨address, -, raised⟩, -⟩ | ⟨address, offer, enters, -⟩
  · rw [same]
    exact timed
  · rw [raised]
    exact timed.tweak (fun _ running => running) (fun _ => rfl) (fun _ => rfl)
      fun _ pending => .inl pending
  · exact enters.timed timed (offered_iff.mp offer).2.1 (stale address offer)

theorem chanAccept_offers {conn : L2capConn} {config : L2capConfig} {env : L2capEnv}
    {server : L2capServer} {scid mtu mps credits later other : Nat}
    (offer : (conn.chanAccept config env server index scid mtu mps
      credits).1.offered env later = .ok other)
    (stale : conn.offered env later = .ok other → conn.StaleFree other) :
    (conn.chanAccept config env server index scid mtu mps
      credits).1.StaleFree other := by
  rcases conn.chanAccept_cases config env server index scid mtu mps credits
    with ⟨same | ⟨address, -, raised⟩, -⟩ | ⟨address, -, enters, -⟩
  · rw [same] at offer ⊢
    exact stale offer
  · have unchanged : ∀ holder, ((conn.set address fun chan =>
        { chan with requiredSecLevel := server.secLevel }).chan holder).ident =
          (conn.chan holder).ident ∧
        ((conn.set address fun chan =>
          { chan with requiredSecLevel := server.secLevel }).chan holder).rtx =
          (conn.chan holder).rtx ∧
        ((conn.set address fun chan =>
          { chan with requiredSecLevel := server.secLevel }).chan
            holder).attached = (conn.chan holder).attached ∧
        ((conn.set address fun chan =>
          { chan with requiredSecLevel := server.secLevel }).chan holder).rx =
          (conn.chan holder).rx := by
      intro holder
      by_cases same : holder = address
      · subst same
        rw [set_chan_self]
        exact ⟨rfl, rfl, rfl, rfl⟩
      · rw [set_chan_ne _ _ _ same]
        exact ⟨rfl, rfl, rfl, rfl⟩
    rw [raised] at offer ⊢
    obtain ⟨given, ⟨free, unlisted, dynamic⟩, cid⟩ := offered_iff.mp offer
    rw [(unchanged other).2.2.1] at free
    rw [(unchanged other).2.2.2] at cid
    have before := stale (offered_iff.mpr ⟨given, ⟨free, unlisted, dynamic⟩, cid⟩)
    intro holder different running
    rw [(unchanged holder).2.1] at running
    rw [(unchanged holder).1, (unchanged other).1]
    exact before holder different running
  · obtain ⟨given, ⟨free, unlisted, dynamic⟩, cid⟩ := offered_iff.mp offer
    rw [enters.channels, mem_append, mem_singleton, not_or] at unlisted
    rw [enters.others other unlisted.2] at free cid
    have before := stale (offered_iff.mpr ⟨given, ⟨free, unlisted.1, dynamic⟩, cid⟩)
    intro holder different running
    by_cases same : holder = address
    · rw [same, enters.rtx] at running
      exact nomatch running
    rw [enters.others holder same] at running ⊢
    rw [enters.others other unlisted.2]
    exact before holder different running

theorem Timed.ecredAcceptAll (config : L2capConfig) (env : L2capEnv)
    (server : L2capServer) (mtu mps credits : Nat) (scids : List Nat)
    {conn : L2capConn} (timed : conn.Timed)
    (stale : ∀ later, index ≤ later → later < index + scids.length →
      ∀ address, conn.offered env later = .ok address → conn.StaleFree address) :
    (L2capConn.ecredAcceptAll config env server mtu mps credits index scids
      conn).1.Timed := by
  induction scids generalizing index conn with
  | nil => exact timed
  | cons scid rest ih =>
    simp only [length_cons] at stale ⊢
    apply ih
    · apply timed.chanAccept config env server scid mtu mps credits
      exact stale index (Nat.le_refl index) (by omega)
    · intro later fromHere below address offer
      exact chanAccept_offers offer (stale later (by omega) (by omega) address)

def Asked (events : List L2capEvent) : Prop :=
  ∀ event ∈ events, ∃ address, event = .connected address .connect true

theorem ecredAcceptAll_asked (config : L2capConfig) (env : L2capEnv)
    (server : L2capServer) (mtu mps credits index : Nat) (scids : List Nat)
    (conn : L2capConn) :
    Asked (ecredAcceptAll config env server mtu mps credits index scids conn).2 := by
  induction scids generalizing index conn with
  | nil => exact nofun
  | cons scid rest ih =>
    unfold ecredAcceptAll
    intro event emitted
    rcases mem_append.mp emitted with first | later
    · rcases conn.chanAccept_cases config env server index scid mtu mps
        credits with ⟨-, none⟩ | ⟨address, -, -, one⟩
      · rw [none] at first
        exact nomatch first
      · rw [one] at first
        exact ⟨address, mem_singleton.mp first⟩
    · exact ih _ _ event later

theorem leConnReq_asked (conn : L2capConn) (config : L2capConfig)
    (env : L2capEnv) (ident psm scid mtu mps credits : Nat) :
    Asked (conn.leConnReq config env ident psm scid mtu mps credits).2 := by
  have silent : Asked [] := nofun
  unfold leConnReq
  split
  · exact silent
  split
  · exact silent
  split
  · exact silent
  rename_i server found
  split
  · exact silent
  intro event emitted
  simp only at emitted
  rcases conn.chanAccept_cases config env server 0 scid mtu mps credits
    with ⟨-, none⟩ | ⟨address, -, -, one⟩
  · rw [none] at emitted
    exact nomatch emitted
  · rw [one] at emitted
    exact ⟨address, mem_singleton.mp emitted⟩

structure Joins (conn : L2capConn) (group : List Nat) (joined : L2capConn) :
    Prop where
  others : ∀ other, other ∉ group → joined.chan other = conn.chan other
  nodup : joined.channels.Nodup
  channels : ∀ other ∈ joined.channels, other ∈ group ∨ other ∈ conn.channels
  halted : joined.halted = conn.halted
  counter : joined.ident = conn.ident
  rtx : ∀ member ∈ group, (joined.chan member).rtx = false

namespace Joins

variable {conn joined ready : L2capConn} {group : List Nat}

theorem nil (timed : conn.Timed) : conn.Joins [] conn :=
  ⟨fun _ _ => rfl, timed.nodup, fun _ listed => .inr listed, rfl, rfl,
    nofun⟩

section

variable (joins : conn.Joins group joined)
include joins

theorem cons (enters : joined.Enters address ready)
    (unlisted : address ∉ joined.channels) :
    conn.Joins (address :: group) ready := by
  refine ⟨?_, ?_, ?_, enters.halted.trans joins.halted,
    enters.counter.trans joins.counter, ?_⟩
  · intro other outside
    rw [mem_cons, not_or] at outside
    rw [enters.others other outside.1]
    exact joins.others other outside.2
  · rw [enters.channels]
    exact joins.nodup.append (nodup_singleton _) (by simpa using unlisted)
  · intro other listed
    rcases enters.listed listed with same | before
    · exact .inl (same ▸ mem_cons_self)
    · exact (joins.channels other before).imp_left (mem_cons_of_mem _)
  · intro member inGroup
    by_cases same : member = address
    · rw [same]
      exact enters.rtx
    · rw [enters.others member same]
      exact joins.rtx member ((mem_cons.mp inGroup).resolve_left same)

theorem congr {other : List Nat}
    (same : ∀ member, member ∈ group ↔ member ∈ other) :
    conn.Joins other joined :=
  ⟨fun address outside => joins.others address (mt (same address).mp outside),
    joins.nodup,
    fun address listed =>
      (joins.channels address listed).imp_left (same address).mp,
    joins.halted, joins.counter,
    fun member inGroup => joins.rtx member ((same member).mpr inGroup)⟩

theorem nextIdent : joined.nextIdent = conn.nextIdent := by
  unfold L2capConn.nextIdent
  rw [joins.counter]

theorem requested (timed : conn.Timed)
    (dynamic : ∀ member ∈ group, member ∉ fixedCids) (fresh : conn.Fresh group)
    (env : L2capEnv) : (joined.ecredConnReqSend env group).Timed := by
  cases group with
  | nil =>
    apply timed.cleared dynamic joins.others joins.nodup joins.channels joins.rtx
    intro alive
    exact ⟨joins.halted ▸ alive, nofun⟩
  | cons first rest =>
    by_cases available : env.alloc joined.nextIdent = true
    · have requests :=
        joined.ecredConnReqSend_requests available first rest
      apply timed.group fresh dynamic
      · intro other outside
        rw [requests.others other outside]
        exact joins.others other outside
      · rw [requests.channels]
        exact joins.nodup
      · intro other listed
        rw [requests.channels] at listed
        exact joins.channels other listed
      · rw [requests.halted, joins.halted]
        exact id
      · intro member inGroup
        rw [← joins.nextIdent]
        exact requests.ident member inGroup
      · intro member inGroup running
        cases sends : env.send joined.nextIdent with
        | true =>
          exact ⟨requests.sent sends member inGroup,
            fun mate mateIn _ => requests.sent sends mate mateIn⟩
        | false =>
          rw [(requests.unsent sends member inGroup).1,
            joins.rtx member inGroup] at running
          exact nomatch running
    · rw [joined.ecredConnReqSend_halts available]
      apply timed.cleared dynamic
      · exact joins.others
      · exact joins.nodup
      · exact joins.channels
      · exact joins.rtx
      · exact nofun

end

end Joins

theorem foldl_chanRemove_chan (addresses : List Nat) (conn : L2capConn) :
    (addresses.foldl chanRemove conn).chan = conn.chan ∧
      (addresses.foldl chanRemove conn).halted = conn.halted := by
  induction addresses generalizing conn with
  | nil => exact ⟨rfl, rfl⟩
  | cons address rest ih => exact ih (conn.chanRemove address)

theorem foldl_chanRemove_channels (addresses : List Nat) (conn : L2capConn)
    (nodup : conn.channels.Nodup) :
    (addresses.foldl chanRemove conn).channels.Nodup ∧
      ∀ other, other ∈ (addresses.foldl chanRemove conn).channels ↔
        other ∈ conn.channels ∧ other ∉ addresses := by
  induction addresses generalizing conn with
  | nil => exact ⟨nodup, fun other => by simp⟩
  | cons address rest ih =>
    obtain ⟨restNodup, members⟩ :=
      ih (conn.chanRemove address) (nodup.erase address)
    refine ⟨restNodup, ?_⟩
    intro other
    rw [foldl_cons, members, chanRemove_channels, nodup.mem_erase_iff,
      mem_cons, not_or]
    exact ⟨fun ⟨⟨different, listed⟩, later⟩ => ⟨listed, different, later⟩,
      fun ⟨listed, different, later⟩ => ⟨⟨different, listed⟩, later⟩⟩

theorem ecredInit_cases (conn : L2capConn) (config : L2capConfig)
    (address psm : Nat) : (∃ change : LeChan → LeChan,
        (∀ chan, (change chan).rtx = chan.rtx ∧ (change chan).ident = chan.ident ∧
          (change chan).request = chan.request ∧
          (change chan).encryptPending = chan.encryptPending) ∧
        conn.ecredInit config address psm = (conn.set address change, false)) ∨
      ∃ ready, conn.ecredInit config address psm = (ready, true) ∧
        conn.Enters address ready := by
  unfold ecredInit
  split
  · refine .inl ⟨id, fun _ => ⟨rfl, rfl, rfl, rfl⟩, ?_⟩
    rw [set_same _ _ _ rfl]
  simp only
  unfold chanRxInit chanTxInit
  rw [set_set]
  split
  · refine .inl ⟨_, ?_, rfl⟩
    exact fun _ => ⟨rfl, rfl, rfl, rfl⟩
  rename_i added success
  have linked := chanAdd_enters success fun _ => rfl
  exact .inr ⟨_, rfl, linked.adjust (fun _ => rfl) (fun _ => rfl)⟩

theorem ecredInitAll_timed {config : L2capConfig} {psm : Nat}
    {conn : L2capConn} (timed : conn.Timed) {group added : List Nat}
    {joined : L2capConn} (joins : conn.Joins added joined)
    (nodup : group.Nodup) (apart : ∀ address ∈ group, address ∉ added)
    (addedDynamic : ∀ address ∈ added, address ∉ fixedCids)
    (unlisted : ∀ address ∈ group, conn.Released address) :
    (∃ ready, ecredInitAll config psm added group joined = (ready, true) ∧
        conn.Joins (group.reverse ++ added) ready) ∨
      ∃ failed, ecredInitAll config psm added group joined = (failed, false) ∧
        failed.Timed := by
  induction group generalizing added joined with
  | nil => exact .inl ⟨joined, rfl, joins⟩
  | cons address rest ih =>
    have here := unlisted address mem_cons_self
    have notAdded := apart address mem_cons_self
    have notJoined : address ∉ joined.channels := by
      intro listed
      exact (joins.channels address listed).elim notAdded here.2.1
    unfold ecredInitAll
    rcases joined.ecredInit_cases config address psm with
      ⟨change, mild, fails⟩ | ⟨ready, succeeds, enters⟩
    · rw [fails]
      refine .inr ⟨_, rfl, ?_⟩
      have tweaked : (conn.set address change).Timed := by
        apply timed.tweak
        · exact fun chan running => (mild chan).1 ▸ running
        · exact fun chan => (mild chan).2.1
        · exact fun chan => (mild chan).2.2.1
        · exact fun chan pending => .inl ((mild chan).2.2.2 ▸ pending)
      have removed := foldl_chanRemove_chan added (joined.set address change)
      obtain ⟨leftNodup, left⟩ := foldl_chanRemove_channels added
        (joined.set address change) joins.nodup
      apply @Timed.cleared _ _ tweaked added addedDynamic
      · intro other outside
        rw [removed.1]
        by_cases same : other = address
        · subst same
          rw [set_chan_self, set_chan_self, joins.others other outside]
        · rw [set_chan_ne _ _ _ same, set_chan_ne _ _ _ same]
          exact joins.others other outside
      · exact leftNodup
      · intro other listed
        exact joins.channels other ((left other).mp listed).1
      · intro member inAdded
        have different : member ≠ address := fun same => notAdded (same ▸ inAdded)
        rw [removed.1, set_chan_ne _ _ _ different]
        exact joins.rtx member inAdded
      · intro alive
        refine ⟨?_, fun member inAdded listed =>
          ((left member).mp listed).2 inAdded⟩
        have same : (added.foldl chanRemove
            (joined.set address change)).halted = conn.halted :=
          removed.2.trans joins.halted
        exact same ▸ alive
    · rw [succeeds]
      have step := ih (joins.cons enters notJoined)
        (nodup_cons.mp nodup).2
      simp only [reverse_cons, append_assoc, singleton_append]
      apply step
      · intro other inRest
        rw [mem_cons, not_or]
        refine ⟨?_, apart other (mem_cons_of_mem _ inRest)⟩
        intro same
        exact (nodup_cons.mp nodup).1 (same ▸ inRest)
      · intro member inAdded
        rcases mem_cons.mp inAdded with same | before
        · rw [same]
          exact here.2.2
        · exact addedDynamic member before
      · exact fun other inRest =>
          unlisted other (mem_cons_of_mem _ inRest)

theorem Timed.ecredChanConnect {conn : L2capConn} (timed : conn.Timed)
    (config : L2capConfig) (env : L2capEnv) {chans : List Nat} (psm : Nat)
    (nodup : chans.Nodup) (released : ∀ address ∈ chans, conn.Released address)
    (fresh : conn.Fresh (chans.take ecredChanMax)) :
    (conn.ecredChanConnect config env chans psm).Timed := by
  have short : ∀ address ∈ chans.take ecredChanMax, conn.Released address :=
    fun address member => released address (mem_of_mem_take member)
  have inits := @ecredInitAll_timed config psm _ timed
    (chans.take ecredChanMax) [] conn (Joins.nil timed)
    (nodup.sublist (take_sublist _ _))
    nofun
    nofun short
  unfold L2capConn.ecredChanConnect
  rcases inits with ⟨ready, succeeds, joins⟩ | ⟨_, fails, failedTimed⟩
  · rw [succeeds]
    have joinsGroup : conn.Joins (chans.take ecredChanMax) ready := by
      apply joins.congr
      intro member
      rw [append_nil, mem_reverse]
    exact joinsGroup.requested timed
      (fun member inGroup => (short member inGroup).2.2) fresh env
  · rw [fails]
    exact failedTimed

end L2capConn

end ZephyrBluetooth.Host
