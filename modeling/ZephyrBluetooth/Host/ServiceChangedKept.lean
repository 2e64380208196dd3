import ZephyrBluetooth.Host.ServiceChanged

namespace ZephyrBluetooth.Host

open Data List

variable {accepted : Bool} {index : Nat} {front back : List CccCfg}
  {data : List (BitVec 8)}

def HandleRange.Within (range : HandleRange) (start stop : Nat) : Prop :=
  start ≤ range.start ∧ range.stop ≤ stop

variable {key : AddrWithId} {start stop : Nat}

namespace GattScCfg

variable {cfg : GattScCfg} {range : HandleRange}

theorem merge_keeps (inside : range.Within cfg.start cfg.stop) :
    range.Within (cfg.merge start stop).start (cfg.merge start stop).stop := by
  have real := range.real
  obtain ⟨below, above⟩ := inside
  unfold merge
  split
  · omega
  split
  · exact ⟨below, above⟩
  · exact ⟨by simp only; omega, by simp only; omega⟩

theorem merge_adds (inside : range.Within start stop) :
    range.Within (cfg.merge start stop).start (cfg.merge start stop).stop := by
  obtain ⟨below, above⟩ := inside
  unfold merge
  split
  · exact ⟨below, above⟩
  split
  · exact ⟨by omega, by omega⟩
  · exact ⟨by simp only; omega, by simp only; omega⟩

@[simp] theorem merge_isFor (key : AddrWithId) (start stop : Nat) :
    isFor key (cfg.merge start stop) = isFor key cfg := by
  unfold merge
  split
  · rfl
  · split <;> rfl

theorem isFor_iff :
    isFor key cfg = true ↔ cfg.id = key.id ∧ cfg.peer = key.addr := by
  simp [isFor]

theorem isFor_other {key other : AddrWithId} (own : isFor key cfg = true)
    (differs : other ≠ key) : isFor other cfg = false := by
  rw [isFor_iff] at own
  cases probe : isFor other cfg with
  | false => rfl
  | true =>
    rw [isFor_iff] at probe
    obtain ⟨_, _⟩ := key
    obtain ⟨_, _⟩ := other
    simp_all

end GattScCfg

section Records

variable {cfgs : List GattScCfg} {key other : AddrWithId} {range : HandleRange}

def StoredFor (cfgs : List GattScCfg) (key : AddrWithId) (range : HandleRange) :
    Prop :=
  ∃ cfg, findScCfg cfgs key = some cfg ∧ range.Within cfg.start cfg.stop

theorem findScCfg_merge (start stop : Nat) :
    findScCfg (changeScCfg key (GattScCfg.merge start stop) cfgs) key =
      (findScCfg cfgs key).map (GattScCfg.merge start stop) := by
  apply find_change_same
  intro cfg own
  rw [GattScCfg.merge_isFor]
  exact own

theorem findScCfg_other {change : GattScCfg → GattScCfg} (differs : other ≠ key)
    (change_misses : ∀ cfg, GattScCfg.isFor key cfg = true →
      GattScCfg.isFor other (change cfg) = false) :
    findScCfg (changeScCfg key change cfgs) other = findScCfg cfgs other := by
  apply find_change_other
  intro cfg found
  have own := find?_some found
  exact ⟨GattScCfg.isFor_other own differs, change_misses cfg own⟩

theorem findScCfg_scSave (real : other.addr ≠ .any) (differs : other ≠ key)
    (start stop : Nat) :
    findScCfg (scSave key start stop cfgs) other = findScCfg cfgs other := by
  unfold scSave
  split
  · apply findScCfg_other differs
    intro cfg own
    rw [GattScCfg.merge_isFor]
    exact GattScCfg.isFor_other own differs
  · apply findScCfg_other
    · rintro rfl
      exact real rfl
    · intro cfg _
      rw [GattScCfg.merge_isFor]
      apply GattScCfg.isFor_other _ differs
      rw [GattScCfg.isFor_iff]
      exact ⟨rfl, rfl⟩

theorem findScCfg_scSave_own (start stop : Nat)
    (known : (findScCfg cfgs key).isSome) :
    findScCfg (scSave key start stop cfgs) key =
      (findScCfg cfgs key).map (GattScCfg.merge start stop) := by
  unfold scSave
  rw [if_pos known, findScCfg_merge]

theorem StoredFor.afterSave (stored : StoredFor cfgs other range)
    (real : other.addr ≠ .any) (start stop : Nat) :
    StoredFor (scSave key start stop cfgs) other range := by
  obtain ⟨cfg, found, inside⟩ := stored
  by_cases same : other = key
  · subst same
    refine ⟨cfg.merge start stop, ?_, GattScCfg.merge_keeps inside⟩
    rw [findScCfg_scSave_own start stop (by simp [found]), found]
    rfl
  · refine ⟨cfg, ?_, inside⟩
    rw [findScCfg_scSave real same, found]

theorem StoredFor.saved (inside : range.Within start stop)
    (known : (findScCfg cfgs key).isSome) :
    StoredFor (scSave key start stop cfgs) key range := by
  obtain ⟨cfg, found⟩ := Option.isSome_iff_exists.mp known
  refine ⟨cfg.merge start stop, ?_, GattScCfg.merge_adds inside⟩
  rw [findScCfg_scSave_own start stop known, found]
  rfl

theorem isSome_scSave (real : other.addr ≠ .any) (start stop : Nat)
    (known : (findScCfg cfgs other).isSome) :
    (findScCfg (scSave key start stop cfgs) other).isSome := by
  by_cases same : other = key
  · subst same
    rw [findScCfg_scSave_own start stop known]
    simpa using known
  · rwa [findScCfg_scSave real same]

section

variable (stored : StoredFor cfgs other range)
include stored

theorem StoredFor.afterClear
    (real : other.addr ≠ .any) (differs : other ≠ key) :
    StoredFor (scClear key cfgs) other range := by
  obtain ⟨cfg, found, inside⟩ := stored
  refine ⟨cfg, ?_, inside⟩
  unfold scClear
  rw [findScCfg_other differs, found]
  intro old _
  rw [Bool.eq_false_iff, ne_eq, GattScCfg.isFor_iff]
  rintro ⟨-, addr⟩
  exact real addr.symm

theorem StoredFor.afterClears (real : other.addr ≠ .any)
    (differs : other ≠ key) (times : List CccCfg) :
    StoredFor (times.foldl (fun cfgs _ => scClear key cfgs) cfgs) other range := by
  induction times generalizing cfgs with
  | nil => exact stored
  | cons _ rest ih => exact ih (stored.afterClear real differs)

theorem StoredFor.afterReset (differs : other ≠ key) :
    StoredFor (changeScCfg key GattScCfg.reset cfgs) other range := by
  obtain ⟨cfg, found, inside⟩ := stored
  refine ⟨cfg, ?_, inside⟩
  rw [findScCfg_other differs, found]
  intro old own
  exact GattScCfg.isFor_other own differs

end

end Records

namespace ScState

variable {state : ScState} {range : HandleRange} {start stop : Nat}

def owner (state : ScState) (cfg : CccCfg) : Option GattConn :=
  state.lookup cfg.id cfg.peer

def client (state : ScState) (cfg : CccCfg) : AddrWithId :=
  match state.owner cfg with
  | some conn => conn.key
  | none => ⟨cfg.peer, cfg.id⟩

def Pending (state : ScState) (range : HandleRange) : Prop :=
  state.sc.rangeChanged = true ∧ range.Within state.sc.start state.sc.stop

/-- The range is in an indication to the client of the entry that awaits its
confirmation. -/
def InFlight (state : ScState) (cfg : CccCfg) (range : HandleRange) : Prop :=
  ∃ conn flight, state.owner cfg = some conn ∧ flight ∈ state.flights ∧
    flight.index = conn.index ∧ range.Within flight.start flight.stop

/-- What a bonded client that is subscribed has not yet confirmed waits, is
stored for it, or is being indicated to it. -/
def NoLoss (state : ScState) : Prop :=
  ∀ slot cfg, state.ccc.cfgs[slot]? = some cfg → cfg.value = cccIndicate →
    state.client cfg ∈ state.bonds → ∀ place range,
      state.since slot ≤ place → state.changes[place]? = some range →
      state.Pending range ∨ StoredFor state.cfgs (state.client cfg) range ∨
        state.InFlight cfg range

def Indicated (state : ScState) (cfg : CccCfg) (place : Nat)
    (range : HandleRange) : Prop :=
  ∃ conn flight, state.owner cfg = some conn ∧ flight ∈ state.flights ∧
    flight.index = conn.index ∧ place < flight.upTo ∧
    range.Within flight.start flight.stop

def Held (state : ScState) (cfg : CccCfg) (place : Nat) (range : HandleRange) :
    Prop :=
  state.Pending range ∨ StoredFor state.cfgs (state.client cfg) range ∨
    state.Indicated cfg place range

structure Kept (state : ScState) : Prop where
  apart : ∀ conn ∈ state.ccc.conns, ∀ other ∈ state.ccc.conns, conn = other ∨
    (conn.index ≠ other.index ∧ conn.meets other = false)
  named : ∀ cfg ∈ state.ccc.cfgs, cfg.peer = .any → cfg.value = 0
  valued : ∀ cfg ∈ state.ccc.cfgs, cfg.value ≠ 0 → ∀ conn ∈ state.ccc.conns,
    cfg.id = conn.id → cfg.peer = conn.initAddr → state.ccc.value ≠ 0
  held : ∀ slot cfg, state.ccc.cfgs[slot]? = some cfg →
    cfg.value = cccIndicate → ∀ place range, state.since slot ≤ place →
      state.changes[place]? = some range → state.Held cfg place range

theorem Kept.noLoss (kept : state.Kept) : state.NoLoss := by
  intro slot cfg found subscribed _ place range later changed
  rcases kept.held slot cfg found subscribed place range later changed with
    pending | stored | ⟨conn, flight, owner, member, here, _, inside⟩
  · exact .inl pending
  · exact .inr (.inl stored)
  · exact .inr (.inr ⟨conn, flight, owner, member, here, inside⟩)

variable {cfg : CccCfg} {conn : GattConn}

section Owners

theorem owner_some (owned : state.owner cfg = some conn) :
    conn ∈ state.ccc.conns ∧ conn.isPeer cfg = true := by
  have own := find?_some owned
  exact ⟨mem_of_find?_eq_some owned, own⟩

theorem owner_of_apart
    (apart : ∀ conn ∈ state.ccc.conns, ∀ other ∈ state.ccc.conns,
      conn = other ∨ (conn.index ≠ other.index ∧ conn.meets other = false))
    (live : conn ∈ state.ccc.conns)
    (own : conn.isPeer cfg = true) : state.owner cfg = some conn := by
  cases found : state.owner cfg with
  | none =>
    have never := find?_eq_none.mp found conn live
    exact absurd own never
  | some other =>
    obtain ⟨there, shared⟩ := owner_some found
    rcases apart conn live other there with rfl | ⟨_, apart⟩
    · rfl
    · rw [GattConn.meets_of_isPeer own shared] at apart
      cases apart

theorem Kept.owner_eq (kept : state.Kept) (live : conn ∈ state.ccc.conns)
    (own : conn.isPeer cfg = true) : state.owner cfg = some conn :=
  owner_of_apart kept.apart live own

theorem owner_none (missing : ∀ conn ∈ state.ccc.conns, conn.isPeer cfg = false) :
    state.owner cfg = none := by
  unfold owner lookup
  rw [find?_eq_none]
  intro conn live own
  have never := missing conn live
  rw [GattConn.isPeer, own] at never
  cases never

theorem isPeer_of_absent (absent : state.owner cfg = none)
    (live : conn ∈ state.ccc.conns) : conn.isPeer cfg = false := by
  have never := find?_eq_none.mp absent conn live
  simpa [GattConn.isPeer] using never

theorem client_owned
    (owned : state.owner cfg = some conn) : state.client cfg = conn.key := by
  simp [client, owned]

theorem client_absent (absent : state.owner cfg = none) :
    state.client cfg = ⟨cfg.peer, cfg.id⟩ := by
  simp [client, absent]

theorem client_real (named : cfg.peer ≠ .any) : (state.client cfg).addr ≠ .any := by
  cases owned : state.owner cfg with
  | none =>
    rw [client_absent owned]
    exact named
  | some conn =>
    rw [client_owned owned]
    exact conn.dst_real

theorem Kept.named_of (kept : state.Kept) {slot : Nat}
    (found : state.ccc.cfgs[slot]? = some cfg)
    (subscribed : cfg.value = cccIndicate) : cfg.peer ≠ .any := by
  intro free
  have none := kept.named cfg (mem_of_getElem? found) free
  rw [none] at subscribed
  cases subscribed

end Owners

section Process

theorem saveAll_keeps (rest saved : List GattScCfg)
    (real : key.addr ≠ .any) (stored : StoredFor saved key range) :
    StoredFor (rest.foldl (fun saved cfg =>
      if cfg.peer = .any then saved
      else if (state.lookup cfg.id cfg.peer).isSome then saved
      else scSave ⟨cfg.peer, cfg.id⟩ start stop saved) saved) key range := by
  induction rest generalizing saved with
  | nil => exact stored
  | cons cfg rest ih =>
    rw [foldl_cons]
    apply ih
    split
    · exact stored
    split
    · exact stored
    · exact stored.afterSave real start stop

theorem saveAll_adds (rest saved : List GattScCfg)
    (real : key.addr ≠ .any) (inside : range.Within start stop)
    (absent : state.lookup key.id key.addr = none)
    (listed : ∃ cfg ∈ rest, GattScCfg.isFor key cfg = true)
    (known : (findScCfg saved key).isSome) :
    StoredFor (rest.foldl (fun saved cfg =>
      if cfg.peer = .any then saved
      else if (state.lookup cfg.id cfg.peer).isSome then saved
      else scSave ⟨cfg.peer, cfg.id⟩ start stop saved) saved) key range := by
  induction rest generalizing saved with
  | nil =>
    obtain ⟨cfg, member, _⟩ := listed
    cases member
  | cons cfg rest ih =>
    rw [foldl_cons]
    by_cases own : GattScCfg.isFor key cfg = true
    · obtain ⟨id, peer⟩ := GattScCfg.isFor_iff.mp own
      apply saveAll_keeps rest _ real
      rw [id, peer, if_neg real, absent]
      exact StoredFor.saved inside known
    · apply ih
      · obtain ⟨other, member, theirs⟩ := listed
        rcases mem_cons.mp member with rfl | member
        · exact absurd theirs own
        · exact ⟨other, member, theirs⟩
      · split
        · exact known
        split
        · exact known
        · exact isSome_scSave real start stop known

theorem indicateAll_sends (start stop : Nat) {accepts : Nat → Bool}
    {cfgs : List CccCfg}
    (accepted : ∀ cfg ∈ cfgs, cfg.value = cccIndicate → ∀ conn,
      state.owner cfg = some conn → accepts conn.index = true)
    (member : cfg ∈ cfgs)
    (subscribed : cfg.value = cccIndicate) (owned : state.owner cfg = some conn) :
    ⟨conn.index, start, stop, false, state.changes.length⟩ ∈
      state.indicateAll accepts start stop cfgs := by
  induction cfgs with
  | nil => cases member
  | cons first rest ih =>
    have later := ih fun cfg inside =>
      accepted cfg (mem_cons_of_mem _ inside)
    have sends := accepted first mem_cons_self
    unfold indicateAll
    rcases mem_cons.mp member with rfl | member
    · have found : state.lookup cfg.id cfg.peer = some conn := owned
      simp [subscribed, found, sends subscribed conn owned]
    split
    · exact later member
    rename_i indicates
    cases found : state.lookup first.id first.peer with
    | none => exact later member
    | some other =>
      have taken := sends (not_not.mp indicates) other found
      simp only [taken, if_true]
      exact mem_cons_of_mem _ (later member)

end Process

def Unstored (cfgs : List GattScCfg) (key : AddrWithId) : Prop :=
  ∀ cfg, findScCfg cfgs key = some cfg → cfg.start = 0 ∧ cfg.stop = 0

theorem Unstored.not_stored {cfgs : List GattScCfg}
    (unstored : Unstored cfgs key) : ¬ StoredFor cfgs key range := by
  rintro ⟨cfg, found, _, _⟩
  have zero := unstored cfg found
  have real := range.real
  omega

def Lossless (state : ScState) : ScInput → Prop
  | .process ready accepts =>
    state.sc.rangeChanged = true → ∀ cfg ∈ state.ccc.cfgs,
      cfg.value = cccIndicate → ready = true ∧
        (state.owner cfg = none → (findScCfg state.cfgs ⟨cfg.peer, cfg.id⟩).isSome) ∧
        ∀ conn, state.owner cfg = some conn → accepts conn.index = true
  | .ended place err =>
    ∀ flight, state.flights[place]? = some flight →
      ∀ cfg ∈ state.ccc.cfgs, cfg.value = cccIndicate →
        ∀ conn, state.owner cfg = some conn → conn.index = flight.index → err = 0
  | .connect conn _ accepted =>
    state.ccc.admits conn = true → ∀ cfg ∈ state.ccc.cfgs,
      cfg.value = cccIndicate → conn.isPeer cfg = true →
        (cfg.peer = conn.dst ∨ Unstored state.cfgs ⟨cfg.peer, cfg.id⟩) ∧
        (accepted = true ∨ Unstored state.cfgs conn.key)
  | .encryptChange index _ accepted =>
    ∀ conn, state.ccc.find index = some conn → ∀ cfg ∈ state.ccc.cfgs,
      cfg.value = cccIndicate → conn.isPeer cfg = true →
        accepted = true ∨ Unstored state.cfgs conn.key
  | .write index offset data =>
    ∀ conn value, state.ccc.find index = some conn →
      CccState.writtenValue offset data = some value → value ≠ cccIndicate →
      ∀ slot cfg, slot ≠ state.slotOf conn →
        state.ccc.cfgs[slot]? = some cfg → cfg.value = cccIndicate →
        conn.isPeer cfg = true → Unstored state.cfgs conn.key
  | .resolve index _ _ =>
    ∀ conn, state.ccc.find index = some conn → ∀ cfg ∈ state.ccc.cfgs,
      cfg.value = cccIndicate → conn.isPeer cfg = true → Unstored state.cfgs conn.key
  | .disconnect index =>
    ∀ conn, state.ccc.find index = some conn → ∀ cfg ∈ state.ccc.cfgs,
      cfg.value = cccIndicate → conn.isPeer cfg = true →
        conn.key ∈ state.bonds ∨ state.ccc.value = 0 →
          ∀ flight ∈ state.flights, flight.index ≠ index
  | _ => True

section SameClients

variable {next : ScState}

section

variable (kept : state.Kept)
include kept

theorem Kept.sameCcc (same : next.ccc = state.ccc)
    (held : ∀ slot cfg, state.ccc.cfgs[slot]? = some cfg →
      cfg.value = cccIndicate → ∀ place range, next.since slot ≤ place →
        next.changes[place]? = some range → next.Held cfg place range) :
    next.Kept where
  apart := by
    rw [same]
    exact kept.apart
  named := by
    rw [same]
    exact kept.named
  valued := by
    rw [same]
    exact kept.valued
  held := by
    rw [same]
    exact held

theorem Kept.scIndicate (range : HandleRange) :
    (state.scIndicate range).Kept := by
  have waits : (state.scIndicate range).Pending range := by
    simp only [ScState.scIndicate, Pending, HandleRange.Within]
    split
    · simp
    rename_i changed
    have changed : state.sc.rangeChanged = true := by simpa using changed
    split
    · rename_i inside
      exact ⟨changed, inside⟩
    · exact ⟨changed, by simp only; omega, by simp only; omega⟩
  have stays : ∀ other, state.Pending other →
      (state.scIndicate range).Pending other := by
    intro other ⟨changed, below, above⟩
    simp only [ScState.scIndicate, Pending, HandleRange.Within, changed]
    split
    · contradiction
    split
    · exact ⟨changed, below, above⟩
    · exact ⟨rfl, by simp only; omega, by simp only; omega⟩
  refine kept.sameCcc (rfl : (state.scIndicate range).ccc = state.ccc) ?_
  intro slot cfg found subscribed place other later changed
  have changed : (state.changes ++ [range])[place]? = some other := changed
  by_cases old : place < state.changes.length
  · rw [getElem?_append_left old] at changed
    rcases kept.held slot cfg found subscribed place other later changed with
      pending | stored | sent
    · exact .inl (stays other pending)
    · exact .inr (.inl stored)
    · exact .inr (.inr sent)
  · rw [getElem?_append_right (by omega), getElem?_singleton] at changed
    split at changed
    · cases changed
      exact .inl waits
    · cases changed

theorem Kept.scProcess {ready : Bool} {accepts : Nat → Bool}
    (lossless : state.Lossless (.process ready accepts)) :
    (state.scProcess ready accepts).Kept := by
  cases ready with
  | false =>
    refine kept.sameCcc (rfl : (state.scProcess false accepts).ccc = state.ccc) ?_
    intro slot cfg found subscribed place range later changed
    have member := mem_of_getElem? found
    rcases kept.held slot cfg found subscribed place range later changed with
      ⟨waits, _⟩ | stored | sent
    · exact absurd (lossless waits cfg member subscribed).1 (by decide)
    · exact .inr (.inl stored)
    · exact .inr (.inr sent)
  | true =>
    refine kept.sameCcc (rfl : (state.scProcess true accepts).ccc = state.ccc) ?_
    intro slot cfg found subscribed place range later changed
    have member := mem_of_getElem? found
    have named := kept.named_of found subscribed
    have real : (state.client cfg).addr ≠ .any := client_real named
    have number : place < state.changes.length :=
      (List.getElem?_eq_some_iff.mp changed).1
    rcases kept.held slot cfg found subscribed place range later changed with
      ⟨waits, inside⟩ | stored | ⟨conn, flight, owned, sent, rest⟩
    · obtain ⟨_, recorded, _⟩ := lossless waits cfg member subscribed
      cases owned : state.owner cfg with
      | none =>
        have known := recorded owned
        have client := client_absent owned
        refine .inr (.inl ?_)
        show StoredFor _ (state.client cfg) range
        rw [client] at real ⊢
        obtain ⟨record, there⟩ := Option.isSome_iff_exists.mp known
        exact saveAll_adds state.cfgs state.cfgs real inside owned
          ⟨record, mem_of_find?_eq_some there, find?_some there⟩
          known
      | some conn =>
        have indicated := indicateAll_sends state.sc.start state.sc.stop
          (fun other inside indicates =>
            (lossless waits other inside indicates).2.2) member subscribed
          owned
        exact .inr (.inr ⟨conn, _, owned,
          mem_append_right _ indicated, rfl, number, inside⟩)
    · exact .inr (.inl (saveAll_keeps state.cfgs state.cfgs real stored))
    · exact .inr (.inr ⟨conn, flight, owned, mem_append_left _ sent, rest⟩)

theorem Kept.find_owner {conn other : GattConn}
    (owned : state.owner cfg = some conn)
    (found : state.ccc.find conn.index = some other) : other = conn := by
  obtain ⟨live, here⟩ := CccState.find_some found
  rcases kept.apart other live conn (owner_some owned).1 with same | ⟨differs, _⟩
  · exact same
  · exact absurd here differs

theorem Kept.landed {flights : List ScFlight}
    {since : Nat → Nat} {indicatePending : Bool}
    (grows : ∀ slot, state.since slot ≤ since slot)
    (flying : ∀ slot cfg, state.ccc.cfgs[slot]? = some cfg →
      cfg.value = cccIndicate → ∀ conn, state.owner cfg = some conn →
      ∀ flight ∈ state.flights, flight.index = conn.index →
      ∀ place, since slot ≤ place → place < flight.upTo → flight ∈ flights) :
    ScState.Kept
      { state with
        flights, since, sc := { state.sc with indicatePending } } := by
  refine kept.sameCcc rfl ?_
  intro slot cfg found subscribed place range later changed
  have before : state.since slot ≤ place := le_trans (grows slot) later
  rcases kept.held slot cfg found subscribed place range before changed with
    waits | stored | ⟨conn, flight, owned, sent, here, number, inside⟩
  · exact .inl waits
  · exact .inr (.inl stored)
  · have still := flying slot cfg found subscribed conn owned flight sent here
      place later number
    exact .inr (.inr ⟨conn, flight, owned, still, here, number, inside⟩)

theorem Kept.onEnded {place err : Nat}
    (lossless : state.Lossless (.ended place err)) :
    (state.onEnded place err).Kept := by
  unfold ScState.onEnded
  cases ends : state.flights[place]? with
  | none => exact kept
  | some flight =>
    have others : ∀ other ∈ state.flights, other ≠ flight →
        other ∈ state.flights.eraseIdx place := by
      intro other member differs
      obtain ⟨index, there⟩ := mem_iff_getElem?.mp member
      refine mem_eraseIdx_iff_getElem?.mpr ⟨index, ?_, there⟩
      rintro rfl
      cases ends.symm.trans there
      exact differs rfl
    by_cases confirmed : err = 0
    · simp only [confirmed, if_true]
      unfold confirm
      cases found : state.ccc.find flight.index with
      | none =>
        apply kept.landed fun _ => le_refl _
        intro slot cfg _ _ conn owned other sent here _ _ _
        apply others other sent
        rintro rfl
        have never := find?_eq_none.mp found conn (owner_some owned).1
        exact never (by simpa using here.symm)
      | some =>
        apply kept.landed
        · intro slot
          split
          · exact le_refl _
          split
          · exact le_max_left _ _
          · exact le_refl _
        · intro slot cfg entry _ owner owned other sent here at_ later number
          apply others other sent
          rintro rfl
          rw [here] at found
          have same := kept.find_owner owned found
          subst same
          have own := (owner_some owned).2
          simp only [entry, own, if_true] at later
          omega
    · simp only [confirmed, if_false]
      apply kept.landed fun _ => le_refl _
      intro slot cfg entry subscribed conn owned other sent here _ _ _
      apply others other sent
      rintro rfl
      exact confirmed (lossless other ends cfg (mem_of_getElem? entry)
        subscribed conn owned here.symm)

end

theorem meets_of_key {conn other : GattConn} (same : conn.key = other.key) :
    conn.meets other = true := by
  have dst : conn.dst = other.dst := congrArg AddrWithId.addr same
  have id : conn.id = other.id := congrArg AddrWithId.id same
  simp [GattConn.meets, dst, id]

theorem Kept.owner_of_client (kept : state.Kept) (live : conn ∈ state.ccc.conns)
    (same : state.client cfg = conn.key) : state.owner cfg = some conn := by
  cases owned : state.owner cfg with
  | none =>
    rw [client_absent owned] at same
    have peer : cfg.peer = conn.dst := congrArg AddrWithId.addr same
    have id : cfg.id = conn.id := congrArg AddrWithId.id same
    rw [← owned]
    exact kept.owner_eq live (GattConn.isPeer_iff.mpr ⟨id, .inl peer⟩)
  | some other =>
    rw [client_owned owned] at same
    rcases kept.apart other (owner_some owned).1 conn live with rfl | ⟨_, apart⟩
    · rfl
    · rw [meets_of_key same] at apart
      cases apart

theorem Kept.scRestore (kept : state.Kept) (live : conn ∈ state.ccc.conns)
    (sends : ∀ cfg ∈ state.ccc.cfgs, cfg.value = cccIndicate →
      conn.isPeer cfg = true → accepted = true ∨ Unstored state.cfgs conn.key) :
    (state.scRestore conn accepted).Kept := by
  unfold ScState.scRestore
  cases there : findScCfg state.cfgs conn.key with
  | none => exact kept
  | some record =>
    simp only
    split
    · exact kept
    refine kept.sameCcc rfl ?_
    intro slot cfg found subscribed place range later changed
    have number : place < state.changes.length :=
      (List.getElem?_eq_some_iff.mp changed).1
    rcases kept.held slot cfg found subscribed place range later changed with
      waits | stored | ⟨owner, flight, owned, sent, rest⟩
    · exact .inl waits
    · by_cases own : state.client cfg = conn.key
      · have owned := kept.owner_of_client live own
        have moved := sends cfg (mem_of_getElem? found) subscribed
          (owner_some owned).2
        rw [own] at stored
        rcases moved with rfl | unstored
        · obtain ⟨_, also, inside⟩ := stored
          cases there.symm.trans also
          have sent : (⟨conn.index, record.start, record.stop, true,
              state.changes.length⟩ : ScFlight) ∈ state.flights ++
                [⟨conn.index, record.start, record.stop, true,
                  state.changes.length⟩] :=
            mem_append_right _ (mem_singleton_self _)
          exact .inr (.inr ⟨conn, _, owned, sent, rfl, number, inside⟩)
        · exact absurd stored unstored.not_stored
      · exact .inr (.inl (stored.afterReset own))
    · refine .inr (.inr ⟨owner, flight, owned, ?_, rest⟩)
      split
      · exact mem_append_left _ sent
      · exact sent

end SameClients

section Connections

theorem highest_ne {cfgs : List CccCfg} (member : cfg ∈ cfgs)
    (some : cfg.value ≠ 0) : highest cfgs ≠ 0 := by
  intro zero
  have below := le_highest member
  rw [zero] at below
  exact some (BitVec.le_zero_iff.mp below)

theorem updatePermitted_scPerm (security : LinkSecurity) :
    updatePermitted scPerm security = true := by
  simp [updatePermitted, checkPermWrite, scPerm]

theorem updateCcc_cfgs (ccc : CccState) (conn : GattConn)
    (security : LinkSecurity) :
    (ccc.updateCcc scPerm conn security).cfgs = ccc.cfgs := by
  unfold CccState.updateCcc
  split
  · rw [CccState.gattCccChanged_cfgs]
    rfl
  · rfl

theorem updateCcc_conns (ccc : CccState) (conn : GattConn)
    (security : LinkSecurity) :
    (ccc.updateCcc scPerm conn security).conns = ccc.conns := by
  unfold CccState.updateCcc
  split
  · rw [CccState.gattCccChanged_conns]
    rfl
  · rfl

theorem updateCcc_value (ccc : CccState) (conn : GattConn)
    (security : LinkSecurity) :
    (ccc.updateCcc scPerm conn security).value = highest ccc.cfgs ∨
      (ccc.updateCcc scPerm conn security).value = ccc.value ∧
        ∀ cfg ∈ ccc.cfgs, cfg.value ≠ 0 → conn.isPeer cfg = false := by
  unfold CccState.updateCcc
  split
  · left
    rw [CccState.gattCccChanged_value]
    rfl
  · rename_i nothing
    right
    refine ⟨rfl, ?_⟩
    intro cfg member some
    cases own : conn.isPeer cfg with
    | false => rfl
    | true =>
      have found : (ccc.cfgs.any fun cfg =>
          decide (cfg.value ≠ 0) && conn.isPeer cfg) = true := by
        rw [any_eq_true]
        refine ⟨cfg, member, ?_⟩
        rw [own, Bool.and_true]
        exact decide_eq_true some
      simp only [CccState.restores, found, updatePermitted_scPerm,
        Bool.and_self, not_true_eq_false] at nothing

theorem Held.sameOwner {place : Nat} {ccc : CccState}
    (held : state.Held cfg place range)
    (same : ScState.owner { state with ccc } cfg = state.owner cfg) :
    ScState.Held { state with ccc } cfg place range := by
  have client : ScState.client { state with ccc } cfg = state.client cfg := by
    unfold ScState.client
    rw [same]
  rcases held with waits | stored | ⟨conn, flight, owned, rest⟩
  · exact .inl waits
  · refine .inr (.inl ?_)
    rw [client]
    exact stored
  · exact .inr (.inr ⟨conn, flight, same.trans owned, rest⟩)

section

variable (kept : state.Kept)
include kept

theorem Kept.updated (conn : GattConn) (security : LinkSecurity) :
    ScState.Kept { state with ccc := state.ccc.updateCcc scPerm conn security } where
  apart := by
    simp only [updateCcc_conns]
    exact kept.apart
  named := by
    simp only [updateCcc_cfgs]
    exact kept.named
  valued := by
    simp only [updateCcc_cfgs, updateCcc_conns]
    intro cfg member some other live id peer
    rcases updateCcc_value state.ccc conn security with high | ⟨same, _⟩
    · rw [high]
      exact highest_ne member some
    · rw [same]
      exact kept.valued cfg member some other live id peer
  held := by
    simp only [updateCcc_cfgs]
    intro slot cfg found subscribed place range later changed
    have held := kept.held slot cfg found subscribed place range later changed
    apply held.sameOwner
    simp only [owner, lookup, updateCcc_conns]

theorem Kept.updateCcc (live : conn ∈ state.ccc.conns) (security : LinkSecurity)
    (sends : ∀ cfg ∈ state.ccc.cfgs, cfg.value = cccIndicate →
      conn.isPeer cfg = true → accepted = true ∨ Unstored state.cfgs conn.key) :
    (state.updateCcc conn security accepted).Kept := by
  have updated := kept.updated conn security
  simp only [ScState.updateCcc]
  split
  · apply updated.scRestore
    · simp only [updateCcc_conns]
      exact live
    · simp only [updateCcc_cfgs]
      exact sends
  · exact updated

theorem Kept.joined
    (admitted : state.ccc.admits conn = true) (security : LinkSecurity)
    (known : ∀ cfg ∈ state.ccc.cfgs, cfg.value = cccIndicate →
      conn.isPeer cfg = true →
        cfg.peer = conn.dst ∨ Unstored state.cfgs ⟨cfg.peer, cfg.id⟩) :
    ScState.Kept
      { state with
        ccc := (state.ccc.joined conn).updateCcc scPerm conn security } where
  apart := by
    simp only [updateCcc_conns]
    exact CccState.joined_apart kept.apart admitted
  named := by
    simp only [updateCcc_cfgs]
    exact kept.named
  valued := by
    simp only [updateCcc_cfgs, updateCcc_conns]
    intro cfg member some other live id peer
    rcases updateCcc_value (state.ccc.joined conn) conn security with
      high | ⟨same, missing⟩
    · rw [high]
      exact highest_ne member some
    rw [same]
    rcases mem_append.mp live with old | new
    · exact kept.valued cfg member some other old id peer
    cases mem_singleton.mp new
    have none := missing cfg member some
    rw [GattConn.isPeer_iff.mpr ⟨id, .inr peer⟩] at none
    cases none
  held := by
    simp only [updateCcc_cfgs]
    intro slot cfg found subscribed place range later changed
    have held := kept.held slot cfg found subscribed place range later changed
    have joined : ScState.owner
        { state with
          ccc := (state.ccc.joined conn).updateCcc scPerm conn security } cfg =
        (state.owner cfg).or (if conn.isPeer cfg then some conn else none) := by
      simp only [owner, lookup, updateCcc_conns, CccState.joined,
        find?_append, find?_singleton, GattConn.isPeer]
      rfl
    cases owned : state.owner cfg with
    | some =>
      apply held.sameOwner
      rw [joined, owned]
      rfl
    | none =>
      rw [owned, Option.none_or] at joined
      by_cases own : conn.isPeer cfg = true
      · rw [if_pos own] at joined
        rcases held with waits | stored | ⟨_, _, absent, _⟩
        · exact .inl waits
        · refine .inr (.inl ?_)
          rw [client_owned joined]
          rw [client_absent owned] at stored
          rcases known cfg (mem_of_getElem? found) subscribed own with
            same | unstored
          · have key : conn.key = ⟨cfg.peer, cfg.id⟩ := by
              rw [same, (GattConn.isPeer_iff.mp own).1]
              rfl
            rw [key]
            exact stored
          · exact absurd stored unstored.not_stored
        · cases owned.symm.trans absent
      · rw [if_neg own] at joined
        exact held.sameOwner (joined.trans owned.symm)

theorem Kept.onConnect {security : LinkSecurity}
    (lossless : state.Lossless (.connect conn security accepted)) :
    (state.onConnect conn security accepted).Kept := by
  unfold ScState.onConnect
  split
  · rename_i admitted
    have joined := kept.joined admitted security fun cfg member subscribed own =>
        (lossless admitted cfg member subscribed own).1
    simp only [ScState.updateCcc]
    split
    · apply joined.scRestore
      · simp only [updateCcc_conns, CccState.joined]
        exact mem_append_right _ (mem_singleton_self _)
      · simp only [updateCcc_cfgs]
        intro cfg member subscribed own
        exact (lossless admitted cfg member subscribed own).2
    · exact joined
  · exact kept

theorem Kept.resolved
    (found : state.ccc.find index = some conn) {resolved : GattConn}
    (same : resolved.index = conn.index)
    (free : ∀ other ∈ state.ccc.conns, other.index ≠ index →
      other.meets resolved = false) :
    let conns := state.ccc.conns.map fun other =>
      if other.index = index then resolved else other
    (∀ other, other ∈ conns ↔ other = resolved ∨
      (other ∈ state.ccc.conns ∧ other.index ≠ index)) ∧
    ∀ left ∈ conns, ∀ right ∈ conns,
      left = right ∨ (left.index ≠ right.index ∧ left.meets right = false) := by
  obtain ⟨live, here⟩ := CccState.find_some found
  have members : ∀ other, (other ∈ state.ccc.conns.map fun other =>
      if other.index = index then resolved else other) ↔ other = resolved ∨
        (other ∈ state.ccc.conns ∧ other.index ≠ index) := by
    intro other
    rw [mem_map]
    constructor
    · rintro ⟨old, member, rfl⟩
      by_cases which : old.index = index
      · exact .inl (if_pos which)
      · rw [if_neg which]
        exact .inr ⟨member, which⟩
    · rintro (rfl | ⟨member, which⟩)
      · exact ⟨conn, live, if_pos here⟩
      · exact ⟨other, member, if_neg which⟩
  refine ⟨members, ?_⟩
  intro left inLeft right inRight
  rcases (members left).mp inLeft with rfl | ⟨oldLeft, which⟩
  · rcases (members right).mp inRight with rfl | ⟨oldRight, which⟩
    · exact .inl rfl
    refine .inr ⟨?_, (left.meets_comm right).trans (free right oldRight which)⟩
    rw [same, here]
    exact Ne.symm which
  · rcases (members right).mp inRight with rfl | ⟨oldRight, _⟩
    · refine .inr ⟨?_, free left oldLeft which⟩
      rw [same, here]
      exact which
    · exact kept.apart left oldLeft right oldRight

theorem Kept.onResolve {dst : BtAddrLe} {real : dst ≠ .any}
    (lossless : state.Lossless (.resolve index dst real)) :
    (state.onResolve index dst real).Kept := by
  unfold ScState.onResolve
  cases found : state.ccc.find index with
  | none => exact kept
  | some conn =>
    obtain ⟨live, here⟩ := CccState.find_some found
    simp only
    split
    · exact kept
    rename_i guarded
    simp only [not_or, not_not, Bool.not_eq_true] at guarded
    obtain ⟨plain, guarded⟩ := guarded
    have free : ∀ other ∈ state.ccc.conns, other.index ≠ index →
        other.meets { conn with dst, dst_real := real } = false := by
      intro other member which
      have apart := any_eq_false.mp guarded other member
      simpa [which] using apart
    obtain ⟨members, apart⟩ := kept.resolved found
      (rfl : ({ conn with dst, dst_real := real } : GattConn).index =
        conn.index) free
    refine ⟨apart, kept.named, ?_, ?_⟩
    · intro cfg member some other joined id peer
      rcases (members other).mp joined with rfl | ⟨old, _⟩
      · exact kept.valued cfg member some conn live id peer
      · exact kept.valued cfg member some other old id peer
    · intro slot cfg entry subscribed place range later changed
      have held := kept.held slot cfg entry subscribed place range later changed
      cases owned : state.owner cfg with
      | some owner =>
        obtain ⟨there, own⟩ := owner_some owned
        by_cases which : owner.index = index
        · have same : owner = conn := by
            rcases kept.apart owner there conn live with same | ⟨differs, _⟩
            · exact same
            · exact absurd (which.trans here.symm) differs
          subst same
          have unstored := lossless owner found cfg
            (mem_of_getElem? entry) subscribed own
          rcases held with waits | stored | ⟨_, flight, also, sent, rest⟩
          · exact .inl waits
          · rw [client_owned owned] at stored
            exact absurd stored unstored.not_stored
          · cases owned.symm.trans also
            refine .inr (.inr ⟨{ owner with dst, dst_real := real },
              flight, ?_, sent, rest⟩)
            apply owner_of_apart apart ((members _).mpr (.inl rfl))
            obtain ⟨id, peer⟩ := GattConn.isPeer_iff.mp own
            rw [plain, or_self] at peer
            exact GattConn.isPeer_iff.mpr ⟨id, .inr peer⟩
        · apply held.sameOwner
          rw [owned]
          exact owner_of_apart apart ((members owner).mpr (.inr ⟨there, which⟩)) own
      | none =>
        have unpeered := isPeer_of_absent owned live
        by_cases own : GattConn.isPeer { conn with dst, dst_real := real } cfg = true
        · obtain ⟨id, peer⟩ := GattConn.isPeer_iff.mp own
          have peer : cfg.peer = dst := by
            rcases peer with peer | peer
            · exact peer
            have mine : conn.isPeer cfg = true :=
              GattConn.isPeer_iff.mpr ⟨id, .inr peer⟩
            rw [mine] at unpeered
            cases unpeered
          have owner : (state.withConns _).owner cfg = some _ :=
            owner_of_apart apart ((members _).mpr (.inl rfl)) own
          rcases held with waits | stored | ⟨_, _, absent, _⟩
          · exact .inl waits
          · refine .inr (.inl ?_)
            rw [client_owned owner]
            rw [client_absent owned, peer, id] at stored
            exact stored
          · cases owned.symm.trans absent
        · apply held.sameOwner
          rw [owned]
          apply owner_none
          intro other joined
          rcases (members other).mp joined with rfl | ⟨old, _⟩
          · simpa using own
          · exact isPeer_of_absent owned old

end

theorem disconnectedCb_conns (ccc : CccState) (conn : GattConn) (bonded : Bool) :
    (ccc.disconnectedCb conn bonded).conns =
      ccc.conns.filter (·.index ≠ conn.index) := by
  simp only [CccState.disconnectedCb]
  split
  · rfl
  · split <;> rfl

theorem release_cases {bonded : Bool}
    (some : (CccState.release conn bonded cfg).value ≠ 0) :
    conn.isPeer cfg = false ∧ CccState.release conn bonded cfg = cfg ∨
      conn.isPeer cfg = true ∧ bonded = true ∧
        CccState.release conn bonded cfg = { cfg with peer := conn.dst } := by
  unfold CccState.release at some ⊢
  by_cases unset : cfg.value = 0
  · rw [if_pos unset] at some
    exact absurd unset some
  rw [if_neg unset] at some ⊢
  cases own : conn.isPeer cfg with
  | false => exact .inl ⟨rfl, rfl⟩
  | true =>
    rw [own, if_pos rfl] at some
    cases bonded with
    | false => exact absurd rfl some
    | true => exact .inr ⟨rfl, rfl, rfl⟩

/-- The entries after a disconnect: those of other peers stay, and one of the
peer that is still subscribed has the peer's current address. -/
theorem Kept.disconnected_entry (kept : state.Kept)
    (live : conn ∈ state.ccc.conns) {bonded : Bool} {slot : Nat}
    (found : (state.ccc.disconnectedCb conn bonded).cfgs[slot]? = some cfg)
    (some : cfg.value ≠ 0) :
    ∃ old, state.ccc.cfgs[slot]? = .some old ∧ old.value = cfg.value ∧
      old.id = cfg.id ∧ (conn.isPeer old = false ∧ cfg = old ∨
        conn.isPeer old = true ∧ cfg.peer = conn.dst ∧
          (bonded = true ∨ state.ccc.value = 0)) := by
  simp only [CccState.disconnectedCb] at found
  by_cases zero : state.ccc.value = 0
  · rw [if_pos zero] at found
    refine ⟨cfg, found, rfl, rfl, ?_⟩
    cases own : conn.isPeer cfg with
    | false => exact .inl ⟨rfl, rfl⟩
    | true =>
      obtain ⟨id, peer⟩ := GattConn.isPeer_iff.mp own
      refine .inr ⟨rfl, ?_, .inr zero⟩
      rcases peer with peer | peer
      · exact peer
      · exact absurd zero (kept.valued cfg (mem_of_getElem? found) some
          conn live id peer)
  · rw [if_neg zero] at found
    have found : (state.ccc.cfgs.map (CccState.release conn bonded))[slot]? =
        .some cfg := by
      split at found <;> exact found
    rw [getElem?_map, Option.map_eq_some_iff] at found
    obtain ⟨old, there, rfl⟩ := found
    refine ⟨old, there, ?_⟩
    rcases release_cases some with ⟨own, same⟩ | ⟨own, rfl, same⟩
    · rw [same]
      exact ⟨rfl, rfl, .inl ⟨own, rfl⟩⟩
    · rw [same]
      exact ⟨rfl, rfl, .inr ⟨own, rfl, .inl rfl⟩⟩

section Left

variable {next : ScState} {conn : GattConn} {bonded : Bool}

theorem mem_left (ccc : next.ccc = state.ccc.disconnectedCb conn bonded)
    {other : GattConn} : other ∈ next.ccc.conns ↔
      other ∈ state.ccc.conns ∧ other.index ≠ conn.index := by
  rw [ccc, disconnectedCb_conns, mem_filter]
  simp

theorem Kept.unreached (kept : state.Kept) (live : conn ∈ state.ccc.conns)
    {other : GattConn} (there : other ∈ state.ccc.conns)
    (differs : other.index ≠ conn.index) (id : cfg.id = conn.id)
    (peer : cfg.peer = conn.dst) : other.isPeer cfg = false := by
  rcases kept.apart other there conn live with rfl | ⟨_, apart⟩
  · exact absurd rfl differs
  cases own : other.isPeer cfg with
  | false => rfl
  | true =>
    have mine : conn.isPeer cfg = true := GattConn.isPeer_iff.mpr ⟨id, .inl peer⟩
    rw [GattConn.meets_of_isPeer own mine] at apart
    cases apart

section

variable (kept : state.Kept) (live : conn ∈ state.ccc.conns)
  (ccc : next.ccc = state.ccc.disconnectedCb conn bonded)
include kept live ccc

theorem Kept.valued_left :
    ∀ cfg ∈ next.ccc.cfgs, cfg.value ≠ 0 → ∀ other ∈ next.ccc.conns,
      cfg.id = other.id → cfg.peer = other.initAddr → next.ccc.value ≠ 0 := by
  intro cfg member some other joined id peer
  obtain ⟨there, differs⟩ := (mem_left ccc).mp joined
  obtain ⟨_, found⟩ := mem_iff_getElem?.mp member
  rw [ccc] at found
  have reached : other.isPeer cfg = true := GattConn.isPeer_iff.mpr ⟨id, .inr peer⟩
  obtain ⟨_, entry, _, ids, case⟩ := kept.disconnected_entry live found some
  rcases case with ⟨unpeered, rfl⟩ | ⟨own, dst, _⟩
  · have before := kept.valued cfg (mem_of_getElem? entry) some other there
      id peer
    have used : state.ccc.valueUsed conn = true := by
      unfold CccState.valueUsed
      rw [any_eq_true]
      refine ⟨cfg, mem_of_getElem? entry, ?_⟩
      have joined : (state.ccc.left conn.index).conns.any (·.isPeer cfg) =
          true := by
        rw [any_eq_true]
        refine ⟨other, ?_, reached⟩
        exact mem_filter.mpr ⟨there, by simpa using differs⟩
      rw [joined, unpeered, Bool.not_false, Bool.and_true, Bool.and_true]
      exact decide_eq_true some
    rw [ccc]
    simp only [CccState.disconnectedCb, before, if_false, used, if_true]
    exact before
  · have own := (GattConn.isPeer_iff.mp own).1
    rw [kept.unreached live there differs (ids.symm.trans own) dst] at reached
    cases reached

theorem Kept.owner_left (unpeered : conn.isPeer cfg = false) :
    next.owner cfg = state.owner cfg := by
  have apart : ∀ left ∈ next.ccc.conns, ∀ right ∈ next.ccc.conns,
      left = right ∨ (left.index ≠ right.index ∧ left.meets right = false) :=
    fun left inLeft right inRight =>
      kept.apart left ((mem_left ccc).mp inLeft).1 right
        ((mem_left ccc).mp inRight).1
  cases owned : state.owner cfg with
  | none =>
    apply owner_none
    intro other joined
    exact isPeer_of_absent owned ((mem_left ccc).mp joined).1
  | some owner =>
    obtain ⟨there, own⟩ := owner_some owned
    apply owner_of_apart apart _ own
    apply (mem_left ccc).mpr
    rcases kept.apart owner there conn live with rfl | ⟨differs, _⟩
    · rw [own] at unpeered
      cases unpeered
    · exact ⟨there, differs⟩

theorem Kept.left (waiting : ∀ range, state.Pending range → next.Pending range)
    (changes : next.changes = state.changes) (since : next.since = state.since)
    (stored : ∀ key range, key.addr ≠ .any →
      key ≠ conn.key ∨ bonded = true ∨ state.ccc.value = 0 →
      StoredFor state.cfgs key range → StoredFor next.cfgs key range)
    (flights : ∀ flight ∈ state.flights, flight.index ≠ conn.index →
      flight ∈ next.flights)
    (landed : ∀ cfg ∈ state.ccc.cfgs, cfg.value = cccIndicate →
      conn.isPeer cfg = true → bonded = true ∨ state.ccc.value = 0 →
      ∀ flight ∈ state.flights, flight.index ≠ conn.index) :
    next.Kept where
  apart := by
    intro left inLeft right inRight
    exact kept.apart left ((mem_left ccc).mp inLeft).1 right
      ((mem_left ccc).mp inRight).1
  named := by
    intro cfg member free
    obtain ⟨slot, found⟩ := mem_iff_getElem?.mp member
    rw [ccc] at found
    by_cases some : cfg.value = 0
    · exact some
    · obtain ⟨old, entry, value, _, case⟩ :=
        kept.disconnected_entry live found some
      rcases case with ⟨_, rfl⟩ | ⟨_, dst, _⟩
      · exact kept.named cfg (mem_of_getElem? entry) free
      · exact absurd (dst.symm.trans free) conn.dst_real
  valued := kept.valued_left live ccc
  held := by
    intro slot cfg found subscribed place range later changed
    rw [since] at later
    rw [changes] at changed
    have some : cfg.value ≠ 0 := by
      rw [subscribed]
      decide
    rw [ccc] at found
    obtain ⟨old, entry, value, ids, case⟩ := kept.disconnected_entry live found some
    have member := mem_of_getElem? entry
    have held := kept.held slot old entry (value.trans subscribed) place range
      later changed
    have real : (state.client old).addr ≠ .any :=
      client_real (kept.named_of entry (value.trans subscribed))
    rcases case with ⟨unpeered, rfl⟩ | ⟨own, dst, stays⟩
    · have same := kept.owner_left live ccc unpeered
      have client : next.client cfg = state.client cfg := by
        unfold ScState.client
        rw [same]
      have other : state.client cfg ≠ conn.key := by
        intro key
        rw [(owner_some (kept.owner_of_client live key)).2] at unpeered
        cases unpeered
      rcases held with waits | kept' | ⟨owner, flight, owned, sent, at_, rest⟩
      · exact .inl (waiting range waits)
      · refine .inr (.inl ?_)
        rw [client]
        exact stored _ range real (.inl other) kept'
      · have joined := ((mem_left ccc).mp (owner_some (same.trans owned)).1).2
        have still := flights flight sent (by rw [at_]; exact joined)
        exact .inr (.inr ⟨owner, flight, same.trans owned, still, at_, rest⟩)
    · have id := ids.symm.trans (GattConn.isPeer_iff.mp own).1
      have owned := kept.owner_eq live own
      have alone : next.owner cfg = none := by
        apply owner_none
        intro other joined
        obtain ⟨there, differs⟩ := (mem_left ccc).mp joined
        exact kept.unreached live there differs id dst
      have client : next.client cfg = state.client old := by
        rw [client_absent alone, client_owned owned, dst, id]
        rfl
      rcases held with waits | kept' | ⟨owner, flight, also, sent, at_, _⟩
      · exact .inl (waiting range waits)
      · refine .inr (.inl ?_)
        rw [client]
        exact stored _ range real (.inr stays) kept'
      · cases owned.symm.trans also
        exact absurd at_ (landed old member (value.trans subscribed) own stays
          flight sent)

end

end Left

theorem Kept.onDisconnect (kept : state.Kept)
    (lossless : state.Lossless (.disconnect index)) :
    (state.onDisconnect index).Kept := by
  unfold ScState.onDisconnect
  cases found : state.ccc.find index with
  | none => exact kept
  | some conn =>
    obtain ⟨live, here⟩ := CccState.find_some found
    have landed := lossless conn found
    rw [← here] at landed ⊢
    apply kept.left live rfl
    · intro range waits
      exact waits
    · rfl
    · rfl
    · intro key range real other stored
      simp only
      split
      · exact stored
      rename_i cleared
      simp only [Bool.or_eq_true, decide_eq_true_eq, not_or] at cleared
      have differs : key ≠ conn.key := by
        rcases other with differs | bonded | zero
        · exact differs
        · exact absurd (by simpa using bonded) cleared.1
        · exact absurd zero cleared.2
      exact stored.afterClears real differs _
    · intro flight sent differs
      exact mem_filter.mpr ⟨sent, by simpa using differs⟩
    · intro cfg member subscribed own stays
      apply landed cfg member subscribed own
      rcases stays with bonded | zero
      · exact .inl (by simpa using bonded)
      · exact .inr zero

end Connections

section Write

variable {conn : GattConn} {value : BitVec 16}

theorem findIdx_front {test : CccCfg → Bool}
    (tests : test cfg = true) (before : ∀ other ∈ front, test other = false) :
    (front ++ cfg :: back).findIdx test = front.length := by
  rw [findIdx_append, if_neg, findIdx_cons, tests]
  · simp
  · rw [findIdx_lt_length]
    rintro ⟨other, member, holds⟩
    rw [before other member] at holds
    cases holds

variable {offset : Nat}

theorem attrWriteCcc_cfgs {ccc : CccState}
    (parsed : CccState.writtenValue offset data = some value)
    (taken : ccc.claim conn value = some (front ++ cfg :: back))
    (own : conn.isPeer cfg = true)
    (before : ∀ other ∈ front, conn.isPeer other = false) :
    (ccc.attrWriteCcc conn offset data true).cfgs =
      front ++ (if value = 0 then CccCfg.cleared else { cfg with value }) :: back ∧
      (ccc.attrWriteCcc conn offset data true).value =
        if value ≠ ccc.value then highest (front ++ { cfg with value } :: back)
        else ccc.value := by
  have put : (ccc.put conn value (front ++ cfg :: back)).cfgs =
      front ++ { cfg with value } :: back := by
    have changed := @changeFirst_found _ conn.isPeer
      (fun cfg => { cfg with value }) cfg front back own before
    simp [CccState.put, changed]
  have next : (if value ≠ ccc.value then
      (ccc.put conn value (front ++ cfg :: back)).gattCccChanged
      else ccc.put conn value (front ++ cfg :: back)).cfgs =
        front ++ { cfg with value } :: back := by
    split
    · rw [CccState.gattCccChanged_cfgs]
      exact put
    · exact put
  have told : (if value ≠ ccc.value then
      (ccc.put conn value (front ++ cfg :: back)).gattCccChanged
      else ccc.put conn value (front ++ cfg :: back)).value =
        if value ≠ ccc.value then highest (front ++ { cfg with value } :: back)
        else ccc.value := by
    split
    · rw [CccState.gattCccChanged_value, put]
    · rfl
  have still : conn.isPeer { cfg with value } = true := own
  have cleared := @changeFirst_found _ conn.isPeer (fun _ => CccCfg.cleared) _
    front back still before
  simp only [CccState.attrWriteCcc, parsed, taken, Bool.not_true,
    Bool.false_eq_true, if_false]
  split
  · simp only [CccState.cleared, next, cleared, Option.getD_some, true_and]
    exact told
  · exact ⟨next, told⟩

theorem Kept.written (kept : state.Kept) {claimed : List CccCfg}
    (parsed : CccState.writtenValue offset data = some value)
    (taken : state.ccc.claim conn value = some claimed) :
    ∃ front old back fresh, state.ccc.cfgs = front ++ old :: back ∧
      state.slotOf conn = front.length ∧
      (state.ccc.attrWriteCcc conn offset data true).cfgs = front ++ fresh :: back ∧
      fresh.value = value ∧ (value ≠ 0 → fresh.peer ≠ .any) ∧
      (old.value = value → value ≠ 0 → fresh = old) ∧
      (∀ cfg ∈ front ++ fresh :: back, cfg.value ≠ 0 →
        (state.ccc.attrWriteCcc conn offset data true).value ≠ 0 ∨
          value = state.ccc.value ∧
            (state.ccc.attrWriteCcc conn offset data true).value = value) := by
  have counted : ∀ (front back : List CccCfg) (cfg : CccCfg) (now : BitVec 16),
      now = (if value ≠ state.ccc.value then
        highest (front ++ { cfg with value } :: back) else state.ccc.value) →
      ∀ other ∈ front ++ (if value = 0 then CccCfg.cleared
        else { cfg with value }) :: back, other.value ≠ 0 →
        now ≠ 0 ∨ value = state.ccc.value ∧ now = value := by
    intro front back cfg now told other member some
    split at told
    · left
      rw [told]
      apply highest_ne _ some
      rcases mem_append.mp member with member | member
      · exact mem_append_left _ member
      rcases mem_cons.mp member with rfl | member
      · split at some
        · exact absurd rfl some
        rename_i set
        rw [if_neg set]
        exact mem_append_right _ mem_cons_self
      · exact mem_append_right _ (mem_cons_of_mem _ member)
    · rename_i same
      have same : value = state.ccc.value := not_not.mp same
      exact .inr ⟨same, told.trans same.symm⟩
  have values : ∀ cfg : CccCfg, (if value = 0 then CccCfg.cleared
      else { cfg with value }).value = value := by
    intro cfg
    split
    · rename_i zero
      exact zero.symm
    · rfl
  have also := taken
  unfold CccState.claim at taken
  by_cases known : state.ccc.cfgs.any conn.isPeer = true
  · rw [if_pos known] at taken
    cases taken
    rw [← changeFirst_isSome _ id, Option.isSome_iff_exists] at known
    obtain ⟨_, changed⟩ := known
    obtain ⟨front, old, back, split, own, before, _⟩ := changeFirst_split changed
    rw [split] at also
    obtain ⟨cfgs, told⟩ := attrWriteCcc_cfgs parsed also own before
    refine ⟨front, old, back, _, split, ?_, cfgs, values old, ?_, ?_,
      counted front back old _ told⟩
    · have some : state.ccc.cfgs.any conn.isPeer = true := by
        simp [split, own]
      unfold slotOf
      rw [if_pos some, split]
      exact findIdx_front own before
    · intro some
      rw [if_neg some]
      exact GattConn.isPeerAddrLe_ne_any own
    · intro same some
      rw [if_neg some, ← same]
  · rw [if_neg known] at taken
    split at taken
    · cases taken
    rename_i some
    obtain ⟨front, old, back, split, free, before, rfl⟩ := changeFirst_split taken
    have free : old.peer = .any := by simpa using free
    have unpeered : ∀ other ∈ front, conn.isPeer other = false := by
      intro other member
      have never := any_eq_false.mp (Bool.not_eq_true _ ▸ known) other
      simpa using never (by simp [split, member])
    have mine : conn.isPeer { old with peer := conn.dst, id := conn.id } =
        true := GattConn.isPeer_iff.mpr ⟨rfl, .inl rfl⟩
    obtain ⟨cfgs, told⟩ := attrWriteCcc_cfgs parsed also mine unpeered
    refine ⟨front, old, back, _, split, ?_, cfgs, values _, ?_, ?_,
      counted front back _ _ told⟩
    · unfold slotOf
      rw [if_neg known, split]
      exact findIdx_front (by simpa using free) before
    · intro _
      rw [if_neg some]
      exact conn.dst_real
    · intro same _
      have zero := kept.named old (by simp [split]) free
      exact absurd (same.symm.trans zero) some

theorem attrWriteCcc_conns (ccc : CccState) (conn : GattConn) (offset : Nat)
    (data : List (BitVec 8)) :
    (ccc.attrWriteCcc conn offset data true).conns = ccc.conns := by
  simp only [CccState.attrWriteCcc]
  split
  · rfl
  split
  · rfl
  simp only [Bool.not_true, Bool.false_eq_true, if_false]
  split
  · split
    · simp only [CccState.cleared, CccState.gattCccChanged_conns]
      rfl
    · rfl
  · split
    · rw [CccState.gattCccChanged_conns]
      rfl
    · rfl

theorem getElem?_replaced {old fresh : CccCfg} {place : Nat}
    (other : place ≠ front.length) :
    (front ++ fresh :: back)[place]? = (front ++ old :: back)[place]? := by
  by_cases before : place < front.length
  · rw [getElem?_append_left before, getElem?_append_left before]
  obtain ⟨later, rfl⟩ : ∃ later, place = front.length + (later + 1) :=
    ⟨place - front.length - 1, by omega⟩
  rw [getElem?_append_right (by omega),
    getElem?_append_right (by omega), Nat.add_sub_cancel_left]
  rfl

theorem Kept.recorded (kept : state.Kept) (live : conn ∈ state.ccc.conns)
    (named : cfg.peer ≠ .any)
    (unstored : value ≠ cccIndicate → conn.isPeer cfg = true →
      Unstored state.cfgs conn.key)
    (stored : StoredFor state.cfgs (state.client cfg) range) :
    StoredFor (if value = cccIndicate then scSave conn.key 0 0 state.cfgs
      else scClear conn.key state.cfgs) (state.client cfg) range := by
  have real : (state.client cfg).addr ≠ .any := client_real named
  split
  · exact stored.afterSave real 0 0
  rename_i other
  by_cases key : state.client cfg = conn.key
  · have own := (owner_some (kept.owner_of_client live key)).2
    rw [key] at stored
    exact absurd stored (unstored other own).not_stored
  · exact stored.afterClear real key

theorem Kept.onWrite (kept : state.Kept) (found : state.ccc.find index = some conn)
    (lossless : state.Lossless (.write index offset data)) :
    (state.onWrite conn offset data).Kept := by
  obtain ⟨live, _⟩ := CccState.find_some found
  unfold ScState.onWrite
  cases parsed : CccState.writtenValue offset data with
  | none => exact kept
  | some value =>
    cases taken : state.ccc.claim conn value with
    | none => simpa only [taken] using kept
    | some =>
      simp only [taken]
      obtain ⟨front, old, back, fresh, split, slot, cfgs, written, named,
        same, told⟩ := kept.written parsed taken
      have entries : ∀ cfg ∈ front ++ fresh :: back, cfg = fresh ∨
          cfg ∈ state.ccc.cfgs := by
        intro cfg member
        rw [split]
        rcases mem_append.mp member with member | member
        · exact .inr (mem_append_left _ member)
        rcases mem_cons.mp member with rfl | member
        · exact .inl rfl
        · exact .inr (by simp [member])
      refine ⟨?_, ?_, ?_, ?_⟩
      · simp only [attrWriteCcc_conns]
        exact kept.apart
      · simp only [cfgs]
        intro cfg member free
        rcases entries cfg member with rfl | member
        · by_cases zero : value = 0
          · exact written.trans zero
          · exact absurd free (named zero)
        · exact kept.named cfg member free
      · simp only [cfgs, attrWriteCcc_conns]
        intro cfg member some other there id peer
        rcases told cfg member some with now | ⟨kept', now⟩
        · exact now
        rw [now]
        rcases entries cfg member with rfl | old
        · rw [← written]
          exact some
        · rw [kept']
          exact kept.valued cfg old some other there id peer
      · simp only [cfgs]
        intro number cfg entry subscribed place range later changed
        have before : ∀ cfg, state.ccc.cfgs[number]? = some cfg →
            cfg.value = cccIndicate → state.since number ≤ place →
            (value ≠ cccIndicate → conn.isPeer cfg = true →
              Unstored state.cfgs conn.key) →
            ScState.Held
              { state with
                ccc := state.ccc.attrWriteCcc conn offset data true
                cfgs := if value = cccIndicate then
                    scSave conn.key 0 0 state.cfgs
                  else scClear conn.key state.cfgs } cfg place range := by
          intro cfg entry subscribed later unstored
          have owner : ScState.owner
              { state with
                ccc := state.ccc.attrWriteCcc conn offset data true } cfg =
                state.owner cfg := by
            simp only [owner, lookup, attrWriteCcc_conns]
          have held := (kept.held number cfg entry subscribed place range
            later changed).sameOwner owner
          rcases held with waits | stored | sent
          · exact .inl waits
          · have client : ScState.client
                { state with
                  ccc := state.ccc.attrWriteCcc conn offset data true }
                cfg = state.client cfg := by
              unfold ScState.client
              rw [owner]
            refine .inr (.inl ?_)
            rw [client] at stored
            have kept' := kept.recorded live
              (kept.named_of entry subscribed) unstored stored
            rw [← client] at kept'
            exact kept'
          · exact .inr (.inr sent)
        by_cases which : number = front.length
        · subst which
          rw [getElem?_append_right (le_refl _), Nat.sub_self,
            getElem?_cons_zero] at entry
          cases entry
          have indicates : value = cccIndicate := written.symm.trans subscribed
          have there : state.ccc.cfgs[front.length]? = some old := by
            rw [split, getElem?_append_right (le_refl _),
              Nat.sub_self, getElem?_cons_zero]
          cases known : state.subscribedAt front.length with
          | false =>
            simp only [slot, known, decide_true, Bool.not_false,
              Bool.and_self, if_true] at later
            have short := (List.getElem?_eq_some_iff.mp changed).1
            omega
          | true =>
            simp only [known, Bool.not_true, Bool.and_false,
              Bool.false_eq_true, if_false] at later
            have was : old.value = cccIndicate := by
              simpa [subscribedAt, there] using known
            have unchanged : fresh = old := by
              apply same (was.trans indicates.symm)
              rw [indicates]
              decide
            subst unchanged
            exact before fresh there was later fun differs =>
              absurd indicates differs
        · rw [getElem?_replaced which, ← split] at entry
          have elsewhere : number ≠ state.slotOf conn := by
            rw [slot]
            exact which
          simp only [elsewhere, decide_false, Bool.false_and,
            Bool.false_eq_true, if_false] at later
          exact before cfg entry subscribed later fun differs own =>
            lossless conn value found parsed differs number cfg elsewhere
              entry subscribed own

end Write

theorem Kept.step (kept : state.Kept) {input : ScInput}
    (lossless : state.Lossless input) : (state.step input).Kept := by
  cases input with
  | changed range => exact kept.scIndicate range
  | process => exact kept.scProcess lossless
  | ended => exact kept.onEnded lossless
  | connect => exact kept.onConnect lossless
  | encryptChange index security =>
    simp only [ScState.step]
    cases found : state.ccc.find index with
    | none => exact kept
    | some conn =>
      exact kept.updateCcc (CccState.find_some found).1 security
        (lossless conn found)
  | write index =>
    simp only [ScState.step]
    cases found : state.ccc.find index with
    | none => exact kept
    | some => exact kept.onWrite found lossless
  | resolve => exact kept.onResolve lossless
  | bond => exact kept.sameCcc rfl kept.held
  | disconnect => exact kept.onDisconnect lossless

theorem init_kept (slots records : Nat) : (init slots records).Kept where
  apart := by
    intro conn live
    cases live
  named := by
    intro cfg member _
    rw [eq_of_mem_replicate member]
    rfl
  valued := by
    intro _ _ _ conn live
    cases live
  held := by
    intro _ _ _ _ _ _ _ changed
    cases changed

end ScState

/-- In every run whose steps drop no range, every change that a bonded client
has not confirmed waits, is stored for it, or is being indicated to it. -/
theorem service_changed_kept (slots records : Nat) (inputs : List ScInput)
    (lossless : scMachine.Along ScState.Lossless (ScState.init slots records)
      inputs) :
    scMachine.Always ScState.NoLoss (ScState.init slots records) inputs := by
  have always := Machine.always_of_along
    (fun state input (kept : state.Kept) admitted => kept.step admitted)
    (ScState.init_kept slots records) lossless
  exact always.mono fun state kept => kept.noLoss

def sampleBonded : GattConn where
  index := 0
  id := 0
  dst := ⟨0, 9⟩
  initAddr := ⟨0, 9⟩
  dst_real := BtAddrLe.nine_real
  initAddr_real := BtAddrLe.nine_real

def sampleRange : HandleRange := ⟨20, 24, by decide⟩

theorem service_changed_kept_away :
    scMachine.Always ScState.NoLoss (ScState.init 1 1)
      [.connect sampleBonded ⟨1, false⟩ true, .bond sampleBonded.key,
        .write 0 0 [2, 0], .changed sampleRange, .process true fun _ => true,
        .ended 0 0, .disconnect 0, .changed sampleRange,
        .process true fun _ => true, .connect sampleBonded ⟨1, false⟩ true] := by
  apply service_changed_kept
  refine ⟨?_, trivial, ?_, trivial, ?_, ?_, ?_, trivial, ?_, ?_, trivial⟩
  · intro _ cfg _ _ _
    exact ⟨.inl (by revert cfg; decide), .inl rfl⟩
  · intro conn value _ parsed other
    cases parsed
    exact absurd rfl other
  · intro _ cfg member subscribed
    refine ⟨rfl, ?_, fun _ _ => rfl⟩
    revert cfg
    decide
  · intro flight ends cfg _ _ conn _ _
    rfl
  · intro conn _ cfg _ _ _ _ flight sent
    cases sent
  · intro _ cfg member subscribed
    refine ⟨rfl, ?_, fun _ _ => rfl⟩
    revert cfg
    decide
  · intro _ cfg member subscribed own
    refine ⟨.inl ?_, .inl rfl⟩
    revert cfg
    decide

theorem service_changed_dropped :
    ¬ ∀ (slots records : Nat) (inputs : List ScInput),
      scMachine.Always ScState.NoLoss (ScState.init slots records) inputs := by
  intro claimed
  have lost := (claimed 1 1
    [.connect sampleBonded ⟨1, false⟩ true, .bond sampleBonded.key,
      .write 0 0 [2, 0], .changed sampleRange,
      .process true fun _ => false]).last 0 ⟨0, ⟨0, 9⟩, 2⟩ (by decide)
    (by decide) (by decide) 0 sampleRange (by decide) (by decide)
  rcases lost with ⟨waits, _⟩ | ⟨stored, found, inside⟩ | ⟨_, _, _, sent, _⟩
  · revert waits
    decide
  · have record : some (⟨0, ⟨0, 9⟩, 0, 0⟩ : GattScCfg) = some stored := by
      rw [← found]
      decide
    cases record
    exact absurd inside.2 (by decide)
  · cases sent

end ZephyrBluetooth.Host
