import ZephyrBluetooth.Data.Slots
import ZephyrBluetooth.Mesh.Replay
import ZephyrBluetooth.Mesh.SegRx

namespace ZephyrBluetooth.Mesh

open Data List Function Option

variable {rpl : Rpl} {id : SduId} {before after : SegRxs} {ivOf : SduId → Bool}
  {rl : ReplayList} {evts : List SegRxEvt}

inductive SegRxInput where
  | seg (env : RxEnv) (netRx : NetRx) (buf : List Byte)
  | unseg (env : RxEnv) (netRx : NetRx) (buf : List Byte)
  | segAck (env : RxEnv) (slot : Nat)
  | rxReset
  | ivUpdate (ivIndex : Nat)
  | rplClear

def segRxStep (cfg : Config) (state : SegRxs) :
    SegRxInput → SegRxs × List SegRxEvt
  | .seg env netRx buf => (transSeg cfg env netRx buf state).2
  | .unseg env netRx buf => (transUnseg cfg env netRx buf state).2
  | .segAck env slot => segAck cfg env state slot
  | .rxReset => rxReset cfg state
  | .ivUpdate ivIndex =>
    ({ state with ivIndex := ivIndex, rpl := rplReset cfg state.rpl }, [])
  | .rplClear => ({ state with rpl := rplClear cfg state.rpl }, [])

def SegRxEvt.sdu : SegRxEvt → Option SduId
  | .ctlRecv id _ _ => some id
  | .sduRecv id _ _ _ => some id
  | _ => none

def segRxMachine (cfg : Config) : Machine SegRxs SegRxInput SduId where
  step state input :=
    let (next, evts) := segRxStep cfg state input
    (next, evts.filterMap SegRxEvt.sdu)

def SegRxs.boot (cfg : Config) (ivIndex crpl msgCount segBufs : Nat) :
    SegRxs where
  ivIndex := ivIndex
  rpl := .boot crpl
  rxs := List.replicate msgCount (.boot cfg.rxSegMax)
  slab := List.range segBufs

def Distinct (state : SegRxs) : Prop :=
  ∀ (first second : Nat) (one other : SegRx),
    state.rxs[first]? = some one → state.rxs[second]? = some other →
    one.inUse → other.inUse → one.src = other.src → one.dst = other.dst →
    first = second

/-- The reception consults the replay list, the segments of one SDU carry one IV
index, and the replay list is neither aged nor cleared. -/
def WithinIv (ivOf : SduId → Bool) (state : SegRxs) : SegRxInput → Prop
  | .seg _ netRx (_ :: h1 :: h2 :: h3 :: _) =>
    checked netRx = true ∧ netRx.oldIv = ivOf ⟨netRx.addr, netRx.recvDst,
        seqAuthRx state.ivIndex netRx (segHdrOf h1 h2 h3)⟩
  | .ivUpdate _ => False
  | .rplClear => False
  | _ => True

instance (ivOf : SduId → Bool) (state : SegRxs) :
    DecidablePred (WithinIv ivOf state)
  | .seg _ _ (_ :: _ :: _ :: _ :: _) => inferInstanceAs (Decidable (_ ∧ _))
  | .seg _ _ [] | .seg _ _ [_] | .seg _ _ [_, _] | .seg _ _ [_, _, _]
  | .unseg _ _ _ | .segAck _ _ | .rxReset => inferInstanceAs (Decidable True)
  | .ivUpdate _ | .rplClear => inferInstanceAs (Decidable False)

/-- The entry that `bt_mesh_rpl_check` reaches, in front of the first empty
slot. -/
def visible (src : Nat) : List Rpl → Option Rpl
  | [] => none
  | rpl :: rest =>
    if rpl.src = 0 then none
    else if rpl.src = src then some rpl
    else visible src rest

structure Reached (netRx : NetRx) (list : List Rpl) (slot : Nat) (rpl : Rpl) :
    Prop where
  found : list[slot]? = some rpl
  entry : rpl.src = 0 ∧ visible netRx.addr list = none ∨
    visible netRx.addr list = some rpl ∧ Admits rpl netRx
  updated : ∀ after : Rpl, after.src = netRx.addr →
    visible netRx.addr (list.set slot after) = some after
  others : ∀ (after : Rpl) (src : Nat) (other : Rpl), after.src = netRx.addr →
    src ≠ netRx.addr → visible src list = some other →
    visible src (list.set slot after) = some other

theorem rplScan_reached {netRx : NetRx} :
    ∀ {list : List Rpl} {slot : Nat}, rplScan netRx list = some slot →
      ∃ rpl, Reached netRx list slot rpl
  | [], slot, scan => by cases scan
  | rpl :: rest, slot, scan => by
      have nonzero := netRx.addr_ne_zero
      rw [rplScan] at scan
      by_cases isEmpty : rpl.src = 0
      · rw [if_pos isEmpty] at scan
        obtain rfl : 0 = slot := some.inj scan
        refine ⟨rpl, rfl, .inl ⟨isEmpty, by simp [visible, isEmpty]⟩, ?_, ?_⟩
        · intro after src
          simp [visible, src, nonzero]
        · intro after src other _ _ seen
          simp [visible, isEmpty] at seen
      · rw [if_neg isEmpty] at scan
        by_cases same : rpl.src = netRx.addr
        · rw [if_pos same] at scan
          split at scan
          · cases scan
          rename_i notOlder
          split at scan
          · rename_i newer
            obtain rfl : 0 = slot := some.inj scan
            refine ⟨rpl, rfl, .inr ⟨by simp [visible, same, nonzero],
              admits_of_scan (by simpa using notOlder) newer⟩, ?_, ?_⟩
            · intro after src
              simp [visible, src, nonzero]
            · intro after src other afterSrc different seen
              have apart : netRx.addr ≠ src := Ne.symm different
              simp only [visible, same, nonzero, apart, if_false] at seen
              simpa [visible, afterSrc, nonzero, apart] using seen
          · cases scan
        · rw [if_neg same] at scan
          obtain ⟨_, behind, rfl⟩ := map_eq_some_iff.mp scan
          obtain ⟨entry, reached⟩ := rplScan_reached behind
          refine ⟨entry, reached.found, ?_, ?_, ?_⟩
          · simpa [visible, isEmpty, same] using reached.entry
          · intro after src
            simpa [visible, isEmpty, same] using reached.updated after src
          · intro after src other afterSrc different seen
            by_cases here : rpl.src = src
            · simpa [visible, isEmpty, here] using seen
            simp only [visible, isEmpty, here, if_false] at seen
            simpa [visible, isEmpty, here] using
              reached.others after src other afterSrc different seen

def Marked (list : List Rpl) (id : SduId) (old : Bool) : Prop :=
  ∃ rpl, visible id.src list = some rpl ∧ (rpl.oldIv = false ∧ old = true ∨
      rpl.oldIv = old ∧ id.seqAuth % 2 ^ 24 ≤ rpl.seg)

variable {slot : Nat} {old : Bool}

theorem Marked.set {netRx : NetRx} {list : List Rpl} {after : Rpl}
    (reached : Reached netRx list slot rpl) (src : after.src = netRx.addr)
    (oldIv : after.oldIv = netRx.oldIv)
    (seg : rpl.oldIv = netRx.oldIv → rpl.seg ≤ after.seg)
    (marked : Marked list id old) : Marked (list.set slot after) id old := by
  obtain ⟨entry, seen, mark⟩ := marked
  by_cases same : id.src = netRx.addr
  · refine ⟨after, by rw [same]; exact reached.updated after src, ?_⟩
    rw [same] at seen
    rcases reached.entry with ⟨_, unseen⟩ | ⟨seenHere, passes⟩
    · rw [unseen] at seen
      cases seen
    rw [seenHere] at seen
    cases seen
    rw [oldIv]
    rcases passes with ⟨new, wasOld⟩ | ⟨sameIv, _⟩
    · rcases mark with ⟨notOld, _⟩ | ⟨oldEq, _⟩
      · rw [wasOld] at notOld
        cases notOld
      · exact .inl ⟨new, oldEq.symm.trans wasOld⟩
    · rcases mark with ⟨notOld, isOld⟩ | ⟨oldEq, low⟩
      · exact .inl ⟨sameIv.trans notOld, isOld⟩
      · exact .inr ⟨sameIv.trans oldEq, Nat.le_trans low (seg sameIv.symm)⟩
  · exact ⟨entry, reached.others after id.src entry src same seen, mark⟩

def SegRx.session (rx : SegRx) : Option SduId :=
  if rx.inUse then some ⟨rx.src, rx.dst, rx.seqAuth⟩ else none

def sessionsOf (rxs : List SegRx) : Nat → Option SduId :=
  slotView SegRx.session rxs

def SamePair (one other : SduId) : Prop :=
  one.src = other.src ∧ one.dst = other.dst

theorem session_eq_some {rx : SegRx} :
    rx.session = some id ↔ rx.inUse = true ∧ rx.src = id.src ∧ rx.dst = id.dst ∧
        rx.seqAuth = id.seqAuth := by
  obtain ⟨_, _, _⟩ := id
  unfold SegRx.session
  cases rx.inUse <;> simp

theorem distinct_iff (state : SegRxs) : Distinct state ↔ ∀ first second one other,
      sessionsOf state.rxs first = some one →
      sessionsOf state.rxs second = some other → SamePair one other →
      first = second := by
  constructor
  · intro distinct first second one other atFirst atSecond same
    obtain ⟨firstRx, foundFirst, session⟩ := slotView_eq_some.mp atFirst
    obtain ⟨inUseFirst, srcFirst, dstFirst, _⟩ := session_eq_some.mp session
    obtain ⟨secondRx, foundSecond, session⟩ := slotView_eq_some.mp atSecond
    obtain ⟨inUseSecond, srcSecond, dstSecond, _⟩ := session_eq_some.mp session
    exact distinct first second firstRx secondRx foundFirst foundSecond
      inUseFirst inUseSecond
      (srcFirst.trans (same.1.trans srcSecond.symm))
      (dstFirst.trans (same.2.trans dstSecond.symm))
  · intro distinct first second one other foundFirst foundSecond inUseFirst
      inUseSecond src dst
    refine distinct first second ⟨one.src, one.dst, one.seqAuth⟩
      ⟨other.src, other.dst, other.seqAuth⟩ ?_ ?_ ⟨src, dst⟩
    · exact slotView_eq_some.mpr ⟨one, foundFirst,
        session_eq_some.mpr ⟨inUseFirst, rfl, rfl, rfl⟩⟩
    · exact slotView_eq_some.mpr ⟨other, foundSecond,
        session_eq_some.mpr ⟨inUseSecond, rfl, rfl, rfl⟩⟩

structure SduCovered (ivOf : SduId → Bool) (state : SegRxs) (id : SduId) :
    Prop where
  marked : Marked state.rpl.list id (ivOf id)
  unopened : ∀ slot, sessionsOf state.rxs slot ≠ some id

structure Quiet (before after : SegRxs) : Prop where
  sessions : ∀ slot id, sessionsOf after.rxs slot = some id →
    sessionsOf before.rxs slot = some id
  marks : ∀ id old, Marked before.rpl.list id old → Marked after.rpl.list id old

theorem Quiet.refl (state : SegRxs) : Quiet state state :=
  ⟨fun _ _ seen => seen, fun _ _ marked => marked⟩

theorem Quiet.trans {first second third : SegRxs} (one : Quiet first second)
    (two : Quiet second third) : Quiet first third where
  sessions slot id seen := one.sessions slot id (two.sessions slot id seen)
  marks id old marked := two.marks id old (one.marks id old marked)

theorem Quiet.distinct (quiet : Quiet before after) (distinct : Distinct before) :
    Distinct after := by
  rw [distinct_iff] at distinct ⊢
  intro first second one other atFirst atSecond same
  exact distinct first second one other (quiet.sessions first one atFirst)
    (quiet.sessions second other atSecond) same

theorem Quiet.stays (quiet : Quiet before after)
    (covered : SduCovered ivOf before id) : SduCovered ivOf after id := by
  refine ⟨quiet.marks id (ivOf id) covered.marked, ?_⟩
  intro slot seen
  exact covered.unopened slot (quiet.sessions slot id seen)

theorem Quiet.closing (rpl : after.rpl.list = before.rpl.list)
    (sessions : sessionsOf after.rxs = update (sessionsOf before.rxs) slot none) :
    Quiet before after where
  sessions other id seen := by
    rw [sessions] at seen
    by_cases same : other = slot
    · subst same
      rw [update_self] at seen
      cases seen
    · rwa [update_of_ne same] at seen
  marks id old marked := by rwa [rpl]

variable {state : SegRxs}

theorem Quiet.set {rx updated : SegRx} (found : state.rxs[slot]? = some rx)
    (session : updated.session = rx.session) (slab : List Nat) :
    Quiet state { state with rxs := state.rxs.set slot updated, slab := slab } where
  sessions other id seen := by
    have same : sessionsOf (state.rxs.set slot updated) =
        sessionsOf state.rxs := slotView_set_same found session
    rwa [same] at seen
  marks _ _ marked := marked

theorem segRxReset_spec (cfg : Config) (state : SegRxs) (slot : Nat)
    (full : Bool) : (segRxReset cfg state slot full).1.rpl = state.rpl ∧
      sessionsOf (segRxReset cfg state slot full).1.rxs =
        update (sessionsOf state.rxs) slot none ∧
      (segRxReset cfg state slot full).2.filterMap SegRxEvt.sdu = [] := by
  unfold segRxReset
  cases found : state.rxs[slot]? with
  | none =>
    have absent : sessionsOf state.rxs slot = none := by
      simp [sessionsOf, slotView, found]
    refine ⟨rfl, ?_, rfl⟩
    rw [← absent, update_eq_self]
  | some rx =>
    refine ⟨rfl, ?_, ?_⟩
    · have closed : (rx.reset full).session = none := by
        cases full <;> rfl
      rw [sessionsOf, slotView_set SegRx.session found, closed]
      rfl
    · dsimp only
      split <;> rfl

theorem segRxReset_quiet (cfg : Config) (state : SegRxs) (slot : Nat)
    (full : Bool) : Quiet state (segRxReset cfg state slot full).1 := by
  obtain ⟨rpl, sessions, _⟩ := segRxReset_spec cfg state slot full
  exact .closing (by rw [rpl]) sessions

/-- The slot is one that `bt_mesh_rpl_check` has matched. -/
def Matched (netRx : NetRx) (list : List Rpl) (rplSlot : Option Nat) : Prop :=
  ∀ entry, rplSlot = some entry → ∃ rpl, Reached netRx list entry rpl

theorem rplCheck_matched (cfg : Config) (rl : ReplayList) (netRx : NetRx) :
    Matched netRx rl.list (rplCheck cfg rl netRx true).1.slot := by
  intro entry matched
  unfold rplCheck at matched
  split at matched
  · cases matched
  split at matched
  · cases matched
  split at matched
  · cases matched
  rename_i slot scan
  obtain rfl : slot = entry := some.inj matched
  exact rplScan_reached scan

variable {cfg : Config}

theorem rplCheck_isSome {netRx : NetRx} (consulted : checked netRx = true)
    (passed : (rplCheck cfg rl netRx true).1.replay = false) :
    ∃ entry, (rplCheck cfg rl netRx true).1.slot = some entry := by
  simp only [checked, Bool.and_eq_true, bne_iff_ne, ne_eq] at consulted
  unfold rplCheck at passed ⊢
  rw [if_neg consulted.1, consulted.2] at passed ⊢
  cases scan : rplScan netRx rl.list with
  | none =>
    rw [scan] at passed
    cases passed
  | some slot => exact ⟨slot, rfl⟩

def Rpl.complete (rpl : Rpl) (netRx : NetRx) (auth : Nat) : Rpl :=
  { rpl.update netRx with seg := max (rpl.update netRx).seg auth }

theorem update_seg {netRx : NetRx} (same : rpl.oldIv = netRx.oldIv) :
    (rpl.update netRx).seg = rpl.seg := by
  cases old : netRx.oldIv <;> simp [Rpl.update, same, old]

theorem rplUpdate_marks (cfg : Config) {netRx : NetRx} {entry : Nat}
    (reached : Reached netRx rl.list entry rpl)
    (marked : Marked rl.list id old) :
    Marked (rplUpdate cfg rl entry netRx).list id old := by
  rw [rplUpdate_list cfg rl entry netRx reached.found]
  exact marked.set reached (rpl.update_src netRx) rfl
    (fun same => Nat.le_of_eq (update_seg same).symm)

theorem rplComplete_list (cfg : Config) (rl : ReplayList) (netRx : NetRx)
    (auth : Nat) {entry : Nat} (found : rl.list[entry]? = some rpl) :
    (rplComplete cfg rl (some entry) netRx auth).list =
      rl.list.set entry (rpl.complete netRx auth) := by
  have bound := (List.getElem?_eq_some_iff.mp found).1
  have updated := rplUpdate_list cfg rl entry netRx found
  have here : (rplUpdate cfg rl entry netRx).list[entry]? =
      some (rpl.update netRx) := by
    rw [updated]
    exact getElem?_set_self bound
  simp only [rplComplete, here]
  rw [updated, set_set]
  rfl

variable {rplSlot : Option Nat}

theorem rplComplete_marks (cfg : Config) {netRx : NetRx} (auth : Nat)
    (matched : Matched netRx rl.list rplSlot) (marked : Marked rl.list id old) :
    Marked (rplComplete cfg rl rplSlot netRx auth).list id old := by
  cases rplSlot with
  | none => exact marked
  | some entry =>
    obtain ⟨rpl, reached⟩ := matched entry rfl
    have seg : rpl.oldIv = netRx.oldIv →
        rpl.seg ≤ (rpl.complete netRx auth).seg := by
      intro same
      exact Nat.le_trans (Nat.le_of_eq (update_seg same).symm) (Nat.le_max_left _ _)
    have src : (rpl.complete netRx auth).src = netRx.addr := rpl.update_src netRx
    rw [rplComplete_list cfg rl netRx auth reached.found]
    exact marked.set reached src rfl seg

theorem rplComplete_marked (cfg : Config) {rl : ReplayList} {netRx : NetRx}
    {entry : Nat} {id : SduId} (src : id.src = netRx.addr)
    (matched : Matched netRx rl.list (some entry)) :
    Marked (rplComplete cfg rl (some entry) netRx (id.seqAuth % 2 ^ 24)).list id
      netRx.oldIv := by
  obtain ⟨rpl, reached⟩ := matched entry rfl
  rw [rplComplete_list cfg rl netRx (id.seqAuth % 2 ^ 24) reached.found]
  refine ⟨rpl.complete netRx (id.seqAuth % 2 ^ 24), ?_,
    .inr ⟨rfl, Nat.le_max_right _ _⟩⟩
  rw [src]
  exact reached.updated _ (rpl.update_src netRx)

theorem visible_src {src : Nat} :
    ∀ {list : List Rpl} {rpl : Rpl}, visible src list = some rpl →
      rpl.src = src ∧ rpl.src ≠ 0
  | [], rpl, seen => by cases seen
  | first :: rest, rpl, seen => by
      rw [visible] at seen
      split at seen
      · cases seen
      rename_i nonzero
      split at seen
      · rename_i same
        cases seen
        exact ⟨same, nonzero⟩
      · exact visible_src seen

theorem oldSeqAuth_of_marked {netRx : NetRx} {entry : Nat}
    (src : id.src = netRx.addr) (matched : Matched netRx rl.list (some entry))
    (marked : Marked rl.list id netRx.oldIv) :
    oldSeqAuth rl (some entry) netRx (id.seqAuth % 2 ^ 24) = true := by
  obtain ⟨_, reached⟩ := matched entry rfl
  obtain ⟨_, seen, mark⟩ := marked
  rw [src] at seen
  rcases reached.entry with ⟨_, unseen⟩ | ⟨here, passes⟩
  · rw [unseen] at seen
    cases seen
  rw [here] at seen
  cases seen
  have nonzero := (visible_src here).2
  rcases mark with ⟨current, old⟩ | ⟨sameIv, low⟩
  · rcases passes with ⟨new, _⟩ | ⟨same, _⟩
    · rw [old] at new
      cases new
    · rw [old, current] at same
      cases same
  · simp only [oldSeqAuth, bind_some, reached.found]
    cases old : netRx.oldIv <;> simpa [nonzero, sameIv, old] using low

theorem segRxScan_spec {addr dst seqAuth : Nat} :
    ∀ {rxs : List SegRx} {slot : Nat} {rx : SegRx} {usable : Bool},
      segRxScan addr dst seqAuth rxs = some (slot, rx, usable) →
      rxs[slot]? = some rx ∧ rx.src = addr ∧ rx.dst = dst ∧
        (usable = true → seqAuth ≤ rx.seqAuth) ∧
        (usable = false → rx.inUse = true)
  | [], slot, rx, usable, scan => by cases scan
  | first :: rest, slot, rx, usable, scan => by
      rw [segRxScan] at scan
      split at scan
      · rename_i newer
        cases scan
        exact ⟨rfl, newer.1, newer.2.1, fun _ => newer.2.2, fun no => by cases no⟩
      · split at scan
        · rename_i stale
          cases scan
          exact ⟨rfl, stale.1, stale.2.1, fun no => (by cases no), fun _ => stale.2.2⟩
        · obtain ⟨⟨_, _⟩, behind, pair⟩ := map_eq_some_iff.mp scan
          cases pair
          have later := segRxScan_spec behind
          exact ⟨later.1, later.2⟩

theorem segRxScan_none {addr dst seqAuth : Nat} :
    ∀ {rxs : List SegRx}, segRxScan addr dst seqAuth rxs = none →
      ∀ slot id, sessionsOf rxs slot = some id → ¬ (id.src = addr ∧ id.dst = dst)
  | [], _, slot, id, seen, _ => by simp [sessionsOf, slotView] at seen
  | first :: rest, scan, slot, id, seen, same => by
      rw [segRxScan] at scan
      split at scan
      · cases scan
      split at scan
      · cases scan
      rename_i notStale
      cases slot with
      | zero =>
        have session : first.session = some id := seen
        obtain ⟨inUse, src, dstEq, _⟩ := session_eq_some.mp session
        exact notStale ⟨src.trans same.1, dstEq.trans same.2, inUse⟩
      | succ slot =>
        exact segRxScan_none (map_eq_none_iff.mp scan) slot id seen same

theorem freeRx_spec :
    ∀ {rxs : List SegRx} {slot : Nat} {rx : SegRx},
      freeRx rxs = some (slot, rx) → rxs[slot]? = some rx ∧ rx.inUse = false
  | [], slot, rx, scan => by cases scan
  | first :: rest, slot, rx, scan => by
      rw [freeRx] at scan
      split at scan
      · obtain ⟨⟨_, _⟩, behind, pair⟩ := map_eq_some_iff.mp scan
        cases pair
        have later := freeRx_spec behind
        exact ⟨later.1, later.2⟩
      · rename_i free
        cases scan
        exact ⟨rfl, by simpa using free⟩

/-- The SDU is handed over at most once.  Afterwards no context receives it, and
the replay list entry of its source tells. -/
structure Outcome (netRx : NetRx) (rplSlot : Option Nat) (id : SduId)
    (before after : SegRxs) (evts : List SegRxEvt) : Prop
    extends Quiet before after where
  handed : evts.filterMap SegRxEvt.sdu = [] ∨ evts.filterMap SegRxEvt.sdu = [id] ∧
      (∀ slot, sessionsOf after.rxs slot ≠ some id) ∧
      (rplSlot.isSome → Marked after.rpl.list id netRx.oldIv)

theorem Outcome.silent {netRx : NetRx}
    (quiet : Quiet before after) (nothing : evts.filterMap SegRxEvt.sdu = []) :
    Outcome netRx rplSlot id before after evts :=
  ⟨quiet, .inl nothing⟩

theorem Quiet.then {netRx : NetRx} {middle : SegRxs} (quiet : Quiet before middle)
    (outcome : Outcome netRx rplSlot id middle after evts) :
    Outcome netRx rplSlot id before after evts :=
  ⟨quiet.trans outcome.toQuiet, outcome.handed⟩

theorem sendAck_sdu (env : RxEnv) (sub src dst ttl seqAuth block : Nat)
    (obo : Bool) :
    (sendAck env sub src dst ttl seqAuth block obo).filterMap SegRxEvt.sdu = [] := by
  unfold sendAck
  split <;> rfl

theorem handOver_sdu (env : RxEnv) (ctl : Bool) (id : SduId) (hdr : Byte)
    (aszmic : Bool) (rx : SegRx) :
    (handOver env ctl id hdr aszmic rx).2.filterMap SegRxEvt.sdu = [] ∨
      (handOver env ctl id hdr aszmic rx).2.filterMap SegRxEvt.sdu = [id] := by
  unfold handOver
  split
  · exact .inr rfl
  split
  · exact .inl rfl
  · exact .inr rfl

section Reception

variable {cfg : Config} {netRx : NetRx} {seqAuth slot : Nat}
variable {rplSlot : Option Nat} {rx : SegRx} {state : SegRxs}

theorem segRxDeliver_outcome (env : RxEnv) (hdr : Byte) (aszmic : Bool)
    (distinct : Distinct state) (matched : Matched netRx state.rpl.list rplSlot)
    (found : state.rxs[slot]? = some rx)
    (session : rx.session = some ⟨netRx.addr, netRx.recvDst, seqAuth⟩) :
    Outcome netRx rplSlot ⟨netRx.addr, netRx.recvDst, seqAuth⟩ state
      (segRxDeliver cfg env netRx hdr aszmic seqAuth rplSlot slot rx state).2.1
      (segRxDeliver cfg env netRx hdr aszmic seqAuth rplSlot slot rx state).2.2 := by
  obtain ⟨rplEq, sessions, resetEvts⟩ := segRxReset_spec cfg
    { state with
      rpl := rplComplete cfg state.rpl rplSlot netRx (seqAuth % 2 ^ 24)
      rxs := state.rxs.set slot { rx with ack := false } }
    slot false
  have cancelled : sessionsOf (state.rxs.set slot { rx with ack := false }) =
      sessionsOf state.rxs :=
    slotView_set_same found rfl
  rw [cancelled] at sessions
  have updates : Quiet state
      { state with
        rpl := rplComplete cfg state.rpl rplSlot netRx (seqAuth % 2 ^ 24) } :=
    ⟨fun _ _ seen => seen, fun _ _ marked => rplComplete_marks cfg _ matched marked⟩
  refine ⟨updates.trans (.closing (congrArg ReplayList.list rplEq) sessions), ?_⟩
  have evts : (segRxDeliver cfg env netRx hdr aszmic seqAuth rplSlot slot
      rx state).2.2.filterMap SegRxEvt.sdu =
      (handOver env netRx.ctl ⟨netRx.addr, netRx.recvDst, seqAuth⟩ hdr aszmic
        rx).2.filterMap SegRxEvt.sdu := by
    simp only [segRxDeliver, filterMap_append, sendAck_sdu, resetEvts,
      nil_append, append_nil]
  rw [evts]
  rcases handOver_sdu env netRx.ctl ⟨netRx.addr, netRx.recvDst, seqAuth⟩ hdr
    aszmic rx with nothing | once
  · exact .inl nothing
  refine .inr ⟨once, ?_, ?_⟩
  · intro other seen
    have seen : update (sessionsOf state.rxs) slot none other =
        some ⟨netRx.addr, netRx.recvDst, seqAuth⟩ := sessions ▸ seen
    by_cases same : other = slot
    · subst same
      rw [update_self] at seen
      cases seen
    · rw [update_of_ne same] at seen
      have here : sessionsOf state.rxs slot =
          some ⟨netRx.addr, netRx.recvDst, seqAuth⟩ :=
        (slotView_found found).trans session
      exact same ((distinct_iff state).mp distinct other slot _ _ seen here
        ⟨rfl, rfl⟩)
  · intro isSome
    obtain ⟨_, rfl⟩ := isSome_iff_exists.mp isSome
    have marked := @rplComplete_marked cfg _ _ _
      ⟨netRx.addr, netRx.recvDst, seqAuth⟩ rfl matched
    exact (congrArg ReplayList.list rplEq).symm ▸ marked

theorem segRxStore_outcome (env : RxEnv) (hdr : Byte) (head : SegHdr)
    (payload : List Byte) (distinct : Distinct state)
    (matched : Matched netRx state.rpl.list rplSlot)
    (found : state.rxs[slot]? = some rx)
    (session : rx.session = some ⟨netRx.addr, netRx.recvDst, seqAuth⟩) :
    Outcome netRx rplSlot ⟨netRx.addr, netRx.recvDst, seqAuth⟩ state
      (segRxStore cfg env netRx hdr head seqAuth rplSlot payload slot rx state).2.1
      (segRxStore cfg env netRx hdr head seqAuth rplSlot payload slot rx
        state).2.2 := by
  have bound := (List.getElem?_eq_some_iff.mp found).1
  have sizedSession : (rx.sized head payload).session = rx.session := by
    unfold SegRx.sized
    split <;> rfl
  unfold segRxStore
  dsimp only
  split
  · exact .silent (.refl state) rfl
  split
  · have quiet := Quiet.set found sizedSession state.slab
    refine .silent (quiet.trans (segRxReset_quiet cfg _ slot true)) ?_
    rw [filterMap_append, sendAck_sdu, (segRxReset_spec cfg _ slot true).2.2]
    rfl
  · split
    · exact .silent (.refl state) rfl
    split
    · have timedSession :
          ((rx.sized head payload).timed env).session = rx.session :=
        sizedSession
      exact .silent (Quiet.set found timedSession state.slab) rfl
    · rename_i free slab _
      have storedSession : (((rx.sized head payload).timed env).store
          head.segO free payload).session = rx.session :=
        sizedSession
      have quiet := Quiet.set found storedSession slab
      split
      · exact .silent quiet rfl
      apply quiet.then
      exact segRxDeliver_outcome env hdr head.aszmic
        (quiet.distinct distinct) matched
        (getElem?_set_self bound) (storedSession.trans session)

/-- What a whole reception does.  It is judged when its replay list entry is
known and carries the IV index of the SDU. -/
structure Reception (ivOf : SduId → Bool) (netRx : NetRx)
    (rplSlot : Option Nat) (id : SduId) (before after : SegRxs)
    (evts : List SegRxEvt) : Prop where
  distinct : Distinct after
  stays : rplSlot.isSome → netRx.oldIv = ivOf id →
    ∀ other, SduCovered ivOf before other → SduCovered ivOf after other
  handed : evts.filterMap SegRxEvt.sdu = [] ∨ evts.filterMap SegRxEvt.sdu = [id] ∧
      (rplSlot.isSome → netRx.oldIv = ivOf id →
        ¬ SduCovered ivOf before id ∧ SduCovered ivOf after id)

theorem Outcome.covered (iv : netRx.oldIv = ivOf id) (isSome : rplSlot.isSome)
    (handed : (∀ slot, sessionsOf after.rxs slot ≠ some id) ∧
      (rplSlot.isSome → Marked after.rpl.list id netRx.oldIv)) :
    SduCovered ivOf after id :=
  ⟨iv ▸ handed.2 isSome, handed.1⟩

theorem Outcome.reception (ivOf : SduId → Bool) (distinct : Distinct state)
    (outcome : Outcome netRx rplSlot id state after evts)
    (opened : evts.filterMap SegRxEvt.sdu = [] ∨
      ∃ slot, sessionsOf state.rxs slot = some id) :
    Reception ivOf netRx rplSlot id state after evts where
  distinct := outcome.distinct distinct
  stays _ _ _ covered := outcome.stays covered
  handed := by
    rcases opened with nothing | ⟨slot, seen⟩
    · exact .inl nothing
    rcases outcome.handed with nothing | ⟨once, covers⟩
    · exact .inl nothing
    refine .inr ⟨once, ?_⟩
    intro isSome iv
    exact ⟨fun covered => covered.unopened slot seen,
      Outcome.covered iv isSome covers⟩

theorem segRxKnown_reception (ivOf : SduId → Bool) (env : RxEnv) (hdr : Byte)
    (head : SegHdr) (payload : List Byte) (distinct : Distinct state)
    (matched : Matched netRx state.rpl.list rplSlot)
    (found : state.rxs[slot]? = some rx) (src : rx.src = netRx.addr)
    (dst : rx.dst = netRx.recvDst) (reaches : seqAuth ≤ rx.seqAuth) :
    Reception ivOf netRx rplSlot ⟨netRx.addr, netRx.recvDst, seqAuth⟩ state
      (segRxKnown cfg env netRx hdr head seqAuth rplSlot payload slot rx state).2.1
      (segRxKnown cfg env netRx hdr head seqAuth rplSlot payload slot rx
        state).2.2 := by
  have unchanged := Outcome.reception ivOf distinct
    (.silent (.refl state) rfl : Outcome netRx rplSlot
      ⟨netRx.addr, netRx.recvDst, seqAuth⟩ state state []) (.inl rfl)
  unfold segRxKnown
  split
  · exact unchanged
  rename_i notOlder
  split
  · exact unchanged
  split
  · rename_i inUse
    have session : rx.session = some ⟨netRx.addr, netRx.recvDst, seqAuth⟩ :=
      session_eq_some.mpr ⟨inUse, src, dst,
        Nat.le_antisymm (Nat.le_of_not_lt notOlder) reaches⟩
    exact Outcome.reception ivOf distinct
      (segRxStore_outcome env hdr head payload distinct matched found session)
      (.inr ⟨slot, (slotView_found found).trans session⟩)
  · split
    · refine Outcome.reception ivOf distinct
        (.silent ⟨fun _ _ seen => seen, ?_⟩ (sendAck_sdu ..))
        (.inl (sendAck_sdu ..))
      intro id old marked
      cases rplSlot with
      | none => exact marked
      | some entry =>
        obtain ⟨_, reached⟩ := matched entry rfl
        exact rplUpdate_marks cfg reached marked
    · exact unchanged

def Unpaired (netRx : NetRx) (state : SegRxs) : Prop :=
  ∀ slot id, sessionsOf state.rxs slot = some id →
    ¬ (id.src = netRx.addr ∧ id.dst = netRx.recvDst)

structure Opens (id : SduId) (slot : Nat) (before after : SegRxs) : Prop where
  rpl : after.rpl = before.rpl
  sessions : sessionsOf after.rxs = update (sessionsOf before.rxs) slot (some id)

theorem segRxAlloc_opens {hdr : Byte} {segN : Nat} {opened : SegRxs}
    (alloc : segRxAlloc netRx hdr seqAuth segN state = some (slot, rx, opened)) :
    Opens ⟨netRx.addr, netRx.recvDst, seqAuth⟩ slot state opened ∧
      opened.rxs[slot]? = some rx ∧
      rx.session = some ⟨netRx.addr, netRx.recvDst, seqAuth⟩ := by
  unfold segRxAlloc at alloc
  split at alloc
  · cases alloc
  obtain ⟨⟨_, _⟩, scan, pair⟩ := map_eq_some_iff.mp alloc
  cases pair
  obtain ⟨found, _⟩ := freeRx_spec scan
  refine ⟨⟨rfl, ?_⟩, ?_, rfl⟩
  · exact slotView_set SegRx.session found _
  · exact getElem?_set_self (List.getElem?_eq_some_iff.mp found).1

theorem Opens.session {other : SduId} {place : Nat}
    (opens : Opens id slot state after)
    (seen : sessionsOf after.rxs place = some other) :
    place = slot ∧ other = id ∨ sessionsOf state.rxs place = some other := by
  rw [opens.sessions] at seen
  by_cases same : place = slot
  · subst same
    rw [update_self] at seen
    exact .inl ⟨rfl, (some.inj seen).symm⟩
  · rw [update_of_ne same] at seen
    exact .inr seen

theorem Opens.distinct
    (opens : Opens ⟨netRx.addr, netRx.recvDst, seqAuth⟩ slot state after)
    (unpaired : Unpaired netRx state) (distinct : Distinct state) :
    Distinct after := by
  rw [distinct_iff] at distinct ⊢
  intro first second one other atFirst atSecond same
  rcases opens.session atFirst with ⟨rfl, rfl⟩ | keptFirst
  · rcases opens.session atSecond with ⟨rfl, _⟩ | keptSecond
    · rfl
    · exact absurd ⟨same.1.symm, same.2.symm⟩ (unpaired second other keptSecond)
  · rcases opens.session atSecond with ⟨rfl, rfl⟩ | keptSecond
    · exact absurd same (unpaired first one keptFirst)
    · exact distinct first second one other keptFirst keptSecond same

theorem Opens.stays {other : SduId} (opens : Opens id slot state after)
    (unmarked : ¬ Marked state.rpl.list id (ivOf id))
    (covered : SduCovered ivOf state other) : SduCovered ivOf after other := by
  refine ⟨by rw [opens.rpl]; exact covered.marked, ?_⟩
  intro place seen
  rcases opens.session seen with ⟨_, rfl⟩ | kept
  · exact unmarked covered.marked
  · exact covered.unopened place kept

theorem segRxNew_cases (cfg : Config) (env : RxEnv) (netRx : NetRx)
    (hdr : Byte) (head : SegHdr) (seqAuth : Nat) (rplSlot : Option Nat)
    (payload : List Byte) (state : SegRxs) :
    ((segRxNew cfg env netRx hdr head seqAuth rplSlot payload state).2.1 = state ∧
      (segRxNew cfg env netRx hdr head seqAuth rplSlot payload
        state).2.2.filterMap SegRxEvt.sdu = []) ∨ ∃ slot rx opened,
      oldSeqAuth state.rpl rplSlot netRx (seqAuth % 2 ^ 24) = false ∧
      segRxAlloc netRx hdr seqAuth head.segN state = some (slot, rx, opened) ∧
      segRxNew cfg env netRx hdr head seqAuth rplSlot payload state =
        segRxStore cfg env netRx hdr head seqAuth rplSlot payload slot rx
          opened := by
  unfold segRxNew
  split
  · exact .inl ⟨rfl, sendAck_sdu ..⟩
  split
  · exact .inl ⟨rfl, sendAck_sdu ..⟩
  split
  · exact .inl ⟨rfl, rfl⟩
  rename_i fresh
  split
  · exact .inl ⟨rfl, rfl⟩
  · rename_i slot rx opened alloc
    exact .inr ⟨slot, rx, opened, by simpa using fresh, alloc, rfl⟩

theorem segRxNew_reception (ivOf : SduId → Bool) (env : RxEnv) (hdr : Byte)
    (head : SegHdr) (payload : List Byte) (distinct : Distinct state)
    (unpaired : Unpaired netRx state)
    (matched : Matched netRx state.rpl.list rplSlot) :
    Reception ivOf netRx rplSlot ⟨netRx.addr, netRx.recvDst, seqAuth⟩ state
      (segRxNew cfg env netRx hdr head seqAuth rplSlot payload state).2.1
      (segRxNew cfg env netRx hdr head seqAuth rplSlot payload state).2.2 := by
  rcases segRxNew_cases cfg env netRx hdr head seqAuth rplSlot payload state with
    ⟨same, nothing⟩ | ⟨slot, rx, opened, fresh, alloc, stored⟩
  · rw [same]
    exact Outcome.reception ivOf distinct (.silent (.refl state) nothing)
      (.inl nothing)
  · obtain ⟨opens, found, session⟩ := segRxAlloc_opens alloc
    have nowDistinct := opens.distinct unpaired distinct
    have outcome := @segRxStore_outcome cfg netRx seqAuth slot rplSlot rx opened
      env hdr head payload nowDistinct (by rw [opens.rpl]; exact matched) found
      session
    rw [stored]
    have unmarked : rplSlot.isSome →
        netRx.oldIv = ivOf ⟨netRx.addr, netRx.recvDst, seqAuth⟩ →
        ¬ Marked state.rpl.list ⟨netRx.addr, netRx.recvDst, seqAuth⟩
          (ivOf ⟨netRx.addr, netRx.recvDst, seqAuth⟩) := by
      intro isSome iv marked
      obtain ⟨_, rfl⟩ := isSome_iff_exists.mp isSome
      rw [← iv] at marked
      have refused := oldSeqAuth_of_marked rfl matched marked
      rw [fresh] at refused
      cases refused
    refine ⟨outcome.distinct nowDistinct, ?_, ?_⟩
    · intro isSome iv other covered
      exact outcome.stays (opens.stays (unmarked isSome iv) covered)
    · rcases outcome.handed with nothing | ⟨once, covers⟩
      · exact .inl nothing
      refine .inr ⟨once, ?_⟩
      intro isSome iv
      exact ⟨fun covered => unmarked isSome iv covered.marked,
        Outcome.covered iv isSome covers⟩

theorem Quiet.reception {middle : SegRxs} {later : List SegRxEvt}
    (quiet : Quiet state middle) (nothing : evts.filterMap SegRxEvt.sdu = [])
    (reception : Reception ivOf netRx rplSlot id middle after later) :
    Reception ivOf netRx rplSlot id state after (evts ++ later) where
  distinct := reception.distinct
  stays isSome iv other covered :=
    reception.stays isSome iv other (quiet.stays covered)
  handed := by
    rw [filterMap_append, nothing, nil_append]
    rcases reception.handed with silent | ⟨once, covers⟩
    · exact .inl silent
    refine .inr ⟨once, ?_⟩
    intro isSome iv
    obtain ⟨fresh, covered⟩ := covers isSome iv
    exact ⟨fun before => fresh (quiet.stays before), covered⟩

theorem segRxFind_cases (cfg : Config) (seqAuth : Nat)
    (distinct : Distinct state) :
    (∃ slot rx, segRxFind cfg netRx seqAuth state = (some (slot, rx), state, []) ∧
      state.rxs[slot]? = some rx ∧ rx.src = netRx.addr ∧
      rx.dst = netRx.recvDst ∧ seqAuth ≤ rx.seqAuth) ∨
    ∃ cleared evts, segRxFind cfg netRx seqAuth state = (none, cleared, evts) ∧
      Quiet state cleared ∧ cleared.rpl = state.rpl ∧
      evts.filterMap SegRxEvt.sdu = [] ∧ Unpaired netRx cleared := by
  unfold segRxFind
  cases scan : segRxScan netRx.addr netRx.recvDst seqAuth state.rxs with
  | none => exact .inr ⟨state, [], rfl, .refl state, rfl, rfl, segRxScan_none scan⟩
  | some found =>
    obtain ⟨slot, rx, usable⟩ := found
    obtain ⟨at_, src, dst, reaches, inUse⟩ := segRxScan_spec scan
    cases usable with
    | true => exact .inl ⟨slot, rx, rfl, at_, src, dst, reaches rfl⟩
    | false =>
      obtain ⟨rpl, sessions, nothing⟩ := segRxReset_spec cfg state slot true
      refine .inr ⟨(segRxReset cfg state slot true).1,
        (segRxReset cfg state slot true).2, rfl,
        segRxReset_quiet cfg state slot true, rpl, nothing, ?_⟩
      intro other id seen pair
      rw [sessions] at seen
      by_cases same : other = slot
      · subst same
        rw [update_self] at seen
        cases seen
      · rw [update_of_ne same] at seen
        have session : rx.session = some ⟨netRx.addr, netRx.recvDst, rx.seqAuth⟩ :=
          session_eq_some.mpr ⟨inUse rfl, src, dst, rfl⟩
        exact same ((distinct_iff state).mp distinct other slot _ _ seen
          ((slotView_found at_).trans session) pair)

theorem segRxTake_reception (ivOf : SduId → Bool) (env : RxEnv) (hdr : Byte)
    (head : SegHdr) (payload : List Byte) (distinct : Distinct state)
    (matched : Matched netRx state.rpl.list rplSlot) :
    Reception ivOf netRx rplSlot ⟨netRx.addr, netRx.recvDst, seqAuth⟩ state
      (segRxTake cfg env netRx hdr head seqAuth rplSlot payload state).2.1
      (segRxTake cfg env netRx hdr head seqAuth rplSlot payload state).2.2 := by
  rcases segRxFind_cases cfg seqAuth distinct with
    ⟨slot, rx, find, found, src, dst, reaches⟩ |
    ⟨cleared, evts, find, quiet, rpl, nothing, unpaired⟩
  · unfold segRxTake
    rw [find]
    exact segRxKnown_reception ivOf env hdr head payload distinct matched found
      src dst reaches
  · unfold segRxTake
    rw [find]
    exact quiet.reception nothing (segRxNew_reception ivOf env hdr head payload
      (quiet.distinct distinct) unpaired (by rw [rpl]; exact matched))

theorem transSeg_cases (cfg : Config) (env : RxEnv) (netRx : NetRx)
    (buf : List Byte) (state : SegRxs) :
    (transSeg cfg env netRx buf state).2 = (state, []) ∨
    ∃ hdr h1 h2 h3 payload, buf = hdr :: h1 :: h2 :: h3 :: payload ∧
      (rplCheck cfg state.rpl netRx true).1.replay = false ∧
      transSeg cfg env netRx buf state =
        segRxTake cfg env netRx hdr (segHdrOf h1 h2 h3)
          (seqAuthRx state.ivIndex netRx (segHdrOf h1 h2 h3))
          (rplCheck cfg state.rpl netRx true).1.slot payload state := by
  unfold transSeg
  split
  · rename_i hdr h1 h2 h3 first rest
    dsimp only
    split
    · exact .inl rfl
    rename_i passed
    split
    · exact .inl rfl
    · exact .inr ⟨hdr, h1, h2, h3, first :: rest, rfl,
        eq_false_of_ne_true passed, rfl⟩
  · exact .inl rfl

end Reception

structure SilentRx (before : SegRxs) (result : SegRxs × List SegRxEvt) : Prop
    extends Quiet before result.1 where
  nothing : result.2.filterMap SegRxEvt.sdu = []

theorem transUnseg_silent (cfg : Config) (env : RxEnv) (netRx : NetRx)
    (buf : List Byte) (state : SegRxs) :
    SilentRx state (transUnseg cfg env netRx buf state).2 := by
  have updates : Quiet state
      { state with rpl := (rplCheck cfg state.rpl netRx false).2 } := by
    refine ⟨fun _ _ seen => seen, ?_⟩
    intro id old marked
    cases consulted : checked netRx with
    | false => rwa [rplCheck_unchecked consulted]
    | true =>
      rcases rplCheck_checked cfg state.rpl consulted with
        ⟨check, _⟩ | ⟨slot, scan, check⟩
      · rwa [check]
      obtain ⟨rpl, reached⟩ := rplScan_reached scan
      rw [check]
      exact rplUpdate_marks cfg reached marked
  unfold transUnseg
  cases buf with
  | nil => exact ⟨.refl state, rfl⟩
  | cons =>
    dsimp only
    split
    · exact ⟨.refl state, rfl⟩
    split
    · exact ⟨updates, rfl⟩
    split
    · exact ⟨updates, rfl⟩
    · exact ⟨updates, rfl⟩

theorem segAck_silent (cfg : Config) (env : RxEnv) (state : SegRxs)
    (slot : Nat) : SilentRx state (segAck cfg env state slot) := by
  unfold segAck
  cases found : state.rxs[slot]? with
  | none => exact ⟨.refl state, rfl⟩
  | some rx =>
    dsimp only
    split
    · have quiet : Quiet state _ :=
        .set found (rfl : ({ rx with ack := false } : SegRx).session = _) state.slab
      exact ⟨quiet, rfl⟩
    · split
      · exact ⟨segRxReset_quiet cfg state slot false,
          (segRxReset_spec cfg state slot false).2.2⟩
      have quiet : Quiet state _ :=
        .set found (rfl : ({ rx with ack := true } : SegRx).session = _) state.slab
      exact ⟨quiet, sendAck_sdu ..⟩

theorem rxReset_silent (cfg : Config) (state : SegRxs) :
    SilentRx state (rxReset cfg state) := by
  apply foldlRecOn (motive := fun current => SilentRx state current)
  · exact ⟨.refl state, rfl⟩
  · intro current silent slot _
    refine ⟨silent.trans (segRxReset_quiet cfg current.1 slot true), ?_⟩
    rw [filterMap_append, silent.nothing,
      (segRxReset_spec cfg current.1 slot true).2.2]
    rfl

theorem segRxStep_distinct (cfg : Config) (state : SegRxs)
    (input : SegRxInput) (distinct : Distinct state) :
    Distinct ((segRxMachine cfg).next state input) := by
  cases input with
  | seg env netRx buf =>
    change Distinct (transSeg cfg env netRx buf state).2.1
    rcases transSeg_cases cfg env netRx buf state with
      dropped | ⟨hdr, h1, h2, h3, payload, _, _, taken⟩
    · rw [dropped]
      exact distinct
    rw [taken]
    exact (segRxTake_reception (fun _ => false) env hdr _ payload distinct
      (rplCheck_matched cfg state.rpl netRx)).distinct
  | unseg env netRx buf =>
    exact (transUnseg_silent cfg env netRx buf state).distinct distinct
  | segAck env slot => exact (segAck_silent cfg env state slot).distinct distinct
  | rxReset => exact (rxReset_silent cfg state).distinct distinct
  | ivUpdate => exact distinct
  | rplClear => exact distinct

theorem SilentRx.fresh {input : SegRxInput}
    (silent : SilentRx state (segRxStep cfg state input))
    (distinct : Distinct state) :
    (segRxMachine cfg).Fresh Distinct (SduCovered ivOf) state input :=
  .silent silent.nothing (silent.distinct distinct)
    fun _ covered => silent.stays covered

theorem Reception.fresh {netRx : NetRx} {input : SegRxInput}
    (reception : Reception ivOf netRx rplSlot id state
      (segRxStep cfg state input).1 (segRxStep cfg state input).2)
    (isSome : rplSlot.isSome) (iv : netRx.oldIv = ivOf id) :
    (segRxMachine cfg).Fresh Distinct (SduCovered ivOf) state input := by
  have stays := reception.stays isSome iv
  rcases reception.handed with nothing | ⟨once, covers⟩
  · exact .silent nothing reception.distinct stays
  obtain ⟨_, _⟩ := covers isSome iv
  have emits : (segRxMachine cfg).emit state input = [id] := once
  refine ⟨reception.distinct, ?_, ?_, ?_, stays⟩
  · rw [emits]
    exact nodup_singleton id
  · intro output emitted
    rw [emits, mem_singleton] at emitted
    rwa [emitted]
  · intro output emitted
    rw [emits, mem_singleton] at emitted
    rwa [emitted]

theorem segRxStep_fresh (cfg : Config) (ivOf : SduId → Bool) (state : SegRxs)
    (input : SegRxInput) (distinct : Distinct state)
    (within : WithinIv ivOf state input) :
    (segRxMachine cfg).Fresh Distinct (SduCovered ivOf) state input := by
  cases input with
  | seg env netRx buf =>
    rcases transSeg_cases cfg env netRx buf state with
      dropped | ⟨hdr, h1, h2, h3, payload, rfl, passed, taken⟩
    · have silent : SilentRx state
          (segRxStep cfg state (.seg env netRx buf)) := by
        change SilentRx state (transSeg cfg env netRx buf state).2
        rw [dropped]
        exact ⟨.refl state, rfl⟩
      exact silent.fresh distinct
    · obtain ⟨consulted, iv⟩ := within
      obtain ⟨_, matched⟩ := rplCheck_isSome consulted passed
      have reception := @segRxTake_reception cfg netRx
        (seqAuthRx state.ivIndex netRx (segHdrOf h1 h2 h3)) _ state ivOf env
        hdr (segHdrOf h1 h2 h3) payload distinct
        (rplCheck_matched cfg state.rpl netRx)
      rw [← taken] at reception
      exact Reception.fresh reception (by rw [matched]; rfl) iv
  | unseg env netRx buf =>
    exact (transUnseg_silent cfg env netRx buf state).fresh distinct
  | segAck env slot => exact (segAck_silent cfg env state slot).fresh distinct
  | rxReset => exact (rxReset_silent cfg state).fresh distinct
  | ivUpdate => exact within.elim
  | rplClear => exact within.elim

theorem boot_distinct (cfg : Config) (ivIndex crpl msgCount segBufs : Nat) :
    Distinct (.boot cfg ivIndex crpl msgCount segBufs) := by
  intro first second one other foundFirst _ inUse
  have member := mem_of_getElem? foundFirst
  rw [eq_of_mem_replicate member] at inUse
  cases inUse

/-- After any history, no SDU is handed over twice while the replay list is
neither aged nor cleared, and no two contexts in use ever share their
addresses. -/
theorem segRx_delivers_once (cfg : Config)
    (ivIndex crpl msgCount segBufs : Nat) (history inputs : List SegRxInput)
    (ivOf : SduId → Bool) (within : (segRxMachine cfg).Along (WithinIv ivOf)
      ((segRxMachine cfg).run (.boot cfg ivIndex crpl msgCount segBufs) history)
      inputs) : ((segRxMachine cfg).trace
        ((segRxMachine cfg).run (.boot cfg ivIndex crpl msgCount segBufs)
          history) inputs).Nodup ∧ (segRxMachine cfg).Always Distinct
        (.boot cfg ivIndex crpl msgCount segBufs) (history ++ inputs) := by
  have everywhere : ∀ run, (segRxMachine cfg).Always Distinct
      (.boot cfg ivIndex crpl msgCount segBufs) run := by
    intro run
    exact Machine.always_of_kept (segRxStep_distinct cfg)
      (boot_distinct cfg ivIndex crpl msgCount segBufs)
  exact ⟨(Machine.trace_nodup (segRxStep_fresh cfg ivOf)
    (everywhere history).last within).1, everywhere (history ++ inputs)⟩

/-! An SDU of two segments with SeqZero 4, sent again after its contexts were
reset. -/

def quietEnv : RxEnv := ⟨0, false, false, none⟩

def firstOfTwo (netRx : NetRx) : SegRxInput :=
  .seg quietEnv netRx ([0x80, 0x00, 0x10, 0x01] ++ List.replicate 12 0xaa)

def secondOfTwo (netRx : NetRx) : SegRxInput :=
  .seg quietEnv netRx [0x80, 0x00, 0x10, 0x21, 0xbb, 0xbb]

def sentTwice : List SegRxInput :=
  [secondOfTwo (unicastRx 1 5 false firstAddr_unicast fifthSeq_lt),
    firstOfTwo (unicastRx 1 6 false firstAddr_unicast sixthSeq_lt), .rxReset,
    firstOfTwo (unicastRx 1 7 false firstAddr_unicast seventhSeq_lt),
    secondOfTwo (unicastRx 1 8 false firstAddr_unicast)]

theorem segRx_delivers_once_sentTwice : (segRxMachine ivTestConfig).trace
        ((segRxMachine ivTestConfig).run (.boot ivTestConfig 4 2 2 4)
          [.ivUpdate 5]) sentTwice = [⟨1, 0x10, 0x5000004⟩] ∧
      ((segRxMachine ivTestConfig).trace
        ((segRxMachine ivTestConfig).run (.boot ivTestConfig 4 2 2 4)
          [.ivUpdate 5]) sentTwice).Nodup ∧
      (segRxMachine ivTestConfig).Always Distinct (.boot ivTestConfig 4 2 2 4)
        ([.ivUpdate 5] ++ sentTwice) :=
  ⟨by decide, segRx_delivers_once ivTestConfig 4 2 2 4 [.ivUpdate 5] sentTwice
    (fun _ => false) (by decide)⟩

end ZephyrBluetooth.Mesh
