import ZephyrBluetooth.Mesh.FriendPoll

namespace ZephyrBluetooth.Mesh

open Data List Option Bool

variable {op : SubOp} {groups : List LpnGroup} {group : LpnGroup}
  {changed : LpnLink}

/-! The Friend Subscription List of the Low Power node. -/

def slots (groups : List LpnGroup) : List (Nat × Bool) :=
  groups.map fun group => (group.addr, group.added)

structure Gone (groups : List LpnGroup) (place addr : Nat) : Prop where
  slot : (slots groups)[place]? = some (addrUnassigned, false)
  nowhere : ∀ slot ∈ slots groups, slot.1 ≠ addr

namespace LpnLink

/-- `bt_mesh.lpn` of a node with `count` slots for groups. -/
def boot (count : Nat) : LpnLink where
  state := .disabled
  fsn := false
  sentReq := none
  pendingPoll := false
  reqAttempts := 0
  xactNext := 0
  xactPending := 0
  groupsChanged := false
  groups := List.replicate count ⟨addrUnassigned, false, false, false⟩
  queueSize := 0
  received := []

/-- The friendship ends (`clear_friendship`), and an offer is accepted: its first
poll is sent. -/
def befriend (queueSize : Nat) (lpn : LpnLink) : LpnLink :=
  { lpn with
    state := .waitUpdate
    fsn := false
    sentReq := some .poll
    pendingPoll := false
    reqAttempts := 1
    groupsChanged := true
    groups := lpn.groups.map fun group => ⟨group.addr, false, false, false⟩
    queueSize := queueSize }

def addedCount (lpn : LpnLink) : Nat :=
  (lpn.groups.filter fun group => group.added).length

def Removing (lpn : LpnLink) : Prop :=
  lpn.sentReq = none ∧ ∃ group ∈ lpn.groups, group.toRemove = true

/-- `sub_update(TRANS_CTL_OP_FRIEND_SUB_REM)` sends a request.  The groups it
names have their bits in `pending`; a marked one of them is gone with its
confirmation. -/
structure Removes (lpn : LpnLink) : Prop where
  sends : (lpn.subUpdate .rem).2 = some (.sub .rem lpn.xactNext)
  names : ∃ (place : Nat) (group named : LpnGroup),
    lpn.groups[place]? = some group ∧ group.toRemove = true ∧
      group.pending = false ∧
      (lpn.subUpdate .rem).1.groups[place]? = some named ∧
      named.pending = true ∧
      Gone ((lpn.subUpdate .rem).1.friendSubCfm lpn.xactNext).1.groups place
        group.addr

/-- Whenever a request to remove groups is confirmed, those of them that are
still marked are gone. -/
def RemovesConfirmed (lpn : LpnLink) : Prop :=
  lpn.sentReq = some (.sub .rem) → ∀ (place : Nat) (group : LpnGroup),
    lpn.groups[place]? = some group → group.pending = true → group.toRemove = true →
      Gone (lpn.friendSubCfm lpn.xactPending).1.groups place group.addr

end LpnLink

inductive LpnGroupInput where
  | befriend (queueSize : Nat)
  | add (addr : Nat)
  | del (addrs : List Nat)
  | receive (pdu : FriendResponse) (oldKey : Bool)
  | poll
  | timeout

def lpnGroupStep (attempts : Nat) (lpn : LpnLink) :
    LpnGroupInput → LpnLink × List LpnRequest
  | .befriend queueSize => (lpn.befriend queueSize, [])
  | .add addr => ((lpn.lpnGroupAdd addr).1, (lpn.lpnGroupAdd addr).2.toList)
  | .del addrs => ((lpn.lpnGroupDel addrs).1, (lpn.lpnGroupDel addrs).2.toList)
  | .receive pdu oldKey =>
    ((lpn.receive pdu oldKey).1, (lpn.receive pdu oldKey).2.toList)
  | .poll => (lpn.sendFriendPoll.1, lpn.sendFriendPoll.2.toList)
  | .timeout => ((lpn.timeout attempts).1, (lpn.timeout attempts).2.toList)

def lpnGroupMachine (attempts : Nat) :
    Machine LpnLink LpnGroupInput LpnRequest where
  step := lpnGroupStep attempts

def subSkips (op : SubOp) (group : LpnGroup) : Bool :=
  match op with
  | .add => group.added
  | .rem => !group.toRemove

def Marks (op : SubOp) (group marked : LpnGroup) : Prop :=
  marked = group ∨
    marked = { group with pending := true } ∧ group.addr ≠ addrUnassigned ∧
      subSkips op group = false

theorem subGroups_cons (op : SubOp) (limit count : Nat) (group : LpnGroup)
    (rest : List LpnGroup) :
    subGroups op limit count (group :: rest) =
      if group.addr = addrUnassigned ∨ subSkips op group = true then
        ((subGroups op limit count rest).1,
          group :: (subGroups op limit count rest).2)
      else if limit ≤ count then
        (count, group :: rest)
      else if count + 1 = subAddrMax then
        (count + 1, { group with pending := true } :: rest)
      else
        ((subGroups op limit (count + 1) rest).1, { group with pending := true } ::
            (subGroups op limit (count + 1) rest).2) := rfl

theorem subGroups_marks (op : SubOp) (limit count : Nat)
    (groups : List LpnGroup) :
    List.Forall₂ (Marks op) groups (subGroups op limit count groups).2 := by
  have same : ∀ groups, List.Forall₂ (Marks op) groups groups := fun groups =>
    forall₂_same.mpr fun _ _ => .inl rfl
  induction groups generalizing count with
  | nil => exact .nil
  | cons group rest ih =>
    rw [subGroups_cons]
    split
    · exact .cons (.inl rfl) (ih count)
    rename_i named
    have marks : Marks op group { group with pending := true } := by
      refine .inr ⟨rfl, fun free => named (.inl free), ?_⟩
      exact eq_false_iff.mpr fun skips => named (.inr skips)
    split
    · exact .cons (.inl rfl) (same rest)
    split
    · exact .cons marks (same rest)
    · exact .cons marks (ih (count + 1))

theorem subGroups_le (op : SubOp) (limit count : Nat) (groups : List LpnGroup) :
    count ≤ (subGroups op limit count groups).1 := by
  induction groups generalizing count with
  | nil => exact Nat.le_refl _
  | cons group rest ih =>
    rw [subGroups_cons]
    split
    · exact ih count
    split
    · exact Nat.le_refl _
    split
    · exact Nat.le_succ count
    · exact Nat.le_trans (Nat.le_succ count) (ih (count + 1))

variable {op : SubOp}

theorem subGroups_named {limit count : Nat} {groups : List LpnGroup}
    (some : count < (subGroups op limit count groups).1) :
    count < limit ∧ ∃ (place : Nat) (group : LpnGroup),
      groups[place]? = .some group ∧ group.addr ≠ addrUnassigned ∧
        subSkips op group = false ∧
        (subGroups op limit count groups).2[place]? =
          .some { group with pending := true } := by
  induction groups generalizing count with
  | nil => exact absurd some (Nat.lt_irrefl count)
  | cons head rest ih =>
    rw [subGroups_cons] at some ⊢
    split at some
    · rename_i skipped
      rw [if_pos skipped]
      obtain ⟨room, place, group, held, found⟩ := ih some
      exact ⟨room, place + 1, group, held, found⟩
    · rename_i named
      rw [if_neg named]
      have assigned : head.addr ≠ addrUnassigned := fun free => named (.inl free)
      have kept : subSkips op head = false :=
        eq_false_iff.mpr fun skips => named (.inr skips)
      split at some
      · exact absurd some (Nat.lt_irrefl count)
      rename_i room
      rw [if_neg room]
      refine ⟨Nat.not_le.mp room, 0, head, rfl, assigned, kept, ?_⟩
      split <;> rfl

theorem subGroups_pos {limit count : Nat} {groups : List LpnGroup}
    (room : count < limit) (some : ∃ group ∈ groups, group.addr ≠ addrUnassigned ∧
      subSkips op group = false) :
    count < (subGroups op limit count groups).1 := by
  induction groups with
  | nil =>
    obtain ⟨_, member, _⟩ := some
    cases member
  | cons head rest ih =>
    rw [subGroups_cons]
    split
    · rename_i skipped
      apply ih
      obtain ⟨group, member, assigned, kept⟩ := some
      rcases mem_cons.mp member with rfl | later
      · rcases skipped with free | skips
        · exact absurd free assigned
        · rw [kept] at skips
          cases skips
      · exact ⟨group, later, assigned, kept⟩
    · rw [if_neg (Nat.not_le.mpr room)]
      split
      · exact Nat.lt_succ_self count
      · exact Nat.lt_of_lt_of_le (Nat.lt_succ_self count)
          (subGroups_le op limit (count + 1) rest)

theorem slots_of_marks {marked : List LpnGroup}
    (marks : List.Forall₂ (Marks op) groups marked) :
    slots marked = slots groups := by
  induction marks with
  | nil => rfl
  | cons first rest ih =>
    simp only [slots, map_cons] at ih ⊢
    rw [ih]
    rcases first with rfl | ⟨rfl, _⟩
    · rfl
    · rfl

theorem addedCount_eq (lpn : LpnLink) :
    lpn.addedCount = ((slots lpn.groups).filter fun slot => slot.2).length := by
  simp only [LpnLink.addedCount, slots, List.filter_map, List.length_map]
  rfl

def PendingOk (req : Option LpnReq) (group : LpnGroup) : Prop :=
  match req with
  | some (.sub .add) => group.pending = true → group.added = false
  | some (.sub .rem) => group.pending = true → group.added = true
  | _ => group.pending = false

structure GroupOk (req : Option LpnReq) (group : LpnGroup) : Prop where
  marked : group.toRemove = true → group.added = true ∨ group.pending = true
  free : group.addr = addrUnassigned →
    group.added = false ∧ group.pending = false ∧ group.toRemove = false
  waits : PendingOk req group

def SlotsDistinct (held : List (Nat × Bool)) : Prop :=
  ∀ (place other : Nat) (slot twin : Nat × Bool), held[place]? = some slot →
    held[other]? = some twin → slot.1 = twin.1 → slot.1 ≠ addrUnassigned →
    place = other

structure GroupsOk (lpn : LpnLink) : Prop where
  each : ∀ group ∈ lpn.groups, GroupOk lpn.sentReq group
  distinct : SlotsDistinct (slots lpn.groups)
  adding : lpn.sentReq = some (.sub .add) →
    lpn.addedCount < lpn.queueSize ∧ ∃ group ∈ lpn.groups, group.pending = true

theorem GroupOk.clear {req : Option LpnReq} (ok : GroupOk req group)
    (added : group.pending = true → group.toRemove = true → group.added = true) :
    GroupOk none { group with pending := false } := by
  refine ⟨?_, ?_, rfl⟩
  · intro marked
    rcases ok.marked marked with held | pending
    · exact .inl held
    · exact .inl (added pending marked)
  · intro free
    obtain ⟨notAdded, _, notMarked⟩ := ok.free free
    exact ⟨notAdded, rfl, notMarked⟩

theorem GroupOk.marks {marked : LpnGroup} (ok : GroupOk (some (.sub op)) group)
    (marks : Marks op group marked) : GroupOk (some (.sub op)) marked := by
  rcases marks with rfl | ⟨rfl, assigned, kept⟩
  · exact ok
  refine ⟨fun _ => .inr rfl, fun free => absurd free assigned, ?_⟩
  cases op with
  | add => exact fun _ => kept
  | rem =>
    intro _
    have marked : group.toRemove = true := by simpa [subSkips] using kept
    rcases ok.marked marked with held | pending
    · exact held
    · exact ok.waits pending

theorem exists_of_mem_marks {marked : List LpnGroup}
    (marks : List.Forall₂ (Marks op) groups marked) (member : group ∈ marked) :
    ∃ before ∈ groups, Marks op before group := by
  induction marks with
  | nil => cases member
  | cons first rest ih =>
    rcases mem_cons.mp member with rfl | later
    · exact ⟨_, mem_cons_self, first⟩
    · obtain ⟨before, held, marks⟩ := ih later
      exact ⟨before, mem_cons_of_mem _ held, marks⟩

theorem slots_groupZero (lpn : LpnLink) :
    slots lpn.groupZero.groups = slots lpn.groups := by
  simp only [LpnLink.groupZero, slots, List.map_map]
  rfl

inductive Retry (op : SubOp) (lpn : LpnLink) : Prop where
  | first (clear : ∀ group ∈ lpn.groups, group.pending = false)
  | removing (rem : op = .rem)
  | adding (room : lpn.addedCount < lpn.queueSize)
      (pending : ∃ group ∈ lpn.groups, group.pending = true)

theorem subUpdate_ok {lpn : LpnLink} (idle : lpn.sentReq = none)
    (each : ∀ group ∈ lpn.groups, GroupOk (some (.sub op)) group)
    (distinct : SlotsDistinct (slots lpn.groups)) (retry : Retry op lpn) :
    GroupsOk (lpn.subUpdate op).1 := by
  have marks := subGroups_marks op (lpn.queueSize - lpn.addedCount) 0 lpn.groups
  unfold LpnLink.subUpdate
  rw [idle]
  simp only [isSome_none, false_eq_true, if_false]
  have count : (lpn.groups.filter fun group => group.added).length =
      lpn.addedCount := rfl
  rw [count]
  cases result : subGroups op (lpn.queueSize - lpn.addedCount) 0 lpn.groups with
  | mk total groups =>
    rw [result] at marks
    cases total with
    | zero =>
      refine ⟨?_, ?_, ?_⟩
      · intro group member
        obtain ⟨before, held, rfl⟩ := mem_map.mp member
        change GroupOk lpn.sentReq _
        rw [idle]
        apply (each before held).clear
        intro pending marked
        cases retry with
        | first clear =>
          rw [clear before held] at pending
          cases pending
        | removing rem =>
          subst rem
          exact (each before held).waits pending
        | adding =>
          cases op with
          | rem => exact (each before held).waits pending
          | add =>
            have ok := each before held
            have assigned : before.addr ≠ addrUnassigned := by
              intro free
              rw [(ok.free free).2.1] at pending
              cases pending
            have some := @subGroups_pos .add
              (lpn.queueSize - lpn.addedCount) 0 lpn.groups (by omega)
              ⟨before, held, assigned, ok.waits pending⟩
            rw [result] at some
            cases some
      · change SlotsDistinct (slots lpn.groupZero.groups)
        rw [slots_groupZero]
        exact distinct
      · intro adding
        change lpn.sentReq = _ at adding
        rw [idle] at adding
        cases adding
    | succ count =>
      have sameSlots := slots_of_marks marks
      refine ⟨?_, ?_, ?_⟩
      · intro group member
        obtain ⟨before, held, named⟩ := exists_of_mem_marks marks member
        exact (each before held).marks named
      · change SlotsDistinct (slots groups)
        rw [sameSlots]
        exact distinct
      · intro adding
        have named := @subGroups_named op (lpn.queueSize - lpn.addedCount) 0
          lpn.groups (by rw [result]; exact Nat.succ_pos count)
        obtain ⟨_, _, group, _, _, _, found⟩ := named
        rw [result] at found
        refine ⟨?_, { group with pending := true }, mem_of_getElem? found, rfl⟩
        change LpnLink.addedCount { lpn with groups } < lpn.queueSize
        have same : LpnLink.addedCount { lpn with groups } =
            lpn.addedCount := by
          rw [addedCount_eq, addedCount_eq, sameSlots]
        omega

theorem slots_getElem? (groups : List LpnGroup) (place : Nat) :
    (slots groups)[place]? =
      groups[place]?.map fun group => (group.addr, group.added) :=
  getElem?_map

structure GroupKept (req : Option LpnReq) (group changed : LpnGroup) : Prop where
  ok : GroupOk req changed
  added : changed.added = group.added
  pending : changed.pending = group.pending

theorem GroupsOk.change {lpn : LpnLink} (ok : GroupsOk lpn)
    (sentReq : changed.sentReq = lpn.sentReq)
    (queueSize : changed.queueSize = lpn.queueSize)
    {change : Nat → LpnGroup → LpnGroup}
    (groups : ∀ place : Nat, changed.groups[place]? =
      lpn.groups[place]?.map (change place))
    (keeps : ∀ (place : Nat) (group : LpnGroup), lpn.groups[place]? = some group →
      GroupKept lpn.sentReq group (change place group))
    (distinct : SlotsDistinct (slots changed.groups)) : GroupsOk changed := by
  refine ⟨?_, distinct, ?_⟩
  · intro group member
    obtain ⟨place, found⟩ := getElem?_of_mem member
    rw [groups place] at found
    obtain ⟨before, held, rfl⟩ := map_eq_some_iff.mp found
    rw [sentReq]
    exact (keeps place before held).ok
  · intro adding
    obtain ⟨room, group, member, pending⟩ := ok.adding (sentReq ▸ adding)
    have sameAdded : changed.groups.map LpnGroup.added =
        lpn.groups.map LpnGroup.added := by
      apply ext_getElem?
      intro place
      rw [getElem?_map, getElem?_map, groups place, Option.map_map]
      cases held : lpn.groups[place]? with
      | none => rfl
      | some before => exact congrArg some (keeps place before held).added
    have sameCount : changed.addedCount = lpn.addedCount := by
      have count : ∀ link : LpnLink, link.addedCount =
          ((link.groups.map LpnGroup.added).filter id).length := by
        intro link
        rw [List.filter_map, List.length_map]
        rfl
      rw [count, count, sameAdded]
    refine ⟨by rw [sameCount, queueSize]; exact room, ?_⟩
    obtain ⟨place, held⟩ := getElem?_of_mem member
    have found := groups place
    rw [held] at found
    exact ⟨change place group, mem_of_getElem? found,
      (keeps place group held).pending.trans pending⟩

theorem SlotsDistinct.shrink {held left : List (Nat × Bool)}
    (distinct : SlotsDistinct held)
    (shrinks : ∀ (place : Nat) (slot : Nat × Bool), left[place]? = some slot →
      slot.1 ≠ addrUnassigned → ∃ before, held[place]? = some before ∧
        before.1 = slot.1) : SlotsDistinct left := by
  intro place other slot twin here there same assigned
  obtain ⟨before, found, equal⟩ := shrinks place slot here assigned
  obtain ⟨twinBefore, twinFound, twinEqual⟩ :=
    shrinks other twin there (same ▸ assigned)
  refine distinct place other before twinBefore found twinFound ?_ ?_
  · rw [equal, twinEqual, same]
  · rw [equal]
    exact assigned

theorem GroupsOk.same {lpn : LpnLink} (ok : GroupsOk lpn)
    (groups : changed.groups = lpn.groups) (sentReq : changed.sentReq = lpn.sentReq)
    (queueSize : changed.queueSize = lpn.queueSize) : GroupsOk changed := by
  refine ⟨?_, ?_, ?_⟩
  · rw [groups, sentReq]
    exact ok.each
  · rw [groups]
    exact ok.distinct
  · intro adding
    have held := ok.adding (sentReq ▸ adding)
    unfold LpnLink.addedCount
    rw [groups, queueSize]
    exact held

theorem GroupsOk.subUpdate {lpn : LpnLink} (ok : GroupsOk lpn) (op : SubOp) :
    GroupsOk (lpn.subUpdate op).1 := by
  cases req : lpn.sentReq with
  | some =>
    unfold LpnLink.subUpdate
    rw [req]
    exact ok
  | none =>
    have clear : ∀ group ∈ lpn.groups, group.pending = false := by
      intro group member
      have waits := (ok.each group member).waits
      rw [req] at waits
      exact waits
    apply subUpdate_ok req _ ok.distinct (.first clear)
    intro group member
    have before := ok.each group member
    refine ⟨before.marked, before.free, ?_⟩
    cases op with
    | add =>
      intro pending
      rw [clear group member] at pending
      cases pending
    | rem =>
      intro pending
      rw [clear group member] at pending
      cases pending

theorem GroupsOk.subChanges {lpn : LpnLink} (ok : GroupsOk lpn) :
    GroupsOk lpn.subChanges.1 := by
  unfold LpnLink.subChanges
  split
  · exact ((ok.subUpdate .add).subUpdate .rem).same rfl rfl rfl
  · exact ok

theorem GroupsOk.idle {lpn : LpnLink} (ok : GroupsOk lpn)
    (groups : changed.groups = lpn.groups)
    (before : lpn.sentReq = none ∨ lpn.sentReq = some .poll)
    (after : changed.sentReq = none ∨ changed.sentReq = some .poll) :
    GroupsOk changed := by
  refine ⟨?_, ?_, ?_⟩
  · rw [groups]
    intro group member
    obtain ⟨marked, free, waits⟩ := ok.each group member
    refine ⟨marked, free, ?_⟩
    have clear : group.pending = false := by
      rcases before with req | req
      · rw [req] at waits
        exact waits
      · rw [req] at waits
        exact waits
    rcases after with req | req
    · rw [req]
      exact clear
    · rw [req]
      exact clear
  · rw [groups]
    exact ok.distinct
  · intro adding
    rcases after with req | req
    · rw [req] at adding
      cases adding
    · rw [req] at adding
      cases adding

theorem GroupsOk.sendFriendPoll {lpn : LpnLink} (ok : GroupsOk lpn) :
    GroupsOk lpn.sendFriendPoll.1 := by
  unfold LpnLink.sendFriendPoll
  split
  · exact ok
  · exact ok.same rfl rfl rfl
  · rename_i idle
    exact ok.idle rfl (.inl idle) (.inr rfl)

theorem GroupsOk.groupAdd {lpn : LpnLink} (ok : GroupsOk lpn) (addr : Nat) :
    GroupsOk (lpn.groupAdd addr) := by
  unfold LpnLink.groupAdd
  split
  · rename_i place found
    let change (other : Nat) (group : LpnGroup) : LpnGroup :=
      if place = other then { group with toRemove := false } else group
    have groups (other : Nat) : (lpn.groups.modify place fun group =>
        { group with toRemove := false })[other]? =
          lpn.groups[other]?.map (change other) :=
      getElem?_modify _ _ _ _
    refine ok.change rfl rfl groups ?_ ?_
    · intro other group held
      obtain ⟨marked, free, waits⟩ := ok.each group (mem_of_getElem? held)
      simp only [change]
      split
      · refine ⟨⟨nofun, ?_, waits⟩, rfl, rfl⟩
        intro unassigned
        obtain ⟨notAdded, notPending, _⟩ := free unassigned
        exact ⟨notAdded, notPending, rfl⟩
      · exact ⟨⟨marked, free, waits⟩, rfl, rfl⟩
    · apply ok.distinct.shrink
      intro other slot held _
      rw [slots_getElem?, groups other] at held
      rw [slots_getElem?]
      cases before : lpn.groups[other]? with
      | none =>
        rw [before] at held
        cases held
      | some =>
        rw [before] at held
        cases held
        refine ⟨_, rfl, ?_⟩
        simp only [change]
        split <;> rfl
  · rename_i absent
    split
    · exact ok
    rename_i place found
    let change (other : Nat) (group : LpnGroup) : LpnGroup :=
      if place = other then { group with addr := addr } else group
    have groups (other : Nat) : (lpn.groups.modify place fun group =>
        { group with addr := addr })[other]? =
          lpn.groups[other]?.map (change other) :=
      getElem?_modify _ _ _ _
    have unassigned (group : LpnGroup) (held : lpn.groups[place]? = some group) :
        group.addr = addrUnassigned := by
      obtain ⟨inside, isFree, _⟩ := findIdx?_eq_some_iff_getElem.mp found
      rw [getElem?_eq_getElem inside] at held
      cases held
      exact of_decide_eq_true isFree
    have missing (group : LpnGroup) (member : group ∈ lpn.groups) :
        group.addr ≠ addr :=
      of_decide_eq_false (findIdx?_eq_none_iff.mp absent group member)
    refine ok.change rfl rfl groups ?_ ?_
    · intro other group held
      obtain ⟨marked, free, waits⟩ := ok.each group (mem_of_getElem? held)
      simp only [change]
      split
      · rename_i same
        subst same
        exact ⟨⟨marked, fun _ => free (unassigned group held), waits⟩, rfl, rfl⟩
      · exact ⟨⟨marked, free, waits⟩, rfl, rfl⟩
    · intro left right slot twin here there same assigned
      rw [slots_getElem?, groups] at here there
      rw [Option.map_map, Option.map_eq_some_iff] at here there
      obtain ⟨group, held, rfl⟩ := here
      obtain ⟨other, otherHeld, rfl⟩ := there
      simp only [Function.comp, change] at same assigned
      by_cases leftHere : place = left
      · by_cases rightHere : place = right
        · rw [← leftHere, rightHere]
        · rw [if_pos leftHere, if_neg rightHere] at same
          exact absurd same.symm (missing other (mem_of_getElem? otherHeld))
      · rw [if_neg leftHere] at same assigned
        by_cases rightHere : place = right
        · rw [if_pos rightHere] at same
          exact absurd same (missing group (mem_of_getElem? held))
        rw [if_neg rightHere] at same
        refine ok.distinct left right (group.addr, group.added)
          (other.addr, other.added) ?_ ?_ same assigned
        · rw [slots_getElem?, held]
          rfl
        · rw [slots_getElem?, otherHeld]
          rfl

theorem SlotsDistinct.map (distinct : SlotsDistinct (slots groups))
    {change : LpnGroup → LpnGroup}
    (addr : ∀ group, (change group).addr = group.addr ∨
      (change group).addr = addrUnassigned) :
    SlotsDistinct (slots (groups.map change)) := by
  apply distinct.shrink
  intro place slot held assigned
  rw [slots_getElem?, getElem?_map, Option.map_map] at held
  obtain ⟨group, found, rfl⟩ := Option.map_eq_some_iff.mp held
  rw [slots_getElem?, found]
  exact ⟨_, rfl, ((addr group).resolve_right assigned).symm⟩

section

variable {lpn : LpnLink} (ok : GroupsOk lpn)
include ok

theorem GroupsOk.map {change : LpnGroup → LpnGroup}
    (sentReq : changed.sentReq = lpn.sentReq)
    (queueSize : changed.queueSize = lpn.queueSize)
    (groups : changed.groups = lpn.groups.map change)
    (keeps : ∀ group ∈ lpn.groups, GroupKept lpn.sentReq group (change group))
    (addr : ∀ group, (change group).addr = group.addr ∨
      (change group).addr = addrUnassigned) : GroupsOk changed := by
  have each (place : Nat) : changed.groups[place]? =
      lpn.groups[place]?.map change := by
    rw [groups]
    exact getElem?_map
  refine ok.change sentReq queueSize each ?_ ?_
  · intro place group held
    exact keeps group (mem_of_getElem? held)
  · rw [groups]
    exact ok.distinct.map addr

theorem GroupsOk.groupDel (addr : Nat) : GroupsOk (lpn.groupDel addr) := by
  refine ok.map rfl rfl rfl ?_ ?_
  · intro group member
    obtain ⟨marked, free, waits⟩ := ok.each group member
    split
    · split
      · rename_i held
        have bits : group.added = true ∨ group.pending = true := by
          simpa using held
        refine ⟨⟨fun _ => bits, ?_, waits⟩, rfl, rfl⟩
        intro unassigned
        obtain ⟨notAdded, notPending, _⟩ := free unassigned
        rw [notAdded, notPending] at bits
        rcases bits with impossible | impossible <;> cases impossible
      · rename_i held
        have bits : group.added = false ∧ group.pending = false := by
          simpa using held
        refine ⟨⟨marked, ?_, waits⟩, rfl, rfl⟩
        intro _
        refine ⟨bits.1, bits.2, ?_⟩
        apply eq_false_iff.mpr
        intro removing
        rcases marked removing with added | pending
        · rw [bits.1] at added
          cases added
        · rw [bits.2] at pending
          cases pending
    · exact ⟨⟨marked, free, waits⟩, rfl, rfl⟩
  · intro group
    split
    · split
      · exact .inl rfl
      · exact .inr rfl
    · exact .inl rfl

theorem GroupsOk.lpnGroupAdd (addr : Nat) :
    GroupsOk (lpn.lpnGroupAdd addr).1 := by
  unfold LpnLink.lpnGroupAdd
  simp only
  split
  · exact ok.groupAdd addr
  · exact (ok.groupAdd addr).subUpdate .add

theorem GroupsOk.lpnGroupDel (addrs : List Nat) :
    GroupsOk (lpn.lpnGroupDel addrs).1 := by
  have removed (addrs : List Nat) : GroupsOk (addrs.foldl (fun lpn addr =>
      if addr = addrUnassigned then lpn else lpn.groupDel addr) lpn) := by
    induction addrs generalizing lpn with
    | nil => exact ok
    | cons addr rest ih =>
      apply ih
      dsimp only
      split
      · exact ok
      · exact ok.groupDel addr
  unfold LpnLink.lpnGroupDel
  simp only
  split
  · exact removed addrs
  · exact (removed addrs).subUpdate .rem

theorem GroupsOk.responded (poll : lpn.sentReq = some .poll) :
    GroupsOk lpn.friendResponseReceived :=
  ok.idle rfl (.inr poll) (.inl rfl)

theorem GroupsOk.msgReceived : GroupsOk lpn.msgReceived.1 := by
  unfold LpnLink.msgReceived
  split
  · exact ok
  split
  · exact ok
  · rename_i poll
    exact (ok.responded (not_not.mp poll)).sendFriendPoll

theorem GroupsOk.polling (polls : Bool) (request : Option LpnRequest) :
    GroupsOk (if polls then
        (lpn.sendFriendPoll.1, request <|> lpn.sendFriendPoll.2)
      else (lpn, request) : LpnLink × Option LpnRequest).1 := by
  split
  · exact ok.sendFriendPoll
  · exact ok

theorem GroupsOk.friendUpdate (md oldKey : Bool) :
    GroupsOk (lpn.friendUpdate md oldKey).1 := by
  unfold LpnLink.friendUpdate
  split
  · exact ok
  rename_i poll
  split
  · exact ok
  · exact (ok.responded (not_not.mp poll)).subChanges.polling md _

theorem GroupsOk.confirmed (waiting : lpn.sentReq = some (.sub op)) :
    GroupsOk { lpn with
      groups := LpnLink.confirmGroups op lpn.groups }.friendResponseReceived := by
  have each (group : LpnGroup) (member : group ∈ lpn.groups) :
      GroupOk (some (.sub op)) group := by
    rw [← waiting]
    exact ok.each group member
  cases op with
  | add =>
    refine ⟨?_, ?_, nofun⟩
    · intro group member
      obtain ⟨before, held, rfl⟩ := mem_map.mp member
      obtain ⟨marked, free, _⟩ := each before held
      refine ⟨?_, ?_, rfl⟩
      · intro removing
        exact .inl (or_eq_true _ _ ▸ marked removing)
      · intro unassigned
        obtain ⟨notAdded, notPending, notMarked⟩ := free unassigned
        refine ⟨?_, rfl, notMarked⟩
        simp only [notAdded, notPending, Bool.or_self]
    · exact ok.distinct.map fun _ => .inl rfl
  | rem =>
    refine ⟨?_, ?_, nofun⟩
    · intro group member
      obtain ⟨before, held, rfl⟩ := mem_map.mp member
      obtain ⟨marked, free, _⟩ := each before held
      simp only
      split
      · exact ⟨nofun, fun _ => ⟨rfl, rfl, rfl⟩, rfl⟩
      rename_i clear
      have notPending := eq_false_iff.mpr clear
      refine ⟨?_, free, notPending⟩
      intro removing
      exact .inl ((marked removing).resolve_right clear)
    · apply ok.distinct.map
      intro group
      simp only
      split
      · simp only
        split
        · exact .inr rfl
        · exact .inl rfl
      · exact .inl rfl

theorem GroupsOk.friendSubCfm (xact : BitVec 8) :
    GroupsOk (lpn.friendSubCfm xact).1 := by
  unfold LpnLink.friendSubCfm
  split
  · exact ok
  split
  · exact ok
  · exact ok
  · rename_i op waiting
    exact (ok.confirmed waiting).subChanges.polling _ _

theorem GroupsOk.receive (pdu : FriendResponse) (oldKey : Bool) :
    GroupsOk (lpn.receive pdu oldKey).1 := by
  unfold LpnLink.receive
  split
  · exact ok
  cases pdu with
  | queued entry md =>
    have noted : GroupsOk (if entry ∈ lpn.received then lpn
        else { lpn with received := lpn.received ++ [entry] }) := by
      split
      · exact ok
      · exact ok.same rfl rfl rfl
    simp only
    split
    · exact (noted.friendUpdate md oldKey).msgReceived
    · exact noted.msgReceived
  | subCfm xact => exact (ok.friendSubCfm xact).msgReceived

theorem GroupsOk.timeout (attempts : Nat) :
    GroupsOk (lpn.timeout attempts).1 := by
  unfold LpnLink.timeout
  split
  · split
    · simp only
      split
      · rename_i op waiting
        apply @subUpdate_ok op { lpn with sentReq := none } rfl
        · rw [← waiting]
          exact ok.each
        · exact ok.distinct
        · cases op with
          | rem => exact .removing rfl
          | add =>
            obtain ⟨room, pending⟩ := ok.adding waiting
            exact .adding room pending
      · rename_i notSub
        have idle : lpn.sentReq = none ∨ lpn.sentReq = some .poll := by
          cases req : lpn.sentReq with
          | none => exact .inl rfl
          | some sentReq =>
            cases sentReq with
            | poll => exact .inr rfl
            | sub op => exact absurd req (notSub op)
        have retrying : GroupsOk { lpn with sentReq := none } :=
          ok.idle rfl idle (.inl rfl)
        exact retrying.sendFriendPoll
    · exact ok.same rfl rfl rfl
  · exact ok.same rfl rfl rfl
  · exact ok.same rfl rfl rfl
  · exact ok

theorem GroupsOk.befriend (queueSize : Nat) :
    GroupsOk (lpn.befriend queueSize) := by
  refine ⟨?_, ?_, nofun⟩
  · intro group member
    obtain ⟨_, _, rfl⟩ := mem_map.mp member
    exact ⟨nofun, fun _ => ⟨rfl, rfl, rfl⟩, rfl⟩
  · exact ok.distinct.map fun _ => .inl rfl

end

theorem boot_groupsOk (count : Nat) : GroupsOk (LpnLink.boot count) := by
  refine ⟨?_, ?_, nofun⟩
  · intro group member
    rw [eq_of_mem_replicate member]
    exact ⟨nofun, fun _ => ⟨rfl, rfl, rfl⟩, rfl⟩
  · intro place other slot twin here _ _ assigned
    rw [slots_getElem?] at here
    obtain ⟨group, found, rfl⟩ := map_eq_some_iff.mp here
    rw [eq_of_mem_replicate (mem_of_getElem? found)] at assigned
    exact absurd rfl assigned

theorem GroupsOk.step {lpn : LpnLink} (ok : GroupsOk lpn) (attempts : Nat)
    (input : LpnGroupInput) :
    GroupsOk ((lpnGroupMachine attempts).next lpn input) := by
  cases input with
  | befriend queueSize => exact ok.befriend queueSize
  | add addr => exact ok.lpnGroupAdd addr
  | del addrs => exact ok.lpnGroupDel addrs
  | receive pdu oldKey => exact ok.receive pdu oldKey
  | poll => exact ok.sendFriendPoll
  | timeout => exact ok.timeout attempts

theorem slots_subUpdate (op : SubOp) (lpn : LpnLink) :
    slots (lpn.subUpdate op).1.groups = slots lpn.groups := by
  unfold LpnLink.subUpdate
  split
  · rfl
  simp only
  split
  · exact slots_groupZero lpn
  rename_i groups _ result
  have marks := subGroups_marks op
    (lpn.queueSize - (lpn.groups.filter fun group => group.added).length) 0
    lpn.groups
  rw [result] at marks
  exact slots_of_marks marks

theorem slots_subChanges (lpn : LpnLink) :
    slots lpn.subChanges.1.groups = slots lpn.groups := by
  unfold LpnLink.subChanges
  split
  · exact (slots_subUpdate .rem _).trans (slots_subUpdate .add lpn)
  · rfl

theorem slots_sendFriendPoll (lpn : LpnLink) :
    slots lpn.sendFriendPoll.1.groups = slots lpn.groups := by
  unfold LpnLink.sendFriendPoll
  split <;> rfl

theorem slots_friendSubCfm {lpn : LpnLink} (waiting : lpn.sentReq = some (.sub op)) :
    slots (lpn.friendSubCfm lpn.xactPending).1.groups =
      slots (LpnLink.confirmGroups op lpn.groups) := by
  unfold LpnLink.friendSubCfm
  rw [if_neg (not_not_intro rfl), waiting]
  simp only
  split
  · exact (slots_sendFriendPoll _).trans (slots_subChanges _)
  · exact slots_subChanges _

theorem GroupsOk.removesConfirmed {lpn : LpnLink} (ok : GroupsOk lpn) :
    lpn.RemovesConfirmed := by
  intro waiting place group held pending marked
  have assigned : group.addr ≠ addrUnassigned := by
    intro unassigned
    have free := (ok.each group (mem_of_getElem? held)).free unassigned
    rw [free.2.1] at pending
    cases pending
  have confirmed := slots_friendSubCfm waiting
  constructor
  · rw [confirmed, slots_getElem?]
    simp only [LpnLink.confirmGroups, getElem?_map, held, map_some,
      if_pos pending, if_pos marked]
  · rw [confirmed]
    intro slot member same
    obtain ⟨other, found⟩ := getElem?_of_mem member
    rw [slots_getElem?] at found
    simp only [LpnLink.confirmGroups, getElem?_map, Option.map_map] at found
    obtain ⟨before, otherHeld, rfl⟩ := Option.map_eq_some_iff.mp found
    simp only [Function.comp] at same
    by_cases here : other = place
    · subst here
      rw [held] at otherHeld
      cases otherHeld
      rw [if_pos pending] at same
      simp only [if_pos marked] at same
      exact assigned same.symm
    · have different : before.addr ≠ group.addr := by
        intro twin
        refine here (ok.distinct other place (before.addr, before.added)
          (group.addr, group.added) ?_ ?_ twin (twin ▸ assigned))
        · rw [slots_getElem?, otherHeld]
          rfl
        · rw [slots_getElem?, held]
          rfl
      split at same
      · simp only at same
        split at same
        · exact assigned same.symm
        · exact different same
      · exact different same

theorem subUpdate_sends {lpn : LpnLink} (idle : lpn.sentReq = none)
    (some : 0 < (subGroups op (lpn.queueSize - lpn.addedCount) 0 lpn.groups).1) :
    lpn.subUpdate op =
      ({ lpn with
          groups :=
            (subGroups op (lpn.queueSize - lpn.addedCount) 0 lpn.groups).2
          xactNext := lpn.xactNext + 1
          xactPending := lpn.xactNext
          sentReq := .some (.sub op) }.reqSent,
        .some (.sub op lpn.xactNext)) := by
  unfold LpnLink.addedCount at some ⊢
  unfold LpnLink.subUpdate
  rw [idle]
  simp only [isSome_none, false_eq_true, if_false]
  split
  · rename_i result
    rw [result] at some
    cases some
  · rename_i _ result
    rw [result]

theorem subUpdate_silent {lpn : LpnLink}
    (none : (subGroups op (lpn.queueSize - lpn.addedCount) 0 lpn.groups).1 = 0) :
    (lpn.subUpdate op).2 = .none := by
  unfold LpnLink.addedCount at none
  unfold LpnLink.subUpdate
  split
  · rfl
  simp only
  split
  · rfl
  rename_i positive result
  rw [result] at none
  exact absurd none positive

theorem GroupsOk.removes_iff {lpn : LpnLink} (ok : GroupsOk lpn)
    (removing : lpn.Removing) : lpn.Removes ↔ lpn.addedCount < lpn.queueSize := by
  obtain ⟨idle, marked, member, toRemove⟩ := removing
  constructor
  · intro removes
    have some : 0 < (subGroups .rem (lpn.queueSize - lpn.addedCount) 0
        lpn.groups).1 := by
      apply Nat.pos_of_ne_zero
      intro none
      have silent := subUpdate_silent none
      rw [removes.sends] at silent
      cases silent
    have room := (subGroups_named some).1
    omega
  · intro room
    have assigned : marked.addr ≠ addrUnassigned := by
      intro unassigned
      have free := (ok.each marked member).free unassigned
      rw [free.2.2] at toRemove
      cases toRemove
    have some : 0 < (subGroups .rem (lpn.queueSize - lpn.addedCount) 0
        lpn.groups).1 := by
      apply subGroups_pos (by omega)
      exact ⟨marked, member, assigned, by simp only [subSkips, toRemove]; rfl⟩
    obtain ⟨_, place, group, held, _, kept, named⟩ := subGroups_named some
    have waiting := subUpdate_sends idle some
    have groupMarked : group.toRemove = true := by simpa [subSkips] using kept
    have clear : group.pending = false := by
      have waits := (ok.each group (mem_of_getElem? held)).waits
      rw [idle] at waits
      exact waits
    have confirms := (ok.subUpdate .rem).removesConfirmed
    rw [waiting] at confirms
    refine ⟨by rw [waiting], place, group, { group with pending := true }, held,
      groupMarked, clear, ?_, rfl, ?_⟩
    · rw [waiting]
      exact named
    · rw [waiting]
      exact confirms rfl place { group with pending := true } named rfl groupMarked

/-- In every state of every run, groups marked for removal are named by a
request exactly when the list is shorter than the Friend Queue, and gone when a
request is confirmed. -/
theorem lpn_removals (attempts count : Nat) (inputs : List LpnGroupInput) :
    (lpnGroupMachine attempts).Always (fun lpn => (lpn.Removing →
          (lpn.Removes ↔ lpn.addedCount < lpn.queueSize)) ∧ lpn.RemovesConfirmed)
      (LpnLink.boot count) inputs := by
  have always := @Machine.always_of_kept _ _ _ (lpnGroupMachine attempts) GroupsOk
    (fun _ input ok => ok.step attempts input) _ inputs (boot_groupsOk count)
  exact always.mono fun _ ok => ⟨ok.removes_iff, ok.removesConfirmed⟩

/-- A Friend with a queue of two: two groups are added and confirmed, and one is
to be removed. -/
theorem lpn_removal_stuck :
    let lpn := (lpnGroupMachine 4).run (LpnLink.boot 3)
      [.befriend 2, .add 0xc000, .add 0xc001, .receive (.queued ⟨0, true⟩ false) false,
        .timeout, .receive (.subCfm 0) false, .del [0xc000]]
    lpn.state = .established ∧ lpn.Removing ∧ ¬ lpn.Removes := by
  intro lpn
  refine ⟨by decide, ⟨by decide, ⟨0xc000, true, false, true⟩, by decide, rfl⟩, ?_⟩
  intro removes
  have silent : (lpn.subUpdate .rem).2 = none := by decide
  rw [removes.sends] at silent
  cases silent

end ZephyrBluetooth.Mesh
