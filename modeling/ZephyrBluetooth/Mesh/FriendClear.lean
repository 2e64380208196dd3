import ZephyrBluetooth.Mesh.FriendHeld

namespace ZephyrBluetooth.Mesh

open Data List Option

/-- An entry of `bt_mesh.frnd`: what the friendship holds, the counters of its
negotiation and its credentials. -/
structure FrndEntry where
  held : Frnd
  lpnCounter : BitVec 16
  counter : BitVec 16
  cred : Slots NetCred

/-- `struct bt_mesh_ctl_friend_clear`, also the layout of its confirmation. -/
structure FriendClearMsg where
  lpnAddr : BitVec 16
  lpnCounter : BitVec 16

def parseFriendClear : List Byte → Option FriendClearMsg
  | a1 :: a0 :: c1 :: c0 :: _ => some ⟨a1 ++ a0, c1 ++ c0⟩
  | _ => none

/-- The confirmation handed to `bt_mesh_ctl_send` and the calls of the
`terminated` callbacks. -/
inductive FriendClearOut where
  | confirm (dst ttl : Nat) (msg : FriendClearMsg)
  | terminated (netIdx lpn : Nat)

def keyAny : Nat := 0xffff

def ttlMax : Nat := 0x7f

def FrndEntry.matchesFind (netIdx lpnAddr : Nat) (valid established : Bool)
    (entry : FrndEntry) : Bool :=
  if valid && entry.held.netIdx.isNone then
    false
  else if established && !entry.held.established then
    false
  else if netIdx != keyAny && entry.held.netIdx != some netIdx then
    false
  else
    entry.held.isLpnUnicast lpnAddr

def frndFind (netIdx lpnAddr : Nat) (valid established : Bool)
    (table : List FrndEntry) : Option Nat :=
  table.findIdx? (FrndEntry.matchesFind netIdx lpnAddr valid established)

def FrndEntry.clear (entry : FrndEntry) : FrndEntry where
  held := entry.held.clear
  lpnCounter := entry.lpnCounter
  counter := entry.counter + 1
  cred := ⟨.zero, .zero⟩

def FrndEntry.terminated (entry : FrndEntry) : List FriendClearOut :=
  if entry.held.established then
    entry.held.netIdx.toList.map fun netIdx =>
      .terminated netIdx entry.held.lpn
  else
    []

/-- `bt_mesh_friend_clear` for a message from `src` on a subnet.  Both counters
are promoted to `int` before they are subtracted. -/
def friendClearRecv (netIdx src : Nat) (buf : List Byte)
    (table : List FrndEntry) :
    Except Errno Unit × List FrndEntry × List FriendClearOut :=
  match parseFriendClear buf with
  | none => (.error .inval, table, [])
  | some msg =>
    match frndFind netIdx msg.lpnAddr.toNat false false table with
    | none => (.ok (), table, [])
    | some place =>
      match table[place]? with
      | none => (.ok (), table, [])
      | some entry =>
        if 255 < (msg.lpnCounter.toNat : Int) - entry.lpnCounter.toNat then
          (.ok (), table, [])
        else
          (.ok (), table.set place entry.clear,
            .confirm src ttlMax msg :: entry.terminated)

structure FrndEntry.Cleared (entry : FrndEntry) : Prop where
  unallocated : entry.held.netIdx = none
  unestablished : entry.held.established = false
  credsZero : entry.cred = ⟨.zero, .zero⟩
  empty : entry.held.held = 0
  unreserved : entry.held.reserved = 0
  unsubscribed : ∀ addr ∈ entry.held.subList, addr = addrUnassigned

theorem FrndEntry.clear_cleared (entry : FrndEntry) : entry.clear.Cleared where
  unallocated := rfl
  unestablished := rfl
  credsZero := rfl
  empty := by
    simp [FrndEntry.clear, Frnd.clear, Frnd.unrefLast, Frnd.held, Frnd.segHeld,
      FrndSeg.empty]
  unreserved := by
    simp [FrndEntry.clear, Frnd.clear, Frnd.unrefLast, Frnd.reserved, FrndSeg.empty]
  unsubscribed := by
    intro addr member
    obtain ⟨_, _, same⟩ := mem_map.mp member
    exact same.symm

/-- Whether the counter of a Friend Clear message lies in the window of a
friendship, modulo 65536. -/
def InClearWindow (message friendship : BitVec 16) : Prop :=
  (message - friendship).toNat ≤ 255

/-- The friendship at `place` is cleared and confirmed, and no other one is
touched. -/
structure ClearsAt (src : Nat) (msg : FriendClearMsg) (table after : List FrndEntry)
    (place : Nat) (out : List FriendClearOut) : Prop where
  cleared : ∃ entry, after[place]? = some entry ∧ entry.Cleared
  others : ∀ other, other ≠ place → after[other]? = table[other]?
  confirmed : .confirm src ttlMax msg ∈ out

/-- A Friend Clear message clears the friendship it names exactly when its
counter lies in the window, and leaves every friendship alone otherwise. -/
def ObeysClearWindow (netIdx src : Nat) (buf : List Byte)
    (table : List FrndEntry) : Prop :=
  ∀ msg, parseFriendClear buf = some msg →
    let after := (friendClearRecv netIdx src buf table).2.1
    let out := (friendClearRecv netIdx src buf table).2.2
    match (frndFind netIdx msg.lpnAddr.toNat false false table).bind
      fun place => table[place]?.map fun entry => (place, entry) with
    | none => after = table ∧ out = []
    | some (place, entry) =>
      (InClearWindow msg.lpnCounter entry.lpnCounter →
        ClearsAt src msg table after place out) ∧
      (¬ InClearWindow msg.lpnCounter entry.lpnCounter → after = table ∧ out = [])

/-- The friendship that the message names, if any, has a counter that is not
ahead of the message's, or so far ahead that the message is past the wrap. -/
def CounterNotBehind (netIdx : Nat) (buf : List Byte)
    (table : List FrndEntry) : Prop :=
  ∀ msg place entry, parseFriendClear buf = some msg →
    frndFind netIdx msg.lpnAddr.toNat false false table = some place →
    table[place]? = some entry →
    entry.lpnCounter.toNat ≤ msg.lpnCounter.toNat ∨
      msg.lpnCounter.toNat + 2 ^ 16 ≤ entry.lpnCounter.toNat + 255

theorem promoted_iff (message friendship : BitVec 16) :
    (¬ 255 < (message.toNat : Int) - friendship.toNat ↔
        InClearWindow message friendship) ↔ friendship.toNat ≤ message.toNat ∨
        message.toNat + 2 ^ 16 ≤ friendship.toNat + 255 := by
  unfold InClearWindow
  have messageLt := message.isLt
  have friendshipLt := friendship.isLt
  rw [BitVec.toNat_sub]
  omega

theorem parseFriendClear_long {buf : List Byte} (long : 4 ≤ buf.length) :
    ∃ msg, parseFriendClear buf = some msg := by
  match buf, long with
  | a1 :: a0 :: c1 :: c0 :: _, _ => exact ⟨⟨a1 ++ a0, c1 ++ c0⟩, rfl⟩

section Received

variable {netIdx src : Nat} {buf : List Byte} {table : List FrndEntry}
variable {msg : FriendClearMsg} {place : Nat} {entry : FrndEntry}

theorem friendClearRecv_unknown (parsed : parseFriendClear buf = some msg)
    (missing : frndFind netIdx msg.lpnAddr.toNat false false table = none) :
    friendClearRecv netIdx src buf table = (.ok (), table, []) := by
  simp only [friendClearRecv, parsed, missing]

theorem friendClearRecv_known (parsed : parseFriendClear buf = some msg)
    (search : frndFind netIdx msg.lpnAddr.toNat false false table = some place)
    (found : table[place]? = some entry) :
    friendClearRecv netIdx src buf table =
      if 255 < (msg.lpnCounter.toNat : Int) - entry.lpnCounter.toNat then
        (.ok (), table, [])
      else
        (.ok (), table.set place entry.clear,
          .confirm src ttlMax msg :: entry.terminated) := by
  simp only [friendClearRecv, parsed, search, found]

theorem clearsAt_set (found : table[place]? = some entry)
    (rest : List FriendClearOut) :
    ClearsAt src msg table (table.set place entry.clear) place
      (.confirm src ttlMax msg :: rest) where
  cleared := by
    refine ⟨entry.clear, ?_, entry.clear_cleared⟩
    rw [getElem?_set_self (List.getElem?_eq_some_iff.mp found).1]
  others := by
    intro other different
    rw [getElem?_set_ne (Ne.symm different)]
  confirmed := mem_cons_self

theorem frndFind_found
    (search : frndFind netIdx msg.lpnAddr.toNat false false table = some place) :
    ∃ entry, table[place]? = some entry := by
  obtain ⟨below, _⟩ := findIdx?_eq_some_iff_getElem.mp search
  exact ⟨table[place], getElem?_eq_getElem below⟩

theorem friendClearRecv_window (parsed : parseFriendClear buf = some msg)
    (search : frndFind netIdx msg.lpnAddr.toNat false false table = some place)
    (found : table[place]? = some entry) : ObeysClearWindow netIdx src buf table ↔
      (¬ 255 < (msg.lpnCounter.toNat : Int) - entry.lpnCounter.toNat ↔
        InClearWindow msg.lpnCounter entry.lpnCounter) := by
  have known := @friendClearRecv_known netIdx src buf table msg place entry
    parsed search found
  by_cases late : 255 < (msg.lpnCounter.toNat : Int) - entry.lpnCounter.toNat
  · rw [if_pos late] at known
    simp only [ObeysClearWindow, parsed, known, some.injEq,
      forall_eq', search, found, bind_some, map_some, late,
      not_true_eq_false, false_iff]
    constructor
    · intro obeys window
      exact absurd (obeys.1 window).confirmed not_mem_nil
    · intro outside
      exact ⟨fun window => absurd window outside, fun _ => ⟨trivial, trivial⟩⟩
  · rw [if_neg late] at known
    simp only [ObeysClearWindow, parsed, known, some.injEq,
      forall_eq', search, found, bind_some, map_some, late,
      not_false_eq_true, true_iff]
    constructor
    · intro obeys
      by_contra outside
      exact absurd (obeys.2 outside).2 (cons_ne_nil _ _)
    · intro window
      exact ⟨fun _ => clearsAt_set found _, fun outside => absurd window outside⟩

end Received

/-- The code keeps to the window exactly when the message's counter is not
behind that of the friendship, or only across the wrap. -/
theorem friendClear_window {buf : List Byte} (long : 4 ≤ buf.length)
    (netIdx src : Nat) (table : List FrndEntry) :
    ObeysClearWindow netIdx src buf table ↔ CounterNotBehind netIdx buf table := by
  obtain ⟨msg, parsed⟩ := parseFriendClear_long long
  cases search : frndFind netIdx msg.lpnAddr.toNat false false table with
  | none =>
    refine iff_of_true ?_ ?_
    · intro other same
      rw [parsed] at same
      cases same
      rw [friendClearRecv_unknown parsed search, search]
      exact ⟨rfl, rfl⟩
    · intro other place entry same contrary
      rw [parsed] at same
      cases same
      rw [search] at contrary
      cases contrary
  | some place =>
    obtain ⟨entry, found⟩ := frndFind_found search
    rw [friendClearRecv_window parsed search found, promoted_iff]
    constructor
    · intro near other otherPlace otherEntry same searched looked
      rw [parsed] at same
      cases same
      rw [search] at searched
      cases searched
      rw [found] at looked
      cases looked
      exact near
    · intro near
      exact near msg place entry parsed search found

def establishedTable : List FrndEntry :=
  [{ held :=
      { Frnd.boot friendTestConfig with
        lpn := 0x0010
        numElem := 1
        netIdx := some 0
        established := true }
     lpnCounter := 1000
     counter := 0
     cred := ⟨.zero, .zero⟩ }]

theorem friendClear_window_next :
    ObeysClearWindow 0 0x0020 [0x00, 0x10, 0x03, 0xe9] establishedTable :=
  (friendClear_window (by decide) 0 0x0020 establishedTable).mpr (by
    intro msg place entry parsed search found
    cases parsed
    cases search
    cases found
    decide)

theorem friendClear_stale : 4 ≤ ([0x00, 0x10, 0x00, 0x05] : List Byte).length ∧
      ¬ ObeysClearWindow 0 0x0020 [0x00, 0x10, 0x00, 0x05] establishedTable := by
  refine ⟨by decide, ?_⟩
  intro obeys
  have outside := (obeys ⟨0x0010, 0x0005⟩ rfl).2 (by
    unfold InClearWindow
    decide)
  exact absurd outside.2 (by decide)

end ZephyrBluetooth.Mesh
