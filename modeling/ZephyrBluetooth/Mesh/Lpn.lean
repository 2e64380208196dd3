import ZephyrBluetooth.Mesh.Friend

namespace ZephyrBluetooth.Mesh

open Data List Option Prod

variable {idx : Bool}

inductive LpnState where
  | disabled
  | clear
  | timer
  | enabled
  | reqWait
  | waitOffer
  | established
  | recvDelay
  | waitUpdate
  deriving DecidableEq

/-- `struct bt_mesh_lpn` without its subscription lists and timers. -/
structure Lpn where
  state : LpnState
  sentReq : Nat
  frnd : Nat
  recvWin : Nat
  reqAttempts : Nat
  disable : Bool
  established : Bool
  clearSuccess : Bool
  queueSize : Nat
  frndCounter : Nat
  lpnCounter : Nat
  oldFriend : Nat
  sub : Option Nat
  cred : Slots NetCred

variable {lpn : Lpn}

def Lpn.boot : Lpn where
  state := .disabled
  sentReq := 0
  frnd := addrUnassigned
  recvWin := 0
  reqAttempts := 0
  disable := false
  established := false
  clearSuccess := false
  queueSize := 0
  frndCounter := 0
  lpnCounter := 0
  oldFriend := addrUnassigned
  sub := none
  cred := ⟨.zero, .zero⟩

def transCtlOpFriendPoll : Nat := 0x01

def clearAttempts : Nat := 3

/-- `clear_friendship`; sending a Friend Clear does not change the state until
it is sent. -/
def clearFriendship (force disable : Bool) (lpn : Lpn) : Lpn :=
  if !force && lpn.established && !lpn.clearSuccess &&
      decide (lpn.reqAttempts < clearAttempts) then
    { lpn with disable := disable }
  else
    { lpn with
      state := if disable then .disabled else .enabled
      oldFriend := if lpn.clearSuccess then addrUnassigned else lpn.frnd
      frnd := addrUnassigned
      reqAttempts := 0
      recvWin := 0
      queueSize := 0
      disable := false
      sentReq := 0
      established := false
      clearSuccess := false
      sub := none }

/-- `send_friend_req` up to the transmission: the LPN counter advances and the
first subnet in use is chosen. -/
def sendFriendReq (table : List Subnet) (lpn : Lpn) : Lpn :=
  { lpn with
    lpnCounter := (lpn.lpnCounter + 1) % 2 ^ 16
    sub := table.findIdx? fun sub => sub.netIdx != keyUnused }

/-- `friend_cred_create` of `lpn.c`. -/
def Lpn.credCreate (crypto : Crypto) (primary : Nat) (lpn : Lpn) (idx : Bool)
    (key : Key) : Bool × Lpn :=
  let (created, cred) :=
    friendCredCreate crypto (lpn.cred.get idx) primary lpn.frnd lpn.lpnCounter
      lpn.frndCounter key
  (created, { lpn with cred := lpn.cred.set idx cred })

/-- One turn of the loop of `bt_mesh_lpn_friend_offer` over the key slots. -/
def Lpn.offerKey (crypto : Crypto) (primary : Nat) (sub : Subnet) (idx : Bool)
    (lpn : Lpn) : Bool × Lpn :=
  if (sub.keys.get idx).valid then
    lpn.credCreate crypto primary idx (sub.keys.get idx).net
  else
    (true, lpn)

structure FriendOffer where
  recvWin : Nat
  queueSize : Nat
  frndCounter : Nat

/-- `send_friend_poll`; `sendErr` is the outcome of `bt_mesh_ctl_send`. -/
def sendFriendPoll (sendErr : Option Errno) (lpn : Lpn) :
    Except Errno Unit × Lpn :=
  if lpn.sentReq ≠ 0 then
    (.ok (), lpn)
  else
    match sendErr with
    | none => (.ok (), { lpn with sentReq := transCtlOpFriendPoll })
    | some err => (.error err, lpn)

/-- `bt_mesh_lpn_friend_offer`; the message is `none` when the buffer is too
short.  Without a subnet the code faults, and the model stands still. -/
def lpnFriendOffer (crypto : Crypto) (primary : Nat) (table : List Subnet)
    (rx : NetRx) (msg : Option FriendOffer) (sendErr : Option Errno)
    (lpn : Lpn) : Except Errno Unit × Lpn :=
  match msg with
  | none => (.error .inval, lpn)
  | some offer =>
    if lpn.state ≠ .waitOffer then
      (.ok (), lpn)
    else if offer.recvWin = 0 then
      (.error .inval, lpn)
    else
      match lpn.sub.bind fun slot => table[slot]? with
      | none => (.error .inval, lpn)
      | some sub =>
        let offered :=
          { lpn with frndCounter := offer.frndCounter, frnd := rx.addr }
        match offered.offerKey crypto primary sub false with
        | (false, spoiled) => (.error .io, { spoiled with frnd := addrUnassigned })
        | (true, first) =>
          match first.offerKey crypto primary sub true with
          | (false, spoiled) =>
            (.error .io, { spoiled with frnd := addrUnassigned })
          | (true, second) =>
            let accepted :=
              { second with
                recvWin := offer.recvWin
                queueSize := offer.queueSize }
            match sendFriendPoll sendErr accepted with
            | (.ok _, polled) => (.ok (), polled)
            | (.error err, failed) =>
              (.error err,
                { failed with
                  sub := none
                  frnd := addrUnassigned
                  recvWin := 0
                  queueSize := 0 })

def Lpn.subnetEvt (crypto : Crypto) (primary : Nat) (table : List Subnet)
    (slot : Nat) (evt : KeyEvt) (lpn : Lpn) : Lpn :=
  match evt with
  | .deleted =>
    if lpn.sub = some slot then clearFriendship true false lpn else lpn
  | .updated =>
    match table[slot]? with
    | none => lpn
    | some sub => (lpn.credCreate crypto primary true sub.keys.new.net).2
  | _ => lpn

def Lpn.handleEvt (crypto : Crypto) (primary : Nat) (change : SubnetChange)
    (lpn : Lpn) : Lpn :=
  match change.evt with
  | none => lpn
  | some (slot, evt) => lpn.subnetEvt crypto primary change.table slot evt

structure LpnNode where
  table : List Subnet
  lpn : Lpn

/-- `progress` stands for the timers and callbacks that move the state and the
counters of requests without touching the friendship. -/
inductive LpnInput where
  | subnet (input : SubnetInput)
  | friendReq
  | offer (rx : NetRx) (msg : Option FriendOffer) (sendErr : Option Errno)
  | clear (force disable : Bool)
  | progress (state : LpnState) (sentReq reqAttempts : Nat)
      (established clearSuccess : Bool)

def lpnStep (cfg : Config) (crypto : Crypto) (primary : Nat) (node : LpnNode) :
    LpnInput → LpnNode
  | .subnet input =>
    let change := subnetStep cfg crypto node.table input
    ⟨change.table, node.lpn.handleEvt crypto primary change⟩
  | .friendReq => { node with lpn := sendFriendReq node.table node.lpn }
  | .offer rx msg sendErr =>
    { node with
      lpn :=
        (lpnFriendOffer crypto primary node.table rx msg sendErr node.lpn).2 }
  | .clear force disable =>
    { node with lpn := clearFriendship force disable node.lpn }
  | .progress state sentReq reqAttempts established clearSuccess =>
    { node with
      lpn :=
        { node.lpn with
          state := state
          sentReq := sentReq
          reqAttempts := reqAttempts
          established := established
          clearSuccess := clearSuccess } }

def lpnMachine (cfg : Config) (crypto : Crypto) (primary : Nat) :
    Machine LpnNode LpnInput Empty where
  step node input := (lpnStep cfg crypto primary node input, [])

def Lpn.derivedCred (crypto : Crypto) (primary : Nat) (lpn : Lpn) (key : Key) :
    Option NetCred :=
  crypto.k2 key (friendCredP primary lpn.frnd lpn.lpnCounter lpn.frndCounter)

/-- While a friend is assigned, the credentials match every valid key of the
friendship subnet. -/
def LpnMatch (crypto : Crypto) (primary : Nat) (node : LpnNode) : Prop :=
  node.lpn.frnd ≠ addrUnassigned →
    ∃ slot sub, node.lpn.sub = some slot ∧ node.table[slot]? = some sub ∧
      ∀ idx, (sub.keys.get idx).valid = true →
        node.lpn.derivedCred crypto primary (sub.keys.get idx).net =
          some (node.lpn.cred.get idx)

/-- While a friend is assigned: no Friend Request is sent, the friendship subnet
does not revoke its old key, and another subnet gets a new key only while the
friendship subnet has none. -/
def FriendshipKept (cfg : Config) (crypto : Crypto) (node : LpnNode) :
    LpnInput → Prop
  | .friendReq => node.lpn.frnd = addrUnassigned
  | .subnet input =>
    node.lpn.frnd ≠ addrUnassigned →
      match (subnetStep cfg crypto node.table input).evt with
      | some (slot, .revoked) => node.lpn.sub ≠ some slot
      | some (slot, .updated) =>
        node.lpn.sub = some slot ∨ ∀ place sub, node.lpn.sub = some place →
            node.table[place]? = some sub → sub.keys.new.valid = false
      | _ => True
  | _ => True

variable {crypto : Crypto} {primary : Nat}

theorem lpn_credCreate_eq {key : Key}
    {cred : NetCred} (derived : lpn.derivedCred crypto primary key = some cred) :
    lpn.credCreate crypto primary idx key =
      (true, { lpn with cred := lpn.cred.set idx cred }) := by
  unfold Lpn.derivedCred at derived
  unfold Lpn.credCreate friendCredCreate msgCredCreate
  rw [derived]

theorem lpn_credCreate_snd (crypto : Crypto) (primary : Nat) (lpn : Lpn)
    (idx : Bool) (key : Key) :
    ∃ cred, (lpn.credCreate crypto primary idx key).2 =
      { lpn with cred := lpn.cred.set idx cred } :=
  ⟨_, rfl⟩

theorem lpn_credCreate_created {created : Lpn}
    {key : Key} (outcome : lpn.credCreate crypto primary idx key = (true, created)) :
    ∃ cred, lpn.derivedCred crypto primary key = some cred ∧
      created = { lpn with cred := lpn.cred.set idx cred } := by
  cases derived : lpn.derivedCred crypto primary key with
  | some cred =>
    rw [lpn_credCreate_eq derived] at outcome
    exact ⟨cred, rfl, (congrArg snd outcome).symm⟩
  | none =>
    unfold Lpn.derivedCred at derived
    unfold Lpn.credCreate friendCredCreate msgCredCreate at outcome
    rw [derived] at outcome
    cases congrArg fst outcome

theorem offerKey_failed {sub : Subnet}
    {after : Lpn} (outcome : lpn.offerKey crypto primary sub idx = (false, after)) :
    after.sub = lpn.sub := by
  unfold Lpn.offerKey at outcome
  split at outcome
  · obtain rfl := (mk.inj outcome).2
    rfl
  · cases congrArg fst outcome

theorem offerKey_created {sub : Subnet}
    {after : Lpn} (outcome : lpn.offerKey crypto primary sub idx = (true, after)) :
    ∃ cred, after = { lpn with cred := cred } ∧
      cred.get (!idx) = lpn.cred.get (!idx) ∧
      ((sub.keys.get idx).valid = true →
        lpn.derivedCred crypto primary (sub.keys.get idx).net =
          some (cred.get idx)) := by
  unfold Lpn.offerKey at outcome
  split at outcome
  next valid =>
    obtain ⟨cred, derived, rfl⟩ := lpn_credCreate_created outcome
    refine ⟨lpn.cred.set idx cred, rfl, by simp, ?_⟩
    intro _
    rw [Slots.get_set_self]
    exact derived
  next unset =>
    obtain rfl := congrArg snd outcome
    exact ⟨lpn.cred, rfl, rfl, fun valid => absurd valid unset⟩

structure LpnNodeOk (cfg : Config) (crypto : Crypto) (primary : Nat)
    (node : LpnNode) : Prop where
  table : TableOk cfg crypto node.table
  sub : ∀ slot, node.lpn.sub = some slot →
    ∃ sub, node.table[slot]? = some sub ∧ sub.netIdx ≠ keyUnused
  creds : LpnMatch crypto primary node

section Steps

variable {cfg : Config} {crypto : Crypto} {primary : Nat} {node : LpnNode}

theorem LpnNodeOk.unassigned (table : TableOk cfg crypto node.table)
    (sub : ∀ slot, node.lpn.sub = some slot →
      ∃ sub, node.table[slot]? = some sub ∧ sub.netIdx ≠ keyUnused)
    (free : node.lpn.frnd = addrUnassigned) : LpnNodeOk cfg crypto primary node :=
  ⟨table, sub, fun assigned => absurd free assigned⟩

section

variable (ok : LpnNodeOk cfg crypto primary node)
include ok

theorem LpnNodeOk.friendReq (free : node.lpn.frnd = addrUnassigned) :
    LpnNodeOk cfg crypto primary
      { node with lpn := sendFriendReq node.table node.lpn } := by
  refine .unassigned ok.table ?_ free
  intro slot chosen
  obtain ⟨bound, used, _⟩ := findIdx?_eq_some_iff_getElem.mp chosen
  refine ⟨node.table[slot], getElem?_eq_getElem bound, ?_⟩
  simpa using used

theorem LpnNodeOk.clear (force disable : Bool) :
    LpnNodeOk cfg crypto primary
      { node with lpn := clearFriendship force disable node.lpn } := by
  unfold clearFriendship
  split
  · exact ⟨ok.table, ok.sub, ok.creds⟩
  refine .unassigned ok.table ?_ rfl
  intro slot contrary
  cases contrary

theorem LpnNodeOk.offer (rx : NetRx)
    (msg : Option FriendOffer) (sendErr : Option Errno) :
    LpnNodeOk cfg crypto primary
      { node with
        lpn :=
          (lpnFriendOffer crypto primary node.table rx msg sendErr
            node.lpn).2 } := by
  unfold lpnFriendOffer
  split
  · exact ok
  next offer =>
    split
    · exact ok
    split
    · exact ok
    split
    · exact ok
    next sub chosen =>
      obtain ⟨slot, subEq, found⟩ := bind_eq_some_iff.mp chosen
      simp only
      split
      next spoiled outcome =>
        refine .unassigned ok.table ?_ rfl
        intro place atPlace
        rw [offerKey_failed outcome] at atPlace
        exact ok.sub place atPlace
      next first firstOutcome =>
        obtain ⟨firstCred, rfl, _, firstDerived⟩ := offerKey_created firstOutcome
        split
        next spoiled outcome =>
          refine .unassigned ok.table ?_ rfl
          intro place atPlace
          rw [offerKey_failed outcome] at atPlace
          exact ok.sub place atPlace
        next second secondOutcome =>
          obtain ⟨cred, rfl, kept, secondDerived⟩ := offerKey_created secondOutcome
          have derived : ∀ idx, (sub.keys.get idx).valid = true →
              crypto.k2 (sub.keys.get idx).net
                (friendCredP primary rx.addr node.lpn.lpnCounter
                  offer.frndCounter) = some (cred.get idx) := by
            intro idx valid
            cases idx with
            | false =>
              have same : cred.get false = firstCred.get false := kept
              rw [same]
              exact firstDerived valid
            | true => exact secondDerived valid
          unfold sendFriendPoll
          split
          next polled sent =>
            split at sent
            · obtain rfl := congrArg snd sent
              exact ⟨ok.table, ok.sub, fun _ => ⟨slot, sub, subEq, found, derived⟩⟩
            · split at sent
              · obtain rfl := congrArg snd sent
                exact ⟨ok.table, ok.sub, fun _ => ⟨slot, sub, subEq, found, derived⟩⟩
              · cases congrArg fst sent
          next err failed sent =>
            refine .unassigned ok.table ?_ rfl
            intro place contrary
            cases contrary

end

theorem lpnMatch_new_unset {slot : Nat} {after : Subnet} {table : List Subnet}
    {cred : NetCred} (subEq : lpn.sub = some slot)
    (stored : table[slot]? = some after) (unset : after.keys.new.valid = false)
    (derived : after.keys.old.valid = true →
      lpn.derivedCred crypto primary after.keys.old.net = some lpn.cred.old) :
    LpnMatch crypto primary
      ⟨table, { lpn with cred := lpn.cred.set true cred }⟩ := by
  intro _
  refine ⟨slot, after, subEq, stored, ?_⟩
  intro idx valid
  cases idx with
  | false => exact derived valid
  | true =>
    have contrary : after.keys.new.valid = true := valid
    rw [unset] at contrary
    cases contrary

theorem handleEvt_frnd (free : lpn.frnd = addrUnassigned) (change : SubnetChange) :
    (lpn.handleEvt crypto primary change).frnd = addrUnassigned := by
  unfold Lpn.handleEvt
  split
  · exact free
  unfold Lpn.subnetEvt
  split
  · split
    · rfl
    · exact free
  · split
    · exact free
    · exact free
  · exact free

theorem handleEvt_sub (lpn : Lpn) (change : SubnetChange) :
    (lpn.handleEvt crypto primary change).sub = lpn.sub ∨
      (lpn.handleEvt crypto primary change).sub = none := by
  unfold Lpn.handleEvt
  split
  · exact .inl rfl
  unfold Lpn.subnetEvt
  split
  · split
    · exact .inr rfl
    · exact .inl rfl
  · split
    · exact .inl rfl
    · exact .inl rfl
  · exact .inl rfl

def NewKeySafe (lpn : Lpn) (sub : Subnet) (change : SubnetChange) : Prop :=
  lpn.frnd ≠ addrUnassigned → ∀ other, change.evt = some (other, .updated) →
    lpn.sub = some other ∨ sub.keys.new.valid = false

theorem lpnMatch_kept {slot : Nat} {sub after : Subnet} {change : SubnetChange}
    (subEq : lpn.sub = some slot) (stored : change.table[slot]? = some after)
    (keys : ∀ idx, (after.keys.get idx).valid = true →
      after.keys.get idx = sub.keys.get idx)
    (quiet : ∀ other evt, change.evt = some (other, evt) →
      other ≠ slot ∨ evt = .swapped)
    (derived : lpn.frnd ≠ addrUnassigned → ∀ idx, (sub.keys.get idx).valid = true →
        lpn.derivedCred crypto primary (sub.keys.get idx).net =
          some (lpn.cred.get idx)) (safe : NewKeySafe lpn sub change) :
    LpnMatch crypto primary ⟨change.table, lpn.handleEvt crypto primary change⟩ := by
  have keptKeys : lpn.frnd ≠ addrUnassigned →
      ∀ idx, (after.keys.get idx).valid = true →
        lpn.derivedCred crypto primary (after.keys.get idx).net =
          some (lpn.cred.get idx) := by
    intro assigned idx valid
    have same := keys idx valid
    rw [same] at valid ⊢
    exact derived assigned idx valid
  have unchanged : LpnMatch crypto primary ⟨change.table, lpn⟩ :=
    fun assigned => ⟨slot, after, subEq, stored, keptKeys assigned⟩
  unfold Lpn.handleEvt
  split
  · exact unchanged
  next other evt raised =>
    unfold Lpn.subnetEvt
    split
    next =>
      have elsewhere : lpn.sub ≠ some other := by
        rw [subEq]
        intro same
        rcases quiet other .deleted raised with different | contrary
        · exact different (some.inj same).symm
        · cases contrary
      rw [if_neg elsewhere]
      exact unchanged
    next =>
      split
      · exact unchanged
      next target _ =>
        obtain ⟨_, written⟩ :=
          lpn_credCreate_snd crypto primary lpn true target.keys.new.net
        rw [written]
        intro assigned
        refine lpnMatch_new_unset subEq stored ?_ (keptKeys assigned false) assigned
        rw [Bool.eq_false_iff]
        intro valid
        have same : after.keys.new = sub.keys.new := keys true valid
        rcases safe assigned other raised with atSub | unset
        · rw [subEq] at atSub
          rcases quiet other .updated raised with different | contrary
          · exact different (some.inj atSub).symm
          · cases contrary
        · rw [same, unset] at valid
          cases valid
    next => exact unchanged

theorem LpnNodeOk.subnet (derives : ∀ key p, (crypto.k2 key p).isSome = true)
    (ok : LpnNodeOk cfg crypto primary node) (input : SubnetInput)
    (kept : FriendshipKept cfg crypto node (.subnet input)) :
    LpnNodeOk cfg crypto primary
      ((lpnMachine cfg crypto primary).next node (.subnet input)) := by
  have effect := subnetStep_effect ok.table input
  have tableOk := effect.tableOk ok.table
  simp only [FriendshipKept] at kept
  simp only [lpnMachine, Machine.next, lpnStep]
  cases subEq : node.lpn.sub with
  | none =>
    have free : node.lpn.frnd = addrUnassigned := by
      by_contra assigned
      obtain ⟨slot, _, contrary, _⟩ := ok.creds assigned
      rw [subEq] at contrary
      cases contrary
    refine .unassigned tableOk ?_ (handleEvt_frnd free _)
    intro slot atSlot
    rcases handleEvt_sub node.lpn (subnetStep cfg crypto node.table input)
      with same | cleared
    · rw [same, subEq] at atSlot
      cases atSlot
    · rw [cleared] at atSlot
      cases atSlot
  | some slot =>
    obtain ⟨sub, found, used⟩ := ok.sub slot subEq
    have derived : node.lpn.frnd ≠ addrUnassigned →
        ∀ idx, (sub.keys.get idx).valid = true →
          node.lpn.derivedCred crypto primary (sub.keys.get idx).net =
            some (node.lpn.cred.get idx) := by
      intro assigned
      obtain ⟨place, _, atPlace, storedTwin, derived⟩ := ok.creds assigned
      rw [subEq] at atPlace
      cases atPlace
      rw [found] at storedTwin
      cases storedTwin
      exact derived
    generalize subnetStep cfg crypto node.table input = change at *
    cases effect.slotEffect ok.table found used with
    | kept after stored afterUsed keys quiet =>
      refine ⟨tableOk, ?_, ?_⟩
      · intro place atPlace
        rcases handleEvt_sub node.lpn change with same | cleared
        · rw [same, subEq] at atPlace
          cases atPlace
          exact ⟨after, stored, afterUsed⟩
        · rw [cleared] at atPlace
          cases atPlace
      · refine lpnMatch_kept subEq stored keys quiet derived ?_
        intro assigned other raised
        have condition := kept assigned
        rw [raised] at condition
        rcases condition with atOther | unset
        · exact .inl atOther
        · exact .inr (unset slot sub subEq found)
    | updated keys raised stored =>
      obtain ⟨cred, created⟩ := isSome_iff_exists.mp
        (derives keys.net (friendCredP primary node.lpn.frnd
          node.lpn.lpnCounter node.lpn.frndCounter))
      have handled : node.lpn.handleEvt crypto primary change =
          { node.lpn with cred := node.lpn.cred.set true cred } := by
        simp only [Lpn.handleEvt, raised, Lpn.subnetEvt, stored]
        rw [lpn_credCreate_eq created]
      rw [handled]
      refine ⟨tableOk, ?_, ?_⟩
      · intro place atPlace
        have samePlace : node.lpn.sub = some place := atPlace
        rw [subEq] at samePlace
        cases samePlace
        exact ⟨_, stored, used⟩
      · intro assigned
        refine ⟨slot, _, subEq, stored, ?_⟩
        intro idx valid
        cases idx with
        | false => exact derived assigned false valid
        | true => exact created
    | revoked raised stored =>
      have handled : node.lpn.handleEvt crypto primary change = node.lpn := by
        simp only [Lpn.handleEvt, raised, Lpn.subnetEvt]
      rw [handled]
      refine .unassigned tableOk ?_ ?_
      · intro place atPlace
        have samePlace : node.lpn.sub = some place := atPlace
        rw [subEq] at samePlace
        cases samePlace
        exact ⟨_, stored, used⟩
      · by_contra assigned
        have contrary := kept assigned
        rw [raised] at contrary
        exact contrary subEq
    | deleted raised =>
      have handled : node.lpn.handleEvt crypto primary change =
          clearFriendship true false node.lpn := by
        simp only [Lpn.handleEvt, raised, Lpn.subnetEvt, subEq, if_true]
      rw [handled]
      refine .unassigned tableOk ?_ rfl
      intro place contrary
      cases contrary

end Steps

theorem LpnNodeOk.step {cfg : Config}
    (derives : ∀ key p, (crypto.k2 key p).isSome = true) (node : LpnNode)
    (input : LpnInput) (ok : LpnNodeOk cfg crypto primary node)
    (kept : FriendshipKept cfg crypto node input) : LpnNodeOk cfg crypto primary
      ((lpnMachine cfg crypto primary).next node input) := by
  cases input with
  | subnet input => exact ok.subnet derives input kept
  | friendReq => exact ok.friendReq kept
  | offer rx msg sendErr => exact ok.offer rx msg sendErr
  | clear force disable => exact ok.clear force disable
  | progress => exact ⟨ok.table, ok.sub, ok.creds⟩

def LpnNode.boot (subnets : Nat) : LpnNode where
  table := emptyTable subnets
  lpn := .boot

theorem LpnNodeOk.boot (cfg : Config) (crypto : Crypto) (primary subnets : Nat) :
    LpnNodeOk cfg crypto primary (.boot subnets) := by
  refine .unassigned (.empty cfg crypto subnets) ?_ rfl
  intro slot contrary
  cases contrary

/-- The credentials of a Low Power Node match its friendship subnet in every
state of a run that keeps the friendship's keys apart. -/
theorem lpn_match_always (cfg : Config) (crypto : Crypto)
    (primary subnets : Nat) (inputs : List LpnInput)
    (derives : ∀ key p, (crypto.k2 key p).isSome = true)
    (kept : (lpnMachine cfg crypto primary).Along (FriendshipKept cfg crypto)
      (.boot subnets) inputs) :
    (lpnMachine cfg crypto primary).Always (LpnMatch crypto primary)
      (.boot subnets) inputs := by
  have always : (lpnMachine cfg crypto primary).Always
      (LpnNodeOk cfg crypto primary) (.boot subnets) inputs :=
    Machine.always_of_along (LpnNodeOk.step derives)
      (.boot cfg crypto primary subnets) kept
  exact always.mono fun _ ok => ok.creds

/-! A friendship that follows a key update, one whose subnet revokes the old
key, and one disturbed by the key update of another subnet. -/

def offeredFriendship : List LpnInput :=
  [.subnet (.add firstNetIdx 7), .friendReq, .progress .waitOffer 0 0 false false,
    .offer lpnRx (some ⟨100, 4, 9⟩) none, .subnet (.update firstNetIdx 8)]

def secondNetIdx : NetIdx := ⟨1, one_le_maxNetIdx⟩

def revokedFriendship : List LpnInput :=
  offeredFriendship ++ [.subnet (.krPhaseSet firstNetIdx 3)]

def disturbedFriendship : List LpnInput :=
  offeredFriendship ++
    [.subnet (.add secondNetIdx 5), .subnet (.update secondNetIdx 6)]

theorem lpn_match_offeredFriendship : (lpnMachine plainConfig plainCrypto 1).Along
      (FriendshipKept plainConfig plainCrypto) (.boot 2) offeredFriendship ∧
    (lpnMachine plainConfig plainCrypto 1).Always (LpnMatch plainCrypto 1)
      (.boot 2) offeredFriendship := by
  have kept : (lpnMachine plainConfig plainCrypto 1).Along
      (FriendshipKept plainConfig plainCrypto) (.boot 2) offeredFriendship :=
    ⟨fun contrary => absurd rfl contrary, rfl, trivial, trivial,
      fun _ => .inl rfl, trivial⟩
  exact ⟨kept, lpn_match_always plainConfig plainCrypto 1 2 offeredFriendship
    (fun _ _ => rfl) kept⟩

theorem lpn_mismatch_after_key_events :
    ¬ (lpnMachine plainConfig plainCrypto 1).Always (LpnMatch plainCrypto 1)
        (.boot 2) revokedFriendship ∧
    ¬ (lpnMachine plainConfig plainCrypto 1).Always (LpnMatch plainCrypto 1)
        (.boot 2) disturbedFriendship := by
  constructor
  · intro always
    have matching : LpnMatch plainCrypto 1
        ((lpnMachine plainConfig plainCrypto 1).run (.boot 2)
          revokedFriendship) := always.2.2.2.2.2.2
    obtain ⟨slot, sub, chosen, found, derived⟩ := matching (by decide)
    cases chosen
    cases found
    have contrary := derived false rfl
    revert contrary
    decide
  · intro always
    have matching : LpnMatch plainCrypto 1
        ((lpnMachine plainConfig plainCrypto 1).run (.boot 2)
          disturbedFriendship) := always.2.2.2.2.2.2.2
    obtain ⟨slot, sub, chosen, found, derived⟩ := matching (by decide)
    cases chosen
    cases found
    have contrary := derived true rfl
    revert contrary
    decide

end ZephyrBluetooth.Mesh
