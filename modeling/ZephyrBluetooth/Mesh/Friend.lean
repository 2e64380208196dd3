import ZephyrBluetooth.Mesh.SubnetStore

namespace ZephyrBluetooth.Mesh

open Data List

/-! The friendship credentials of a Friend node (`friend.c`).  A pointer to a
subnet is the slot of the subnet in its table. -/

structure Friend where
  lpn : Nat
  numElem : Nat
  subnet : Option Nat
  cred : Slots NetCred
  recvDelay : Nat
  pollTo : Nat
  lpnCounter : Nat
  counter : Nat
  clearFrnd : Nat

def Friend.free : Friend where
  lpn := 0
  numElem := 0
  subnet := none
  cred := ⟨.zero, .zero⟩
  recvDelay := 0
  pollTo := 0
  lpnCounter := 0
  counter := 0
  clearFrnd := 0

structure FriendReqMsg where
  criteria : Nat
  recvDelay : Nat
  pollTo : Nat
  prevAddr : Nat
  numElem : Nat
  lpnCounter : Nat

inductive ReqCheck where
  | ignored
  | invalid
  | accepted (msg : FriendReqMsg)

def minQueueSizeLog (criteria : Nat) : Nat := criteria % 2 ^ 3

def minQueueSize (criteria : Nat) : Nat := 2 ^ minQueueSizeLog criteria

/-- The checks of `bt_mesh_friend_req` before it looks for a context; the
message is `none` when the buffer is too short for it. -/
def friendReqCheck (cfg : Config) (rx : NetRx) (msg : Option FriendReqMsg) :
    ReqCheck :=
  if rx.netIf = .local then
    .ignored
  else
    match msg with
    | none => .invalid
    | some req =>
      if req.recvDelay ≤ 0x09 then
        .invalid
      else if req.pollTo ≤ 0x000009 ∨ 0x34bc00 ≤ req.pollTo then
        .invalid
      else if req.numElem = 0x00 then
        .invalid
      else if !addrIsUnicast (rx.addr + req.numElem - 1) then
        .invalid
      else if minQueueSizeLog req.criteria = 0 then
        .invalid
      else if cfg.friendQueueSize < minQueueSize req.criteria then
        .ignored
      else
        .accepted req

def isLpnUnicast (frnd : Friend) (addr : Nat) : Bool :=
  frnd.lpn != addrUnassigned && decide (frnd.lpn ≤ addr) &&
    decide (addr < frnd.lpn + frnd.numElem)

/-- `bt_mesh_friend_find` for allocated contexts, established or not. -/
def friendFind (table : List Subnet) (friends : List Friend)
    (netIdx lpnAddr : Nat) : Option Nat :=
  friends.findIdx? fun frnd =>
    match frnd.subnet.bind fun slot => table[slot]? with
    | none => false
    | some sub => sub.netIdx == netIdx && isLpnUnicast frnd lpnAddr

def friendClear (frnd : Friend) : Friend :=
  { frnd with
    cred := ⟨.zero, .zero⟩
    counter := (frnd.counter + 1) % 2 ^ 16
    subnet := none }

/-- `friend_cred_create` for the credentials at `idx`. -/
def Friend.credCreate (crypto : Crypto) (primary : Nat) (frnd : Friend)
    (idx : Bool) (key : Key) : Bool × Friend :=
  let (created, cred) :=
    friendCredCreate crypto (frnd.cred.get idx) frnd.lpn primary
      frnd.lpnCounter frnd.counter key
  (created, { frnd with cred := frnd.cred.set idx cred })

/-- `bt_mesh_friend_req` from the label `init_friend` on. -/
def initFriend (crypto : Crypto) (primary : Nat) (slot : Nat) (sub : Subnet)
    (rx : NetRx) (msg : FriendReqMsg) (frnd : Friend) :
    Except Errno Unit × Friend :=
  let named :=
    { frnd with
      lpn := rx.addr
      numElem := msg.numElem
      subnet := some slot
      recvDelay := msg.recvDelay
      pollTo := msg.pollTo * 100
      lpnCounter := msg.lpnCounter
      clearFrnd := msg.prevAddr }
  match named.credCreate crypto primary sub.txIdx (sub.keys.get sub.txIdx).net with
  | (true, created) => (.ok (), created)
  | (false, spoiled) => (.error .io, friendClear spoiled)

def friendReq (cfg : Config) (crypto : Crypto) (primary : Nat)
    (table : List Subnet) (friends : List Friend) (slot : Nat) (sub : Subnet)
    (rx : NetRx) (msg : Option FriendReqMsg) :
    Except Errno Unit × List Friend :=
  match friendReqCheck cfg rx msg with
  | .ignored => (.ok (), friends)
  | .invalid => (.error .inval, friends)
  | .accepted req =>
    match friendFind table friends sub.netIdx rx.addr with
    | some place =>
      match friends[place]? with
      | none => (.error .noMem, friends)
      | some frnd =>
        let (result, created) :=
          initFriend crypto primary slot sub rx req (friendClear frnd)
        (result, friends.set place created)
    | none =>
      match friends.findIdx? fun frnd => frnd.subnet.isNone with
      | none => (.error .noMem, friends)
      | some place =>
        match friends[place]? with
        | none => (.error .noMem, friends)
        | some frnd =>
          let (result, created) :=
            initFriend crypto primary slot sub rx req frnd
          (result, friends.set place created)

def Friend.subnetEvt (crypto : Crypto) (primary : Nat) (table : List Subnet)
    (slot : Nat) (evt : KeyEvt) (frnd : Friend) : Friend :=
  if frnd.subnet ≠ some slot then
    frnd
  else
    match evt with
    | .added => frnd
    | .deleted => friendClear frnd
    | .updated =>
      match table[slot]? with
      | none => frnd
      | some sub =>
        match frnd.credCreate crypto primary true sub.keys.new.net with
        | (true, created) => created
        | (false, spoiled) => friendClear spoiled
    | .swapped => frnd
    | .revoked => { frnd with cred := ⟨frnd.cred.new, .zero⟩ }

def Friend.handleEvt (crypto : Crypto) (primary : Nat) (change : SubnetChange)
    (frnd : Friend) : Friend :=
  match change.evt with
  | none => frnd
  | some (slot, evt) => frnd.subnetEvt crypto primary change.table slot evt

structure FriendNode where
  table : List Subnet
  friends : List Friend

inductive FriendInput where
  | subnet (input : SubnetInput)
  | friendReq (slot : Nat) (rx : NetRx) (msg : Option FriendReqMsg)
  | friendClear (place : Nat)

def receivingSubnet (table : List Subnet) (slot : Nat) : Option Subnet :=
  table[slot]?.filter fun sub => sub.netIdx != keyUnused

def friendStep (cfg : Config) (crypto : Crypto) (primary : Nat)
    (node : FriendNode) : FriendInput → FriendNode
  | .subnet input =>
    let change := subnetStep cfg crypto node.table input
    ⟨change.table, node.friends.map (Friend.handleEvt crypto primary change)⟩
  | .friendReq slot rx msg =>
    match receivingSubnet node.table slot with
    | none => node
    | some sub =>
      { node with
        friends :=
          (friendReq cfg crypto primary node.table node.friends slot sub rx msg).2 }
  | .friendClear place =>
    match node.friends[place]? with
    | none => node
    | some frnd =>
      if frnd.subnet.isSome then
        { node with friends := node.friends.set place (friendClear frnd) }
      else
        node

def friendMachine (cfg : Config) (crypto : Crypto) (primary : Nat) :
    Machine FriendNode FriendInput Empty where
  step node input := (friendStep cfg crypto primary node input, [])

/-- What `bt_mesh_friend_cred_create` derives for a friendship. -/
def Friend.derivedCred (crypto : Crypto) (primary : Nat) (frnd : Friend)
    (key : Key) : Option NetCred :=
  crypto.k2 key (friendCredP frnd.lpn primary frnd.lpnCounter frnd.counter)

def CredsMatch (crypto : Crypto) (primary : Nat) (table : List Subnet)
    (frnd : Friend) : Prop :=
  ∀ slot, frnd.subnet = some slot →
    ∃ sub, table[slot]? = some sub ∧ sub.netIdx ≠ keyUnused ∧
      ∀ idx, (sub.keys.get idx).valid = true →
        frnd.derivedCred crypto primary (sub.keys.get idx).net =
          some (frnd.cred.get idx)

def FriendsMatch (crypto : Crypto) (primary : Nat) (node : FriendNode) : Prop :=
  ∀ frnd ∈ node.friends, CredsMatch crypto primary node.table frnd

def OneKey (cfg : Config) (node : FriendNode) : FriendInput → Prop
  | .friendReq slot rx msg =>
    ∀ req, friendReqCheck cfg rx msg = .accepted req →
      ∀ sub, receivingSubnet node.table slot = some sub →
        (sub.keys.get (!sub.txIdx)).valid = false
  | _ => True

theorem credCreate_created {crypto : Crypto} {primary : Nat}
    {frnd created : Friend} {idx : Bool} {key : Key}
    (outcome : frnd.credCreate crypto primary idx key = (true, created)) :
    ∃ cred, frnd.derivedCred crypto primary key = some cred ∧
      created = { frnd with cred := frnd.cred.set idx cred } := by
  revert outcome
  unfold Friend.credCreate friendCredCreate msgCredCreate Friend.derivedCred
  cases crypto.k2 key
      (friendCredP frnd.lpn primary frnd.lpnCounter frnd.counter) with
  | none =>
    intro outcome
    cases congrArg Prod.fst outcome
  | some cred =>
    intro outcome
    exact ⟨cred, rfl, (congrArg Prod.snd outcome).symm⟩

variable {sub : Subnet} {slot : Nat}

section Matching

variable {cfg : Config} {crypto : Crypto} {primary : Nat} {table : List Subnet}

theorem credsMatch_friendClear (frnd : Friend) :
    CredsMatch crypto primary table (friendClear frnd) := by
  intro slot contrary
  cases contrary

theorem credsMatch_initFriend
    (found : table[slot]? = some sub) (used : sub.netIdx ≠ keyUnused)
    (single : (sub.keys.get (!sub.txIdx)).valid = false) (rx : NetRx)
    (msg : FriendReqMsg) (frnd : Friend) : CredsMatch crypto primary table
      (initFriend crypto primary slot sub rx msg frnd).2 := by
  simp only [initFriend]
  split
  next created outcome =>
    obtain ⟨_, derived, createdEq⟩ := credCreate_created outcome
    intro place allocated
    rw [createdEq] at allocated ⊢
    cases allocated
    refine ⟨sub, found, used, ?_⟩
    intro idx valid
    by_cases sending : idx = sub.txIdx
    · subst sending
      simp only [Slots.get_set_self]
      exact derived
    · have other : idx = !sub.txIdx := by
        cases idx <;> cases tx : sub.txIdx <;> simp_all
      rw [other, single] at valid
      cases valid
  next => exact credsMatch_friendClear _

theorem credsMatch_set {friends : List Friend}
    (matching : ∀ frnd ∈ friends, CredsMatch crypto primary table frnd)
    {place : Nat} {written : Friend}
    (writtenMatch : CredsMatch crypto primary table written) :
    ∀ frnd ∈ friends.set place written, CredsMatch crypto primary table frnd := by
  intro frnd member
  rcases mem_or_eq_of_mem_set member with old | new
  · exact matching frnd old
  · rw [new]
    exact writtenMatch

theorem friendReq_match {friends : List Friend}
    (matching : ∀ frnd ∈ friends, CredsMatch crypto primary table frnd)
    (found : table[slot]? = some sub)
    (used : sub.netIdx ≠ keyUnused) {rx : NetRx} {msg : Option FriendReqMsg}
    (single : ∀ req, friendReqCheck cfg rx msg = .accepted req →
      (sub.keys.get (!sub.txIdx)).valid = false) :
    ∀ frnd ∈ (friendReq cfg crypto primary table friends slot sub rx msg).2,
      CredsMatch crypto primary table frnd := by
  unfold friendReq
  split
  · exact matching
  · exact matching
  next req accepted =>
    have initMatch : ∀ frnd, CredsMatch crypto primary table
        (initFriend crypto primary slot sub rx req frnd).2 :=
      credsMatch_initFriend found used (single req accepted) rx req
    split
    · split
      · exact matching
      next frnd _ => exact credsMatch_set matching (initMatch (friendClear frnd))
    · split
      · exact matching
      split
      · exact matching
      next frnd _ => exact credsMatch_set matching (initMatch frnd)

theorem credsMatch_handleEvt {change : SubnetChange}
    (ok : TableOk cfg crypto table)
    (effect : SubnetEffect cfg crypto table change) {frnd : Friend}
    (matching : CredsMatch crypto primary table frnd) :
    CredsMatch crypto primary change.table
      (frnd.handleEvt crypto primary change) := by
  cases allocated : frnd.subnet with
  | none =>
    have same : frnd.handleEvt crypto primary change = frnd := by
      unfold Friend.handleEvt
      split
      · rfl
      · simp [Friend.subnetEvt, allocated]
    rw [same]
    intro slot contrary
    rw [allocated] at contrary
    cases contrary
  | some slot =>
    obtain ⟨_, found, used, derived⟩ := matching slot allocated
    cases effect.slotEffect ok found used with
    | kept after stored afterUsed keys quiet =>
      have same : frnd.handleEvt crypto primary change = frnd := by
        unfold Friend.handleEvt
        split
        · rfl
        next place evt raised =>
          unfold Friend.subnetEvt
          rcases quiet place evt raised with elsewhere | swapped
          · have other : frnd.subnet ≠ some place := by
              rw [allocated]
              intro contrary
              exact elsewhere (Option.some.inj contrary).symm
            rw [if_pos other]
          · rw [swapped]
            split <;> rfl
      rw [same]
      intro place atPlace
      rw [allocated] at atPlace
      cases atPlace
      refine ⟨after, stored, afterUsed, ?_⟩
      intro idx valid
      have sameKeys := keys idx valid
      rw [sameKeys] at valid ⊢
      exact derived idx valid
    | updated keys raised stored =>
      simp only [Friend.handleEvt, raised, Friend.subnetEvt, allocated,
        ne_eq, not_true_eq_false, if_false, stored]
      split
      next created outcome =>
        obtain ⟨_, derivedNew, createdEq⟩ := credCreate_created outcome
        rw [createdEq]
        intro place atPlace
        have samePlace : frnd.subnet = some place := atPlace
        rw [allocated] at samePlace
        cases samePlace
        refine ⟨_, stored, used, ?_⟩
        intro idx valid
        cases idx with
        | false => exact derived false valid
        | true => exact derivedNew
      next => exact credsMatch_friendClear _
    | revoked raised stored refreshed =>
      simp only [Friend.handleEvt, raised, Friend.subnetEvt, allocated,
        ne_eq, not_true_eq_false, if_false]
      intro place atPlace
      cases atPlace
      refine ⟨_, stored, used, ?_⟩
      intro idx valid
      cases idx with
      | false => exact derived true refreshed
      | true => cases valid
    | deleted raised =>
      simp only [Friend.handleEvt, raised, Friend.subnetEvt, allocated,
        ne_eq, not_true_eq_false, if_false]
      exact credsMatch_friendClear _

end Matching

structure FriendNodeOk (cfg : Config) (crypto : Crypto) (primary : Nat)
    (node : FriendNode) : Prop where
  table : TableOk cfg crypto node.table
  friends : FriendsMatch crypto primary node

theorem receivingSubnet_some {table : List Subnet}
    (receiving : receivingSubnet table slot = some sub) :
    table[slot]? = some sub ∧ sub.netIdx ≠ keyUnused := by
  obtain ⟨found, used⟩ := Option.filter_eq_some_iff.mp receiving
  exact ⟨found, by simpa using used⟩

theorem FriendNodeOk.step {cfg : Config} {crypto : Crypto} {primary : Nat}
    (node : FriendNode) (input : FriendInput)
    (ok : FriendNodeOk cfg crypto primary node) (single : OneKey cfg node input) :
    FriendNodeOk cfg crypto primary
      ((friendMachine cfg crypto primary).next node input) := by
  cases input with
  | subnet input =>
    have effect := subnetStep_effect ok.table input
    refine ⟨effect.tableOk ok.table, ?_⟩
    intro frnd member
    obtain ⟨before, beforeMember, rfl⟩ := mem_map.mp member
    exact credsMatch_handleEvt ok.table effect (ok.friends before beforeMember)
  | friendReq slot rx msg =>
    simp only [friendMachine, Machine.next, friendStep]
    split
    · exact ok
    next sub receiving =>
      obtain ⟨found, used⟩ := receivingSubnet_some receiving
      exact ⟨ok.table, friendReq_match ok.friends found used
        fun req accepted => single req accepted sub receiving⟩
  | friendClear place =>
    simp only [friendMachine, Machine.next, friendStep]
    split
    · exact ok
    next frnd _ =>
      split
      · exact ⟨ok.table, credsMatch_set ok.friends (credsMatch_friendClear frnd)⟩
      · exact ok

def FriendNode.boot (subnets friends : Nat) : FriendNode where
  table := emptyTable subnets
  friends := List.replicate friends Friend.free

theorem FriendNodeOk.boot (cfg : Config) (crypto : Crypto)
    (primary subnets friends : Nat) :
    FriendNodeOk cfg crypto primary (.boot subnets friends) := by
  refine ⟨.empty cfg crypto subnets, ?_⟩
  intro frnd member slot allocated
  rw [eq_of_mem_replicate member] at allocated
  cases allocated

/-- Friendship credentials match the keys of their subnet in every state of a
run in which no request is accepted while the subnet has a second valid key. -/
theorem friends_match_always (cfg : Config) (crypto : Crypto)
    (primary subnets friends : Nat) (inputs : List FriendInput)
    (single : (friendMachine cfg crypto primary).Along (OneKey cfg)
      (.boot subnets friends) inputs) :
    (friendMachine cfg crypto primary).Always (FriendsMatch crypto primary)
      (.boot subnets friends) inputs := by
  have always : (friendMachine cfg crypto primary).Always
      (FriendNodeOk cfg crypto primary) (.boot subnets friends) inputs :=
    Machine.always_of_along FriendNodeOk.step
      (.boot cfg crypto primary subnets friends) single
  exact always.mono fun _ ok => ok.friends

/-! A friendship requested before a Key Refresh, and one requested during it. -/

def sampleReq : FriendReqMsg where
  criteria := 1
  recvDelay := 100
  pollTo := 100
  prevAddr := 0
  numElem := 1
  lpnCounter := 3

def lpnRx : NetRx where
  netIf := .adv
  sub := 0
  addr := 0x0020
  recvDst := 0xfffd
  sendTtl := 7
  seq := 1
  oldIv := false
  ctl := true
  localMatch := true
  friendMatch := false
  addr_unicast := by decide
  seq_lt := firstSeq_lt

def firstNetIdx : NetIdx := ⟨0, by decide⟩

def requestedBefore : List FriendInput :=
  [.subnet (.add firstNetIdx 7), .friendReq 0 lpnRx (some sampleReq),
    .subnet (.update firstNetIdx 8), .subnet (.krPhaseSet firstNetIdx 3)]

def requestedDuring : List FriendInput :=
  [.subnet (.add firstNetIdx 7), .subnet (.update firstNetIdx 8),
    .friendReq 0 lpnRx (some sampleReq)]

theorem friends_match_requestedBefore :
    (friendMachine plainConfig plainCrypto 1).Along (OneKey plainConfig)
      (.boot 1 1) requestedBefore ∧
    (friendMachine plainConfig plainCrypto 1).Always
      (FriendsMatch plainCrypto 1) (.boot 1 1) requestedBefore := by
  have single : (friendMachine plainConfig plainCrypto 1).Along
      (OneKey plainConfig) (.boot 1 1) requestedBefore := by
    refine ⟨trivial, ?_, trivial, trivial, trivial⟩
    intro req _ sub receiving
    cases receiving
    rfl
  exact ⟨single, friends_match_always plainConfig plainCrypto 1 1 1
    requestedBefore single⟩

theorem friends_mismatch_requestedDuring :
    ¬ (friendMachine plainConfig plainCrypto 1).Always
        (FriendsMatch plainCrypto 1) (.boot 1 1) requestedDuring := by
  intro always
  have matching : FriendsMatch plainCrypto 1
      ((friendMachine plainConfig plainCrypto 1).run (.boot 1 1)
        requestedDuring) := always.2.2.2
  obtain ⟨_, found, _, derived⟩ := matching _ (mem_singleton.mpr rfl) 0 rfl
  cases found
  have contrary := derived true rfl
  revert contrary
  decide

end ZephyrBluetooth.Mesh
