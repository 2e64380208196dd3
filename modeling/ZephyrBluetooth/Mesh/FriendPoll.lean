import ZephyrBluetooth.Mesh.Lpn

namespace ZephyrBluetooth.Mesh

open Data

/-! The delivery of the Friend Queue: `bt_mesh_friend_poll` and `friend_timeout`
on the Friend, `send_friend_poll` and `friend_response_received` on the Low Power
node, and the requests and responses between them, each of which may be lost. -/

/-- An entry of the Friend Queue, a Friend Update or a message for the Low Power
node.  Entries are numbered in the order in which they are queued. -/
structure QueuePdu where
  number : Nat
  update : Bool
  deriving DecidableEq

inductive FriendResponse where
  | queued (pdu : QueuePdu) (md : Bool)
  | subCfm (xact : BitVec 8)
  deriving DecidableEq

inductive SubOp where
  | add
  | rem
  deriving DecidableEq

inductive LpnRequest where
  | poll (fsn : Bool)
  | sub (op : SubOp) (xact : BitVec 8)

/-- The part of `struct bt_mesh_friend` that belongs to the Friend Queue.
`pending_buf` is set while `adv` waits for its transmission.  `order` records what
was ever queued, and `discarded` what was taken out of `last`. -/
structure FriendQueue where
  established : Bool
  fsn : Bool
  sendLast : Bool
  pendingReq : Bool
  adv : Option FriendResponse
  queue : List QueuePdu
  last : Option FriendResponse
  order : List QueuePdu
  discarded : List FriendResponse

namespace FriendQueue

/-- `enqueue_buf` -/
def enqueue (update : Bool) (frnd : FriendQueue) : FriendQueue :=
  let pdu : QueuePdu := ⟨frnd.order.length, update⟩
  { frnd with queue := frnd.queue ++ [pdu], order := frnd.order ++ [pdu] }

def discardLast (frnd : FriendQueue) : FriendQueue :=
  { frnd with last := none, discarded := frnd.discarded ++ frnd.last.toList }

def clear (frnd : FriendQueue) : FriendQueue :=
  { frnd.discardLast with
    established := false
    fsn := false
    pendingReq := false
    adv := none
    queue := [] }

def enqueueSubCfm (xact : BitVec 8) (frnd : FriendQueue) : FriendQueue :=
  { frnd.discardLast with last := some (.subCfm xact), sendLast := true }

def sub (xact : BitVec 8) (frnd : FriendQueue) : FriendQueue :=
  if frnd.established = false ∨ frnd.adv.isSome = true then
    frnd
  else
    { frnd with pendingReq := true }.enqueueSubCfm xact

/-- `bt_mesh_friend_poll` of an established friendship. -/
def poll (fsn : Bool) (frnd : FriendQueue) : FriendQueue :=
  if frnd.established = false ∨ frnd.adv.isSome = true then
    frnd
  else
    let requested := { frnd with pendingReq := true }
    if fsn = frnd.fsn ∧ frnd.last.isSome = true then
      { requested with sendLast := true }
    else
      let next := { requested.discardLast with fsn := fsn }
      if next.queue.isEmpty then next.enqueue true else next

def receive (request : LpnRequest) (frnd : FriendQueue) : FriendQueue :=
  match request with
  | .poll fsn => frnd.poll fsn
  | .sub _ xact => frnd.sub xact

/-- The MD field that `update_overwrite` writes into a Friend Update. -/
def nextPdu (pdu : QueuePdu) (rest : List QueuePdu) : FriendResponse :=
  .queued pdu (pdu.update && !rest.isEmpty)

/-- `friend_timeout`.  The assertion that no buffer is pending ends it. -/
def timeout (frnd : FriendQueue) : FriendQueue :=
  if frnd.established = false ∨ frnd.adv.isSome = true then
    frnd
  else if frnd.sendLast = true ∧ frnd.last.isSome = true then
    { frnd with sendLast := false, pendingReq := false, adv := frnd.last }
  else if frnd.pendingReq = false then
    frnd.clear
  else
    match frnd.queue with
    | [] => frnd.clear
    | pdu :: rest =>
      { frnd with
        queue := rest
        last := some (nextPdu pdu rest)
        discarded := frnd.discarded ++ frnd.last.toList
        pendingReq := false
        adv := some (nextPdu pdu rest) }

end FriendQueue

/-- A group of the Friend Subscription List, with its bits in `added`, `pending`
and `to_remove`. -/
structure LpnGroup where
  addr : Nat
  added : Bool
  pending : Bool
  toRemove : Bool
  deriving DecidableEq

inductive LpnReq where
  | poll
  | sub (op : SubOp)
  deriving DecidableEq

/-- The part of `struct bt_mesh_lpn` that the requests to the Friend read.
`received` lists the entries of the Friend Queue in the order of their first
reception. -/
structure LpnLink where
  state : LpnState
  fsn : Bool
  sentReq : Option LpnReq
  pendingPoll : Bool
  reqAttempts : Nat
  xactNext : BitVec 8
  xactPending : BitVec 8
  groupsChanged : Bool
  groups : List LpnGroup
  queueSize : Nat
  received : List QueuePdu

/-- `ARRAY_SIZE(req.addr_list)` -/
def subAddrMax : Nat := 5

/-- The loop of `sub_update`: the groups with their `pending` bits, and how many of
them the request names. -/
def subGroups (op : SubOp) (limit : Nat) : Nat → List LpnGroup → Nat × List LpnGroup
  | count, [] => (count, [])
  | count, group :: rest =>
    let skipped :=
      match op with
      | .add => group.added
      | .rem => !group.toRemove
    if group.addr = addrUnassigned ∨ skipped = true then
      let (total, groups) := subGroups op limit count rest
      (total, group :: groups)
    else if limit ≤ count then
      (count, group :: rest)
    else if count + 1 = subAddrMax then
      (count + 1, { group with pending := true } :: rest)
    else
      let (total, groups) := subGroups op limit (count + 1) rest
      (total, { group with pending := true } :: groups)

namespace LpnLink

def reqSent (lpn : LpnLink) : LpnLink :=
  { lpn with reqAttempts := lpn.reqAttempts + 1, state := .recvDelay }

def groupZero (lpn : LpnLink) : LpnLink :=
  { lpn with groups := lpn.groups.map fun group => { group with pending := false } }

def sendFriendPoll (lpn : LpnLink) : LpnLink × Option LpnRequest :=
  match lpn.sentReq with
  | some .poll => (lpn, none)
  | some (.sub _) => ({ lpn with pendingPoll := true }, none)
  | none =>
    ({ lpn with pendingPoll := false, sentReq := some .poll }.reqSent,
      some (.poll lpn.fsn))

def subUpdate (op : SubOp) (lpn : LpnLink) : LpnLink × Option LpnRequest :=
  if lpn.sentReq.isSome then
    (lpn, none)
  else
    let added := (lpn.groups.filter fun group => group.added).length
    match subGroups op (lpn.queueSize - added) 0 lpn.groups with
    | (0, _) => (lpn.groupZero, none)
    | (_, groups) =>
      ({ lpn with
          groups := groups
          xactNext := lpn.xactNext + 1
          xactPending := lpn.xactNext
          sentReq := some (.sub op) }.reqSent,
        some (.sub op lpn.xactNext))

def subChanges (lpn : LpnLink) : LpnLink × Option LpnRequest :=
  if lpn.groupsChanged then
    let (adding, addReq) := lpn.subUpdate .add
    let (removing, remReq) := adding.subUpdate .rem
    ({ removing with groupsChanged := removing.sentReq.isSome }, addReq <|> remReq)
  else
    (lpn, none)

def friendResponseReceived (lpn : LpnLink) : LpnLink :=
  { lpn with
    fsn := if lpn.sentReq = some .poll then !lpn.fsn else lpn.fsn
    state := .established
    reqAttempts := 0
    sentReq := none }

def msgReceived (lpn : LpnLink) : LpnLink × Option LpnRequest :=
  if lpn.state ≠ .waitUpdate then
    (lpn, none)
  else if lpn.sentReq ≠ some .poll then
    (lpn, none)
  else
    lpn.friendResponseReceived.sendFriendPoll

/-- The groups after a confirmation: `group_set` or `group_clear`, and the groups
that are gone. -/
def confirmGroups (op : SubOp) (groups : List LpnGroup) : List LpnGroup :=
  groups.map fun group =>
    match op with
    | .add => { group with added := group.added || group.pending, pending := false }
    | .rem =>
      if group.pending then
        { group with
          addr := if group.toRemove then addrUnassigned else group.addr
          added := false
          pending := false
          toRemove := false }
      else
        group

def friendSubCfm (xact : BitVec 8) (lpn : LpnLink) : LpnLink × Option LpnRequest :=
  if xact ≠ lpn.xactPending then
    (lpn, none)
  else
    match lpn.sentReq with
    | none => (lpn, none)
    | some .poll => (lpn, none)
    | some (.sub op) =>
      let confirmed :=
        { lpn with groups := confirmGroups op lpn.groups }.friendResponseReceived
      let (changed, subReq) := confirmed.subChanges
      if changed.pendingPoll then
        let (polled, pollReq) := changed.sendFriendPoll
        (polled, subReq <|> pollReq)
      else
        (changed, subReq)

/-- `bt_mesh_lpn_friend_update`; `oldKey` tells that the update is ignored because
it was secured with the old key in phase 2. -/
def friendUpdate (md oldKey : Bool) (lpn : LpnLink) : LpnLink × Option LpnRequest :=
  if lpn.sentReq ≠ some .poll then
    (lpn, none)
  else if oldKey then
    (lpn, none)
  else
    let (changed, subReq) := lpn.friendResponseReceived.subChanges
    if md then
      let (polled, pollReq) := changed.sendFriendPoll
      (polled, subReq <|> pollReq)
    else
      (changed, subReq)

/-- `bt_mesh_trans_recv` of a PDU from the Friend, up to the upper layers. -/
def receive (pdu : FriendResponse) (oldKey : Bool) (lpn : LpnLink) :
    LpnLink × Option LpnRequest :=
  if lpn.state ≠ .waitUpdate then
    (lpn, none)
  else
    let (handled, request) :=
      match pdu with
      | .queued entry md =>
        let noted :=
          if entry ∈ lpn.received then lpn
          else { lpn with received := lpn.received ++ [entry] }
        if entry.update then noted.friendUpdate md oldKey else (noted, none)
      | .subCfm xact => lpn.friendSubCfm xact
    let (notified, pollReq) := handled.msgReceived
    (notified, request <|> pollReq)

/-- `lpn_timeout` of an established friendship; `attempts` is `REQ_ATTEMPTS`. -/
def timeout (attempts : Nat) (lpn : LpnLink) : LpnLink × Option LpnRequest :=
  match lpn.state with
  | .established =>
    if lpn.reqAttempts < attempts then
      let retrying := { lpn with sentReq := none }
      match lpn.sentReq with
      | some (.sub op) => retrying.subUpdate op
      | _ => retrying.sendFriendPoll
    else
      ({ lpn with reqAttempts := 0, state := .clear }, none)
  | .recvDelay => ({ lpn with state := .waitUpdate }, none)
  | .waitUpdate => ({ lpn with state := .established }, none)
  | _ => (lpn, none)

def groupAdd (addr : Nat) (lpn : LpnLink) : LpnLink :=
  match lpn.groups.findIdx? fun group => group.addr = addr with
  | some place =>
    { lpn with
      groups := lpn.groups.modify place fun group => { group with toRemove := false } }
  | none =>
    match lpn.groups.findIdx? fun group => group.addr = addrUnassigned with
    | none => lpn
    | some place =>
      { lpn with
        groups := lpn.groups.modify place fun group => { group with addr := addr }
        groupsChanged := true }

def groupDel (addr : Nat) (lpn : LpnLink) : LpnLink :=
  let held := lpn.groups.any fun group =>
    decide (group.addr = addr) && (group.added || group.pending)
  { lpn with
    groups := lpn.groups.map fun group =>
      if group.addr = addr then
        if group.added || group.pending then
          { group with toRemove := true }
        else
          { group with addr := addrUnassigned }
      else
        group
    groupsChanged := held || lpn.groupsChanged }

def lpnGroupAdd (addr : Nat) (lpn : LpnLink) : LpnLink × Option LpnRequest :=
  let added := lpn.groupAdd addr
  if added.sentReq.isSome then (added, none) else added.subUpdate .add

def lpnGroupDel (addrs : List Nat) (lpn : LpnLink) : LpnLink × Option LpnRequest :=
  let removed := addrs.foldl
    (fun lpn addr => if addr = addrUnassigned then lpn else lpn.groupDel addr) lpn
  if removed.sentReq.isSome then (removed, none) else removed.subUpdate .rem

end LpnLink

structure Friendship where
  frnd : FriendQueue
  lpn : LpnLink

/-- The timers, the application of the Low Power node and the transmission of the
pending response.  `heard` tells whether a response, `asked` whether a request
reaches the other node.  `otherMsg` is a message of the loopback or the proxy
interface, which `bt_mesh_trans_recv` takes for a response as well. -/
inductive FriendshipInput where
  | enqueue (update : Bool)
  | friendTimeout
  | friendSent (heard asked oldKey : Bool)
  | lpnTimeout (asked : Bool)
  | lpnPoll (asked : Bool)
  | otherMsg (asked : Bool)
  | groupAdd (addr : Nat) (asked : Bool)
  | groupDel (addrs : List Nat) (asked : Bool)

def Friendship.request (frnd : FriendQueue) (asked : Bool)
    (sent : LpnLink × Option LpnRequest) : Friendship where
  frnd :=
    match sent.2 with
    | some request => if asked then frnd.receive request else frnd
    | none => frnd
  lpn := sent.1

def friendshipStep (attempts : Nat) (state : Friendship) :
    FriendshipInput → Friendship
  | .enqueue update =>
    if state.frnd.established then
      { state with frnd := state.frnd.enqueue update }
    else
      state
  | .friendTimeout => { state with frnd := state.frnd.timeout }
  | .friendSent heard asked oldKey =>
    match state.frnd.adv with
    | none => state
    | some pdu =>
      let sent := { state.frnd with adv := none }
      if heard then
        Friendship.request sent asked (state.lpn.receive pdu oldKey)
      else
        { state with frnd := sent }
  | .lpnTimeout asked =>
    Friendship.request state.frnd asked (state.lpn.timeout attempts)
  | .lpnPoll asked => Friendship.request state.frnd asked state.lpn.sendFriendPoll
  | .otherMsg asked => Friendship.request state.frnd asked state.lpn.msgReceived
  | .groupAdd addr asked =>
    Friendship.request state.frnd asked (state.lpn.lpnGroupAdd addr)
  | .groupDel addrs asked =>
    Friendship.request state.frnd asked (state.lpn.lpnGroupDel addrs)

def friendshipMachine (attempts : Nat) : Machine Friendship FriendshipInput Empty where
  step state input := (friendshipStep attempts state input, [])

end ZephyrBluetooth.Mesh
