import ZephyrBluetooth.Host.CccValue
import ZephyrBluetooth.Host.GattClient

namespace ZephyrBluetooth.Host

open List Bool

/-! Notifications to all subscribed peers: `bt_gatt_notify_cb` without a
connection goes through the entries of the next CCC descriptor behind the value,
`bt_gatt_is_subscribed` looks at the descriptor next to the value. -/

section One

variable {Data Carried : Type} [DecidableEq Data]

def matchUuid : GattAttrFunc Data (Option (GattAttr Data × Nat)) :=
  fun attr handle _ => (some (attr, handle), .stop)

variable (func : GattAttrFunc Data Carried) (carried : Carried)

def calledOn : Option (GattAttr Data × Nat) → Carried
  | none => carried
  | some (attr, handle) => (func attr handle carried).1

/-- The walk with `func` where the walk with `match_uuid` stands. -/
def GattWalk.calls (walk : GattWalk (Option (GattAttr Data × Nat))) :
    GattWalk Carried where
  numMatches := walk.numMatches
  userData := calledOn func carried walk.userData
  iter := walk.iter

def GattWalk.Pending (walk : GattWalk (Option (GattAttr Data × Nat))) : Prop :=
  walk.iter = .proceed → walk = ⟨1, none, .proceed⟩

variable (query : GattQuery Data)

theorem gattForeachIter_calls (attr : GattAttr Data) (handle : Nat) :
    gattForeachIter query func attr handle ⟨1, carried, .proceed⟩ =
      (gattForeachIter query matchUuid attr handle
        ⟨1, none, .proceed⟩).calls func carried := by
  unfold gattForeachIter
  split
  · rfl
  split
  · rfl
  split
  · rfl
  · rfl

omit [DecidableEq Data] in
theorem GattWalk.pending_start :
    (⟨1, none, .proceed⟩ : GattWalk (Option (GattAttr Data × Nat))).Pending :=
  fun _ => rfl

theorem gattForeachIter_pending (attr : GattAttr Data) (handle : Nat) :
    (gattForeachIter query matchUuid attr handle ⟨1, none, .proceed⟩).Pending := by
  intro proceeds
  unfold gattForeachIter at proceeds ⊢
  split at proceeds
  · cases proceeds
  rename_i within
  rw [if_neg within]
  split at proceeds
  · rename_i below
    rw [if_pos below]
  rename_i above
  rw [if_neg above]
  split at proceeds
  · cases proceeds
  · rename_i other
    rw [if_neg other]

theorem foreachAttrs_calls (attrs : List (GattAttr Data × Nat)) :
    foreachAttrs query func attrs ⟨1, carried, .proceed⟩ =
        (foreachAttrs query matchUuid attrs ⟨1, none, .proceed⟩).calls func carried ∧
      (foreachAttrs query matchUuid attrs ⟨1, none, .proceed⟩).Pending := by
  induction attrs with
  | nil => exact ⟨rfl, GattWalk.pending_start⟩
  | cons entry rest ih =>
    obtain ⟨attr, handle⟩ := entry
    have here := gattForeachIter_calls func carried query attr handle
    have pending := gattForeachIter_pending query attr handle
    unfold foreachAttrs
    rw [here]
    cases ended : (gattForeachIter query matchUuid attr handle
        ⟨1, none, .proceed⟩).iter with
    | stop =>
      simp only [GattWalk.calls, ended]
      refine ⟨trivial, ?_⟩
      intro proceeds
      rw [ended] at proceeds
      cases proceeds
    | proceed =>
      rw [pending ended]
      exact ih

theorem foreachStatic_calls (handle : Nat)
    (services : List (List (GattAttr Data))) :
    foreachStatic query func handle services ⟨1, carried, .proceed⟩ =
        (foreachStatic query matchUuid handle services
          ⟨1, none, .proceed⟩).calls func carried ∧
      (foreachStatic query matchUuid handle services
        ⟨1, none, .proceed⟩).Pending := by
  induction services generalizing handle with
  | nil => exact ⟨rfl, GattWalk.pending_start⟩
  | cons service rest ih =>
    obtain ⟨here, pending⟩ :=
      foreachAttrs_calls func carried query (numbered handle service)
    unfold foreachStatic
    split
    · exact ih _
    rw [here]
    cases ended : (foreachAttrs query matchUuid (numbered handle service)
        ⟨1, none, .proceed⟩).iter with
    | stop =>
      simp only [GattWalk.calls, ended]
      refine ⟨trivial, ?_⟩
      intro proceeds
      rw [ended] at proceeds
      cases proceeds
    | proceed =>
      rw [pending ended]
      exact ih _

theorem foreachAttrTypeDyndb_calls (services : List (GattService Data)) :
    foreachAttrTypeDyndb query func services ⟨1, carried, .proceed⟩ =
        (foreachAttrTypeDyndb query matchUuid services
          ⟨1, none, .proceed⟩).calls func carried := by
  induction services with
  | nil => rfl
  | cons service rest ih =>
    obtain ⟨here, pending⟩ :=
      foreachAttrs_calls func carried query (ownHandles service.attrs)
    unfold foreachAttrTypeDyndb
    split
    · exact ih
    rw [here]
    cases ended : (foreachAttrs query matchUuid (ownHandles service.attrs)
        ⟨1, none, .proceed⟩).iter with
    | stop => simp only [GattWalk.calls, ended]
    | proceed =>
      rw [pending ended]
      exact ih

theorem btGattForeachAttrType_one (database : GattDb Data) :
    btGattForeachAttrType database query 1 func carried = calledOn func carried
        (btGattForeachAttrType database query 1 matchUuid none) := by
  obtain ⟨static, pending⟩ :=
    foreachStatic_calls func carried query 1 database.static.services
  have dynamic := foreachAttrTypeDyndb_calls func carried query database.listed
  unfold btGattForeachAttrType
  simp only [if_neg one_ne_zero]
  by_cases inStatic : query.startHandle ≤ database.static.lastHandle
  · simp only [if_pos inStatic]
    rw [static]
    cases ended : (foreachStatic query matchUuid 1 database.static.services
        ⟨1, none, .proceed⟩).iter with
    | stop => simp only [GattWalk.calls, ended]
    | proceed =>
      rw [pending ended]
      simp only [GattWalk.calls, calledOn]
      rw [dynamic]
      rfl
  · simp only [if_neg inStatic]
    rw [dynamic]
    rfl

end One

/-- `BT_GATT_PERM_READ_ENCRYPT` and `BT_GATT_PERM_READ_AUTHEN`. -/
structure NotifyPerm where
  readEncrypt : Bool
  readAuthen : Bool

/-- `bt_gatt_check_perm` with these two permissions returns zero. -/
def NotifyPerm.permits (perm : NotifyPerm) (security : LinkSecurity) : Bool :=
  !(perm.readAuthen && decide (security.level < 3)) &&
    !(perm.readEncrypt && !security.encrypt)

structure GattChrc where
  valueHandle : BitVec 16
  properties : BitVec 8

namespace GattChrc

variable (chrc : GattChrc)

def notifies : Bool :=
  decide (chrc.properties &&& 0x10#8 ≠ 0)

def subscribes : Bool :=
  decide (chrc.properties &&& 0x30#8 ≠ 0)

end GattChrc

/-- A connection with its state, its client features, its security and the MTU
of its largest bearer. -/
structure NotifyPeer where
  conn : GattConn
  connected : Bool
  aware : Bool
  multi : Bool
  security : LinkSecurity
  mtu : Nat

/-- `accepts` is what `cfg_match` says of a connection, true where the descriptor
has none. -/
structure NotifyCcc where
  cfgs : List CccCfg
  accepts : NotifyPeer → Bool

/-- The tables give an attribute's permissions and whether it is written by
`bt_gatt_attr_write_ccc`, by its handle, and what `user_data` points to.  The
peers are the LE connections in use, each at its own index. -/
structure NotifyServer where
  database : GattDb Nat
  perm : Nat → NotifyPerm
  managed : Nat → Bool
  chrc : Nat → GattChrc
  ccc : Nat → NotifyCcc
  peers : List NotifyPeer
  distinct : (peers.map fun peer => peer.conn.index).Nodup

/-- An attribute with its handle, or a UUID to look for; `len` is the length of
the value. -/
structure NotifyParams where
  attr : Option (GattAttr Nat × Nat)
  uuid : Option BtUuid
  given : attr.isSome = true ∨ uuid.isSome = true
  len : Nat

/-- What `notify_cb` is called with: the handle of `params->attr`, the handle of
the value and its length. -/
structure NotifyData where
  attrHandle : Nat
  handle : Nat
  len : Nat

inductive NotifyEvent where
  | ref (index : Nat)
  | unref (index : Nat)
  | single (index handle : Nat)
  | multiple (index handle : Nat)
  deriving DecidableEq

inductive NotifyError where
  | eagain
  | eperm
  | enomem
  | enoent
  | einval
  | enotconn

inductive NotifyStep where
  | skipped
  | sent
  | failed (error : NotifyError)

namespace NotifyServer

variable (server : NotifyServer)

def lookupAddrLe (id : BitVec 8) (peer : BtAddrLe) : Option NotifyPeer :=
  server.peers.find? fun candidate => candidate.conn.isPeerAddrLe id peer

/-- `gatt_notify_mult` finds room for the value in a buffer. -/
def takesMultiple (data : NotifyData) (peer : NotifyPeer) : Bool :=
  peer.multi && decide (1 + 4 + data.len ≤ peer.mtu)

def gattNotify (data : NotifyData) (peer : NotifyPeer) :
    List NotifyEvent × NotifyStep :=
  if !peer.aware then ([], .failed .eagain)
  else if !(server.perm data.attrHandle).permits peer.security then
    ([], .failed .eperm)
  else
    let multiple :=
      if takesMultiple data peer then
        [.multiple peer.conn.index data.handle]
      else []
    if 1 + 2 + data.len ≤ peer.mtu then
      (multiple ++ [.single peer.conn.index data.handle], .sent)
    else (multiple, .failed .enomem)

/-- One round of the loop of `notify_cb`, over the descriptor at `cccHandle`. -/
def notifyCfg (data : NotifyData) (ccc : NotifyCcc) (cccHandle : Nat)
    (cfg : CccCfg) : List NotifyEvent × NotifyStep :=
  if cfg.value ≠ 1 then ([], .skipped)
  else
    match server.lookupAddrLe cfg.id cfg.peer with
    | none => ([], .skipped)
    | some peer =>
      if !peer.connected || !ccc.accepts peer then
        ([.ref peer.conn.index, .unref peer.conn.index], .skipped)
      else if !(server.perm cccHandle).permits peer.security then
        -- the reference stays
        ([.ref peer.conn.index], .skipped)
      else
        (.ref peer.conn.index :: (server.gattNotify data peer).1 ++
            [.unref peer.conn.index],
          (server.gattNotify data peer).2)

/-- The loop; `err` is `data->err`, none for success. -/
def notifyCfgs (data : NotifyData) (ccc : NotifyCcc) (cccHandle : Nat) :
    List CccCfg → Option NotifyError →
      List NotifyEvent × Option NotifyError × GattIter
  | [], err => ([], err, .proceed)
  | cfg :: rest, err =>
    match server.notifyCfg data ccc cccHandle cfg with
    | (events, .skipped) =>
      let later := notifyCfgs data ccc cccHandle rest err
      (events ++ later.1, later.2)
    | (events, .sent) =>
      let later := notifyCfgs data ccc cccHandle rest none
      (events ++ later.1, later.2)
    | (events, .failed _) => (events, err, .stop)

def notifyCb (data : NotifyData) :
    GattAttrFunc Nat (List NotifyEvent × Option NotifyError) :=
  fun attr handle carried =>
    if server.managed handle then
      let ccc := server.ccc attr.userData
      let outcome :=
        server.notifyCfgs data ccc handle ccc.cfgs carried.2
      ((carried.1 ++ outcome.1, outcome.2.1), outcome.2.2)
    else (carried, .proceed)

/-- `bt_gatt_attr_value_handle` of an attribute that has a handle, and the handle
itself for other attributes than characteristic declarations. -/
def valueHandle (attr : GattAttr Nat) (handle : Nat) : Nat :=
  if attr.uuid.same .gattChrc then
    if (server.chrc attr.userData).valueHandle = 0 then (handle + 1) % 2 ^ 16
    else (server.chrc attr.userData).valueHandle.toNat
  else handle

/-- The attribute of a request with its handle; `gatt_find_by_uuid` starts at the
attribute that is given along with the UUID. -/
def notified (params : NotifyParams) : Option (GattAttr Nat × Nat) :=
  match params.uuid with
  | some uuid =>
    btGattForeachAttrType server.database
      ⟨(params.attr.map Prod.snd).getD 0, 2 ^ 16 - 1, some uuid, none⟩ 1
      matchUuid none
  | none => params.attr.filter fun found => decide (found.2 ≠ 0)

def btGattNotifyCb (params : NotifyParams) :
    List NotifyEvent × Option NotifyError :=
  match server.notified params with
  | none => ([], some .enoent)
  | some (attr, handle) =>
    if attr.uuid.same .gattChrc && !(server.chrc attr.userData).notifies then
      ([], some .einval)
    else
      btGattForeachAttrType server.database
        ⟨server.valueHandle attr handle, 2 ^ 16 - 1, some .gattCcc, none⟩ 1
        (server.notifyCb ⟨handle, server.valueHandle attr handle, params.len⟩)
        ([], some .enotconn)

/-- `bt_gatt_attr_next`, with the handle of the attribute. -/
def attrNext (handle : Nat) : Option (GattAttr Nat × Nat) :=
  (findAttr server.database ((handle + 1) % 2 ^ 16)).map fun attr =>
    (attr, (handle + 1) % 2 ^ 16)

/-- The descriptor `bt_gatt_is_subscribed` looks at. -/
def subscription (attr : GattAttr Nat) (handle : Nat) :
    Option (GattAttr Nat × Nat) :=
  let value :=
    if attr.uuid.same .gattChrc then
      if (server.chrc attr.userData).subscribes then server.attrNext handle
      else none
    else some (attr, handle)
  let ccc := value.bind fun found =>
    if found.1.uuid.same .gattCcc then some found
    else server.attrNext found.2
  ccc.filter fun found => found.1.uuid.same .gattCcc

/-- `bt_gatt_is_subscribed` with `BT_GATT_CCC_NOTIFY`. -/
def isSubscribed (peer : NotifyPeer) (attr : GattAttr Nat) (handle : Nat) :
    Bool :=
  peer.connected && (server.subscription attr handle).any fun found =>
      (server.ccc found.1.userData).cfgs.any fun cfg =>
        peer.conn.isPeer cfg && decide (1#16 &&& cfg.value ≠ 0)

/-- The link meets the permissions of the attribute the request is about, of the
value and of the descriptor. -/
def isSecure (peer : NotifyPeer) (attr : GattAttr Nat) (handle : Nat) : Bool :=
  (server.perm handle).permits peer.security &&
    (findAttr server.database (server.valueHandle attr handle)).all (fun _ =>
      (server.perm (server.valueHandle attr handle)).permits peer.security) &&
    (server.subscription attr handle).all fun found =>
      (server.perm found.2).permits peer.security

def owed (params : NotifyParams) (peer : NotifyPeer) : Option Nat :=
  match server.notified params with
  | none => none
  | some (attr, handle) =>
    if server.isSubscribed peer attr handle && server.isSecure peer attr handle then
      some (server.valueHandle attr handle)
    else none

def emissions (events : List NotifyEvent) (index handle : Nat) : Nat :=
  events.count (.single index handle) + events.count (.multiple index handle)

structure Delivers (params : NotifyParams) : Prop where
  once : ∀ peer ∈ server.peers, ∀ handle,
    emissions (server.btGattNotifyCb params).1 peer.conn.index handle =
      if server.owed params peer = some handle then 1 else 0
  balanced : ∀ index, (server.btGattNotifyCb params).1.count (.ref index) =
      (server.btGattNotifyCb params).1.count (.unref index)

/-- The descriptor of a request, as `notify_cb` is called on it. -/
structure Round where
  data : NotifyData
  ccc : NotifyCcc
  cccHandle : Nat

def round (params : NotifyParams) : Option Round :=
  match server.notified params with
  | none => none
  | some (attr, handle) =>
    if attr.uuid.same .gattChrc && !(server.chrc attr.userData).notifies then none
    else
      match btGattForeachAttrType server.database
          ⟨server.valueHandle attr handle, 2 ^ 16 - 1, some .gattCcc, none⟩ 1
          matchUuid none with
      | none => none
      | some (found, cccHandle) =>
        if server.managed cccHandle then
          some ⟨⟨handle, server.valueHandle attr handle, params.len⟩,
            server.ccc found.userData, cccHandle⟩
        else none

def target (round : Round) (cfg : CccCfg) : Option NotifyPeer :=
  if cfg.value = 1 then
    (server.lookupAddrLe cfg.id cfg.peer).filter fun peer =>
      peer.connected && round.ccc.accepts peer
  else none

def admits (round : Round) (peer : NotifyPeer) : Bool :=
  (server.perm round.cccHandle).permits peer.security

def sends (round : Round) (peer : NotifyPeer) : Bool :=
  peer.aware && (server.perm round.data.attrHandle).permits peer.security &&
    decide (1 + 2 + round.data.len ≤ peer.mtu)

def reachedAmong (round : Round) (cfgs : List CccCfg) : List NotifyPeer :=
  (cfgs.filterMap (server.target round)).takeWhile fun peer =>
    !server.admits round peer || server.sends round peer

def reached (round : Round) : List NotifyPeer :=
  server.reachedAmong round round.ccc.cfgs

/-- No reference is kept, no peer gets a multiple notification as well, and the
reached peers are those that the notification is due to, each once. -/
structure Serves (params : NotifyParams) (round : Round) : Prop where
  admitted : ∀ peer ∈ server.reached round, server.admits round peer = true
  alone : ∀ peer ∈ server.reached round, takesMultiple round.data peer = false
  single : ((server.reached round).map fun peer => peer.conn.index).Nodup
  due : ∀ peer ∈ server.reached round, (server.owed params peer).isSome = true
  complete : ∀ peer ∈ server.peers,
    (server.owed params peer).isSome = true → peer ∈ server.reached round

def Ready (params : NotifyParams) : Prop :=
  match server.round params with
  | none => ∀ peer ∈ server.peers, server.owed params peer = none
  | some round => server.Serves params round

variable {server}

theorem btGattNotifyCb_events (params : NotifyParams) :
    (server.btGattNotifyCb params).1 = match server.round params with
      | none => []
      | some round =>
        (server.notifyCfgs round.data round.ccc round.cccHandle
          round.ccc.cfgs (some .enotconn)).1 := by
  unfold btGattNotifyCb round
  cases server.notified params with
  | none => rfl
  | some found =>
    obtain ⟨attr, handle⟩ := found
    simp only
    split
    · rfl
    rw [btGattForeachAttrType_one]
    cases btGattForeachAttrType server.database
        ⟨server.valueHandle attr handle, 2 ^ 16 - 1, some .gattCcc, none⟩ 1
        matchUuid none with
    | none => rfl
    | some descriptor =>
      obtain ⟨_, _⟩ := descriptor
      simp only [calledOn, notifyCb]
      split
      · simp
      · rfl

theorem emissions_append (front back : List NotifyEvent) (index handle : Nat) :
    emissions (front ++ back) index handle =
      emissions front index handle + emissions back index handle := by
  unfold emissions
  rw [count_append, count_append]
  omega

structure Quiet (events : List NotifyEvent) : Prop where
  silent : ∀ index handle, emissions events index handle = 0
  balanced : ∀ index, events.count (.ref index) = events.count (.unref index)

theorem quiet_nil : Quiet [] :=
  ⟨fun _ _ => rfl, fun _ => rfl⟩

theorem quiet_pair (index : Nat) : Quiet [.ref index, .unref index] := by
  constructor
  · intro other handle
    simp [emissions]
  · intro other
    by_cases same : index = other
    · simp [same]
    · simp [same]

variable {round : Round} {peer : NotifyPeer} {cfg : CccCfg}

theorem mem_of_target
    (found : server.target round cfg = some peer) : peer ∈ server.peers := by
  unfold target at found
  split at found
  · obtain ⟨looked, -⟩ := Option.filter_eq_some_iff.mp found
    exact mem_of_find?_eq_some looked
  · cases found

theorem gattNotify_sent (sends : server.sends round peer = true) :
    server.gattNotify round.data peer = ((if takesMultiple round.data peer then
          [.multiple peer.conn.index round.data.handle]
        else []) ++ [.single peer.conn.index round.data.handle], .sent) := by
  unfold NotifyServer.sends at sends
  simp only [and_eq_true, decide_eq_true_eq] at sends
  obtain ⟨⟨aware, permitted⟩, fits⟩ := sends
  unfold gattNotify
  simp only [aware, permitted, if_pos fits, Bool.not_true, false_eq_true, if_false]

theorem gattNotify_failed (fails : server.sends round peer = false) :
    ∃ error, server.gattNotify round.data peer = ([], .failed error) := by
  unfold NotifyServer.sends at fails
  unfold gattNotify
  cases aware : peer.aware with
  | false => exact ⟨.eagain, rfl⟩
  | true =>
    cases permitted : (server.perm round.data.attrHandle).permits peer.security with
    | false => exact ⟨.eperm, rfl⟩
    | true =>
      rw [aware, permitted] at fails
      have past : ¬ 1 + 2 + round.data.len ≤ peer.mtu := by
        simpa using fails
      have small : takesMultiple round.data peer = false := by
        simp only [takesMultiple, and_eq_false_iff, decide_eq_false_iff_not]
        right
        omega
      refine ⟨.enomem, ?_⟩
      simp only [small, if_neg past, Bool.not_true, false_eq_true, if_false]

variable (server) in
theorem notifyCfg_cases (round : Round) (cfg : CccCfg) :
    (server.target round cfg = none ∧ ∃ events, Quiet events ∧
      server.notifyCfg round.data round.ccc round.cccHandle cfg =
        (events, .skipped)) ∨
    ∃ peer, server.target round cfg = some peer ∧
      ((server.admits round peer = false ∧
          server.notifyCfg round.data round.ccc round.cccHandle cfg =
            ([.ref peer.conn.index], .skipped)) ∨
        (server.admits round peer = true ∧ server.sends round peer = true ∧
          server.notifyCfg round.data round.ccc round.cccHandle cfg =
            (.ref peer.conn.index :: ((if takesMultiple round.data peer then
                  [.multiple peer.conn.index round.data.handle]
                else []) ++ [.single peer.conn.index round.data.handle]) ++
                [.unref peer.conn.index], .sent)) ∨
        (server.admits round peer = true ∧ server.sends round peer = false ∧ ∃ error,
            server.notifyCfg round.data round.ccc round.cccHandle cfg =
              ([.ref peer.conn.index, .unref peer.conn.index], .failed error))) := by
  unfold notifyCfg target
  by_cases exactly : cfg.value = 1
  · rw [if_neg (not_not_intro exactly), if_pos exactly]
    cases looked : server.lookupAddrLe cfg.id cfg.peer with
    | none => exact .inl ⟨rfl, [], quiet_nil, rfl⟩
    | some peer =>
      simp only [Option.filter_some]
      cases passed : peer.connected && round.ccc.accepts peer with
      | false =>
        have dropped : (!peer.connected || !round.ccc.accepts peer) =
            true := by
          rw [← Bool.not_and, passed]
          rfl
        rw [if_pos dropped]
        exact .inl ⟨rfl, _, quiet_pair peer.conn.index, rfl⟩
      | true =>
        have kept : (!peer.connected || !round.ccc.accepts peer) =
            false := by
          rw [← Bool.not_and, passed]
          rfl
        rw [kept]
        refine .inr ⟨peer, rfl, ?_⟩
        cases admitted : server.admits round peer with
        | false =>
          unfold admits at admitted
          rw [admitted]
          exact .inl ⟨rfl, rfl⟩
        | true =>
          unfold admits at admitted
          rw [admitted]
          right
          cases sends : server.sends round peer with
          | true =>
            rw [gattNotify_sent sends]
            exact .inl ⟨rfl, rfl, rfl⟩
          | false =>
            obtain ⟨error, failed⟩ := gattNotify_failed sends
            rw [failed]
            exact .inr ⟨rfl, rfl, error, rfl⟩
  · rw [if_pos exactly, if_neg exactly]
    exact .inl ⟨rfl, [], quiet_nil, rfl⟩

theorem reachedAmong_none
    (other : server.target round cfg = none) (rest : List CccCfg) :
    server.reachedAmong round (cfg :: rest) = server.reachedAmong round rest := by
  unfold reachedAmong
  rw [filterMap_cons_none other]

theorem reachedAmong_some
    (found : server.target round cfg = some peer) (rest : List CccCfg) :
    server.reachedAmong round (cfg :: rest) =
      if !server.admits round peer || server.sends round peer then
        peer :: server.reachedAmong round rest
      else [] := by
  unfold reachedAmong
  rw [filterMap_cons_some found, takeWhile_cons]

theorem reached_known
    (reached : peer ∈ server.reached round) : peer ∈ server.peers := by
  have targeted := (takeWhile_sublist _).subset reached
  obtain ⟨_, -, found⟩ := mem_filterMap.mp targeted
  exact mem_of_target found

theorem same_of_index {peer other : NotifyPeer} (known : peer ∈ server.peers)
    (listed : other ∈ server.peers)
    (same : other.conn.index = peer.conn.index) : other = peer :=
  inj_on_of_nodup_map server.distinct listed known same

/-- The notifications that one call of `gatt_notify` sends. -/
def packets (round : Round) (peer : NotifyPeer) : Nat :=
  if takesMultiple round.data peer then 2 else 1

theorem notifyCfgs_emissions (known : peer ∈ server.peers)
    (cfgs : List CccCfg) (err : Option NotifyError) (handle : Nat) :
    emissions (server.notifyCfgs round.data round.ccc round.cccHandle cfgs
        err).1 peer.conn.index handle =
      if handle = round.data.handle then
        packets round peer * (server.reachedAmong round cfgs).countP fun other =>
          decide (other.conn.index = peer.conn.index) && server.admits round other
      else 0 := by
  induction cfgs generalizing err with
  | nil => simp [notifyCfgs, reachedAmong, emissions]
  | cons cfg rest ih =>
    unfold notifyCfgs
    rcases notifyCfg_cases server round cfg with ⟨none, _, quiet, went⟩ |
        ⟨other, found, ⟨refused, went⟩ | ⟨admitted, sends, went⟩ |
          ⟨admitted, fails, error, went⟩⟩
    · simp only [went]
      rw [emissions_append, quiet.silent, zero_add, ih, reachedAmong_none none]
    · simp only [went]
      rw [emissions_append, ih, reachedAmong_some found, refused]
      simp [emissions, refused]
    · simp only [went]
      rw [emissions_append, ih, reachedAmong_some found, sends]
      simp only [Bool.or_true, if_true]
      by_cases same : other.conn.index = peer.conn.index
      · have alike := same_of_index known (mem_of_target found) same
        subst alike
        rw [countP_cons_of_pos (by simp [admitted])]
        by_cases own : handle = round.data.handle
        · subst own
          rw [if_pos rfl, if_pos rfl, mul_add_one, add_comm]
          unfold packets
          split
          · simp [emissions]
          · simp [emissions]
        · have differs : ¬ round.data.handle = handle :=
            fun equal => own equal.symm
          rw [if_neg own, if_neg own]
          split
          · simp [emissions, differs]
          · simp [emissions, differs]
      · rw [countP_cons_of_neg (by simp [same])]
        split
        · simp [emissions, same]
        · simp [emissions, same]
    · simp only [went]
      rw [reachedAmong_some found, admitted, fails]
      simp [emissions]

theorem notifyCfgs_refs (cfgs : List CccCfg) (err : Option NotifyError)
    (index : Nat) :
    (server.notifyCfgs round.data round.ccc round.cccHandle cfgs err).1.count
        (.ref index) =
      (server.notifyCfgs round.data round.ccc round.cccHandle cfgs err).1.count
          (.unref index) + (server.reachedAmong round cfgs).countP fun other =>
          decide (other.conn.index = index) && !server.admits round other := by
  induction cfgs generalizing err with
  | nil => rfl
  | cons cfg rest ih =>
    unfold notifyCfgs
    rcases notifyCfg_cases server round cfg with ⟨none, _, quiet, went⟩ |
        ⟨other, found, ⟨refused, went⟩ | ⟨admitted, sends, went⟩ |
          ⟨admitted, fails, error, went⟩⟩
    · simp only [went]
      rw [count_append, count_append, quiet.balanced, ih,
        reachedAmong_none none, add_assoc]
    · simp only [went]
      rw [count_append, count_append, ih, reachedAmong_some found, refused]
      by_cases same : other.conn.index = index
      · simp [same, refused]
        omega
      · simp [same]
    · simp only [went]
      rw [count_append, count_append, ih, reachedAmong_some found, sends]
      by_cases same : other.conn.index = index
      · split
        · simp [same, admitted]
          omega
        · simp [same, admitted]
          omega
      · split
        · simp [same]
        · simp [same]
    · simp only [went]
      rw [reachedAmong_some found, admitted, fails]
      by_cases same : other.conn.index = index
      · simp [same]
      · simp [same]

variable {params : NotifyParams}

theorem owed_handle {handle : Nat} (runs : server.round params = some round)
    (owed : server.owed params peer = some handle) :
    handle = round.data.handle := by
  unfold NotifyServer.owed at owed
  unfold NotifyServer.round at runs
  cases found : server.notified params with
  | none =>
    rw [found] at owed
    cases owed
  | some entry =>
    obtain ⟨_, _⟩ := entry
    rw [found] at owed runs
    simp only at owed runs
    split at owed
    · split at runs
      · cases runs
      split at runs
      · cases runs
      split at runs
      · cases runs
        cases owed
        rfl
      · cases runs
    · cases owed

theorem owed_iff (runs : server.round params = some round) :
    server.owed params peer = some round.data.handle ↔
      (server.owed params peer).isSome = true := by
  constructor
  · intro due
    rw [due]
    rfl
  · intro due
    obtain ⟨_, due⟩ := Option.isSome_iff_exists.mp due
    rw [due, owed_handle runs due]

theorem packets_pos (round : Round) (peer : NotifyPeer) :
    0 < packets round peer := by
  unfold packets
  split
  · decide
  · decide

theorem delivers_idle (none : server.round params = none) :
    server.Delivers params ↔
      ∀ peer ∈ server.peers, server.owed params peer = Option.none := by
  have silent : (server.btGattNotifyCb params).1 = [] := by
    rw [btGattNotifyCb_events, none]
  constructor
  · intro delivers peer known
    cases due : server.owed params peer with
    | none => rfl
    | some handle =>
      have once := delivers.once peer known handle
      rw [silent, due, if_pos rfl] at once
      cases once
  · intro idle
    constructor
    · intro peer known handle
      rw [silent, idle peer known]
      rfl
    · intro index
      rw [silent]
      rfl

def visits (server : NotifyServer) (round : Round) (index : Nat) : Nat :=
  ((server.reached round).map fun peer => peer.conn.index).count index

theorem visits_eq (index : Nat) :
    server.visits round index = (server.reached round).countP fun other =>
      decide (other.conn.index = index) := by
  unfold visits
  rw [count, countP_map]
  congr 1

theorem visits_pos (known : peer ∈ server.peers) :
    0 < server.visits round peer.conn.index ↔ peer ∈ server.reached round := by
  unfold visits
  rw [count_pos_iff, mem_map]
  constructor
  · rintro ⟨_, reached, same⟩
    have alike := same_of_index known (reached_known reached) same
    exact alike ▸ reached
  · intro reached
    exact ⟨peer, reached, rfl⟩

theorem balanced_iff (runs : server.round params = some round) :
    (∀ index, (server.btGattNotifyCb params).1.count (.ref index) =
      (server.btGattNotifyCb params).1.count (.unref index)) ↔
      ∀ peer ∈ server.reached round, server.admits round peer = true := by
  rw [btGattNotifyCb_events, runs]
  constructor
  · intro balanced peer reached
    have same := balanced peer.conn.index
    rw [notifyCfgs_refs] at same
    have none := add_eq_left.mp same
    rw [countP_eq_zero] at none
    simpa using none peer reached
  · intro admitted index
    rw [notifyCfgs_refs, add_eq_left, countP_eq_zero]
    intro peer reached
    simp [admitted peer reached]

section

variable (runs : server.round params = some round)
  (admitted : ∀ peer ∈ server.reached round, server.admits round peer = true)
  {peer : NotifyPeer} (known : peer ∈ server.peers)
include runs admitted known

theorem emissions_visits (handle : Nat) :
    emissions (server.btGattNotifyCb params).1 peer.conn.index handle =
      if handle = round.data.handle then
        packets round peer * server.visits round peer.conn.index
      else 0 := by
  rw [btGattNotifyCb_events, runs]
  rw [notifyCfgs_emissions known, visits_eq]
  congr 2
  apply countP_congr
  intro other reached
  rw [admitted other reached, Bool.and_true]

theorem once_iff :
    (∀ handle, emissions (server.btGattNotifyCb params).1 peer.conn.index handle =
        if server.owed params peer = some handle then 1 else 0) ↔
      packets round peer * server.visits round peer.conn.index =
        if (server.owed params peer).isSome then 1 else 0 := by
  constructor
  · intro once
    have own := once round.data.handle
    rw [emissions_visits runs admitted known, if_pos rfl] at own
    rw [own]
    exact if_congr (owed_iff runs) rfl rfl
  · intro once handle
    rw [emissions_visits runs admitted known]
    by_cases own : handle = round.data.handle
    · subst own
      rw [if_pos rfl, once]
      exact if_congr (owed_iff runs).symm rfl rfl
    · rw [if_neg own, if_neg (fun due => own (owed_handle runs due))]

end

/-- A notification reaches the subscribed peers once and leaves the references
as they were just where the request serves them. -/
theorem gatt_notify_delivers_iff (server : NotifyServer) (params : NotifyParams) :
    server.Delivers params ↔ server.Ready params := by
  unfold Ready
  cases runs : server.round params with
  | none => exact delivers_idle runs
  | some round =>
    constructor
    · intro delivers
      have admitted := (balanced_iff runs).mp delivers.balanced
      have counted : ∀ peer ∈ server.peers,
          packets round peer * server.visits round peer.conn.index =
            if (server.owed params peer).isSome then 1 else 0 :=
        fun peer known => (once_iff runs admitted known).mp
          (delivers.once peer known)
      have exact : ∀ peer ∈ server.reached round,
          packets round peer * server.visits round peer.conn.index = 1 ∧
            (server.owed params peer).isSome = true := by
        intro peer reached
        have known := reached_known reached
        have here := counted peer known
        have positive := Nat.mul_pos (packets_pos round peer)
          ((visits_pos known).mpr reached)
        split at here
        · rename_i due
          exact ⟨here, due⟩
        · omega
      refine ⟨admitted, ?_, ?_, fun peer reached => (exact peer reached).2, ?_⟩
      · intro peer reached
        have lone := Nat.eq_one_of_mul_eq_one_right (exact peer reached).1
        unfold packets at lone
        split at lone
        · cases lone
        · rename_i alone
          exact eq_false_of_ne_true alone
      · rw [nodup_iff_count_le_one]
        intro index
        by_cases visited : index ∈
            (server.reached round).map fun peer => peer.conn.index
        · obtain ⟨peer, reached, rfl⟩ := mem_map.mp visited
          exact Nat.le_of_eq (Nat.eq_one_of_mul_eq_one_left (exact peer reached).1)
        · rw [count_eq_zero_of_not_mem visited]
          exact Nat.zero_le 1
      · intro peer known due
        have here := counted peer known
        rw [due, if_pos rfl] at here
        rw [← visits_pos known, Nat.eq_one_of_mul_eq_one_left here]
        exact one_pos
    · intro serves
      refine ⟨?_, (balanced_iff runs).mpr serves.admitted⟩
      intro peer known
      rw [once_iff runs serves.admitted known]
      by_cases reached : peer ∈ server.reached round
      · have once : server.visits round peer.conn.index ≤ 1 :=
          nodup_iff_count_le_one.mp serves.single _
        have some := (visits_pos known).mpr reached
        rw [serves.due peer reached, if_pos rfl, le_antisymm once some]
        unfold packets
        rw [serves.alone peer reached]
        rfl
      · have never : server.visits round peer.conn.index = 0 :=
          Nat.eq_zero_of_not_pos fun visited =>
            reached ((visits_pos known).mp visited)
        have idle : (server.owed params peer).isSome ≠ true :=
          fun due => reached (serves.complete peer known due)
        rw [never, if_neg idle]
        rfl

def notifyMultiServer : NotifyServer where
  database :=
    ⟨⟨[[⟨.uuid16 0x2800#16, 0, 0, zero_handle_lt⟩,
        ⟨.gattChrc, 1, 0, zero_handle_lt⟩,
        ⟨.uuid16 0x2A19#16, 2, 0, zero_handle_lt⟩,
        ⟨.gattCcc, 3, 0, zero_handle_lt⟩]], by decide⟩,
      fun _ => .blank, []⟩
  perm _ := ⟨false, false⟩
  managed handle := handle = 4
  chrc _ := ⟨3, 0x10⟩
  ccc _ := ⟨[⟨0, ⟨0, 9⟩, 1⟩], fun _ => true⟩
  peers := [⟨⟨0, 0, ⟨0, 9⟩, ⟨0, 9⟩, BtAddrLe.nine_real, BtAddrLe.nine_real⟩,
    true, true, true, ⟨1, false⟩, 23⟩]
  distinct := nodup_singleton _

def notifyMultiParams : NotifyParams where
  attr := some (⟨.gattChrc, 1, 0, zero_handle_lt⟩, 2)
  uuid := none
  given := .inl rfl
  len := 1

theorem gatt_notify_twice : ¬ notifyMultiServer.Delivers notifyMultiParams := by
  intro delivers
  have once := delivers.once _ (mem_singleton.mpr rfl) 3
  revert once
  decide

end NotifyServer

end ZephyrBluetooth.Host
