import ZephyrBluetooth.Data.Machine
import ZephyrBluetooth.Data.Slist
import ZephyrBluetooth.Host.Ccc

namespace ZephyrBluetooth.Host

open Data List Function

variable {object : Nat} {conn : GattConn}

/-! The subscriptions of the GATT client: each slot of `subscriptions[]` belongs
to a peer and has a linked list of the parameters its subscriptions were made
with. -/

/-- What the application gives with a subscription; `cccHandle` is zero while it
is not known. -/
structure SubscribeParams where
  valueHandle : BitVec 16
  cccHandle : BitVec 16
  value : BitVec 16
  isVolatile : Bool

structure GattSub where
  id : BitVec 8
  peer : BtAddrLe
  list : Slist Nat

/-- `SUB_MAX` slots, `count` parameter objects with the addresses below it, and
whether descriptors are discovered (`CONFIG_BT_GATT_AUTO_DISCOVER_CCC`). -/
structure SubConfig where
  max : Nat
  count : Nat
  autoDiscover : Bool

/-- `hung` is set when the end of a list is not found. -/
structure Subscriptions where
  subs : Nat → GattSub
  links : Links Nat
  params : Nat → SubscribeParams
  hung : Bool

/-- `sent` tells whether a request was queued. -/
inductive SubInput where
  | prepare (object : Nat) (fields : SubscribeParams)
  | subscribe (conn : GattConn) (object : Nat) (sent : Bool)
  | discovered (conn : GattConn) (object : Nat) (handle : Option (BitVec 16))
      (sent : Bool)
  | resubscribe (id : BitVec 8) (peer : BtAddrLe) (real : peer ≠ .any) (object : Nat)
  | unsubscribe (conn : GattConn) (object : Nat)
  | writeRsp (conn : GattConn) (object : Nat) (err : Bool)
  | disconnect (conn : GattConn) (bonded : Bool)
  | clear (id : BitVec 8) (addr : BtAddrLe)

namespace Subscriptions

def init : Subscriptions where
  subs _ := ⟨0, .any, ⟨none, none⟩⟩
  links _ := none
  params _ := ⟨0, 0, 0, false⟩
  hung := false

variable (config : SubConfig) (state : Subscriptions)

def findSlot (test : GattSub → Bool) : Option Nat :=
  (List.range config.max).find? fun slot => test (state.subs slot)

def gattSubFind (conn : GattConn) : Option Nat :=
  state.findSlot config fun sub => conn.isPeerAddrLe sub.id sub.peer

/-- `gatt_sub_find` without a connection. -/
def gattSubFindFree : Option Nat :=
  state.findSlot config fun sub => decide (sub.peer = .any)

def gattSubFindByAddr (id : BitVec 8) (addr : BtAddrLe) : Option Nat :=
  state.findSlot config fun sub =>
    decide (id = sub.id) && decide (sub.peer = addr)

def setSub (slot : Nat) (sub : GattSub) : Subscriptions :=
  { state with subs := update state.subs slot sub }

def visit (slot : Nat) : Option (List Nat) :=
  walk state.links config.count (state.subs slot).list.head

def freeIfEmpty (slot : Nat) : Subscriptions :=
  if (state.subs slot).list.head = none then
    state.setSub slot { state.subs slot with peer := .any }
  else state

/-- `sys_slist_remove` on the list of a slot. -/
def unlink (slot : Nat) (prev : Option Nat) (object : Nat) : Subscriptions :=
  let removed := (state.subs slot).list.remove state.links prev object
  { state.setSub slot { state.subs slot with list := removed.2 } with
    links := removed.1 }

def gattSubRemove (slot : Nat) (prev : Option Nat) (object : Nat) :
    Subscriptions :=
  (state.unlink slot prev object).freeIfEmpty slot

/-- `sys_slist_prepend` on the list of a slot. -/
def prepend (slot : Nat) (object : Nat) : Subscriptions :=
  let added := (state.subs slot).list.prepend state.links object
  { state.setSub slot { state.subs slot with list := added.2 } with
    links := added.1 }

/-- The slot of a peer, or a free one that becomes its slot: `gatt_sub_add` and
`gatt_sub_add_by_addr`. -/
def gattSubAdd (found : Option Nat) (id : BitVec 8) (peer : BtAddrLe) :
    Option (Nat × Subscriptions) :=
  match found with
  | some slot => some (slot, state)
  | none =>
    match state.gattSubFindFree config with
    | none => none
    | some slot => some (slot, state.setSub slot { state.subs slot with id, peer })

def hang : Subscriptions :=
  { state with hung := true }

def hasSubscription (nodes : List Nat) (object : Nat) : Bool :=
  nodes.any fun other =>
    decide ((state.params other).valueHandle = (state.params object).valueHandle) &&
      decide ((state.params object).value ≤ (state.params other).value)

def btGattSubscribe (conn : GattConn) (object : Nat) (sent : Bool) :
    Subscriptions :=
  match state.gattSubAdd config (state.gattSubFind config conn) conn.id conn.dst with
  | none => state
  | some (slot, state) =>
    match state.visit config slot with
    | none => state.hang
    | some nodes =>
      if object ∈ nodes then state.freeIfEmpty slot
      else if state.hasSubscription nodes object then
        state.prepend slot object
      else if config.autoDiscover &&
          decide ((state.params object).cccHandle = 0) then state
      else if sent then state.prepend slot object
      else state.freeIfEmpty slot

def gattCccDiscoverCb (conn : GattConn) (object : Nat)
    (handle : Option (BitVec 16)) (sent : Bool) : Subscriptions :=
  match handle with
  | none => state
  | some handle =>
    btGattSubscribe config
      { state with
        params := update state.params object
          { state.params object with cccHandle := handle } }
      conn object sent

def btGattResubscribe (id : BitVec 8) (peer : BtAddrLe) (object : Nat) :
    Subscriptions :=
  match state.gattSubAdd config (state.gattSubFindByAddr config id peer) id peer with
  | none => state
  | some (slot, state) =>
    match state.visit config slot with
    | none => state.hang
    | some nodes =>
      if object ∈ nodes then state.freeIfEmpty slot
      else state.prepend slot object

def setValue (object : Nat) (value : BitVec 16) : Subscriptions :=
  { state with
    params := update state.params object
      { state.params object with value } }

def btGattUnsubscribe (conn : GattConn) (object : Nat) : Subscriptions :=
  match state.gattSubFind config conn with
  | none => state
  | some slot =>
    match state.visit config slot with
    | none => state.hang
    | some nodes =>
      if object ∉ nodes then state
      else
        let prev := (nodes.takeWhile (· ≠ object)).getLast?
        let next := (state.unlink slot prev object).freeIfEmpty slot
        if nodes.any (fun other => decide (other ≠ object) &&
            decide ((state.params other).valueHandle =
              (state.params object).valueHandle)) then next
        else next.setValue object 0

/-- `gatt_write_ccc_rsp`: after an error the node behind the parameters is given
as their predecessor. -/
def gattWriteCccRsp (conn : GattConn) (object : Nat) (err : Bool) :
    Subscriptions :=
  if !err then state
  else
    match state.gattSubFind config conn with
    | none => state
    | some slot =>
      match state.visit config slot with
      | none => state.hang
      | some nodes =>
        if object ∈ nodes then
          state.gattSubRemove slot (state.links object) object
        else state

def gattSubUpdate (conn : GattConn) (slot : Nat) : Subscriptions :=
  if (state.subs slot).peer.type = 0 then state
  else state.setSub slot { state.subs slot with peer := conn.dst }

/-- The loop of `remove_subscriptions`; `keeps` tells the parameters that
stay. -/
def removeLoop (conn : GattConn) (keeps : SubscribeParams → Bool)
    (slot : Nat) : List Nat → Option Nat → Subscriptions → Subscriptions
  | [], _, state => state
  | object :: rest, prev, state =>
    if keeps (state.params object) then
      removeLoop conn keeps slot rest (some object) (state.gattSubUpdate conn slot)
    else
      removeLoop conn keeps slot rest prev
        ((state.setValue object 0).gattSubRemove slot prev object)

def removeSubscriptions (conn : GattConn) (bonded : Bool) : Subscriptions :=
  match state.gattSubFind config conn with
  | none => state
  | some slot =>
    match state.visit config slot with
    | none => state.hang
    | some nodes =>
      removeLoop conn (fun fields => bonded && !fields.isVolatile) slot
        nodes none state

/-- The loop of `bt_gatt_clear_subscriptions`. -/
def clearLoop (slot : Nat) : List Nat → Subscriptions → Subscriptions
  | [], state => state
  | object :: rest, state =>
    clearLoop slot rest ((state.setValue object 0).gattSubRemove slot none object)

def btGattClearSubscriptions (id : BitVec 8) (addr : BtAddrLe) :
    Subscriptions :=
  match state.gattSubFindByAddr config id addr with
  | none => state
  | some slot =>
    match state.visit config slot with
    | none => state.hang
    | some nodes => clearLoop slot nodes state

def step : SubInput → Subscriptions
  | .prepare object fields =>
    if state.hung then state
    else { state with params := update state.params object fields }
  | .subscribe conn object sent =>
    if state.hung ∨ config.count ≤ object then state
    else state.btGattSubscribe config conn object sent
  | .discovered conn object handle sent =>
    if state.hung ∨ config.count ≤ object then state
    else state.gattCccDiscoverCb config conn object handle sent
  | .resubscribe id peer _ object =>
    if state.hung ∨ config.count ≤ object then state
    else state.btGattResubscribe config id peer object
  | .unsubscribe conn object =>
    if state.hung then state else state.btGattUnsubscribe config conn object
  | .writeRsp conn object err =>
    if state.hung then state
    else state.gattWriteCccRsp config conn object err
  | .disconnect conn bonded =>
    if state.hung then state else state.removeSubscriptions config conn bonded
  | .clear id addr =>
    if state.hung then state
    else state.btGattClearSubscriptions config id addr

def nodes (slot : Nat) : List Nat :=
  (state.visit config slot).getD []

end Subscriptions

def subMachine (config : SubConfig) : Machine Subscriptions SubInput Unit :=
  ⟨fun state input => (state.step config input, [])⟩

namespace Subscriptions

structure Lists (config : SubConfig) (state : Subscriptions)
    (lists : Nat → List Nat) : Prop where
  running : state.hung = false
  represents : ∀ slot < config.max,
    (state.subs slot).list.Represents state.links (lists slot)
  apart : ∀ slot < config.max, ∀ other < config.max, slot ≠ other →
    ∀ object ∈ lists slot, object ∉ lists other
  bounded : ∀ slot < config.max, ∀ object ∈ lists slot, object < config.count

/-- The lists are well formed, and those of the free slots are the empty
ones. -/
structure Rep (config : SubConfig) (state : Subscriptions)
    (lists : Nat → List Nat) : Prop extends Lists config state lists where
  free : ∀ slot < config.max, lists slot = [] ↔ (state.subs slot).peer = .any

structure Claimed (config : SubConfig) (state : Subscriptions)
    (lists : Nat → List Nat) (slot : Nat) : Prop
    extends Lists config state lists where
  inside : slot < config.max
  owned : (state.subs slot).peer ≠ .any
  others : ∀ other < config.max, other ≠ slot →
    (lists other = [] ↔ (state.subs other).peer = .any)

def WellFormed (config : SubConfig) (state : Subscriptions) : Prop :=
  ∃ lists, Rep config state lists

variable {config : SubConfig} {state : Subscriptions}
  {lists : Nat → List Nat}

theorem findSlot_some {test : GattSub → Bool} {slot : Nat}
    (found : state.findSlot config test = some slot) :
    slot < config.max ∧ test (state.subs slot) = true := by
  exact ⟨mem_range.mp (mem_of_find?_eq_some found), by simpa using find?_some found⟩

namespace Lists

section

variable (holds : Lists config state lists)
include holds

theorem length_le {slot : Nat} (inside : slot < config.max) :
    (lists slot).length ≤ config.count := by
  have sub : lists slot ⊆ range config.count := by
    intro object member
    exact mem_range.mpr (holds.bounded slot inside object member)
  have shorter := ((holds.represents slot inside).nodup.subperm sub).length_le
  rwa [length_range] at shorter

theorem visit {slot : Nat} (inside : slot < config.max) :
    state.visit config slot = some (lists slot) :=
  (holds.represents slot inside).chain.walk (holds.length_le inside)

theorem nodes {slot : Nat} (inside : slot < config.max) :
    state.nodes config slot = lists slot := by
  unfold Subscriptions.nodes
  rw [holds.visit inside]
  rfl

theorem head_none {slot : Nat} (inside : slot < config.max) :
    (state.subs slot).list.head = none ↔ lists slot = [] := by
  rw [(holds.represents slot inside).head_eq, head?_eq_none_iff]

theorem setOwner (slot : Nat) {sub : GattSub}
    (same : sub.list = (state.subs slot).list) :
    Lists config (state.setSub slot sub) lists where
  running := holds.running
  represents := by
    intro other inside
    have kept := holds.represents other inside
    by_cases here : other = slot
    · subst here
      simp only [setSub, update_self, same]
      exact kept
    · simp only [setSub, update_of_ne here]
      exact kept
  apart := holds.apart
  bounded := holds.bounded

theorem change {slot : Nat} {links : Links Nat} {list : Slist Nat}
    {nodes : List Nat} (represents : list.Represents links nodes)
    (kept : ∀ other < config.max, other ≠ slot →
      ∀ object ∈ lists other, links object = state.links object)
    (fresh : ∀ object ∈ nodes, object < config.count ∧
      ∀ other < config.max, other ≠ slot → object ∉ lists other) :
    Lists config
      { state.setSub slot { state.subs slot with list } with links }
      (update lists slot nodes) where
  running := holds.running
  represents := by
    intro other inside
    by_cases here : other = slot
    · subst here
      simp only [setSub, update_self]
      exact represents
    · simp only [setSub, update_of_ne here]
      exact (holds.represents other inside).frame (kept other inside here)
  apart := by
    intro left inLeft right inRight differs object member
    by_cases here : left = slot
    · subst here
      rw [update_self] at member
      rw [update_of_ne (Ne.symm differs)]
      exact (fresh object member).2 right inRight (Ne.symm differs)
    · rw [update_of_ne here] at member
      by_cases there : right = slot
      · subst there
        rw [update_self]
        intro also
        exact (fresh object also).2 left inLeft differs member
      · rw [update_of_ne there]
        exact holds.apart left inLeft right inRight differs object member
  bounded := by
    intro other inside object member
    by_cases here : other = slot
    · subst here
      rw [update_self] at member
      exact (fresh object member).1
    · rw [update_of_ne here] at member
      exact holds.bounded other inside object member

theorem unlink {slot : Nat} (inside : slot < config.max) {front back : List Nat}
    (split : lists slot = front ++ object :: back) :
    Lists config (state.unlink slot front.getLast? object)
      (update lists slot (front ++ back)) := by
  have represents := holds.represents slot inside
  rw [split] at represents
  have listed : ∀ member, member ∈ front ∨ member = object ∨ member ∈ back →
      member ∈ lists slot := by
    intro member
    rw [split, mem_append, mem_cons]
    exact id
  refine holds.change represents.remove ?_ ?_
  · intro other far differs member inOther
    have foreign : member ∉ lists slot :=
      holds.apart other far slot inside differs member inOther
    apply Slist.remove_links
    · rintro rfl
      exact foreign (listed member (.inr (.inl rfl)))
    · intro before
      exact foreign (listed member (.inl (mem_of_getLast? before)))
  · intro member here
    have mine : member ∈ lists slot := by
      apply listed
      rcases mem_append.mp here with first | last
      · exact .inl first
      · exact .inr (.inr last)
    refine ⟨holds.bounded slot inside member mine, ?_⟩
    intro other far differs
    exact holds.apart slot inside other far (Ne.symm differs) member mine

theorem prepend {slot : Nat} (inside : slot < config.max)
    (known : object < config.count)
    (nowhere : ∀ other < config.max, object ∉ lists other) :
    Lists config (state.prepend slot object)
      (update lists slot (object :: lists slot)) := by
  have represents := holds.represents slot inside
  refine holds.change (represents.prepend (nowhere slot inside)) ?_ ?_
  · intro other far differs member inOther
    exact Slist.prepend_links (ne_of_mem_of_not_mem inOther (nowhere other far))
  · intro member here
    rcases mem_cons.mp here with rfl | mine
    · exact ⟨known, fun other far _ => nowhere other far⟩
    refine ⟨holds.bounded slot inside member mine, ?_⟩
    intro other far differs
    exact holds.apart slot inside other far (Ne.symm differs) member mine

end

end Lists

theorem setSub_subs_self (slot : Nat) (sub : GattSub) :
    (state.setSub slot sub).subs slot = sub :=
  update_self _ _ _

theorem setSub_subs_of_ne {slot other : Nat} (differs : other ≠ slot)
    (sub : GattSub) : (state.setSub slot sub).subs other = state.subs other :=
  update_of_ne differs _ _

namespace Claimed

variable {slot : Nat}

section

variable (claimed : Claimed config state lists slot)
include claimed

theorem whole (listed : lists slot ≠ []) : Rep config state lists where
  toLists := claimed.toLists
  free := by
    intro other inside
    by_cases here : other = slot
    · subst here
      exact ⟨fun empty => absurd empty listed,
        fun nobody => absurd nobody claimed.owned⟩
    · exact claimed.others other inside here

theorem freeIfEmpty : Rep config (state.freeIfEmpty slot) lists := by
  unfold Subscriptions.freeIfEmpty
  split
  · rename_i none
    have empty := (claimed.toLists.head_none claimed.inside).mp none
    refine ⟨claimed.toLists.setOwner slot rfl, ?_⟩
    intro other inside
    by_cases here : other = slot
    · subst here
      rw [setSub_subs_self, empty]
      simp
    · rw [setSub_subs_of_ne here]
      exact claimed.others other inside here
  · rename_i some
    apply claimed.whole
    exact fun empty => some ((claimed.toLists.head_none claimed.inside).mpr empty)

theorem prepend (known : object < config.count)
    (nowhere : ∀ other < config.max, object ∉ lists other) :
    Rep config (state.prepend slot object)
      (update lists slot (object :: lists slot)) where
  toLists := claimed.toLists.prepend claimed.inside known nowhere
  free := by
    intro other inside
    by_cases here : other = slot
    · subst here
      rw [update_self]
      have owner : ((state.prepend other object).subs other).peer =
          (state.subs other).peer := by
        simp [Subscriptions.prepend, setSub]
      rw [owner]
      exact ⟨fun empty => absurd empty (cons_ne_nil _ _),
        fun nobody => absurd nobody claimed.owned⟩
    · have owner : (state.prepend slot object).subs other = state.subs other := by
        simp [Subscriptions.prepend, setSub, update_of_ne here]
      rw [update_of_ne here, owner]
      exact claimed.others other inside here

end

end Claimed

namespace Rep

section

variable (rep : Rep config state lists)
include rep

theorem owner {slot : Nat} (inside : slot < config.max)
    (owned : (state.subs slot).peer ≠ .any) : Claimed config state lists slot :=
  ⟨rep.toLists, inside, owned, fun other far _ => rep.free other far⟩

theorem gattSubAdd {test : GattSub → Bool}
    (nobody : ∀ sub, test sub = true → sub.peer ≠ .any) {id : BitVec 8}
    {peer : BtAddrLe} (real : peer ≠ .any) {slot : Nat} {next : Subscriptions}
    (added : state.gattSubAdd config (state.findSlot config test) id peer =
      some (slot, next)) :
    Claimed config next lists slot ∧ next.params = state.params ∧
      (state.findSlot config test = some slot ∧ next = state ∨
        state.findSlot config test = none ∧ lists slot = []) := by
  unfold Subscriptions.gattSubAdd at added
  cases found : state.findSlot config test with
  | some =>
    rw [found] at added
    cases added
    obtain ⟨inside, tested⟩ := findSlot_some found
    exact ⟨rep.owner inside (nobody _ tested), rfl, .inl ⟨rfl, rfl⟩⟩
  | none =>
    rw [found] at added
    cases unused : state.gattSubFindFree config with
    | none =>
      rw [unused] at added
      cases added
    | some =>
      rw [unused] at added
      cases added
      obtain ⟨inside, tested⟩ := findSlot_some unused
      have empty : lists slot = [] :=
        (rep.free slot inside).mpr (by simpa using tested)
      refine ⟨⟨rep.toLists.setOwner slot rfl, inside, ?_, ?_⟩, rfl,
        .inr ⟨rfl, empty⟩⟩
      · rw [setSub_subs_self]
        exact real
      · intro other far differs
        rw [setSub_subs_of_ne differs]
        exact rep.free other far

theorem gattSubRemove {slot : Nat} (inside : slot < config.max)
    {front back : List Nat} {object : Nat}
    (split : lists slot = front ++ object :: back) :
    Rep config (state.gattSubRemove slot front.getLast? object)
      (update lists slot (front ++ back)) := by
  apply Claimed.freeIfEmpty
  refine ⟨rep.toLists.unlink inside split, inside, ?_, ?_⟩
  · have owner : ((state.unlink slot front.getLast? object).subs slot).peer =
        (state.subs slot).peer := by
      simp [Subscriptions.unlink, setSub]
    rw [owner]
    intro nobody
    have empty := (rep.free slot inside).mpr nobody
    rw [split] at empty
    simp at empty
  · intro other far differs
    have owner : (state.unlink slot front.getLast? object).subs other =
        state.subs other := by
      simp [Subscriptions.unlink, setSub, update_of_ne differs]
    rw [update_of_ne differs, owner]
    exact rep.free other far

theorem withParams (params : Nat → SubscribeParams) :
    Rep config { state with params } lists :=
  ⟨⟨rep.running, rep.represents, rep.apart, rep.bounded⟩, rep.free⟩

theorem gattSubUpdate (conn : GattConn) {slot : Nat} (inside : slot < config.max)
    (listed : lists slot ≠ []) :
    Rep config (state.gattSubUpdate conn slot) lists := by
  unfold Subscriptions.gattSubUpdate
  split
  · exact rep
  apply Claimed.whole _ listed
  refine ⟨rep.toLists.setOwner slot rfl, inside, ?_, ?_⟩
  · rw [setSub_subs_self]
    exact conn.dst_real
  · intro other far differs
    rw [setSub_subs_of_ne differs]
    exact rep.free other far

theorem removeLoop (conn : GattConn) {keeps : SubscribeParams → Bool}
    (steady : ∀ fields value, keeps { fields with value } = keeps fields)
    {slot : Nat} (inside : slot < config.max) {front rest : List Nat}
    (split : lists slot = front ++ rest) :
    Rep config
      (removeLoop conn keeps slot rest front.getLast? state)
      (update lists slot
        (front ++ rest.filter fun object => keeps (state.params object))) := by
  induction rest generalizing state lists front with
  | nil =>
    have same : update lists slot (front ++ []) = lists := by
      rw [← split]
      exact update_eq_self _ _
    simpa only [Subscriptions.removeLoop, filter_nil, same] using rep
  | cons object rest ih =>
    unfold Subscriptions.removeLoop
    split
    · rename_i stays
      have listed : lists slot ≠ [] := by
        rw [split]
        simp
      have updated := rep.gattSubUpdate conn inside listed
      have params : (state.gattSubUpdate conn slot).params =
          state.params := by
        unfold Subscriptions.gattSubUpdate
        split <;> rfl
      have next := @ih _ lists updated (front ++ [object])
        (by rw [split]; simp)
      rw [params] at next
      rw [filter_cons, if_pos stays]
      simpa using next
    · rename_i leaves
      have removed := (rep.withParams (update state.params object
        { state.params object with value := 0 })).gattSubRemove inside split
      have next := @ih _ _ removed front (update_self _ _ _)
      have params : ∀ other, keeps ((((state.setValue object 0).gattSubRemove slot
            front.getLast? object)).params other) = keeps (state.params other) := by
        intro other
        have kept : ((state.setValue object 0).gattSubRemove slot
            front.getLast? object).params = (state.setValue object 0).params := by
          simp only [Subscriptions.gattSubRemove, Subscriptions.freeIfEmpty]
          split <;> rfl
        rw [kept]
        by_cases here : other = object
        · subst here
          simp only [setValue, update_self]
          exact steady _ _
        · simp only [setValue, update_of_ne here]
      rw [filter_cons, if_neg leaves]
      rw [update_idem] at next
      simp only [setValue] at params next ⊢
      simpa only [params] using next

theorem clearLoop {slot : Nat} (inside : slot < config.max) {rest : List Nat}
    (split : lists slot = rest) :
    Rep config (clearLoop slot rest state) (update lists slot []) := by
  induction rest generalizing state lists with
  | nil =>
    have same : update lists slot [] = lists := by
      rw [← split]
      exact update_eq_self _ _
    rw [same]
    exact rep
  | cons object rest ih =>
    have removed := @gattSubRemove _ _ _ (rep.withParams (update state.params object
        { state.params object with value := 0 })) slot inside [] rest object
      split
    have next := ih removed (update_self _ _ _)
    rw [update_idem] at next
    exact next

end

end Rep

/-- The effect of a call on the lists: parameters are put on one list, are taken
from the list of their peer, or leave it together with it. -/
def Effect (config : SubConfig) (state : Subscriptions)
    (before after : Nat → List Nat) : SubInput → Prop
  | .prepare _ _ => ∀ slot < config.max, after slot = before slot
  | .subscribe _ object _ | .discovered _ object _ _
  | .resubscribe _ _ _ object =>
    ∀ slot < config.max,
      after slot = before slot ∨ after slot = object :: before slot
  | .unsubscribe conn object =>
    ∀ slot < config.max, after slot =
      if state.gattSubFind config conn = some slot then
        (before slot).erase object
      else before slot
  | .writeRsp conn object err =>
    ∀ slot < config.max, after slot =
      if err = true ∧ state.gattSubFind config conn = some slot then
        (before slot).erase object
      else before slot
  | .disconnect conn bonded =>
    ∀ slot < config.max, after slot =
      if state.gattSubFind config conn = some slot then
        (before slot).filter fun object =>
          bonded && !(state.params object).isVolatile
      else before slot
  | .clear id addr =>
    ∀ slot < config.max, after slot =
      if state.gattSubFindByAddr config id addr = some slot then []
      else before slot

def OnlyOn (config : SubConfig) (state : Subscriptions)
    (found : Option Nat) (object : Nat) : Prop :=
  ∀ slot < config.max, found ≠ some slot → object ∉ state.nodes config slot

/-- Parameters are subscribed only while no other list has them, a descriptor is
discovered only for a peer that has a slot, and a write is refused only to
parameters that are alone on their list. -/
def Careful (config : SubConfig) (state : Subscriptions) : SubInput → Prop
  | .subscribe conn object _ =>
    state.OnlyOn config (state.gattSubFind config conn) object ∧
      (config.autoDiscover = true → (state.params object).cccHandle = 0 →
        state.gattSubFind config conn ≠ none)
  | .discovered conn object handle _ =>
    ∀ found, handle = some found →
      state.OnlyOn config (state.gattSubFind config conn) object ∧
        (config.autoDiscover = true → found = 0 →
          state.gattSubFind config conn ≠ none)
  | .resubscribe id peer _ object =>
    state.OnlyOn config (state.gattSubFindByAddr config id peer) object
  | .writeRsp conn object err =>
    err = true → ∀ slot, state.gattSubFind config conn = some slot →
      object ∈ state.nodes config slot → state.nodes config slot = [object]
  | _ => True

namespace Rep

theorem nobody_any (sub : GattSub) (own : conn.isPeerAddrLe sub.id sub.peer = true) :
    sub.peer ≠ .any :=
  GattConn.isPeerAddrLe_ne_any own

theorem update_slot (result : Nat → List Nat) {slot other : Nat} {value : List Nat}
    (same : value = result slot) :
    update lists slot value other =
      if some slot = some other then result other else lists other := by
  by_cases here : other = slot
  · rw [here, update_self, if_pos rfl, same]
  · rw [update_of_ne here, if_neg fun same => here (Option.some.inj same).symm]

theorem erase_absent {object slot : Nat} (absent : object ∉ lists slot) (other : Nat) :
    lists other =
      if some slot = some other then (lists other).erase object else lists other := by
  split
  · rename_i same
    cases same
    exact (erase_of_not_mem absent).symm
  · rfl

theorem update_cons (object slot other : Nat) :
    update lists slot (object :: lists slot) other = lists other ∨
      update lists slot (object :: lists slot) other = object :: lists other := by
  by_cases here : other = slot
  · rw [here, update_self]
    exact .inr rfl
  · rw [update_of_ne here]
    exact .inl rfl

section

variable (rep : Rep config state lists)
include rep

theorem nowhere {found : Option Nat} {slot : Nat}
    (only : state.OnlyOn config found object)
    (place : found = some slot ∨ found = none) (absent : object ∉ lists slot) :
    ∀ other < config.max, object ∉ lists other := by
  intro other inside
  by_cases here : found = some other
  · rcases place with same | none
    · rw [same] at here
      cases here
      exact absent
    · rw [none] at here
      cases here
  · rw [← rep.toLists.nodes inside]
    exact only other inside here

theorem btGattSubscribe (sent : Bool) (known : object < config.count)
    (only : state.OnlyOn config (state.gattSubFind config conn) object)
    (slotted : config.autoDiscover = true → (state.params object).cccHandle = 0 →
      state.gattSubFind config conn ≠ none) :
    ∃ after, Rep config (state.btGattSubscribe config conn object sent) after ∧
      ∀ slot < config.max,
        after slot = lists slot ∨ after slot = object :: lists slot := by
  have unchanged : ∀ slot < config.max,
      lists slot = lists slot ∨ lists slot = object :: lists slot :=
    fun _ _ => .inl rfl
  unfold Subscriptions.btGattSubscribe
  cases added : state.gattSubAdd config (state.gattSubFind config conn) conn.id
      conn.dst with
  | none => exact ⟨lists, rep, unchanged⟩
  | some result =>
    obtain ⟨slot, next⟩ := result
    obtain ⟨claimed, params, origin⟩ :=
      rep.gattSubAdd nobody_any conn.dst_real added
    have put : object ∉ lists slot →
        ∃ after, Rep config (next.prepend slot object) after ∧ ∀ slot < config.max,
            after slot = lists slot ∨ after slot = object :: lists slot := by
      intro absent
      have place : state.gattSubFind config conn = some slot ∨
          state.gattSubFind config conn = none := by
        rcases origin with ⟨found, -⟩ | ⟨found, -⟩
        · exact .inl found
        · exact .inr found
      exact ⟨_, claimed.prepend known (rep.nowhere only place absent),
        fun other _ => update_cons object slot other⟩
    simp only [claimed.toLists.visit claimed.inside]
    split
    · exact ⟨lists, claimed.freeIfEmpty, unchanged⟩
    rename_i absent
    split
    · exact put absent
    split
    · rename_i discovers
      simp only [Bool.and_eq_true, decide_eq_true_eq] at discovers
      rw [params] at discovers
      have present := slotted discovers.1 discovers.2
      rcases origin with ⟨-, rfl⟩ | ⟨found, -⟩
      · exact ⟨lists, rep, unchanged⟩
      · exact absurd found present
    · split
      · exact put absent
      · exact ⟨lists, claimed.freeIfEmpty, unchanged⟩

theorem btGattResubscribe {id : BitVec 8} {peer : BtAddrLe} (real : peer ≠ .any)
    (known : object < config.count)
    (only : state.OnlyOn config (state.gattSubFindByAddr config id peer) object) :
    ∃ after, Rep config (state.btGattResubscribe config id peer object) after ∧
      ∀ slot < config.max,
        after slot = lists slot ∨ after slot = object :: lists slot := by
  unfold Subscriptions.btGattResubscribe
  cases added : state.gattSubAdd config
      (state.gattSubFindByAddr config id peer) id peer with
  | none => exact ⟨lists, rep, fun _ _ => .inl rfl⟩
  | some result =>
    obtain ⟨slot, _⟩ := result
    have nobody : ∀ sub : GattSub,
        (decide (id = sub.id) && decide (sub.peer = peer)) = true →
          sub.peer ≠ .any := by
      intro sub own
      simp only [Bool.and_eq_true, decide_eq_true_eq] at own
      rw [own.2]
      exact real
    obtain ⟨claimed, -, origin⟩ := rep.gattSubAdd nobody real added
    simp only [claimed.toLists.visit claimed.inside]
    split
    · exact ⟨lists, claimed.freeIfEmpty, fun _ _ => .inl rfl⟩
    rename_i absent
    have place : state.gattSubFindByAddr config id peer = some slot ∨
        state.gattSubFindByAddr config id peer = none := by
      rcases origin with ⟨found, -⟩ | ⟨found, -⟩
      · exact .inl found
      · exact .inr found
    exact ⟨_, claimed.prepend known (rep.nowhere only place absent),
      fun other _ => update_cons object slot other⟩

theorem btGattUnsubscribe (conn : GattConn) (object : Nat) :
    ∃ after, Rep config (state.btGattUnsubscribe config conn object) after ∧
      ∀ slot < config.max, after slot =
        if state.gattSubFind config conn = some slot then
          (lists slot).erase object
        else lists slot := by
  unfold Subscriptions.btGattUnsubscribe
  cases found : state.gattSubFind config conn with
  | none => exact ⟨lists, rep, by simp⟩
  | some slot =>
    obtain ⟨inside, -⟩ := findSlot_some found
    simp only [rep.toLists.visit inside]
    split
    · rename_i absent
      exact ⟨lists, rep, fun other _ => erase_absent absent other⟩
    · rename_i listed
      have member : object ∈ lists slot := not_not.mp listed
      obtain ⟨front, back, split⟩ := append_of_mem member
      have nodup := (rep.represents slot inside).nodup
      rw [split, nodup_append] at nodup
      have first : object ∉ front := fun inFront =>
        nodup.2.2 object inFront object mem_cons_self rfl
      have before : (lists slot).takeWhile (· ≠ object) = front := by
        rw [split, takeWhile_append_of_pos]
        · simp
        · intro other inFront
          simpa using ne_of_mem_of_not_mem inFront first
      have removed := rep.gattSubRemove inside split
      have erased : (lists slot).erase object = front ++ back := by
        rw [split, erase_append_right _ first, erase_cons_head]
      refine ⟨update lists slot (front ++ back), ?_, fun other _ =>
        update_slot (fun slot => (lists slot).erase object) erased.symm⟩
      rw [before]
      split
      · exact removed
      · exact removed.withParams _

theorem gattWriteCccRsp {err : Bool}
    (alone : err = true → ∀ slot, state.gattSubFind config conn = some slot →
      object ∈ state.nodes config slot → state.nodes config slot = [object]) :
    ∃ after, Rep config (state.gattWriteCccRsp config conn object err) after ∧
      ∀ slot < config.max, after slot =
        if err = true ∧ state.gattSubFind config conn = some slot then
          (lists slot).erase object
        else lists slot := by
  unfold Subscriptions.gattWriteCccRsp
  cases err with
  | false => exact ⟨lists, rep, by simp⟩
  | true =>
    simp only [Bool.not_true, Bool.false_eq_true, if_false, true_and]
    cases found : state.gattSubFind config conn with
    | none => exact ⟨lists, rep, by simp⟩
    | some slot =>
      obtain ⟨inside, -⟩ := findSlot_some found
      simp only [rep.toLists.visit inside]
      split
      · rename_i member
        rw [← rep.toLists.nodes inside] at member
        have single := alone rfl slot found member
        rw [rep.toLists.nodes inside] at single
        have chain := (rep.represents slot inside).chain
        rw [single] at chain
        have ends : state.links object = none := chain.2
        refine ⟨update lists slot [], ?_, fun other _ =>
          update_slot (fun slot => (lists slot).erase object) ?_⟩
        · rw [ends]
          exact @gattSubRemove _ _ _ rep slot inside [] [] object single
        · rw [single, erase_cons_head]
      · rename_i absent
        exact ⟨lists, rep, fun other _ => erase_absent absent other⟩

theorem removeSubscriptions (conn : GattConn) (bonded : Bool) :
    ∃ after, Rep config (state.removeSubscriptions config conn bonded) after ∧
      ∀ slot < config.max, after slot =
        if state.gattSubFind config conn = some slot then
          (lists slot).filter fun object =>
            bonded && !(state.params object).isVolatile
        else lists slot := by
  unfold Subscriptions.removeSubscriptions
  cases found : state.gattSubFind config conn with
  | none => exact ⟨lists, rep, by simp⟩
  | some slot =>
    obtain ⟨inside, -⟩ := findSlot_some found
    simp only [rep.toLists.visit inside]
    have removed := @removeLoop _ _ _ rep conn
      (fun fields => bonded && !fields.isVolatile) (fun _ _ => rfl) slot
      inside [] (lists slot) rfl
    exact ⟨_, removed, fun other _ => update_slot (fun slot => (lists slot).filter _) rfl⟩

theorem btGattClearSubscriptions (id : BitVec 8) (addr : BtAddrLe) :
    ∃ after, Rep config (state.btGattClearSubscriptions config id addr) after ∧
      ∀ slot < config.max, after slot =
        if state.gattSubFindByAddr config id addr = some slot then []
        else lists slot := by
  unfold Subscriptions.btGattClearSubscriptions
  cases found : state.gattSubFindByAddr config id addr with
  | none => exact ⟨lists, rep, by simp⟩
  | some =>
    obtain ⟨inside, -⟩ := findSlot_some found
    simp only [rep.toLists.visit inside]
    exact ⟨_, rep.clearLoop inside rfl, fun other _ => update_slot (fun _ => []) rfl⟩

theorem step {input : SubInput} (careful : state.Careful config input) :
    ∃ after, Rep config (state.step config input) after ∧
      state.Effect config lists after input := by
  have running := rep.running
  cases input with
  | prepare =>
    simp only [Subscriptions.step]
    rw [if_neg (by simp [running])]
    exact ⟨lists, rep.withParams _, fun _ _ => rfl⟩
  | subscribe conn object sent =>
    simp only [Subscriptions.step, running, Bool.false_eq_true, false_or]
    split
    · exact ⟨lists, rep, fun _ _ => .inl rfl⟩
    rename_i known
    exact rep.btGattSubscribe sent (not_le.mp known) careful.1 careful.2
  | discovered conn object handle sent =>
    simp only [Subscriptions.step, running, Bool.false_eq_true, false_or]
    split
    · exact ⟨lists, rep, fun _ _ => .inl rfl⟩
    rename_i known
    cases handle with
    | none => exact ⟨lists, rep, fun _ _ => .inl rfl⟩
    | some found =>
      obtain ⟨only, slotted⟩ := careful found rfl
      have told := rep.withParams (update state.params object
        { state.params object with cccHandle := found })
      apply told.btGattSubscribe sent (not_le.mp known) only
      intro auto zero
      apply slotted auto
      simpa using zero
  | resubscribe id peer real object =>
    simp only [Subscriptions.step, running, Bool.false_eq_true, false_or]
    split
    · exact ⟨lists, rep, fun _ _ => .inl rfl⟩
    · rename_i known
      exact rep.btGattResubscribe real (not_le.mp known) careful
  | unsubscribe conn object =>
    simp only [Subscriptions.step, running, Bool.false_eq_true, if_false]
    exact rep.btGattUnsubscribe conn object
  | writeRsp =>
    simp only [Subscriptions.step, running, Bool.false_eq_true, if_false]
    exact rep.gattWriteCccRsp careful
  | disconnect conn bonded =>
    simp only [Subscriptions.step, running, Bool.false_eq_true, if_false]
    exact rep.removeSubscriptions conn bonded
  | clear id addr =>
    simp only [Subscriptions.step, running, Bool.false_eq_true, if_false]
    exact rep.btGattClearSubscriptions id addr

end

theorem init (config : SubConfig) :
    Rep config Subscriptions.init fun _ => [] where
  running := rfl
  represents _ _ := ⟨rfl, rfl, nodup_nil⟩
  apart := by simp
  bounded := by simp
  free _ _ := ⟨fun _ => rfl, fun _ => rfl⟩

end Rep

def Exact (config : SubConfig) (state : Subscriptions) (input : SubInput) :
    Prop :=
  state.Effect config (state.nodes config)
    ((state.step config input).nodes config) input

theorem Effect.congr {before after before' after' : Nat → List Nat}
    {input : SubInput} (effect : state.Effect config before after input)
    (same : ∀ slot < config.max, before' slot = before slot)
    (same' : ∀ slot < config.max, after' slot = after slot) :
    state.Effect config before' after' input := by
  cases input <;> exact fun slot inside => by
      rw [same slot inside, same' slot inside]
      exact effect slot inside

end Subscriptions

/-- Along careful runs every list ends and is empty exactly for a free slot, no
parameters are on two lists, and every call changes the list of its peer as it
should and no other. -/
theorem subscriptions_well_formed (config : SubConfig) (inputs : List SubInput)
    (careful : (subMachine config).Along (Subscriptions.Careful config)
      Subscriptions.init inputs) :
    (subMachine config).Always (Subscriptions.WellFormed config)
        Subscriptions.init inputs ∧
      (subMachine config).Along (Subscriptions.Exact config)
        Subscriptions.init inputs := by
  have start : Subscriptions.WellFormed config Subscriptions.init :=
    ⟨_, Subscriptions.Rep.init config⟩
  generalize Subscriptions.init = state at careful start
  induction inputs generalizing state with
  | nil => exact ⟨start, trivial⟩
  | cons input rest ih =>
    obtain ⟨lists, rep⟩ := start
    obtain ⟨after, next, effect⟩ := rep.step careful.1
    obtain ⟨always, along⟩ := ih _ careful.2 ⟨after, next⟩
    refine ⟨⟨⟨lists, rep⟩, always⟩, ?_, along⟩
    exact effect.congr (fun slot inside => rep.toLists.nodes inside)
      (fun slot inside => next.toLists.nodes inside)

def sampleSubscriber : GattConn where
  index := 0
  id := 0
  dst := ⟨1, 5⟩
  initAddr := ⟨1, 5⟩
  dst_real := by decide
  initAddr_real := by decide

theorem subscriptions_well_formed_refused : let inputs : List SubInput :=
      [.prepare 0 ⟨3, 4, 1, false⟩, .subscribe sampleSubscriber 0 true,
        .writeRsp sampleSubscriber 0 true, .subscribe sampleSubscriber 0 true,
        .prepare 1 ⟨6, 7, 1, true⟩, .subscribe sampleSubscriber 1 true,
        .disconnect sampleSubscriber true]
    (subMachine ⟨2, 2, true⟩).Always (Subscriptions.WellFormed ⟨2, 2, true⟩)
        Subscriptions.init inputs ∧
      (subMachine ⟨2, 2, true⟩).Along (Subscriptions.Exact ⟨2, 2, true⟩)
        Subscriptions.init inputs := by
  intro inputs
  apply subscriptions_well_formed
  refine ⟨trivial, ⟨?_, ?_⟩, ?_, ⟨?_, ?_⟩, trivial, ⟨?_, ?_⟩, trivial, trivial⟩
  · unfold Subscriptions.OnlyOn
    decide
  · decide
  · intro _ slot found
    cases found
    decide
  · unfold Subscriptions.OnlyOn
    decide
  · decide
  · unfold Subscriptions.OnlyOn
    decide
  · decide

theorem subscriptions_wrong_predecessor :
    ¬ ∀ (config : SubConfig) (inputs : List SubInput),
      (subMachine config).Always (Subscriptions.WellFormed config)
          Subscriptions.init inputs ∧
        (subMachine config).Along (Subscriptions.Exact config)
          Subscriptions.init inputs := by
  intro claimed
  have effects := (claimed ⟨1, 2, false⟩
    [.prepare 0 ⟨3, 4, 1, false⟩, .prepare 1 ⟨6, 7, 1, false⟩,
      .subscribe sampleSubscriber 0 true, .subscribe sampleSubscriber 1 true,
      .writeRsp sampleSubscriber 1 true]).2
  have refused := effects.2.2.2.2.1 0 (by decide)
  revert refused
  decide

end ZephyrBluetooth.Host
