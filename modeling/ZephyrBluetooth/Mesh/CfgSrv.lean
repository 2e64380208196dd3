import ZephyrBluetooth.Mesh.Extensions
import ZephyrBluetooth.Mesh.Subnet

namespace ZephyrBluetooth.Mesh

open Data List Function

/-! The model publications and subscriptions of `cfg_srv.c`, with the virtual
address table of `transport.c` and the model pending flags of `access.c`.  The
models of the composition are numbered through all elements. -/

abbrev Uuid := BitVec 128

def addrIsVirtual (addr : Nat) : Bool :=
  decide (0x8000 ≤ addr) && decide (addr < 0xc000)

def addrIsGroup (addr : Nat) : Bool :=
  decide (0xc000 ≤ addr) && decide (addr ≤ 0xff00)

inductive ModelId where
  | sig (id : Nat)
  | vnd (company id : Nat)
  deriving DecidableEq

/-- `struct bt_mesh_model_pub`; `update` tells whether the callback is set. -/
structure ModelPub where
  addr : Nat
  key : Nat
  cred : Bool
  ttl : Nat
  period : Nat
  retransmit : Nat
  count : Nat
  update : Bool

structure Model where
  keys : List Nat
  groups : List Nat
  pub : Option ModelPub
  bindPending : Bool
  subPending : Bool
  pubPending : Bool

structure VirtualAddr where
  ref : Nat
  changed : Bool
  addr : Nat
  uuid : Uuid

/-- The composition data, with the lists that `bt_mesh_model_extend` linked. -/
structure Comp (count : Nat) where
  primary : Nat
  elemCount : Nat
  elemIdx : Fin count → Nat
  modelId : Fin count → ModelId
  ext : Extensions (Fin count)
  rings : AllRings ext.next

structure CfgState (count : Nat) where
  models : Fin count → Model
  vas : List VirtualAddr

/-- The last two bytes of `bt_mesh_aes_cmac_one` over a label. -/
abbrev LabelMac := Uuid → Option (BitVec 16)

def virtualAddr (mac : LabelMac) (uuid : Uuid) : Option Nat :=
  (mac uuid).map fun tail => ((tail &&& 0x3fff) ||| 0x8000).toNat

def VirtualAddr.labels (uuid : Uuid) (va : VirtualAddr) : Bool :=
  decide (va.ref ≠ 0) && decide (va.uuid = uuid)

def vaAdd (mac : LabelMac) (uuid : Uuid) (vas : List VirtualAddr) :
    Status × Nat × List VirtualAddr :=
  match vas.findIdx? (·.labels uuid) with
  | some slot =>
    match vas[slot]? with
    | some va =>
      (.success, va.addr,
        vas.set slot { va with ref := (va.ref + 1) % 2 ^ 15, changed := true })
    | none => (.unspecified, addrUnassigned, vas)
  | none =>
    match vas.findIdx? (fun va => va.ref = 0) with
    | none => (.insuffResources, addrUnassigned, vas)
    | some slot =>
      match virtualAddr mac uuid, vas[slot]? with
      | some addr, _ => (.success, addr, vas.set slot ⟨1, true, addr, uuid⟩)
      | none, some va =>
        (.unspecified, addrUnassigned,
          vas.set slot { va with uuid := uuid, addr := addrUnassigned })
      | none, none => (.unspecified, addrUnassigned, vas)

/-- `bt_mesh_va_del`, with the address of the label if there is one. -/
def vaDel (uuid : Uuid) (vas : List VirtualAddr) :
    Option Nat × List VirtualAddr :=
  match vas.findIdx? (·.labels uuid) with
  | none => (none, vas)
  | some slot =>
    match vas[slot]? with
    | some va =>
      (some va.addr, vas.set slot { va with ref := va.ref - 1, changed := true })
    | none => (none, vas)

def vaLabelGet (addr : Nat) (vas : List VirtualAddr) : Option Uuid :=
  (vas.find? fun va => decide (va.ref ≠ 0) && decide (va.addr = addr)).map (·.uuid)

def vaRelease (addr : Nat) (vas : List VirtualAddr) : List VirtualAddr :=
  if addrIsVirtual addr then
    match vaLabelGet addr vas with
    | some uuid => (vaDel uuid vas).2
    | none => vas
  else vas

section Handlers

variable {count : Nat} {comp : Comp count} {mod : Fin count}

def elemFind (comp : Comp count) (addr : Nat) : Option Nat :=
  if !addrIsUnicast addr then
    none
  else
    let index := (addr + 2 ^ 16 - comp.primary) % 2 ^ 16
    if comp.elemCount ≤ index then none else some index

def modelFind (comp : Comp count) (elem : Nat) (id : ModelId) :
    Option (Fin count) :=
  (List.finRange count).find? fun ix =>
    decide (comp.elemIdx ix = elem) && decide (comp.modelId ix = id)

def modelLookup (comp : Comp count) (elemAddr : Nat) (id : ModelId) :
    Except Status (Fin count) :=
  match elemFind comp elemAddr with
  | none => .error .invalidAddress
  | some elem =>
    match modelFind comp elem id with
    | none => .error .invalidModel
    | some ix => .ok ix

theorem modelLookup_ne_success (comp : Comp count) (elemAddr : Nat)
    (id : ModelId) : modelLookup comp elemAddr id ≠ .error .success := by
  unfold modelLookup
  split
  · simp
  split
  · simp
  · simp

def modelGroupGet (model : Model) (addr : Nat) : Option Nat :=
  model.groups.findIdx? (· = addr)

/-- `struct find_group_visitor_ctx` without the address. -/
structure FindGroupCtx (count : Nat) where
  entry : Option Nat
  mod : Fin count

def findGroupModVisitor (comp : Comp count) (models : Fin count → Model)
    (addr : Nat) (mod : Fin count) (ctx : FindGroupCtx count) :
    FindGroupCtx count × Walk :=
  if comp.elemIdx mod ≠ comp.elemIdx ctx.mod then
    (ctx, .walkContinue)
  else
    match modelGroupGet (models mod) addr with
    | some entry => (⟨some entry, mod⟩, .walkStop)
    | none => ({ ctx with entry := none }, .walkContinue)

/-- `bt_mesh_model_extensions_walk` over the models of the composition. -/
def walkModels {Data : Type} (comp : Comp count) (mod : Fin count)
    (cb : Fin count → Data → Data × Walk) (data : Data) : Data :=
  (extensionsWalk comp.ext.next (walkFuel (Fin count)) mod cb data).getD data

def modelFindGroup (comp : Comp count) (models : Fin count → Model)
    (mod : Fin count) (addr : Nat) : FindGroupCtx count :=
  walkModels comp mod (findGroupModVisitor comp models addr) ⟨none, mod⟩

def modelHasKey (model : Model) (key : Nat) : Bool :=
  model.keys.any fun bound =>
    decide (bound = key) ||
      (decide (bound = 0xfffc) && (decide (key = 0xfffe) || decide (key = 0xfffd)))

def CfgState.setModel (state : CfgState count) (mod : Fin count)
    (model : Model) : CfgState count :=
  { state with models := update state.models mod model }

def Model.subStore (cfg : Config) (model : Model) : Model :=
  { model with subPending := cfg.settings || model.subPending }

def Model.pubStore (cfg : Config) (model : Model) : Model :=
  { model with pubPending := cfg.settings || model.pubPending }

def Model.setGroup (entry addr : Nat) (model : Model) : Model :=
  { model with groups := model.groups.set entry addr }

def CfgState.storeGroup (cfg : Config) (state : CfgState count)
    (mod : Fin count) (entry addr : Nat) : CfgState count :=
  state.setModel mod (((state.models mod).setGroup entry addr).subStore cfg)

def subListClear (state : CfgState count) (mod : Fin count) : CfgState count :=
  let groups := (state.models mod).groups
  { models := update state.models mod
      { state.models mod with groups := groups.map fun _ => addrUnassigned }
    vas := groups.foldl (fun vas addr => vaRelease addr vas) state.vas }

def modSubClearVisitor (mod : Fin count) (state : CfgState count) :
    CfgState count × Walk :=
  (subListClear state mod, .walkContinue)

structure PubParams where
  appIdx : Nat
  cred : Bool
  ttl : Nat
  period : Nat
  retransmit : Nat

def ModelPub.cleared (pub : ModelPub) : ModelPub :=
  { pub with
    addr := addrUnassigned, key := 0, cred := false, ttl := 0, period := 0
    retransmit := 0, count := 0 }

/-- `_mod_pub_set`; `keyExists` is `bt_mesh_app_key_exists` of the key. -/
def modPubSet (cfg : Config) (keyExists : Bool) (addr : Nat)
    (params : PubParams) (mod : Fin count) (state : CfgState count) :
    Status × CfgState count :=
  let model := state.models mod
  match model.pub with
  | none => (.nvalPubParam, state)
  | some pub =>
    if !cfg.lowPower && params.cred then
      (.featNotSupp, state)
    else if !pub.update && decide (params.period ≠ 0) then
      (.nvalPubParam, state)
    else if addr = addrUnassigned then
      if pub.addr = addrUnassigned then
        (.success, state)
      else
        (.success,
          state.setModel mod ({ model with pub := some pub.cleared }.pubStore cfg))
    else if !keyExists || !modelHasKey model params.appIdx then
      (.invalidAppkey, state)
    else
      let updated :=
        { pub with
          addr := addr, key := params.appIdx, cred := params.cred
          ttl := params.ttl, period := params.period
          retransmit := params.retransmit }
      (.success,
        { models := update state.models mod
            ({ model with pub := some updated }.pubStore cfg)
          vas := vaRelease pub.addr state.vas })

/-- The configuration messages; `keyExists` tells whether the application key
is there, and `stale` is what `mod_sub_va_del` finds in its uninitialised
`sub_addr`. -/
inductive CfgMsg where
  | pubSet (elemAddr : Nat) (id : ModelId) (addr : Nat) (params : PubParams)
      (keyExists : Bool)
  | pubVaSet (elemAddr : Nat) (id : ModelId) (uuid : Uuid) (params : PubParams)
      (keyExists : Bool)
  | subAdd (elemAddr : Nat) (id : ModelId) (addr : Nat)
  | subDel (elemAddr : Nat) (id : ModelId) (addr : Nat)
  | subOverwrite (elemAddr : Nat) (id : ModelId) (addr : Nat)
  | subDelAll (elemAddr : Nat) (id : ModelId)
  | subVaAdd (elemAddr : Nat) (id : ModelId) (uuid : Uuid)
  | subVaDel (elemAddr : Nat) (id : ModelId) (uuid : Uuid) (stale : Nat)
  | subVaOverwrite (elemAddr : Nat) (id : ModelId) (uuid : Uuid)

/-- The status that is sent back, or the error of a message that is not
answered. -/
abbrev Answer := Except Errno Status

def CfgMsg.target : CfgMsg → Nat × ModelId
  | .pubSet elemAddr id _ _ _ | .pubVaSet elemAddr id _ _ _
  | .subAdd elemAddr id _ | .subDel elemAddr id _ | .subOverwrite elemAddr id _
  | .subDelAll elemAddr id | .subVaAdd elemAddr id _ | .subVaDel elemAddr id _ _
  | .subVaOverwrite elemAddr id _ => (elemAddr, id)

def ttlValid (ttl : Nat) : Bool :=
  decide (ttl ≤ 0x7f) || decide (ttl = 0xff)

def CfgMsg.publishes : CfgMsg → Option (PubParams × Bool)
  | .pubSet _ _ _ params keyExists | .pubVaSet _ _ _ params keyExists =>
    some (params, keyExists)
  | _ => none

def CfgMsg.wellFormed : CfgMsg → Bool
  | .pubSet elemAddr _ _ params _ | .pubVaSet elemAddr _ _ params _ =>
    addrIsUnicast elemAddr && ttlValid params.ttl
  | msg => addrIsUnicast msg.target.1

def modPubVaSet (cfg : Config) (mac : LabelMac) (uuid : Uuid)
    (params : PubParams) (keyExists : Bool) (mod : Fin count)
    (state : CfgState count) : Status × CfgState count :=
  match vaAdd mac uuid state.vas with
  | (.success, addr, vas) =>
    match modPubSet cfg keyExists addr params mod { state with vas := vas } with
    | (.success, after) => (.success, after)
    | (status, after) => (status, { after with vas := (vaDel uuid after.vas).2 })
  | (status, _, vas) => (status, { state with vas := vas })

def modSubAdd (cfg : Config) (comp : Comp count) (addr : Nat) (mod : Fin count)
    (state : CfgState count) : Status × CfgState count :=
  if !addrIsGroup addr then
    (.invalidAddress, state)
  else
    let existing := modelFindGroup comp state.models mod addr
    if existing.entry.isSome then
      (.success, state)
    else
      let free := modelFindGroup comp state.models existing.mod addrUnassigned
      match free.entry with
      | none => (.insuffResources, state)
      | some entry => (.success, state.storeGroup cfg free.mod entry addr)

def modSubDel (cfg : Config) (comp : Comp count) (addr : Nat) (mod : Fin count)
    (state : CfgState count) : Status × CfgState count :=
  if !addrIsGroup addr then
    (.invalidAddress, state)
  else
    let found := modelFindGroup comp state.models mod addr
    match found.entry with
    | none => (.success, state)
    | some entry => (.success, state.storeGroup cfg found.mod entry addrUnassigned)

def modSubOverwrite (cfg : Config) (comp : Comp count) (addr : Nat)
    (mod : Fin count) (state : CfgState count) : Status × CfgState count :=
  if !addrIsGroup addr then
    (.invalidAddress, state)
  else if 0 < (state.models mod).groups.length then
    let cleared := walkModels comp mod modSubClearVisitor state
    (.success, cleared.storeGroup cfg mod 0 addr)
  else
    (.insuffResources, state)

def modSubDelAll (cfg : Config) (comp : Comp count) (mod : Fin count)
    (state : CfgState count) : Status × CfgState count :=
  let cleared := walkModels comp mod modSubClearVisitor state
  (.success, cleared.setModel mod ((cleared.models mod).subStore cfg))

def modSubVaAdd (cfg : Config) (mac : LabelMac) (comp : Comp count)
    (uuid : Uuid) (mod : Fin count) (state : CfgState count) :
    Status × CfgState count :=
  match vaAdd mac uuid state.vas with
  | (.success, addr, vas) =>
    let existing := modelFindGroup comp state.models mod addr
    if existing.entry.isSome then
      (.success, { state with vas := (vaDel uuid vas).2 })
    else
      let free := modelFindGroup comp state.models existing.mod addrUnassigned
      match free.entry with
      | none => (.insuffResources, { state with vas := (vaDel uuid vas).2 })
      | some entry =>
        (.success, { state with vas := vas }.storeGroup cfg free.mod entry addr)
  | (status, _, vas) => (status, { state with vas := vas })

def modSubVaDel (cfg : Config) (comp : Comp count) (uuid : Uuid) (stale : Nat)
    (mod : Fin count) (state : CfgState count) : Status × CfgState count :=
  let (label, vas) := vaDel uuid state.vas
  let dropped := { state with vas := vas }
  let addr := label.getD stale
  if addr = addrUnassigned then
    (if label.isSome then .success else .cannotRemove, dropped)
  else
    let found := modelFindGroup comp dropped.models mod addr
    match found.entry with
    | none => (.cannotRemove, dropped)
    | some entry => (.success, dropped.storeGroup cfg found.mod entry addrUnassigned)

def modSubVaOverwrite (cfg : Config) (mac : LabelMac) (comp : Comp count)
    (uuid : Uuid) (mod : Fin count) (state : CfgState count) :
    Status × CfgState count :=
  if 0 < (state.models mod).groups.length then
    match vaAdd mac uuid state.vas with
    | (.success, addr, vas) =>
      let cleared := walkModels comp mod modSubClearVisitor { state with vas := vas }
      (.success, cleared.storeGroup cfg mod 0 addr)
    | (status, _, vas) => (status, { state with vas := vas })
  else
    (.insuffResources, state)

def cfgModelMsg (cfg : Config) (mac : LabelMac) (comp : Comp count)
    (mod : Fin count) (state : CfgState count) : CfgMsg → Status × CfgState count
  | .pubSet _ _ addr params keyExists =>
    modPubSet cfg keyExists addr params mod state
  | .pubVaSet _ _ uuid params keyExists =>
    modPubVaSet cfg mac uuid params keyExists mod state
  | .subAdd _ _ addr => modSubAdd cfg comp addr mod state
  | .subDel _ _ addr => modSubDel cfg comp addr mod state
  | .subOverwrite _ _ addr => modSubOverwrite cfg comp addr mod state
  | .subDelAll _ _ => modSubDelAll cfg comp mod state
  | .subVaAdd _ _ uuid => modSubVaAdd cfg mac comp uuid mod state
  | .subVaDel _ _ uuid stale => modSubVaDel cfg comp uuid stale mod state
  | .subVaOverwrite _ _ uuid => modSubVaOverwrite cfg mac comp uuid mod state

def cfgMsg (cfg : Config) (mac : LabelMac) (comp : Comp count)
    (state : CfgState count) (msg : CfgMsg) : CfgState count × List Answer :=
  if !msg.wellFormed then
    (state, [.error .inval])
  else
    match modelLookup comp msg.target.1 msg.target.2 with
    | .error status => (state, [.ok status])
    | .ok mod =>
      let (status, after) := cfgModelMsg cfg mac comp mod state msg
      (after, [.ok status])

theorem cfgMsg_cases (cfg : Config) (mac : LabelMac) (comp : Comp count)
    (state : CfgState count) (msg : CfgMsg) :
    (∃ answer, cfgMsg cfg mac comp state msg = (state, [answer])) ∨
      ∃ mod, msg.wellFormed = true ∧
        modelLookup comp msg.target.1 msg.target.2 = .ok mod ∧
        cfgMsg cfg mac comp state msg = ((cfgModelMsg cfg mac comp mod state msg).2,
            [.ok (cfgModelMsg cfg mac comp mod state msg).1]) := by
  by_cases wellFormed : msg.wellFormed = true
  · cases lookup : modelLookup comp msg.target.1 msg.target.2 with
    | error status => exact .inl ⟨.ok status, by simp [cfgMsg, wellFormed, lookup]⟩
    | ok mod =>
      exact .inr ⟨mod, wellFormed, rfl, by simp [cfgMsg, wellFormed, lookup]⟩
  · exact .inl ⟨.error .inval, by simp [cfgMsg, wellFormed]⟩

def cfgMachine (cfg : Config) (mac : LabelMac) (comp : Comp count) :
    Machine (CfgState count) CfgMsg Answer :=
  ⟨cfgMsg cfg mac comp⟩

theorem virtualAddr_isVirtual {mac : LabelMac} {uuid : Uuid} {addr : Nat}
    (label : virtualAddr mac uuid = some addr) : addrIsVirtual addr = true := by
  have range : ∀ tail : BitVec 16, 0x8000 ≤ ((tail &&& 0x3fff) ||| 0x8000).toNat ∧
        ((tail &&& 0x3fff) ||| 0x8000).toNat < 0xc000 := by
    intro tail
    have masked : (tail &&& 0x3fff).toNat < 2 ^ 14 := by
      rw [BitVec.toNat_and]
      exact lt_of_le_of_lt Nat.and_le_right (by decide)
    have apart : (tail &&& 0x3fff) &&& 0x8000 = 0 := by
      rw [BitVec.and_assoc]
      simp
    rw [← BitVec.add_eq_or_of_and_eq_zero _ _ apart, BitVec.toNat_add]
    have high : (0x8000 : BitVec 16).toNat = 0x8000 := rfl
    rw [high]
    omega
  obtain ⟨tail, _, rfl⟩ := Option.map_eq_some_iff.mp label
  simp only [addrIsVirtual, Bool.and_eq_true, decide_eq_true_eq]
  exact range tail

/-- The parameters that `_mod_pub_set` accepts before it looks at the address. -/
def pubParamsValid (cfg : Config) (params : PubParams) (pub : ModelPub) : Bool :=
  (cfg.lowPower || !params.cred) && (pub.update || decide (params.period = 0))

def ModelPub.updated (addr : Nat) (params : PubParams) (pub : ModelPub) :
    ModelPub :=
  { pub with
    addr := addr, key := params.appIdx, cred := params.cred
    ttl := params.ttl, period := params.period
    retransmit := params.retransmit }

inductive PubEffect (cfg : Config) (keyExists : Bool) (addr : Nat)
    (params : PubParams) (mod : Fin count) (state : CfgState count) :
    Status × CfgState count → Prop
  | refused (status : Status) (failed : status ≠ .success) :
      PubEffect cfg keyExists addr params mod state (status, state)
  | idle (unassigned : addr = addrUnassigned) :
      PubEffect cfg keyExists addr params mod state (.success, state)
  | cleared (pub : ModelPub) (here : (state.models mod).pub = some pub)
      (valid : pubParamsValid cfg params pub = true)
      (unassigned : addr = addrUnassigned) :
      PubEffect cfg keyExists addr params mod state (.success, state.setModel mod
          ({ state.models mod with pub := some pub.cleared }.pubStore cfg))
  | assigned (pub : ModelPub) (here : (state.models mod).pub = some pub)
      (valid : pubParamsValid cfg params pub = true)
      (isAssigned : addr ≠ addrUnassigned) (present : keyExists = true)
      (bound : modelHasKey (state.models mod) params.appIdx = true) :
      PubEffect cfg keyExists addr params mod state (.success,
          { models := update state.models mod
              ({ state.models mod with
                pub := some (pub.updated addr params) }.pubStore cfg)
            vas := vaRelease pub.addr state.vas })

theorem modPubSet_effect (cfg : Config) (keyExists : Bool) (addr : Nat)
    (params : PubParams) (mod : Fin count) (state : CfgState count) :
    PubEffect cfg keyExists addr params mod state
      (modPubSet cfg keyExists addr params mod state) := by
  unfold modPubSet
  dsimp only
  cases here : (state.models mod).pub with
  | none => exact .refused .nvalPubParam (by simp)
  | some pub =>
    dsimp only
    by_cases cred : (!cfg.lowPower && params.cred) = true
    · rw [if_pos cred]
      exact .refused .featNotSupp (by simp)
    rw [if_neg cred]
    by_cases period : (!pub.update && decide (params.period ≠ 0)) = true
    · rw [if_pos period]
      exact .refused .nvalPubParam (by simp)
    rw [if_neg period]
    have valid : pubParamsValid cfg params pub = true := by
      simp only [Bool.and_eq_true, Bool.not_eq_true', not_and,
        decide_eq_true_eq, not_not] at cred period
      simp only [pubParamsValid, Bool.and_eq_true, Bool.or_eq_true,
        Bool.not_eq_true', decide_eq_true_eq]
      constructor
      · cases power : cfg.lowPower with
        | true => exact .inl rfl
        | false => exact .inr (Bool.eq_false_iff.mpr (cred power))
      · cases update : pub.update with
        | true => exact .inl rfl
        | false => exact .inr (period update)
    by_cases unassigned : addr = addrUnassigned
    · rw [if_pos unassigned]
      split
      · exact .idle unassigned
      · exact .cleared pub here valid unassigned
    · rw [if_neg unassigned]
      by_cases key : (!keyExists ||
          !modelHasKey (state.models mod) params.appIdx) = true
      · rw [if_pos key]
        exact .refused .invalidAppkey (by simp)
      rw [if_neg key]
      simp only [Bool.or_eq_true, Bool.not_eq_true', not_or,
        Bool.not_eq_false] at key
      exact .assigned pub here valid unassigned key.1 key.2

def visitedModels (comp : Comp count) (mod : Fin count) : List (Fin count) :=
  walkModels comp mod (fun it seen => (seen ++ [it], .walkContinue)) []

theorem walkModels_ring {others : List (Fin count)}
    (ring : RingAt comp.ext.next mod others) {Data : Type}
    (cb : Fin count → Data → Data × Walk) (data : Data) :
    walkModels comp mod cb data =
      visits cb (walked comp.ext.next mod others) data := by
  have short := length_lt_walkFuel ring
  rw [walkModels, extensionsWalk_ring ring (by omega)]
  rfl

theorem visitedModels_ring {others : List (Fin count)}
    (ring : RingAt comp.ext.next mod others) :
    visitedModels comp mod = walked comp.ext.next mod others := by
  rw [visitedModels, walkModels_ring ring, visits_collect, nil_append]

theorem walkModels_eq (comp : Comp count) (mod : Fin count) {Data : Type}
    (cb : Fin count → Data → Data × Walk) (data : Data) :
    walkModels comp mod cb data = visits cb (visitedModels comp mod) data := by
  obtain ⟨_, ring⟩ := comp.rings mod
  rw [walkModels_ring ring, visitedModels_ring ring]

theorem mem_visitedModels_self (notSelf : comp.ext.next mod ≠ some mod) :
    mod ∈ visitedModels comp mod := by
  obtain ⟨others, ring⟩ := comp.rings mod
  rw [visitedModels_ring ring, walked]
  split
  · exact mem_singleton_self mod
  rename_i linked
  cases others with
  | nil =>
    rcases ring.round with ⟨_, free⟩ | leads
    · exact absurd free linked
    · exact absurd leads.1 notSelf
  | cons => exact mem_cons_self ..

theorem visits_clear (property : CfgState count → Prop)
    (kept : ∀ state mod, property state → property (subListClear state mod))
    (models : List (Fin count)) {state : CfgState count} (start : property state) :
    property (visits modSubClearVisitor models state) := by
  induction models generalizing state with
  | nil => exact start
  | cons mod rest ih => exact ih (kept state mod start)

/-- `mod_sub_list_clear` leaves no address in a model. -/
def Model.groupsCleared (model : Model) : Model :=
  { model with groups := model.groups.map fun _ => addrUnassigned }

theorem visits_clear_models (visited : List (Fin count)) (other : Fin count)
    (state : CfgState count) :
    (visits modSubClearVisitor visited state).models other =
      if other ∈ visited then (state.models other).groupsCleared
      else state.models other := by
  induction visited generalizing state with
  | nil => simp [visits]
  | cons mod rest ih =>
    have step : visits modSubClearVisitor (mod :: rest) state =
        visits modSubClearVisitor rest (subListClear state mod) := rfl
    rw [step, ih]
    by_cases same : other = mod
    · subst same
      simp [subListClear, Model.groupsCleared]
    · simp [subListClear, same]

def CfgMsg.clears (mac : LabelMac) (model : Model) (vas : List VirtualAddr) :
    CfgMsg → Bool
  | .subOverwrite _ _ addr => addrIsGroup addr && decide (0 < model.groups.length)
  | .subDelAll _ _ => true
  | .subVaOverwrite _ _ uuid =>
    decide (0 < model.groups.length) && decide ((vaAdd mac uuid vas).1 = .success)
  | _ => false

def clearedModels (comp : Comp count) (mod : Fin count)
    (models : Fin count → Model) (other : Fin count) : Model :=
  if other ∈ visitedModels comp mod then (models other).groupsCleared
  else models other

inductive ModelsEffect (cfg : Config) (mac : LabelMac) (comp : Comp count)
    (mod : Fin count) (state : CfgState count) (msg : CfgMsg) :
    (Fin count → Model) → Prop
  | kept : ModelsEffect cfg mac comp mod state msg state.models
  | stored (target : Fin count) (entry addr : Nat) :
      ModelsEffect cfg mac comp mod state msg (update state.models target
          (((state.models target).setGroup entry addr).subStore cfg))
  | overwritten (addr : Nat)
      (clears : msg.clears mac (state.models mod) state.vas = true) :
      ModelsEffect cfg mac comp mod state msg
        (update (clearedModels comp mod state.models) mod
          (((clearedModels comp mod state.models mod).setGroup 0 addr).subStore cfg))
  | emptied (clears : msg.clears mac (state.models mod) state.vas = true) :
      ModelsEffect cfg mac comp mod state msg
        (update (clearedModels comp mod state.models) mod
          ((clearedModels comp mod state.models mod).subStore cfg))
  | pubCleared (pub : ModelPub) (here : (state.models mod).pub = some pub) :
      ModelsEffect cfg mac comp mod state msg (update state.models mod
          ({ state.models mod with pub := some pub.cleared }.pubStore cfg))
  | pubAssigned (pub : ModelPub) (addr : Nat) (params : PubParams)
      (here : (state.models mod).pub = some pub)
      (published : msg.publishes = some (params, true))
      (bound : modelHasKey (state.models mod) params.appIdx = true) :
      ModelsEffect cfg mac comp mod state msg (update state.models mod
          ({ state.models mod with
            pub := some (pub.updated addr params) }.pubStore cfg))

theorem walkModels_clear (comp : Comp count) (mod : Fin count)
    (state : CfgState count) :
    (walkModels comp mod modSubClearVisitor state).models =
      clearedModels comp mod state.models := by
  funext other
  rw [walkModels_eq, visits_clear_models]
  rfl

theorem modPubSet_models {cfg : Config} {mac : LabelMac} {state : CfgState count}
    {msg : CfgMsg} {keyExists : Bool} {params : PubParams} (addr : Nat)
    (vas : List VirtualAddr) (published : msg.publishes = some (params, keyExists)) :
    ModelsEffect cfg mac comp mod state msg
      (modPubSet cfg keyExists addr params mod { state with vas := vas }).2.models := by
  have effect := modPubSet_effect cfg keyExists addr params mod
    { state with vas := vas }
  generalize modPubSet cfg keyExists addr params mod { state with vas := vas } = out
    at effect ⊢
  cases effect with
  | refused => exact .kept
  | idle => exact .kept
  | cleared pub here => exact .pubCleared pub here
  | assigned pub here valid isAssigned present bound =>
    rw [present] at published
    exact .pubAssigned pub addr params here published bound

theorem cfgModelMsg_effect (cfg : Config) (mac : LabelMac) (comp : Comp count)
    (mod : Fin count) (state : CfgState count) (msg : CfgMsg) :
    ModelsEffect cfg mac comp mod state msg
      (cfgModelMsg cfg mac comp mod state msg).2.models := by
  cases msg with
  | pubSet elemAddr id addr => exact modPubSet_models addr state.vas rfl
  | pubVaSet elemAddr id uuid params keyExists =>
    simp only [cfgModelMsg, modPubVaSet]
    split
    · rename_i addr vas added
      have effect : ModelsEffect cfg mac comp mod state
          (.pubVaSet elemAddr id uuid params keyExists)
          (modPubSet cfg keyExists addr params mod { state with vas := vas }).2.models :=
        modPubSet_models addr vas rfl
      split
      · rename_i after result
        rw [result] at effect
        exact effect
      · rename_i status after failed result
        rw [result] at effect
        exact effect
    · exact .kept
  | subAdd =>
    simp only [cfgModelMsg, modSubAdd]
    split
    · exact .kept
    split
    · exact .kept
    split
    · exact .kept
    · exact .stored _ _ _
  | subDel =>
    simp only [cfgModelMsg, modSubDel]
    split
    · exact .kept
    split
    · exact .kept
    · exact .stored _ _ _
  | subOverwrite elemAddr id addr =>
    simp only [cfgModelMsg, modSubOverwrite]
    split
    · exact .kept
    rename_i group
    split
    · rename_i nonempty
      simp only [CfgState.storeGroup, CfgState.setModel, walkModels_clear]
      apply ModelsEffect.overwritten
      simpa [CfgMsg.clears, nonempty] using group
    · exact .kept
  | subDelAll =>
    simp only [cfgModelMsg, modSubDelAll, CfgState.setModel, walkModels_clear]
    exact .emptied rfl
  | subVaAdd =>
    simp only [cfgModelMsg, modSubVaAdd]
    split
    · split
      · exact .kept
      split
      · exact .kept
      · exact .stored _ _ _
    · exact .kept
  | subVaDel =>
    simp only [cfgModelMsg, modSubVaDel]
    split
    · exact .kept
    split
    · exact .kept
    · exact .stored _ _ _
  | subVaOverwrite elemAddr id uuid =>
    simp only [cfgModelMsg, modSubVaOverwrite]
    split
    · rename_i nonempty
      split
      · rename_i addr vas added
        simp only [CfgState.storeGroup, CfgState.setModel, walkModels_clear]
        apply ModelsEffect.overwritten
        simp [CfgMsg.clears, nonempty, added]
      · exact .kept
    · exact .kept

theorem modelGroupGet_some {model : Model} {addr entry : Nat}
    (found : modelGroupGet model addr = some entry) :
    model.groups[entry]? = some addr := by
  obtain ⟨inside, holds, _⟩ := findIdx?_eq_some_iff_getElem.mp found
  rw [getElem?_eq_getElem inside]
  simpa using holds

theorem findGroupModVisitor_cases (comp : Comp count)
    (models : Fin count → Model) (addr : Nat) (mod : Fin count)
    {ctx : FindGroupCtx count} (none : ctx.entry = none) :
    findGroupModVisitor comp models addr mod ctx = (ctx, .walkContinue) ∨
      ∃ entry, (models mod).groups[entry]? = some addr ∧
        findGroupModVisitor comp models addr mod ctx =
          (⟨some entry, mod⟩, .walkStop) := by
  unfold findGroupModVisitor
  split
  · exact .inl rfl
  split
  · rename_i entry found
    exact .inr ⟨entry, modelGroupGet_some found, rfl⟩
  left
  obtain ⟨entry, _⟩ := ctx
  simp only at none
  rw [none]

theorem modelFindGroup_some {models : Fin count → Model} {addr entry : Nat}
    (found : (modelFindGroup comp models mod addr).entry = some entry) :
    (models (modelFindGroup comp models mod addr).mod).groups[entry]? =
      some addr := by
  rw [modelFindGroup, walkModels_eq] at found ⊢
  generalize visitedModels comp mod = visited at found ⊢
  generalize start : (⟨none, mod⟩ : FindGroupCtx count) = ctx at found ⊢
  have unset : ctx.entry = none := by rw [← start]
  clear start
  induction visited generalizing ctx with
  | nil =>
    rw [visits, unset] at found
    cases found
  | cons other rest ih =>
    rw [visits] at found ⊢
    rcases findGroupModVisitor_cases comp models addr other unset with
      further | ⟨here, holds, stops⟩
    · rw [further] at found ⊢
      exact ih ctx found unset
    rw [stops] at found ⊢
    cases found
    exact holds

end Handlers

end ZephyrBluetooth.Mesh
