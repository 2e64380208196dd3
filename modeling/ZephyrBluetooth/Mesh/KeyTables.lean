import ZephyrBluetooth.Mesh.AppKeys
import ZephyrBluetooth.Mesh.CfgSrv

namespace ZephyrBluetooth.Mesh

open Data List Function Option

/-! The subnets, the application keys and the models that are bound to them,
under the operations that add, refresh, delete and bind keys. -/

section Binding

variable {count : Nat}

def Model.bindStore (cfg : Config) (model : Model) : Model :=
  { model with bindPending := cfg.settings || model.bindPending }

/-- `mod_bind`; `keyExists` is `bt_mesh_app_key_exists` of the key. -/
def modBind (cfg : Config) (keyExists : Bool) (keyIdx : Nat) (mod : Fin count)
    (state : CfgState count) : Status × CfgState count :=
  let model := state.models mod
  if !keyExists then
    (.invalidAppkey, state)
  else if model.keys.contains keyIdx then
    (.success, state)
  else
    match model.keys.findIdx? (· = keyUnused) with
    | none => (.insuffResources, state)
    | some entry =>
      (.success, state.setModel mod
          ({ model with keys := model.keys.set entry keyIdx }.bindStore cfg))

/-- One turn of the loop in `mod_unbind`. -/
def unbindAt (cfg : Config) (keyIdx : Nat) (mod : Fin count)
    (state : CfgState count) (entry : Nat) : CfgState count :=
  let model := state.models mod
  if model.keys[entry]? = some keyIdx then
    let unbound := state.setModel mod
      ({ model with keys := model.keys.set entry keyUnused }.bindStore cfg)
    if model.pub.map (·.key) = some keyIdx then
      (modPubSet cfg true addrUnassigned ⟨0, false, 0, 0, 0⟩ mod unbound).2
    else
      unbound
  else
    state

def modUnbind (cfg : Config) (keyExists : Bool) (keyIdx : Nat) (mod : Fin count)
    (state : CfgState count) : Status × CfgState count :=
  if !keyExists then
    (.invalidAppkey, state)
  else
    (.success,
      (List.range (state.models mod).keys.length).foldl (unbindAt cfg keyIdx mod)
        state)

/-- `app_key_evt` of `cfg_srv.c`: the key is still in the table when its deletion
is announced. -/
def appKeyEvt (cfg : Config) (state : CfgState count) (evt : Nat × KeyEvt) :
    CfgState count :=
  match evt with
  | (appIdx, .deleted) =>
    (List.finRange count).foldl
      (fun state mod => (modUnbind cfg true appIdx mod state).2) state
  | _ => state

end Binding

structure KeyTables (count : Nat) where
  subs : List Subnet
  apps : List AppKey
  access : CfgState count

/-- The operations on keys and bindings, and the configuration messages that set
publications. -/
inductive KeyInput where
  | subnetAdd (netIdx : UInt16) (key : Key)
  | subnetUpdate (netIdx : UInt16) (key : Key)
  | subnetDel (netIdx : UInt16)
  | krPhaseSet (netIdx : UInt16) (phase : UInt8)
  | krUpdate (netIdx : UInt16) (krFlag newKey : Bool)
  | appKeyAdd (appIdx netIdx : UInt16) (key : Key)
  | appKeyUpdate (appIdx netIdx : UInt16) (key : Key)
  | appKeyDel (appIdx netIdx : UInt16)
  | appBind (elemAddr : Nat) (id : ModelId) (keyIdx : UInt16)
  | appUnbind (elemAddr : Nat) (id : ModelId) (keyIdx : UInt16)
  | config (msg : CfgMsg)

section Operations

variable {count : Nat}

def KeyTables.appChange (cfg : Config) (state : KeyTables count)
    (change : AppChange) : KeyTables count where
  subs := state.subs
  apps := change.apps
  access := change.evts.foldl (appKeyEvt cfg) state.access

def KeyTables.subnetChange (cfg : Config) (state : KeyTables count)
    (change : SubnetChange) : KeyTables count :=
  { state with subs := change.table }.appChange cfg
    (appSubnetChange state.subs change state.apps)

def CfgMsg.resolve (apps : List AppKey) : CfgMsg → CfgMsg
  | .pubSet elemAddr id addr params _ =>
    .pubSet elemAddr id addr { params with appIdx := params.appIdx % 2 ^ 12 }
      (appKeyExists apps (params.appIdx % 2 ^ 12))
  | .pubVaSet elemAddr id uuid params _ =>
    .pubVaSet elemAddr id uuid { params with appIdx := params.appIdx % 2 ^ 12 }
      (appKeyExists apps (params.appIdx % 2 ^ 12))
  | msg => msg

/-- `mod_app_bind`; the Configuration Server does not bind itself. -/
def modAppBind (cfg : Config) (comp : Comp count) (self : Fin count)
    (elemAddr : Nat) (id : ModelId) (keyIdx : Nat) (state : KeyTables count) :
    Answer × KeyTables count :=
  if !addrIsUnicast elemAddr then
    (.error .inval, state)
  else
    match modelLookup comp elemAddr id with
    | .error status => (.ok status, state)
    | .ok mod =>
      if mod = self then
        (.ok .cannotBind, state)
      else
        let (status, access) :=
          modBind cfg (appKeyExists state.apps keyIdx) keyIdx mod state.access
        (.ok status, { state with access := access })

def modAppUnbind (cfg : Config) (comp : Comp count) (elemAddr : Nat)
    (id : ModelId) (keyIdx : Nat) (state : KeyTables count) :
    Answer × KeyTables count :=
  if !addrIsUnicast elemAddr then
    (.error .inval, state)
  else
    match modelLookup comp elemAddr id with
    | .error status => (.ok status, state)
    | .ok mod =>
      let (status, access) :=
        modUnbind cfg (appKeyExists state.apps keyIdx) keyIdx mod state.access
      (.ok status, { state with access := access })

variable (cfg : Config) (crypto : Crypto) (appId : AppId) (mac : LabelMac)
variable (comp : Comp count) (self : Fin count)

def keyStep (state : KeyTables count) : KeyInput → KeyTables count × List Answer
  | .subnetAdd netIdx key =>
    let (status, change) := subnetAdd cfg crypto state.subs netIdx.toNat key
    (state.subnetChange cfg change, [.ok status])
  | .subnetUpdate netIdx key =>
    let (status, change) := subnetUpdate cfg crypto state.subs netIdx.toNat key
    (state.subnetChange cfg change, [.ok status])
  | .subnetDel netIdx =>
    let (status, change) := subnetDel state.subs netIdx.toNat
    (state.subnetChange cfg change, [.ok status])
  | .krPhaseSet netIdx phase =>
    let (status, _, change) :=
      subnetKrPhaseSet state.subs netIdx.toNat phase.toNat
    (state.subnetChange cfg change, [.ok status])
  | .krUpdate netIdx krFlag newKey =>
    match subnetGet state.subs netIdx.toNat with
    | none => (state, [])
    | some slot =>
      (state.subnetChange cfg (krUpdate state.subs slot krFlag newKey), [])
  | .appKeyAdd appIdx netIdx key =>
    let (status, change) :=
      appKeyAdd appId state.subs state.apps appIdx.toNat netIdx.toNat key
    (state.appChange cfg change, [.ok status])
  | .appKeyUpdate appIdx netIdx key =>
    let (status, change) :=
      appKeyUpdate appId state.subs state.apps appIdx.toNat netIdx.toNat key
    (state.appChange cfg change, [.ok status])
  | .appKeyDel appIdx netIdx =>
    let (status, change) :=
      appKeyDel state.subs state.apps appIdx.toNat netIdx.toNat
    (state.appChange cfg change, [.ok status])
  | .appBind elemAddr id keyIdx =>
    let (answer, after) := modAppBind cfg comp self elemAddr id keyIdx.toNat state
    (after, [answer])
  | .appUnbind elemAddr id keyIdx =>
    let (answer, after) := modAppUnbind cfg comp elemAddr id keyIdx.toNat state
    (after, [answer])
  | .config msg =>
    let (access, answers) :=
      cfgMsg cfg mac comp state.access (msg.resolve state.apps)
    ({ state with access := access }, answers)

def keyMachine : Machine (KeyTables count) KeyInput Answer :=
  ⟨keyStep cfg crypto appId mac comp self⟩

end Operations

def isDevEntry (key : Nat) : Prop := 0xfffc ≤ key ∧ key ≤ 0xfffe

def appStored (apps : List AppKey) (appIdx : Nat) : Prop :=
  appIdx ≠ keyUnused ∧ ∃ app ∈ apps, app.appIdx = appIdx

structure BindingsOk (stored : Nat → Prop) (model : Model) : Prop where
  bound : ∀ key ∈ model.keys, key ≠ keyUnused → ¬ isDevEntry key → stored key
  published : ∀ pub, model.pub = some pub → pub.addr ≠ addrUnassigned →
    pub.key ∈ model.keys ∧ pub.key ≠ keyUnused ∧ ¬ isDevEntry pub.key

structure Unbinds (keyIdx : Nat) (before after : Model) : Prop where
  fewer : ∀ {entry key : Nat}, after.keys[entry]? = some key →
    key = keyUnused ∨ before.keys[entry]? = some key
  rest : ∀ {entry key : Nat}, before.keys[entry]? = some key → key ≠ keyIdx →
    after.keys[entry]? = some key
  pub : after.pub = before.pub ∨
    ∃ pub, after.pub = some pub ∧ pub.addr = addrUnassigned
  cleared : ∀ {entry : Nat}, before.keys[entry]? = some keyIdx →
    after.keys[entry]? ≠ some keyIdx → ∀ pub, after.pub = some pub →
      pub.addr ≠ addrUnassigned → pub.key ≠ keyIdx

theorem Unbinds.refl (keyIdx : Nat) (model : Model) :
    Unbinds keyIdx model model :=
  ⟨.inr, fun here _ => here, .inl rfl, fun here gone => absurd here gone⟩

variable {keyIdx : Nat}

theorem Unbinds.trans {before middle after : Model}
    (first : Unbinds keyIdx before middle)
    (second : Unbinds keyIdx middle after) : Unbinds keyIdx before after where
  fewer here := by
    rcases second.fewer here with unused | there
    · exact .inl unused
    · exact first.fewer there
  rest here different := second.rest (first.rest here different) different
  pub := by
    rcases second.pub with same | inactive
    · rw [same]
      exact first.pub
    · exact .inr inactive
  cleared := by
    intro entry here gone pub current active
    by_cases still : middle.keys[entry]? = some keyIdx
    · exact second.cleared still gone pub current active
    rcases second.pub with same | ⟨_, isOther, inactive⟩
    · rw [same] at current
      exact first.cleared here still pub current active
    rw [isOther] at current
    cases current
    exact absurd inactive active

theorem BindingsOk.unbind {stored remaining : Nat → Prop} {before after : Model}
    (ok : BindingsOk stored before) (unbinds : Unbinds keyIdx before after)
    (gone : keyIdx ≠ keyUnused → keyIdx ∉ after.keys)
    (kept : ∀ key, key ≠ keyIdx → stored key → remaining key) :
    BindingsOk remaining after := by
  constructor
  · intro key member used notDev
    obtain ⟨entry, here⟩ := getElem?_of_mem member
    have different : key ≠ keyIdx := by
      rintro rfl
      exact gone used member
    rcases unbinds.fewer here with unused | there
    · exact absurd unused used
    · exact kept key different (ok.bound key (mem_of_getElem? there) used notDev)
  · intro pub current active
    rcases unbinds.pub with same | ⟨_, isOther, inactive⟩
    · have old := current
      rw [same] at old
      obtain ⟨member, used, notDev⟩ := ok.published pub old active
      refine ⟨?_, used, notDev⟩
      obtain ⟨entry, here⟩ := getElem?_of_mem member
      by_cases same : pub.key = keyIdx
      · rw [same] at here used
        have left : after.keys[entry]? ≠ some keyIdx := fun there =>
          gone used (mem_of_getElem? there)
        exact absurd same (unbinds.cleared here left pub current active)
      · exact mem_of_getElem? (unbinds.rest here same)
    · rw [isOther] at current
      cases current
      exact absurd inactive active

section Unbinding

variable {count : Nat}

theorem modPubSet_unassign (cfg : Config) (mod : Fin count)
    (state : CfgState count) (model : Model) {pub : ModelPub}
    (here : model.pub = some pub) :
    ∃ after, (modPubSet cfg true addrUnassigned ⟨0, false, 0, 0, 0⟩ mod
        (state.setModel mod model)).2.models = update state.models mod after ∧
      after.keys = model.keys ∧
      ∃ left, after.pub = some left ∧ left.addr = addrUnassigned := by
  have current : (state.setModel mod model).models mod = model := update_self ..
  unfold modPubSet
  simp only [current, here, Bool.and_false, Bool.false_eq_true, if_false, ne_eq,
    not_true_eq_false, decide_false, if_true]
  split
  · rename_i inactive
    exact ⟨model, rfl, rfl, pub, here, inactive⟩
  · exact ⟨_, update_idem .., rfl, pub.cleared, rfl, rfl⟩

theorem unbindAt_spec (cfg : Config) (keyIdx : Nat) (mod : Fin count)
    (state : CfgState count) (entry : Nat) :
    ∃ model, (unbindAt cfg keyIdx mod state entry).models =
        update state.models mod model ∧ Unbinds keyIdx (state.models mod) model ∧
      (keyIdx ≠ keyUnused → model.keys[entry]? ≠ some keyIdx) := by
  unfold unbindAt
  dsimp only
  split
  · rename_i here
    have inside := (List.getElem?_eq_some_iff.mp here).1
    have taken : ((state.models mod).keys.set entry keyUnused)[entry]? =
        some keyUnused := by
      rw [getElem?_set_self inside]
    have elsewhere : ∀ {other : Nat}, other ≠ entry →
        ((state.models mod).keys.set entry keyUnused)[other]? =
          (state.models mod).keys[other]? := fun different =>
      getElem?_set_ne (Ne.symm different)
    have unbinds : ∀ model : Model,
        model.keys = (state.models mod).keys.set entry keyUnused →
        (model.pub = (state.models mod).pub ∨
          ∃ pub, model.pub = some pub ∧ pub.addr = addrUnassigned) →
        (∀ pub, model.pub = some pub → pub.addr ≠ addrUnassigned →
          pub.key ≠ keyIdx) →
        Unbinds keyIdx (state.models mod) model ∧
          (keyIdx ≠ keyUnused → model.keys[entry]? ≠ some keyIdx) := by
      intro model keys pub cleared
      refine ⟨⟨?_, ?_, pub, fun _ _ => cleared⟩, ?_⟩
      · intro other key there
        rw [keys] at there
        by_cases same : other = entry
        · rw [same, taken, some_inj] at there
          exact .inl there.symm
        · rw [elsewhere same] at there
          exact .inr there
      · intro other key there different
        rw [keys]
        by_cases same : other = entry
        · rw [same, here, some_inj] at there
          exact absurd there.symm different
        · rw [elsewhere same]
          exact there
      · intro used
        rw [keys, taken, ne_eq, some_inj]
        exact Ne.symm used
    split
    · rename_i publishes
      obtain ⟨pub, isPub, _⟩ := map_eq_some_iff.mp publishes
      obtain ⟨model, models, keys, left, isLeft, inactive⟩ :=
        modPubSet_unassign cfg mod state ({ state.models mod with
          keys := (state.models mod).keys.set entry keyUnused }.bindStore cfg) isPub
      refine ⟨model, models, unbinds model keys (.inr ⟨left, isLeft, inactive⟩) ?_⟩
      intro other isOther active
      rw [isLeft] at isOther
      cases isOther
      exact absurd inactive active
    · rename_i otherKey
      refine ⟨_, rfl, unbinds _ rfl (.inl rfl) ?_⟩
      intro pub isPub _ same
      have isOld : (state.models mod).pub = some pub := isPub
      exact otherKey (by rw [isOld, map_some, same])
  · rename_i absent
    exact ⟨state.models mod, (update_eq_self mod state.models).symm,
      .refl .., fun _ => absent⟩

theorem unbindAll_spec (cfg : Config) (keyIdx : Nat) (mod : Fin count)
    (entries : List Nat) (state : CfgState count) :
    ∃ model, (entries.foldl (unbindAt cfg keyIdx mod) state).models =
        update state.models mod model ∧ Unbinds keyIdx (state.models mod) model ∧
      (keyIdx ≠ keyUnused → ∀ entry ∈ entries,
        model.keys[entry]? ≠ some keyIdx) := by
  induction entries generalizing state with
  | nil =>
    exact ⟨state.models mod, (update_eq_self mod state.models).symm,
      .refl .., fun _ _ member => absurd member (not_mem_nil)⟩
  | cons first rest ih =>
    obtain ⟨_, onceModels, onceUnbinds, onceGone⟩ :=
      unbindAt_spec cfg keyIdx mod state first
    obtain ⟨model, models, unbinds, gone⟩ :=
      ih (unbindAt cfg keyIdx mod state first)
    rw [onceModels] at models unbinds
    rw [update_self] at unbinds
    rw [update_idem] at models
    refine ⟨model, models, onceUnbinds.trans unbinds, ?_⟩
    intro used entry member there
    rcases mem_cons.mp member with rfl | later
    · rcases unbinds.fewer there with unused | before
      · exact used unused
      · exact onceGone used before
    · exact gone used entry later there

theorem modUnbind_spec (cfg : Config) (keyIdx : Nat) (mod : Fin count)
    (state : CfgState count) :
    ∃ model, (modUnbind cfg true keyIdx mod state).2.models =
        update state.models mod model ∧ Unbinds keyIdx (state.models mod) model ∧
      (keyIdx ≠ keyUnused → keyIdx ∉ model.keys) := by
  obtain ⟨model, models, unbinds, gone⟩ := unbindAll_spec cfg keyIdx mod
    (range (state.models mod).keys.length) state
  refine ⟨model, models, unbinds, ?_⟩
  intro used member
  obtain ⟨entry, there⟩ := getElem?_of_mem member
  rcases unbinds.fewer there with unused | before
  · exact used unused
  · have inside := (List.getElem?_eq_some_iff.mp before).1
    exact gone used entry (mem_range.mpr inside) there

theorem Unbinds.notMem {before after : Model}
    (unbinds : Unbinds keyIdx before after) (used : keyIdx ≠ keyUnused)
    (gone : keyIdx ∉ before.keys) : keyIdx ∉ after.keys := by
  intro member
  obtain ⟨_, there⟩ := getElem?_of_mem member
  rcases unbinds.fewer there with unused | before
  · exact used unused
  · exact gone (mem_of_getElem? before)

theorem unbindModels_spec (cfg : Config) (keyIdx : Nat) (mods : List (Fin count))
    (state : CfgState count) (mod : Fin count) :
    Unbinds keyIdx (state.models mod) ((mods.foldl
        (fun state mod => (modUnbind cfg true keyIdx mod state).2) state).models mod) ∧
      (mod ∈ mods → keyIdx ≠ keyUnused → keyIdx ∉ ((mods.foldl
        (fun state mod => (modUnbind cfg true keyIdx mod state).2)
          state).models mod).keys) := by
  induction mods generalizing state with
  | nil => exact ⟨.refl .., fun member => absurd member (not_mem_nil)⟩
  | cons first rest ih =>
    obtain ⟨_, models, unbinds, gone⟩ := modUnbind_spec cfg keyIdx first state
    obtain ⟨later, laterGone⟩ := ih (modUnbind cfg true keyIdx first state).2
    rw [foldl_cons]
    by_cases same : mod = first
    · subst same
      rw [models, update_self] at later
      exact ⟨unbinds.trans later, fun _ used => later.notMem used (gone used)⟩
    · rw [models, update_of_ne same] at later
      refine ⟨later, ?_⟩
      intro member used
      rcases mem_cons.mp member with equal | further
      · exact absurd equal same
      · exact laterGone further used

theorem appKeyEvts_ok (cfg : Config) {stored : Nat → Prop}
    (evts : List (Nat × KeyEvt)) (state : CfgState count) (mod : Fin count)
    (ok : BindingsOk (fun key => stored key ∨ (key, .deleted) ∈ evts)
      (state.models mod)) :
    BindingsOk stored ((evts.foldl (appKeyEvt cfg) state).models mod) := by
  induction evts generalizing state with
  | nil =>
    refine ⟨?_, ok.published⟩
    intro key member used notDev
    simpa using ok.bound key member used notDev
  | cons evt rest ih =>
    rw [foldl_cons]
    apply ih
    obtain ⟨appIdx, raised⟩ := evt
    have others : ∀ key, (raised = .deleted → key ≠ appIdx) →
        (stored key ∨ (key, .deleted) ∈ (appIdx, raised) :: rest) →
        stored key ∨ (key, .deleted) ∈ rest := by
      rintro key different (isStored | member)
      · exact .inl isStored
      · rcases mem_cons.mp member with equal | later
        · cases equal
          exact absurd rfl (different rfl)
        · exact .inr later
    cases raised with
    | deleted =>
      obtain ⟨unbinds, gone⟩ := unbindModels_spec cfg appIdx
        (finRange count) state mod
      apply ok.unbind unbinds (gone (mem_finRange mod))
      intro key different
      exact others key fun _ => different
    | added | updated | swapped | revoked =>
      refine ⟨?_, ok.published⟩
      intro key member used notDev
      exact others key nofun (ok.bound key member used notDev)

end Unbinding

end ZephyrBluetooth.Mesh
