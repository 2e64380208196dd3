import ZephyrBluetooth.Mesh.CfgRefs
import ZephyrBluetooth.Mesh.KeyTables
import ZephyrBluetooth.Mesh.SubnetStore

namespace ZephyrBluetooth.Mesh

open Data List Function Option Bool

variable {slot : Nat} {apps : List AppKey} {subs : List Subnet} {change : AppChange}
  {written : Subnet}

/-- A stored key belongs to a subnet in use, and is updated only while that
subnet refreshes its keys. -/
def AppOk (subs : List Subnet) (app : AppKey) : Prop :=
  app.appIdx ≠ keyUnused → app.netIdx ≠ keyUnused ∧ ∃ (slot : Nat) (sub : Subnet),
      subs[slot]? = some sub ∧ sub.netIdx = app.netIdx ∧
      (app.updated = true → sub.krPhase = .phase1 ∨ sub.krPhase = .phase2)

variable {key : Nat}

section Apps

theorem mem_set_or {Item : Type} {items : List Item} {old : Item}
    (found : items[slot]? = some old) (new : Item) {item : Item}
    (member : item ∈ items) : item = old ∨ item ∈ items.set slot new := by
  obtain ⟨place, here⟩ := getElem?_of_mem member
  by_cases same : place = slot
  · rw [same, found, some_inj] at here
    exact .inl here.symm
  right
  apply mem_of_getElem?
  rw [getElem?_set_ne (Ne.symm same)]
  exact here

variable {app : AppKey}

theorem appStored_of_mem (member : app ∈ apps)
    (used : app.appIdx ≠ keyUnused) : appStored apps app.appIdx :=
  ⟨used, app, member, rfl⟩

theorem mem_set_self {Item : Type} {items : List Item} {old : Item}
    (found : items[slot]? = some old) (new : Item) : new ∈ items.set slot new := by
  apply mem_of_getElem? (i := slot)
  rw [getElem?_set_self (List.getElem?_eq_some_iff.mp found).1]

theorem AppEffect.stored {subs : List Subnet} {apps : List AppKey}
    {change : AppChange} (effect : AppEffect subs apps change)
    (stored : appStored apps key) :
    appStored change.apps key ∨ (key, .deleted) ∈ change.evts := by
  obtain ⟨used, _, member, rfl⟩ := stored
  cases effect with
  | unchanged => exact .inl (appStored_of_mem member used)
  | added appIdx netIdx cred found free =>
    rcases mem_set_or found _ member with rfl | kept
    · exact absurd free used
    · exact .inl (appStored_of_mem kept used)
  | updated cred found =>
    rcases mem_set_or found _ member with rfl | kept
    · exact .inl ⟨used, _, mem_set_self found _, rfl⟩
    · exact .inl (appStored_of_mem kept used)
  | deleted found =>
    rcases mem_set_or found _ member with rfl | kept
    · exact .inr (mem_singleton_self _)
    · exact .inl (appStored_of_mem kept used)

theorem AppEffect.appsOk (effect : AppEffect subs apps change)
    (ok : ∀ app ∈ apps, AppOk subs app) : ∀ app ∈ change.apps, AppOk subs app := by
  cases effect with
  | unchanged => exact ok
  | added appIdx netIdx cred found free named absent inUse subnet =>
    intro app member
    rcases mem_or_eq_of_mem_set member with old | rfl
    · exact ok app old
    intro _
    obtain ⟨slot, got⟩ := isSome_iff_exists.mp subnet
    obtain ⟨sub, stored, same⟩ := subnetGet_some got
    exact ⟨inUse, slot, sub, stored, same, nofun⟩
  | @updated slot place changed sub cred found bound stored phase current =>
    intro app member
    rcases mem_or_eq_of_mem_set member with old | rfl
    · exact ok app old
    intro used
    obtain ⟨inUse, _⟩ := ok changed (mem_of_getElem? found) used
    obtain ⟨_, otherStored, same⟩ := subnetGet_some bound
    rw [stored, some_inj] at otherStored
    subst otherStored
    exact ⟨inUse, place, sub, stored, same, fun _ => .inl phase⟩
  | deleted =>
    intro app member
    rcases mem_or_eq_of_mem_set member with old | rfl
    · exact ok app old
    · intro used
      exact absurd rfl used

theorem appSubnetEvt_stored (netIdx : Nat) (evt : KeyEvt)
    (stored : appStored apps key) :
    appStored (appSubnetEvt apps netIdx evt).apps key ∨
      (key, .deleted) ∈ (appSubnetEvt apps netIdx evt).evts := by
  obtain ⟨used, app, member, rfl⟩ := stored
  have image := mem_map_of_mem (f := appOnSubnetEvt netIdx evt) member
  have left : (appOnSubnetEvt netIdx evt app).appIdx = app.appIdx →
      appStored (appSubnetEvt apps netIdx evt).apps app.appIdx := fun same =>
    ⟨used, _, image, same⟩
  by_cases concerned : app.appIdx = keyUnused ∨ app.netIdx ≠ netIdx
  · exact .inl (left (by simp only [appOnSubnetEvt, if_pos concerned]))
  · cases evt with
    | deleted =>
      right
      apply mem_filterMap.mpr
      exact ⟨app, member, by rw [appEvtOnSubnetEvt, if_neg concerned]⟩
    | revoked =>
      refine .inl (left ?_)
      rw [appOnSubnetEvt, if_neg concerned]
      simp only [AppKey.revoked]
      split <;> rfl
    | added | updated | swapped =>
      exact .inl (left (by rw [appOnSubnetEvt, if_neg concerned]))

theorem appOnSubnetEvt_kept (netIdx : Nat) (evt : KeyEvt) (app : AppKey)
    (used : (appOnSubnetEvt netIdx evt app).appIdx ≠ keyUnused) :
    app.appIdx ≠ keyUnused ∧ (appOnSubnetEvt netIdx evt app).netIdx = app.netIdx ∧
      ((appOnSubnetEvt netIdx evt app).updated = true → app.updated = true) ∧
      (app.netIdx = netIdx → evt ≠ .deleted ∧
        (evt = .revoked → (appOnSubnetEvt netIdx evt app).updated = false)) := by
  unfold appOnSubnetEvt at used ⊢
  by_cases concerned : app.appIdx = keyUnused ∨ app.netIdx ≠ netIdx
  · rw [if_pos concerned] at used ⊢
    refine ⟨used, rfl, id, ?_⟩
    intro same
    rcases concerned with unused | different
    · exact absurd unused used
    · exact absurd same different
  · rw [if_neg concerned] at used ⊢
    have inUse : app.appIdx ≠ keyUnused := fun unused => concerned (.inl unused)
    cases evt with
    | deleted => exact absurd rfl used
    | revoked =>
      simp only [AppKey.revoked]
      split
      · exact ⟨inUse, rfl, nofun, fun _ => ⟨nofun, fun _ => rfl⟩⟩
      · rename_i current
        exact ⟨inUse, rfl, id, fun _ => ⟨nofun, fun _ => by simpa using current⟩⟩
    | added | updated | swapped => exact ⟨inUse, rfl, id, fun _ => ⟨nofun, nofun⟩⟩

variable {sub : Subnet}

theorem AppOk.moved {evt : KeyEvt}
    (ok : AppOk subs app) (found : subs[slot]? = some sub)
    (follows : sub.netIdx ≠ keyUnused → evt ≠ .deleted →
      written.netIdx = sub.netIdx ∧
        (evt ≠ .revoked → sub.krPhase = .phase1 ∨ sub.krPhase = .phase2 →
          written.krPhase = .phase1 ∨ written.krPhase = .phase2)) :
    AppOk (subs.set slot written) (appOnSubnetEvt sub.netIdx evt app) := by
  intro used
  obtain ⟨inUse, netIdx, updated, concerned⟩ :=
    appOnSubnetEvt_kept sub.netIdx evt app used
  obtain ⟨named, place, belongs, stored, same, phases⟩ := ok inUse
  rw [netIdx]
  refine ⟨named, ?_⟩
  by_cases here : place = slot
  · subst here
    rw [found, some_inj] at stored
    subst stored
    obtain ⟨notDeleted, revoked⟩ := concerned same.symm
    obtain ⟨index, phase⟩ := follows (by rw [same]; exact named) notDeleted
    refine ⟨place, written, getElem?_set_found found written, index.trans same, ?_⟩
    intro isUpdated
    apply phase
    · intro isRevoked
      rw [revoked isRevoked] at isUpdated
      cases isUpdated
    · exact phases (updated isUpdated)
  · refine ⟨place, belongs, ?_, same, fun isUpdated => phases (updated isUpdated)⟩
    rw [getElem?_set_ne (Ne.symm here)]
    exact stored

theorem AppOk.rewritten (ok : AppOk subs app) (found : subs[slot]? = some sub)
    (follows : sub.netIdx ≠ keyUnused → written.netIdx = sub.netIdx ∧
      (sub.krPhase = .phase1 ∨ sub.krPhase = .phase2 →
        written.krPhase = .phase1 ∨ written.krPhase = .phase2)) :
    AppOk (subs.set slot written) app := by
  have moved : AppOk (subs.set slot written)
      (appOnSubnetEvt sub.netIdx .added app) :=
    ok.moved found fun used _ => ⟨(follows used).1, fun _ => (follows used).2⟩
  simpa [appOnSubnetEvt] using moved

theorem appSubnetEvt_appsOk {evt : KeyEvt}
    (ok : ∀ app ∈ apps, AppOk subs app) (found : subs[slot]? = some sub)
    (follows : sub.netIdx ≠ keyUnused → evt ≠ .deleted →
      written.netIdx = sub.netIdx ∧
        (evt ≠ .revoked → sub.krPhase = .phase1 ∨ sub.krPhase = .phase2 →
          written.krPhase = .phase1 ∨ written.krPhase = .phase2)) :
    ∀ app ∈ (appSubnetEvt apps sub.netIdx evt).apps,
      AppOk (subs.set slot written) app := by
  intro app member
  obtain ⟨before, old, rfl⟩ := mem_map.mp member
  exact (ok before old).moved found follows

theorem appSubnetChange_stored (subs : List Subnet) (change : SubnetChange)
    (stored : appStored apps key) :
    appStored (appSubnetChange subs change apps).apps key ∨
      (key, .deleted) ∈ (appSubnetChange subs change apps).evts := by
  unfold appSubnetChange
  split
  · exact .inl stored
  split
  · exact .inl stored
  · exact appSubnetEvt_stored _ _ stored

theorem SubnetEffect.appsOk {cfg : Config} {crypto : Crypto} {change : SubnetChange}
    (effect : SubnetEffect cfg crypto subs change)
    (ok : ∀ app ∈ apps, AppOk subs app) :
    ∀ app ∈ (appSubnetChange subs change apps).apps, AppOk change.table app := by
  cases effect with
  | unchanged => exact ok
  | spoiled idx keys found =>
    intro app member
    exact (ok app member).rewritten found fun _ => ⟨rfl, id⟩
  | @created slot sub idx keys netIdx evt found free named absent derived raised =>
    rcases raised with rfl | rfl
    · intro app member
      exact (ok app member).rewritten found fun used => absurd free used
    · simp only [appSubnetChange, found]
      exact appSubnetEvt_appsOk ok found fun used => absurd free used
  | updated keys found =>
    simp only [appSubnetChange, found]
    exact appSubnetEvt_appsOk ok found fun _ _ => ⟨rfl, fun _ _ => .inl rfl⟩
  | swapped found =>
    simp only [appSubnetChange, found]
    exact appSubnetEvt_appsOk ok found fun _ _ => ⟨rfl, fun _ _ => .inr rfl⟩
  | revoked found =>
    simp only [appSubnetChange, found]
    exact appSubnetEvt_appsOk ok found fun _ _ =>
      ⟨rfl, fun notRevoked => absurd rfl notRevoked⟩
  | deleted found =>
    simp only [appSubnetChange, found]
    exact appSubnetEvt_appsOk ok found fun _ notDeleted => absurd rfl notDeleted

end Apps

section Steps

variable {count : Nat} {cfg : Config} {crypto : Crypto}

variable {state : KeyTables count} {mod : Fin count} {access : CfgState count}

structure KeyTablesOk (cfg : Config) (crypto : Crypto) (state : KeyTables count) :
    Prop where
  subs : TableOk cfg crypto state.subs
  apps : ∀ app ∈ state.apps, AppOk state.subs app
  models : ∀ mod, BindingsOk (appStored state.apps) (state.access.models mod)

section

variable (ok : KeyTablesOk cfg crypto state)
include ok

theorem KeyTablesOk.withApps (subsOk : TableOk cfg crypto subs)
    (appsOk : ∀ app ∈ change.apps, AppOk subs app)
    (stored : ∀ key, appStored state.apps key →
      appStored change.apps key ∨ (key, .deleted) ∈ change.evts) :
    KeyTablesOk cfg crypto ({ state with subs := subs }.appChange cfg change) := by
  refine ⟨subsOk, appsOk, ?_⟩
  intro mod
  have bindings := ok.models mod
  apply appKeyEvts_ok
  refine ⟨?_, bindings.published⟩
  intro key member used notDev
  exact stored key (bindings.bound key member used notDev)

theorem KeyTablesOk.subnetChange {change : SubnetChange}
    (effect : SubnetEffect cfg crypto state.subs change) :
    KeyTablesOk cfg crypto (state.subnetChange cfg change) :=
  ok.withApps (effect.tableOk ok.subs) (effect.appsOk ok.apps)
    (fun _ => appSubnetChange_stored state.subs change)

theorem KeyTablesOk.appChange
    (effect : AppEffect state.subs state.apps change) :
    KeyTablesOk cfg crypto (state.appChange cfg change) :=
  ok.withApps ok.subs (effect.appsOk ok.apps) (fun _ => effect.stored)

theorem KeyTablesOk.subnetDel (netIdx : Nat) :
    KeyTablesOk cfg crypto
      (state.subnetChange cfg (subnetDel state.subs netIdx).2) := by
  unfold Mesh.subnetDel
  split
  · exact ok.subnetChange .unchanged
  rename_i slot got
  obtain ⟨_, found, _⟩ := subnetGet_some got
  apply ok.withApps
  · exact ok.subs.set (.empty cfg crypto) fun contrary => absurd rfl contrary
  · simp only [appSubnetChange, found]
    exact appSubnetEvt_appsOk ok.apps found fun _ notDeleted =>
      absurd rfl notDeleted
  · intro key
    exact appSubnetChange_stored state.subs _

end

variable {stored : Nat → Prop}

theorem BindingsOk.congr {before after : Model}
    (ok : BindingsOk stored before) (keys : after.keys = before.keys)
    (pub : after.pub = before.pub) : BindingsOk stored after := by
  constructor
  · rw [keys]
    exact ok.bound
  · rw [keys, pub]
    exact ok.published

theorem BindingsOk.update {models : Fin count → Model}
    (ok : ∀ mod, BindingsOk stored (models mod)) {model : Model}
    (changed : BindingsOk stored model) (other : Fin count) :
    BindingsOk stored (update models mod model other) := by
  by_cases same : other = mod
  · subst same
    rw [update_self]
    exact changed
  · rw [update_of_ne same]
    exact ok other

theorem modBind_ok (keyIdx : Nat) (mod : Fin count)
    (ok : ∀ mod, BindingsOk (appStored state.apps) (state.access.models mod)) :
    ∀ other, BindingsOk (appStored state.apps)
      ((modBind cfg (appKeyExists state.apps keyIdx) keyIdx mod
        state.access).2.models other) := by
  unfold modBind
  dsimp only
  split
  · exact ok
  rename_i isThere
  split
  · exact ok
  rename_i unbound
  split
  · exact ok
  rename_i entry free
  obtain ⟨inside, unused, _⟩ := findIdx?_eq_some_iff_getElem.mp free
  have here : (state.access.models mod).keys[entry]? = some keyUnused := by
    rw [getElem?_eq_getElem inside]
    simpa using unused
  have used : keyIdx ≠ keyUnused := by
    rintro rfl
    exact unbound (contains_iff_mem.mpr (mem_of_getElem? here))
  have stored : appStored state.apps keyIdx :=
    ⟨used, (appKeyExists_iff ..).mp (by simpa using isThere)⟩
  apply BindingsOk.update ok
  constructor
  · intro key member inUse notDev
    rcases mem_or_eq_of_mem_set member with old | rfl
    · exact (ok mod).bound key old inUse notDev
    · exact stored
  · intro pub current active
    obtain ⟨member, inUse, notDev⟩ := (ok mod).published pub current active
    refine ⟨?_, inUse, notDev⟩
    rcases mem_set_or here keyIdx member with unused | kept
    · exact absurd unused inUse
    · exact kept

theorem modBind_success {keyIdx : Nat}
    (unambiguous : keyIdx = keyUnused → appKeyExists apps keyIdx = false)
    (success : (modBind cfg (appKeyExists apps keyIdx) keyIdx mod access).1 =
      .success) : appStored apps keyIdx ∧
      keyIdx ∈ ((modBind cfg (appKeyExists apps keyIdx) keyIdx mod
        access).2.models mod).keys := by
  unfold modBind at success ⊢
  by_cases isThere : appKeyExists apps keyIdx = true
  · have stored : appStored apps keyIdx := by
      refine ⟨?_, (appKeyExists_iff ..).mp isThere⟩
      intro unused
      rw [unambiguous unused] at isThere
      cases isThere
    refine ⟨stored, ?_⟩
    rw [isThere] at success ⊢
    simp only [Bool.not_true, false_eq_true, if_false] at success ⊢
    split at success
    · rename_i bound
      rw [if_pos bound]
      exact contains_iff_mem.mp bound
    · rename_i unbound
      rw [if_neg unbound]
      split at success
      · cases success
      rename_i entry free
      obtain ⟨inside, _, _⟩ := findIdx?_eq_some_iff_getElem.mp free
      simp only [CfgState.setModel, update_self]
      exact mem_set_self (getElem?_eq_getElem inside) keyIdx
  · rw [not_eq_true] at isThere
    rw [isThere] at success
    cases success

theorem modUnbind_ok (keyExists : Bool) (keyIdx : Nat)
    (mod : Fin count) (ok : ∀ mod, BindingsOk stored (access.models mod)) :
    ∀ other, BindingsOk stored
      ((modUnbind cfg keyExists keyIdx mod access).2.models other) := by
  cases keyExists with
  | false => exact ok
  | true =>
    obtain ⟨_, models, unbinds, gone⟩ := modUnbind_spec cfg keyIdx mod access
    rw [models]
    apply BindingsOk.update ok
    exact (ok mod).unbind unbinds gone fun _ _ isStored => isStored

theorem CfgMsg.resolve_publishes {msg : CfgMsg} {params : PubParams}
    {keyExists : Bool}
    (published : (msg.resolve apps).publishes = some (params, keyExists)) :
    params.appIdx < 2 ^ 12 ∧ keyExists = appKeyExists apps params.appIdx := by
  cases msg with
  | pubSet =>
    cases published
    exact ⟨Nat.mod_lt _ (by decide), rfl⟩
  | pubVaSet =>
    cases published
    exact ⟨Nat.mod_lt _ (by decide), rfl⟩
  | subAdd => cases published
  | subDel => cases published
  | subOverwrite => cases published
  | subDelAll => cases published
  | subVaAdd => cases published
  | subVaDel => cases published
  | subVaOverwrite => cases published

theorem modelHasKey_bound {model : Model} (small : key < 2 ^ 12)
    (bound : modelHasKey model key = true) : key ∈ model.keys := by
  obtain ⟨_, member, same⟩ := any_eq_true.mp bound
  simp only [or_eq_true, and_eq_true, decide_eq_true_eq] at same
  rcases same with rfl | ⟨_, dev | dev⟩
  · exact member
  · omega
  · omega

theorem ModelsEffect.bindingsOk {mac : LabelMac} {comp : Comp count} {msg : CfgMsg}
    {after : Fin count → Model}
    (effect : ModelsEffect cfg mac comp mod access (msg.resolve apps) after)
    (ok : ∀ mod, BindingsOk stored (access.models mod)) :
    ∀ other, BindingsOk stored (after other) := by
  have cleared : ∀ other, BindingsOk stored
      (clearedModels comp mod access.models other) := by
    intro other
    unfold clearedModels
    split
    · exact (ok other).congr rfl rfl
    · exact ok other
  cases effect with
  | kept => exact ok
  | stored target => exact BindingsOk.update ok ((ok target).congr rfl rfl)
  | overwritten => exact BindingsOk.update cleared ((cleared mod).congr rfl rfl)
  | emptied => exact BindingsOk.update cleared ((cleared mod).congr rfl rfl)
  | pubCleared =>
    apply BindingsOk.update ok
    refine ⟨(ok mod).bound, ?_⟩
    intro left isLeft active
    cases isLeft
    exact absurd rfl active
  | pubAssigned pub addr params here published bound =>
    obtain ⟨small, _⟩ := CfgMsg.resolve_publishes published
    apply BindingsOk.update ok
    refine ⟨(ok mod).bound, ?_⟩
    intro new isNew active
    cases isNew
    refine ⟨modelHasKey_bound small bound, ?_, ?_⟩
    · intro unused
      have small : params.appIdx < 2 ^ 12 := small
      have equal : params.appIdx = 0xffff := unused
      omega
    · intro dev
      have small : params.appIdx < 2 ^ 12 := small
      have range : 0xfffc ≤ params.appIdx := dev.1
      omega

theorem cfgMsg_bindingsOk (mac : LabelMac) (comp : Comp count) (apps : List AppKey)
    (msg : CfgMsg)
    (ok : ∀ mod, BindingsOk stored (access.models mod)) : ∀ mod, BindingsOk stored
      ((cfgMsg cfg mac comp access (msg.resolve apps)).1.models mod) := by
  rcases cfgMsg_cases cfg mac comp access (msg.resolve apps) with
    ⟨answer, result⟩ | ⟨target, _, _, result⟩
  · rw [result]
    exact ok
  · rw [result]
    exact (cfgModelMsg_effect cfg mac comp target access _).bindingsOk ok

end Steps

section Runs

variable {count : Nat} (cfg : Config) (crypto : Crypto) (appId : AppId)
variable (mac : LabelMac) (comp : Comp count) (self : Fin count)

/-- Where an operation looks for an entry, the index that marks free entries is
not given while there is a free one. -/
def keyAdmitted (state : KeyTables count) : KeyInput → Prop
  | .subnetUpdate netIdx _ | .appKeyAdd _ netIdx _ =>
    netIdx.toNat = keyUnused → subnetGet state.subs keyUnused = none
  | .appBind _ _ keyIdx =>
    keyIdx.toNat = keyUnused → appKeyExists state.apps keyUnused = false
  | .subnetAdd _ _ | .subnetDel _ | .krPhaseSet _ _ | .krUpdate _ _ _
  | .appKeyUpdate _ _ _ | .appKeyDel _ _ | .appUnbind _ _ _ | .config _ => True

structure KeysConsistent (state : KeyTables count) : Prop where
  named : ∀ app ∈ state.apps, app.appIdx ≠ keyUnused →
    app.netIdx ≠ keyUnused ∧ ∃ sub ∈ state.subs, sub.netIdx = app.netIdx
  updated : ∀ app ∈ state.apps, app.appIdx ≠ keyUnused → app.updated = true →
    ∀ sub ∈ state.subs, sub.netIdx = app.netIdx →
      sub.krPhase = .phase1 ∨ sub.krPhase = .phase2
  refresh : ∀ sub ∈ state.subs, sub.netIdx ≠ keyUnused →
    (sub.keys.new.valid = true ↔ sub.krPhase ≠ .normal)
  bound : ∀ mod, ∀ key ∈ (state.access.models mod).keys, key ≠ keyUnused →
    ¬ isDevEntry key → appStored state.apps key
  published : ∀ mod pub, (state.access.models mod).pub = some pub →
    pub.addr ≠ addrUnassigned → appStored state.apps pub.key

def BindAnswered (state after : KeyTables count) (answers : List Answer) :
    KeyInput → Prop
  | .appBind elemAddr id keyIdx =>
    .ok .success ∈ answers →
      appStored state.apps keyIdx.toNat ∧ appStored after.apps keyIdx.toNat ∧
        ∃ mod, modelLookup comp elemAddr id = .ok mod ∧
          keyIdx.toNat ∈ (after.access.models mod).keys
  | _ => True

def KeysKept (state : KeyTables count) (input : KeyInput) : Prop :=
  let machine := keyMachine cfg crypto appId mac comp self
  KeysConsistent (machine.next state input) ∧
    BindAnswered comp state (machine.next state input) (machine.emit state input)
      input

variable {cfg crypto}

theorem KeyTablesOk.consistent {state : KeyTables count}
    (ok : KeyTablesOk cfg crypto state) : KeysConsistent state where
  named app member used := by
    obtain ⟨inUse, slot, sub, stored, same, _⟩ := ok.apps app member used
    exact ⟨inUse, sub, mem_of_getElem? stored, same⟩
  updated app member used isUpdated sub isSub same := by
    obtain ⟨inUse, slot, belongs, stored, belongsSame, phases⟩ :=
      ok.apps app member used
    obtain ⟨place, here⟩ := getElem?_of_mem isSub
    have equal := ok.subs.unique place slot sub belongs here stored
      (same.trans belongsSame.symm) (by rw [same]; exact inUse)
    subst equal
    rw [stored, some_inj] at here
    subst here
    exact phases isUpdated
  refresh sub isSub used := by
    obtain ⟨slot, here⟩ := getElem?_of_mem isSub
    have fine := ok.subs.each slot sub here
    constructor
    · intro valid normal
      rw [(fine.normal used normal).2] at valid
      cases valid
    · exact fine.refresh
  bound mod := (ok.models mod).bound
  published mod pub current active := by
    obtain ⟨member, used, notDev⟩ := (ok.models mod).published pub current active
    exact (ok.models mod).bound pub.key member used notDev

theorem keyStep_ok {state : KeyTables count} (ok : KeyTablesOk cfg crypto state)
    (input : KeyInput) (admitted : keyAdmitted state input) :
    KeyTablesOk cfg crypto
      ((keyMachine cfg crypto appId mac comp self).next state input) := by
  cases input with
  | subnetAdd netIdx key =>
    exact ok.subnetChange (subnetAdd_effect ok.subs netIdx.toNat key)
  | subnetUpdate netIdx key =>
    apply ok.subnetChange
    by_cases unused : netIdx.toNat = keyUnused
    · have missing := admitted unused
      rw [unused]
      simp only [missing]
      exact .unchanged
    · exact subnetUpdate_effect ok.subs unused key
  | subnetDel netIdx => exact ok.subnetDel netIdx.toNat
  | krPhaseSet netIdx phase =>
    exact ok.subnetChange (subnetKrPhaseSet_effect ok.subs netIdx.toNat phase.toNat)
  | krUpdate netIdx krFlag newKey =>
    simp only [Machine.next, keyMachine, keyStep]
    split
    · exact ok
    · rename_i slot got
      exact ok.subnetChange (krUpdate_effect ok.subs slot krFlag newKey)
  | appKeyAdd =>
    apply ok.appChange
    apply appKeyAdd_effect
    intro unused
    rw [unused]
    exact admitted unused
  | appKeyUpdate => exact ok.appChange (appKeyUpdate_effect ..)
  | appKeyDel => exact ok.appChange (appKeyDel_effect ..)
  | appBind elemAddr id keyIdx =>
    simp only [Machine.next, keyMachine, keyStep, modAppBind]
    split
    · exact ok
    split
    · exact ok
    split
    · exact ok
    · exact ⟨ok.subs, ok.apps, modBind_ok keyIdx.toNat _ ok.models⟩
  | appUnbind elemAddr id keyIdx =>
    simp only [Machine.next, keyMachine, keyStep, modAppUnbind]
    split
    · exact ok
    split
    · exact ok
    · exact ⟨ok.subs, ok.apps, modUnbind_ok _ keyIdx.toNat _ ok.models⟩
  | config msg =>
    exact ⟨ok.subs, ok.apps, cfgMsg_bindingsOk mac comp state.apps msg ok.models⟩

theorem keyStep_bindAnswered (state : KeyTables count) (input : KeyInput)
    (admitted : keyAdmitted state input) : BindAnswered comp state
      ((keyMachine cfg crypto appId mac comp self).next state input)
      ((keyMachine cfg crypto appId mac comp self).emit state input) input := by
  cases input with
  | appBind elemAddr id keyIdx =>
    simp only [BindAnswered, Machine.next, Machine.emit, keyMachine, keyStep,
      modAppBind]
    have unambiguous : keyIdx.toNat = keyUnused →
        appKeyExists state.apps keyIdx.toNat = false := by
      intro unused
      rw [unused]
      exact admitted unused
    split
    · intro answer
      simp at answer
    split
    · rename_i status lookup
      intro answer
      obtain rfl : Status.success = status := by simpa using answer
      exact absurd lookup (modelLookup_ne_success comp elemAddr id)
    · rename_i mod lookup
      split
      · intro answer
        simp at answer
      intro answer
      have success := by simpa using answer
      obtain ⟨stored, bound⟩ := modBind_success unambiguous success.symm
      exact ⟨stored, stored, mod, lookup, bound⟩
  | _ => trivial

/-- The key tables stay consistent in every run in which the index that marks
free entries is not mistaken for one of them. -/
theorem keys_consistent {state : KeyTables count}
    (start : KeyTablesOk cfg crypto state) (inputs : List KeyInput)
    (along : (keyMachine cfg crypto appId mac comp self).Along keyAdmitted state
      inputs) : (keyMachine cfg crypto appId mac comp self).Along
      (KeysKept cfg crypto appId mac comp self) state inputs := by
  apply Machine.along_of_along _ start along
  intro before input ok admitted
  have kept := keyStep_ok appId mac comp self ok input admitted
  exact ⟨⟨kept.consistent, keyStep_bindAnswered appId mac comp self before input
    admitted⟩, kept⟩

end Runs

def plainAppId : AppId := fun key => some ((key.setWidth 6).setWidth 8)

def bootKeys : KeyTables 2 where
  subs := emptyTable 2
  apps := List.replicate 2 AppKey.unused
  access :=
    ⟨fun _ => { sampleModel with keys := [keyUnused, keyUnused] },
      List.replicate 2 ⟨0, false, 0, 0⟩⟩

theorem bootKeys_ok (cfg : Config) (crypto : Crypto) :
    KeyTablesOk cfg crypto bootKeys := by
  refine ⟨TableOk.empty cfg crypto 2, ?_, ?_⟩
  · intro app member used
    rw [eq_of_mem_replicate member] at used
    exact absurd rfl used
  · intro mod
    constructor
    · intro key member used
      have unused : key = keyUnused := by simpa [bootKeys] using member
      exact absurd unused used
    · intro pub current active
      cases current
      exact absurd rfl active

-- One name for the proof that the first of the two slots carries.
local instance neZero_two : NeZero 2 := inferInstance

def sampleKeyMachine : Machine (KeyTables 2) KeyInput Answer :=
  keyMachine sampleCfgConfig plainCrypto plainAppId sampleMac sampleComp 0

def sampleKeyRefresh : List KeyInput :=
  [.subnetAdd 0 7, .appKeyAdd 3 0 5, .appBind 1 (.sig 1) 3, .subnetUpdate 0 8,
    .appKeyUpdate 3 0 6, .krPhaseSet 0 3, .subnetDel 0]

theorem keys_consistent_refresh : sampleKeyMachine.Along
      (KeysKept sampleCfgConfig plainCrypto plainAppId sampleMac sampleComp 0)
      bootKeys sampleKeyRefresh := by
  apply keys_consistent plainAppId sampleMac sampleComp 0 (bootKeys_ok _ _)
  refine ⟨trivial, ?_, ?_, ?_, trivial, trivial, trivial, trivial⟩
  · intro unused
    exact absurd unused (by decide)
  · intro unused
    exact absurd unused (by decide)
  · intro unused
    exact absurd unused (by decide)

theorem keys_inconsistent_unused :
    KeyTablesOk sampleCfgConfig plainCrypto bootKeys ∧
      ¬ KeysConsistent (sampleKeyMachine.run bootKeys [.appKeyAdd 3 0xffff 5]) ∧
      ¬ KeysConsistent (sampleKeyMachine.run bootKeys
        [.subnetUpdate 0xffff 8, .subnetAdd 0 7]) ∧
      ¬ BindAnswered sampleComp bootKeys
        (sampleKeyMachine.next bootKeys (.appBind 1 (.sig 1) 0xffff))
        (sampleKeyMachine.emit bootKeys (.appBind 1 (.sig 1) 0xffff))
        (.appBind 1 (.sig 1) 0xffff) := by
  refine ⟨bootKeys_ok _ _, ?_, ?_, ?_⟩
  · intro consistent
    have named := (consistent.named ⟨0xffff, 3, false, ⟨⟨5, 5⟩, .zero⟩⟩
      (by decide +kernel) (by decide)).1
    exact named rfl
  · intro consistent
    have refresh := consistent.refresh
      ⟨0, .normal, ⟨⟨true, 7, ⟨1, 7, 8⟩, 7, 8, 9⟩, ⟨true, 8, ⟨1, 8, 9⟩, 8, 9, 10⟩⟩⟩
      (by decide +kernel) (by decide)
    exact refresh.mp rfl rfl
  · intro answered
    have stored := (answered (by decide +kernel)).1
    exact stored.1 rfl

end ZephyrBluetooth.Mesh
