import ZephyrBluetooth.Mesh.KeyStore
import ZephyrBluetooth.Mesh.KeyTablesOk

namespace ZephyrBluetooth.Mesh

open Data List Option

structure AppKeyStore.Ok (state : AppKeyStore) : Prop where
  unique : KeysUnique AppKey.key state.apps
  coherent : state.saved.Coherent AppKey.Kept KeyIdxHeld
    (slotByKey AppKey.key state.apps)

variable {netIdx : Nat} {evt : KeyEvt}

section AppKeyRecords

variable {cfg : Config} {state : AppKeyStore} {slot : Nat} {app : AppKey}

theorem AppKeyStore.Ok.rewritten (ok : state.Ok) (enabled : cfg.settings = true)
    {updated : AppKey} {appIdx : Nat} {store : Bool}
    (found : state.apps[slot]? = some app) (small : KeyIdxHeld appIdx)
    (before : ∀ idx, app.key = some idx → idx = appIdx)
    (after : updated.key = if store then some appIdx else none)
    (fresh : store = true → app.key = none →
      ∀ other ∈ state.apps, other.key ≠ some appIdx)
    (named : store = false → app.key = some appIdx) :
    Ok ({ state with apps := state.apps.set slot updated }.updateAppKeySettings
      cfg appIdx store) := by
  have unique : KeysUnique AppKey.key (state.apps.set slot updated) := by
    apply ok.unique.set
    intro idx key other twin stored twinKey
    cases store with
    | false => simp [after] at key
    | true =>
      obtain rfl : appIdx = idx := by simpa [after] using key
      cases old : app.key with
      | none => exact absurd twinKey (fresh rfl old twin (mem_of_getElem? stored))
      | some known =>
        obtain rfl := before known old
        exact ok.unique other slot twin app known stored found twinKey old
  constructor
  · unfold updateAppKeySettings
    rw [if_pos enabled]
    exact unique
  · unfold updateAppKeySettings
    rw [if_pos enabled]
    simp only [storeAppKey_lookup]
    apply ok.coherent.note_set AppKey.kept_record ok.unique unique found small
      (heldKeyIdx_eq small) before
    · rw [after]
      cases store <;> rfl
    · intro clears
      apply named
      simpa using clears
    · exact appAt_eq _ small.ne_unused

theorem AppKeyStore.delete_eq (enabled : cfg.settings = true)
    (state : AppKeyStore) (slot : Nat) (app : AppKey) :
    state.delete cfg slot app =
      { state with apps := state.apps.set slot app.deleted }.updateAppKeySettings
        cfg app.appIdx false := by
  simp only [AppKeyStore.delete, updateAppKeySettings, if_pos enabled,
    Bool.not_false]
  rw [WriteBehind.note_clear _ _ (storeAppKey (state.apps.set slot app.deleted))]

theorem AppKeyStore.Ok.delete (ok : state.Ok) (enabled : cfg.settings = true)
    (found : state.apps[slot]? = some app) (small : KeyIdxHeld app.appIdx) :
    (state.delete cfg slot app).Ok := by
  have named : app.key = some app.appIdx :=
    AppKey.key_eq_some.mpr ⟨rfl, small.ne_unused⟩
  rw [delete_eq enabled]
  apply ok.rewritten enabled found small
  · intro idx key
    rw [named] at key
    exact (some.inj key).symm
  · rfl
  · intro contrary
    cases contrary
  · exact fun _ => named

theorem AppKey.revoked_appIdx (app : AppKey) : app.revoked.appIdx = app.appIdx := by
  unfold AppKey.revoked
  split <;> rfl

theorem AppKeyStore.Ok.revoke (ok : state.Ok) (enabled : cfg.settings = true)
    (found : state.apps[slot]? = some app) (small : KeyIdxHeld app.appIdx) :
    (state.revoke cfg slot app).Ok := by
  have named : app.key = some app.appIdx :=
    AppKey.key_eq_some.mpr ⟨rfl, small.ne_unused⟩
  unfold AppKeyStore.revoke
  split
  · apply ok.rewritten enabled found small
    · intro idx key
      rw [named] at key
      exact (some.inj key).symm
    · rw [if_pos rfl]
      exact AppKey.key_eq_some.mpr ⟨app.revoked_appIdx, small.ne_unused⟩
    · intro _ free
      rw [named] at free
      cases free
    · intro contrary
      cases contrary
  · exact ok

def AppIdxsHeld (apps : List AppKey) (netIdx : Nat) : Prop :=
  ∀ app ∈ apps, app.appIdx ≠ keyUnused → app.netIdx = netIdx → KeyIdxHeld app.appIdx

theorem AppIdxsHeld.set {apps : List AppKey} {updated : AppKey}
    (held : AppIdxsHeld apps netIdx)
    (fits : updated.appIdx ≠ keyUnused → updated.netIdx = netIdx →
      KeyIdxHeld updated.appIdx) :
    AppIdxsHeld (apps.set slot updated) netIdx := by
  intro app member used same
  rcases mem_or_eq_of_mem_set member with before | rfl
  · exact held app before used same
  · exact fits used same

theorem AppKeyStore.updateAppKeySettings_apps (cfg : Config)
    (state : AppKeyStore) (appIdx : Nat) (store : Bool) :
    (state.updateAppKeySettings cfg appIdx store).apps = state.apps := by
  unfold updateAppKeySettings
  split <;> rfl

theorem AppIdxsHeld.revoke (held : AppIdxsHeld state.apps netIdx)
    (small : KeyIdxHeld app.appIdx) :
    AppIdxsHeld (state.revoke cfg slot app).apps netIdx := by
  unfold AppKeyStore.revoke
  split
  · rw [AppKeyStore.updateAppKeySettings_apps]
    apply held.set
    intro _ _
    rw [app.revoked_appIdx]
    exact small
  · exact held

theorem AppKeyStore.Ok.subnetEvtAt (enabled : cfg.settings = true)
    (netIdx : Nat) (evt : KeyEvt) (slot : Nat) (ok : state.Ok)
    (held : AppIdxsHeld state.apps netIdx) :
    (state.subnetEvtAt cfg netIdx evt slot).Ok ∧
      AppIdxsHeld (state.subnetEvtAt cfg netIdx evt slot).apps netIdx := by
  unfold AppKeyStore.subnetEvtAt
  split
  · exact ⟨ok, held⟩
  next app found =>
    split
    · exact ⟨ok, held⟩
    next mine =>
      obtain ⟨used, same⟩ := not_or.mp mine
      have small := held app (mem_of_getElem? found) used (Decidable.not_not.mp same)
      cases evt with
      | deleted =>
        refine ⟨ok.delete enabled found small, held.set ?_⟩
        intro contrary
        exact absurd rfl contrary
      | revoked => exact ⟨ok.revoke enabled found small, held.revoke small⟩
      | added => exact ⟨ok, held⟩
      | updated => exact ⟨ok, held⟩
      | swapped => exact ⟨ok, held⟩

theorem AppKeyStore.Ok.subnetEvt (enabled : cfg.settings = true) (netIdx : Nat)
    (evt : KeyEvt) (ok : state.Ok) (held : AppIdxsHeld state.apps netIdx) :
    (state.subnetEvt cfg netIdx evt).Ok := by
  unfold AppKeyStore.subnetEvt
  generalize range state.apps.length = slots
  induction slots generalizing state with
  | nil => exact ok
  | cons slot rest ih =>
    obtain ⟨next, nextHeld⟩ := ok.subnetEvtAt enabled netIdx evt slot held
    exact ih next nextHeld

theorem AppKeyStore.subnetEvt_quiet (cfg : Config) (state : AppKeyStore)
    (netIdx : Nat) (stays : evt ≠ .deleted)
    (valid : evt ≠ .revoked) : state.subnetEvt cfg netIdx evt = state := by
  unfold AppKeyStore.subnetEvt
  induction range state.apps.length with
  | nil => rfl
  | cons slot rest ih =>
    have quiet : state.subnetEvtAt cfg netIdx evt slot = state := by
      unfold AppKeyStore.subnetEvtAt
      cases evt with
      | deleted => exact absurd rfl stays
      | revoked => exact absurd rfl valid
      | _ => split <;> simp
    rw [foldl_cons, quiet]
    exact ih

end AppKeyRecords

section AppKeyOperations

variable {apps : List AppKey} {appIdx : Nat}

inductive AppRewrite (appIdx : Nat) (apps : List AppKey) : AppChange → Prop
  | unchanged : AppRewrite appIdx apps (.none apps)
  | stored {slot : Nat} {app updated : AppKey} (evt : KeyEvt)
      (found : apps[slot]? = some app)
      (before : app.appIdx = appIdx ∨
        app.appIdx = keyUnused ∧ ∀ other ∈ apps, other.appIdx ≠ appIdx)
      (after : updated.appIdx = appIdx)
      (stores : evt = .added ∨ evt = .updated) :
      AppRewrite appIdx apps ⟨apps.set slot updated, [(appIdx, evt)]⟩
  | deleted {slot : Nat} {app : AppKey} (found : apps[slot]? = some app)
      (before : app.appIdx = appIdx) :
      AppRewrite appIdx apps ⟨apps.set slot app.deleted, [(appIdx, .deleted)]⟩

theorem appKeyAdd_rewrite (appId : AppId) (subs : List Subnet)
    (apps : List AppKey) (appIdx netIdx : Nat) (key : Key) :
    AppRewrite appIdx apps (appKeyAdd appId subs apps appIdx netIdx key).2 := by
  unfold appKeyAdd
  split
  · exact .unchanged
  split
  · exact .unchanged
  rename_i slot allocated
  split
  · exact .unchanged
  rename_i app found
  split
  · split
    · exact .unchanged
    · split <;> exact .unchanged
  · rename_i fresh
    obtain ⟨free, _, absent⟩ := appKeyAlloc_free allocated found fresh
    split
    · exact .unchanged
    · exact .stored .added found (.inr ⟨free, absent⟩) rfl (.inl rfl)

theorem appKeyUpdate_rewrite (appId : AppId) (subs : List Subnet)
    (apps : List AppKey) (appIdx netIdx : Nat) (key : Key) :
    AppRewrite appIdx apps (appKeyUpdate appId subs apps appIdx netIdx key).2 := by
  unfold appKeyUpdate
  split
  · exact .unchanged
  rename_i slot located
  split
  · exact .unchanged
  rename_i app found
  obtain ⟨_, storedAt, same⟩ := appGet_some located
  rw [found] at storedAt
  cases storedAt
  split
  · exact .unchanged
  split
  · exact .unchanged
  split
  · exact .unchanged
  split
  · exact .unchanged
  split
  · exact .unchanged
  · simp only [same]
    exact .stored .updated found (.inl same) rfl (.inr rfl)

theorem appKeyDel_rewrite (subs : List Subnet) (apps : List AppKey)
    (appIdx netIdx : Nat) :
    AppRewrite appIdx apps (appKeyDel subs apps appIdx netIdx).2 := by
  unfold appKeyDel
  split
  · exact .unchanged
  split
  · exact .unchanged
  rename_i slot located
  split
  · exact .unchanged
  rename_i app found
  obtain ⟨_, storedAt, same⟩ := appGet_some located
  rw [found] at storedAt
  cases storedAt
  split
  · exact .unchanged
  · simp only [same]
    exact .deleted found same

theorem AppKeyStore.Ok.change {cfg : Config} {state : AppKeyStore}
    {change : AppChange} (ok : state.Ok) (enabled : cfg.settings = true)
    (small : KeyIdxHeld appIdx) (rewrite : AppRewrite appIdx state.apps change) :
    (state.change cfg change).Ok := by
  have used := small.ne_unused
  cases rewrite with
  | unchanged => exact ok
  | @stored slot app updated evt found before after stores =>
    have announced : state.change cfg
          ⟨state.apps.set slot updated, [(appIdx, evt)]⟩ =
        { state with apps := state.apps.set slot updated }.updateAppKeySettings
          cfg appIdx true := by
      rcases stores with rfl | rfl <;> rfl
    rw [announced]
    apply ok.rewritten enabled found small
    · intro idx key
      obtain ⟨same, named⟩ := AppKey.key_eq_some.mp key
      rcases before with old | ⟨free, _⟩
      · exact same.symm.trans old
      · exact absurd (same.symm.trans free) named
    · exact AppKey.key_eq_some.mpr ⟨after, used⟩
    · intro _ free other member key
      rcases before with old | ⟨_, absent⟩
      · rw [AppKey.key_eq_some.mpr ⟨old, used⟩] at free
        cases free
      · exact absent other member (AppKey.key_eq_some.mp key).1
    · intro contrary
      cases contrary
  | @deleted slot app found before =>
    have noted := ok.delete enabled found (before ▸ small)
    have announced : state.change cfg
          ⟨state.apps.set slot app.deleted, [(appIdx, .deleted)]⟩ =
        state.delete cfg slot app := by
      rw [← before]
      exact (AppKeyStore.delete_eq enabled state slot app).symm
    rw [announced]
    exact noted

end AppKeyOperations

section NetKeyRecords

variable {cfg : Config} {crypto : Crypto}

structure NetKeyStore.Ok (cfg : Config) (crypto : Crypto) (state : NetKeyStore) :
    Prop where
  tables : TableOk cfg crypto state.subs
  coherent : state.saved.Coherent Subnet.Kept KeyIdxHeld
    (slotByKey Subnet.key state.subs)

theorem TableOk.keysUnique {subs : List Subnet} (ok : TableOk cfg crypto subs) :
    KeysUnique Subnet.key subs := by
  intro slot other sub twin netIdx here there subKey twinKey
  obtain ⟨same, used⟩ := Subnet.key_eq_some.mp subKey
  obtain ⟨twinSame, _⟩ := Subnet.key_eq_some.mp twinKey
  apply ok.unique slot other sub twin here there
  · exact same.trans twinSame.symm
  · rw [same]
    exact used

variable {state : NetKeyStore} {slot : Nat} {sub updated : Subnet}

theorem NetKeyStore.Ok.rewritten (ok : state.Ok cfg crypto)
    (enabled : cfg.settings = true) {store : Bool}
    (found : state.subs[slot]? = some sub) (small : KeyIdxHeld netIdx)
    (tables : TableOk cfg crypto (state.subs.set slot updated))
    (before : ∀ idx, sub.key = some idx → idx = netIdx)
    (after : updated.key = if store then some netIdx else none)
    (named : store = false → sub.key = some netIdx) :
    Ok cfg crypto
      ({ state with subs := state.subs.set slot updated }.updateSubnetSettings
        cfg netIdx store) := by
  unfold updateSubnetSettings
  rw [if_pos enabled]
  refine ⟨tables, ?_⟩
  simp only [storeSubnet_lookup]
  apply ok.coherent.note_set Subnet.kept_record ok.tables.keysUnique
    tables.keysUnique found small (heldKeyIdx_eq small) before
  · rw [after]
    cases store <;> rfl
  · intro clears
    apply named
    simpa using clears
  · exact subnetAt_eq _ small.ne_unused

theorem NetKeyStore.Ok.kept (ok : state.Ok cfg crypto)
    (found : state.subs[slot]? = some sub)
    (tables : TableOk cfg crypto (state.subs.set slot updated))
    (same : updated.netIdx = sub.netIdx)
    (records : sub.netIdx ≠ keyUnused →
      ∀ record, sub.Kept record → updated.Kept record) :
    Ok cfg crypto { state with subs := state.subs.set slot updated } := by
  refine ⟨tables, ?_⟩
  apply ok.coherent.renew_set ok.tables.keysUnique tables.keysUnique found
  · simp only [Subnet.key, same]
  · intro named
    apply records
    intro free
    simp [Subnet.key, free] at named

theorem Subnet.Kept.spoiled {idx : Bool} {keys : SubnetKeys}
    (left : keys.valid = false) {record : NetKeyVal} (kept : sub.Kept record) :
    Kept { sub with keys := sub.keys.set idx keys } record := by
  refine ⟨kept.1, ?_⟩
  intro other valid
  by_cases same : other = idx
  · subst same
    simp [left] at valid
  obtain rfl := Bool.eq_not_of_ne same
  simp only [Slots.get_set_not] at valid ⊢
  exact kept.2 _ valid

end NetKeyRecords

section NetKeyOperations

variable {cfg : Config} {crypto : Crypto} {table : List Subnet} {netIdx : Nat}

/-- Every change that an operation on the subnet of an index can make, seen from
the records. -/
inductive SubnetRewrite (netIdx : Nat) (table : List Subnet) :
    SubnetChange → Prop
  | unchanged : SubnetRewrite netIdx table (.none table)
  | spoiled {slot : Nat} {sub : Subnet} (idx : Bool) {keys : SubnetKeys}
      (found : table[slot]? = some sub) (left : keys.valid = false) :
      SubnetRewrite netIdx table
        (.none (table.set slot { sub with keys := sub.keys.set idx keys }))
  | stored {slot : Nat} {sub updated : Subnet} (evt : KeyEvt)
      (found : table[slot]? = some sub)
      (before : sub.netIdx = netIdx ∨ sub.netIdx = keyUnused)
      (after : updated.netIdx = netIdx) (stays : evt ≠ .deleted) :
      SubnetRewrite netIdx table ⟨table.set slot updated, some (slot, evt)⟩
  | deleted {slot : Nat} {sub : Subnet} (found : table[slot]? = some sub)
      (before : sub.netIdx = netIdx) :
      SubnetRewrite netIdx table
        ⟨table.set slot Subnet.unused, some (slot, .deleted)⟩

theorem subnetAdd_rewrite (ok : TableOk cfg crypto table) (netIdx : Nat)
    (key : Key) :
    SubnetRewrite netIdx table (subnetAdd cfg crypto table netIdx key).2 := by
  unfold subnetAdd
  split
  · exact .unchanged
  next slot allocated =>
    split
    · exact .unchanged
    next sub found =>
      split
      · split <;> exact .unchanged
      next fresh =>
        obtain ⟨free, _, _⟩ := subnetAlloc_free allocated found fresh
        have unset := ((ok.each slot sub found).unused free).2.1
        cases outcome : netKeysCreate cfg crypto sub.keys.old key with
        | mk created =>
          cases created with
          | true => exact .stored .added found (.inr free) rfl KeyEvt.noConfusion
          | false =>
            obtain ⟨valid, _⟩ := netKeysCreate_failed outcome
            exact .spoiled false found (valid.trans unset)

variable {slot : Nat}

theorem refreshAt_rewrite {sub : Subnet} (found : table[slot]? = some sub)
    (same : sub.netIdx = netIdx) (newPhase : KrPhase) :
    SubnetRewrite netIdx table (refreshAt table slot sub newPhase) := by
  have revoke : SubnetRewrite netIdx table
      ⟨table.set slot
          { sub with
            krPhase := .normal
            keys := ⟨sub.keys.new, { sub.keys.new with valid := false }⟩ },
        some (slot, .revoked)⟩ :=
    .stored .revoked found (.inl same) same KeyEvt.noConfusion
  cases newPhase with
  | normal => exact revoke
  | phase1 => exact .stored .updated found (.inl same) same KeyEvt.noConfusion
  | phase2 => exact .stored .swapped found (.inl same) same KeyEvt.noConfusion
  | phase3 =>
    by_cases phase : sub.krPhase = .normal
    · have quiet : refreshAt table slot sub .phase3 = .none table := by
        simp [refreshAt, keyRefresh, phase, set_found found, SubnetChange.none]
      rw [quiet]
      exact .unchanged
    · simpa [refreshAt, keyRefresh, phase] using revoke

theorem subnetUpdate_rewrite (ok : TableOk cfg crypto table)
    (named : netIdx ≠ keyUnused) (key : Key) :
    SubnetRewrite netIdx table (subnetUpdate cfg crypto table netIdx key).2 := by
  unfold subnetUpdate
  split
  · exact .unchanged
  next slot got =>
    obtain ⟨sub, found, same⟩ := subnetGet_some got
    have fine := ok.each slot sub found
    rw [found]
    simp only
    split
    next phase =>
      split
      · exact .unchanged
      have unset := (fine.normal (same ▸ named) phase).2
      cases outcome : netKeysCreate cfg crypto sub.keys.new key with
      | mk created =>
        cases created with
        | true => exact .stored .updated found (.inl same) same KeyEvt.noConfusion
        | false =>
          obtain ⟨valid, _⟩ := netKeysCreate_failed outcome
          exact .spoiled true found (valid.trans unset)
    next => split <;> exact .unchanged
    next => exact .unchanged
    next => exact .unchanged

theorem subnetKrPhaseSet_rewrite (table : List Subnet) (netIdx phase : Nat) :
    SubnetRewrite netIdx table (subnetKrPhaseSet table netIdx phase).2.2 := by
  unfold subnetKrPhaseSet
  split
  · exact .unchanged
  next slot got =>
    obtain ⟨_, found, same⟩ := subnetGet_some got
    rw [found]
    simp only
    split
    · exact .unchanged
    split
    · exact .unchanged
    next newPhase _ =>
      split
      · exact refreshAt_rewrite found same newPhase
      · exact .unchanged

theorem krUpdate_rewrite
    (got : subnetGet table netIdx = some slot) (krFlag newKey : Bool) :
    SubnetRewrite netIdx table (krUpdate table slot krFlag newKey) := by
  obtain ⟨_, found, same⟩ := subnetGet_some got
  unfold krUpdate
  rw [found]
  simp only
  split
  · exact .unchanged
  split
  · exact refreshAt_rewrite found same _
  split
  · exact refreshAt_rewrite found same _
  · exact .unchanged

theorem subnetDel_rewrite (table : List Subnet) (netIdx : Nat) :
    SubnetRewrite netIdx table (subnetDel table netIdx).2 := by
  unfold subnetDel
  split
  · exact .unchanged
  next slot got =>
    obtain ⟨_, found, same⟩ := subnetGet_some got
    exact .deleted found same

theorem subnetAdd_evt {key : Key}
    (raised : (subnetAdd cfg crypto table netIdx key).2.evt = some (slot, evt)) :
    evt = .added := by
  unfold subnetAdd at raised
  grind [SubnetChange.none]

theorem subnetUpdate_evt {key : Key}
    (raised : (subnetUpdate cfg crypto table netIdx key).2.evt = some (slot, evt)) :
    evt = .updated := by
  unfold subnetUpdate at raised
  grind [SubnetChange.none, refreshAt, keyRefresh]

/-- `bt_mesh_subnet_set` writes into a free slot; if it fails, the slot stays
free. -/
inductive SubnetSetEffect (netIdx : Nat) (table : List Subnet) :
    Except Errno Unit × List Subnet → Prop
  | refused (err : Errno) : SubnetSetEffect netIdx table (.error err, table)
  | spoiled {slot : Nat} {sub updated : Subnet} (err : Errno)
      (found : table[slot]? = some sub) (free : sub.netIdx = keyUnused)
      (left : updated.netIdx = keyUnused) :
      SubnetSetEffect netIdx table (.error err, table.set slot updated)
  | created {slot : Nat} {sub updated : Subnet}
      (found : table[slot]? = some sub) (free : sub.netIdx = keyUnused)
      (named : updated.netIdx = netIdx) :
      SubnetSetEffect netIdx table (.ok (), table.set slot updated)

theorem subnetSet_setEffect (cfg : Config) (crypto : Crypto)
    (table : List Subnet) (netIdx : Nat) (krPhase : KrPhase)
    (oldKey newKey : Option Key) : SubnetSetEffect netIdx table
      (subnetSet cfg crypto table netIdx krPhase oldKey newKey) := by
  unfold subnetSet
  split
  · exact .refused .noMem
  next slot allocated =>
    split
    · exact .refused .noMem
    next sub found =>
      split
      · exact .refused .already
      next fresh =>
        obtain ⟨free, _, _⟩ := subnetAlloc_free allocated found fresh
        dsimp only
        split
        · exact .spoiled .io found free free
        split
        · exact .spoiled .io found free free
        · exact .created found free rfl

theorem netCreateSubnet_setEffect (cfg : Config) (crypto : Crypto)
    (table : List Subnet) (netIdx flags : Nat) (key : Key) :
    SubnetSetEffect netIdx table
      (netCreateSubnet cfg crypto table netIdx flags key) := by
  unfold netCreateSubnet
  split
  · exact subnetSet_setEffect ..
  · exact subnetSet_setEffect ..

theorem netCreateSubnet_tableOk (ok : TableOk cfg crypto table)
    (netIdx flags : Nat) (key : Key) :
    TableOk cfg crypto (netCreateSubnet cfg crypto table netIdx flags key).2 := by
  unfold netCreateSubnet
  split
  · exact (subnetSet_effect ok netIdx key true).tableOk ok
  · exact (subnetSet_effect ok netIdx key false).tableOk ok

theorem NetKeyStore.Ok.netCreate {state : NetKeyStore}
    (ok : state.Ok cfg crypto) (enabled : cfg.settings = true)
    (small : KeyIdxHeld netIdx) (flags : Nat) (key : Key) :
    (state.netCreate cfg crypto netIdx flags key).Ok cfg crypto := by
  have tables := netCreateSubnet_tableOk ok.tables netIdx flags key
  have effect := netCreateSubnet_setEffect cfg crypto state.subs netIdx flags key
  unfold NetKeyStore.netCreate
  generalize netCreateSubnet cfg crypto state.subs netIdx flags key = outcome
    at tables effect
  cases effect with
  | refused => exact ok
  | spoiled err found free left =>
    apply ok.kept found tables (left.trans free.symm)
    exact fun used => absurd free used
  | created found free named =>
    apply ok.rewritten enabled found small tables
    · intro idx subKey
      obtain ⟨same, used⟩ := Subnet.key_eq_some.mp subKey
      exact absurd (same.symm.trans free) used
    · exact Subnet.key_eq_some.mpr ⟨named, small.ne_unused⟩
    · intro contrary
      cases contrary

end NetKeyOperations

structure KeyStore.Ok (cfg : Config) (crypto : Crypto) (state : KeyStore) :
    Prop where
  net : state.net.Ok cfg crypto
  app : state.app.Ok

section Runs

variable {cfg : Config} {crypto : Crypto} {state : KeyStore} {netIdx : Nat}

theorem KeyStore.Ok.subnetChange {change : SubnetChange}
    (ok : state.Ok cfg crypto) (enabled : cfg.settings = true)
    (small : KeyIdxHeld netIdx)
    (held : (∃ slot, change.evt = some (slot, .deleted) ∨
        change.evt = some (slot, .revoked)) → AppIdxsHeld state.app.apps netIdx)
    (rewrite : SubnetRewrite netIdx state.net.subs change)
    (tables : TableOk cfg crypto change.table) :
    (state.subnetChange cfg change).Ok cfg crypto := by
  cases rewrite with
  | unchanged => exact ok
  | spoiled idx found left =>
    exact ⟨ok.net.kept found tables rfl fun _ _ kept => kept.spoiled left, ok.app⟩
  | @stored slot sub updated evt found before after stays =>
    obtain ⟨bound, _⟩ := List.getElem?_eq_some_iff.mp found
    have here : (state.net.subs.set slot updated)[slot]? = some updated :=
      getElem?_set_self bound
    have noted : state.subnetChange cfg
          ⟨state.net.subs.set slot updated, some (slot, evt)⟩ =
        ⟨{ state.net with
            subs := state.net.subs.set slot updated }.updateSubnetSettings cfg
              netIdx true,
          state.app.subnetEvt cfg netIdx evt⟩ := by
      cases evt with
      | deleted => exact absurd rfl stays
      | _ => simp only [KeyStore.subnetChange, here, after]
    rw [noted]
    refine ⟨ok.net.rewritten enabled found small tables ?_ ?_ ?_, ?_⟩
    · intro idx key
      obtain ⟨same, used⟩ := Subnet.key_eq_some.mp key
      rcases before with mine | free
      · exact same.symm.trans mine
      · exact absurd (same.symm.trans free) used
    · exact Subnet.key_eq_some.mpr ⟨after, small.ne_unused⟩
    · intro contrary
      cases contrary
    · by_cases revoked : evt = .revoked
      · apply ok.app.subnetEvt enabled
        apply held
        exact ⟨slot, .inr (by rw [revoked])⟩
      · dsimp only
        rw [state.app.subnetEvt_quiet cfg netIdx stays revoked]
        exact ok.app
  | @deleted slot sub found before =>
    have noted : state.subnetChange cfg
          ⟨state.net.subs.set slot Subnet.unused, some (slot, .deleted)⟩ =
        ⟨{ state.net with
            subs := state.net.subs.set slot Subnet.unused
            }.updateSubnetSettings cfg netIdx false,
          state.app.subnetEvt cfg netIdx .deleted⟩ := by
      simp only [KeyStore.subnetChange, found, before,
        NetKeyStore.updateSubnetSettings, if_pos enabled, Bool.not_false]
      rw [WriteBehind.note_clear _ _
        (storeSubnet (state.net.subs.set slot Subnet.unused))]
    have named : sub.key = some netIdx :=
      Subnet.key_eq_some.mpr ⟨before, small.ne_unused⟩
    rw [noted]
    refine ⟨ok.net.rewritten enabled found small tables ?_ rfl fun _ => named, ?_⟩
    · intro idx key
      rw [named] at key
      exact (some.inj key).symm
    · exact ok.app.subnetEvt enabled netIdx .deleted (held ⟨slot, .inl rfl⟩)

def keyStoreAdmitted (state : KeyStore) : KeyStoreInput → Prop
  | .netCreate netIdx _ _ => KeyIdxHeld netIdx.toNat
  | .subnetAdd netIdx _ => KeyIdxHeld netIdx.toNat
  | .subnetUpdate netIdx _ => KeyIdxHeld netIdx.toNat
  | .subnetDel netIdx | .krPhaseSet netIdx _ | .krUpdate netIdx _ _ =>
    KeyIdxHeld netIdx.toNat ∧ AppIdxsHeld state.app.apps netIdx.toNat
  | .appKeyAdd appIdx _ _ => KeyIdxHeld appIdx.toNat
  | .appKeyUpdate appIdx _ _ => KeyIdxHeld appIdx.toNat
  | .appKeyDel appIdx _ => KeyIdxHeld appIdx.toNat
  | .subnetPendingStore | .appKeyPendingStore => True

instance decidableKeyIdxHeld (idx : Nat) : Decidable (KeyIdxHeld idx) :=
  inferInstanceAs (Decidable (idx < 2 ^ 12))

instance decidableAppIdxsHeld (apps : List AppKey) (netIdx : Nat) :
    Decidable (AppIdxsHeld apps netIdx) :=
  inferInstanceAs (Decidable (∀ app ∈ apps, app.appIdx ≠ keyUnused →
    app.netIdx = netIdx → KeyIdxHeld app.appIdx))

instance decidableKeyStoreAdmitted (state : KeyStore) :
    ∀ input, Decidable (keyStoreAdmitted state input)
  | .netCreate netIdx _ _ | .subnetAdd netIdx _ | .subnetUpdate netIdx _ =>
    decidableKeyIdxHeld netIdx.toNat
  | .subnetDel netIdx | .krPhaseSet netIdx _ | .krUpdate netIdx _ _ =>
    inferInstanceAs (Decidable (KeyIdxHeld netIdx.toNat ∧
      AppIdxsHeld state.app.apps netIdx.toNat))
  | .appKeyAdd appIdx _ _ | .appKeyUpdate appIdx _ _ | .appKeyDel appIdx _ =>
    decidableKeyIdxHeld appIdx.toNat
  | .subnetPendingStore | .appKeyPendingStore => .isTrue trivial

theorem NetKeyStore.Ok.pendingStore {net : NetKeyStore}
    (ok : net.Ok cfg crypto) : net.pendingStore.Ok cfg crypto := by
  refine ⟨ok.tables, ?_⟩
  unfold NetKeyStore.pendingStore
  simp only [storeSubnet_lookup]
  apply ok.coherent.flush_coherent Subnet.kept_record
  intro write member _
  exact subnetAt_eq _ (ok.coherent.within write member).ne_unused

theorem AppKeyStore.Ok.pendingStore {app : AppKeyStore} (ok : app.Ok) :
    app.pendingStore.Ok := by
  refine ⟨ok.unique, ?_⟩
  unfold AppKeyStore.pendingStore
  simp only [storeAppKey_lookup]
  apply ok.coherent.flush_coherent AppKey.kept_record
  intro write member _
  exact appAt_eq _ (ok.coherent.within write member).ne_unused

theorem keyStoreStep_ok (appId : AppId) (ok : state.Ok cfg crypto)
    (enabled : cfg.settings = true) (input : KeyStoreInput)
    (admitted : keyStoreAdmitted state input) :
    (keyStoreStep cfg crypto appId state input).Ok cfg crypto := by
  have tables := ok.net.tables
  cases input with
  | netCreate netIdx flags key =>
    exact ⟨ok.net.netCreate enabled admitted _ key, ok.app⟩
  | subnetAdd netIdx key =>
    refine ok.subnetChange enabled admitted ?_ (subnetAdd_rewrite tables _ key)
      ((subnetAdd_effect tables _ key).tableOk tables)
    rintro ⟨slot, deleted | revoked⟩
    · cases subnetAdd_evt deleted
    · cases subnetAdd_evt revoked
  | subnetUpdate netIdx key =>
    have named := KeyIdxHeld.ne_unused admitted
    refine ok.subnetChange enabled admitted ?_
      (subnetUpdate_rewrite tables named key)
      ((subnetUpdate_effect tables named key).tableOk tables)
    rintro ⟨slot, deleted | revoked⟩
    · cases subnetUpdate_evt deleted
    · cases subnetUpdate_evt revoked
  | subnetDel =>
    obtain ⟨small, held⟩ := admitted
    exact ok.subnetChange enabled small (fun _ => held)
      (subnetDel_rewrite _ _)
      ((subnetDel_effect small.ne_unused).tableOk tables)
  | krPhaseSet =>
    obtain ⟨small, held⟩ := admitted
    exact ok.subnetChange enabled small (fun _ => held)
      (subnetKrPhaseSet_rewrite _ _ _)
      ((subnetKrPhaseSet_effect tables _ _).tableOk tables)
  | krUpdate netIdx krFlag newKey =>
    obtain ⟨small, held⟩ := admitted
    unfold keyStoreStep
    dsimp only
    split
    · exact ok
    next slot got =>
      exact ok.subnetChange enabled small (fun _ => held)
        (krUpdate_rewrite got krFlag newKey)
        ((krUpdate_effect tables slot krFlag newKey).tableOk tables)
  | appKeyAdd =>
    exact ⟨ok.net, ok.app.change enabled admitted (appKeyAdd_rewrite ..)⟩
  | appKeyUpdate =>
    exact ⟨ok.net, ok.app.change enabled admitted (appKeyUpdate_rewrite ..)⟩
  | appKeyDel =>
    exact ⟨ok.net, ok.app.change enabled admitted (appKeyDel_rewrite ..)⟩
  | subnetPendingStore => exact ⟨ok.net.pendingStore, ok.app⟩
  | appKeyPendingStore => exact ⟨ok.net, ok.app.pendingStore⟩

def KeyStore.pendingStores (state : KeyStore) : KeyStore :=
  ⟨state.net.pendingStore, state.app.pendingStore⟩

theorem KeyStore.Ok.persisted (ok : state.Ok cfg crypto) :
    state.pendingStores.Persisted := by
  constructor
  · intro netIdx
    simp only [KeyStore.pendingStores, NetKeyStore.pendingStore, storeSubnet_lookup]
    apply ok.net.coherent.flush Subnet.kept_record
    intro write member _
    exact subnetAt_eq _ (ok.net.coherent.within write member).ne_unused
  · intro appIdx
    simp only [KeyStore.pendingStores, AppKeyStore.pendingStore, storeAppKey_lookup]
    apply ok.app.coherent.flush AppKey.kept_record
    intro write member _
    exact appAt_eq _ (ok.app.coherent.within write member).ne_unused

structure KeyStore.Stored (cfg : Config) (crypto : Crypto) (state : KeyStore) :
    Prop where
  tables : TableOk cfg crypto state.net.subs
  unique : KeysUnique AppKey.key state.app.apps
  netIdle : ∀ write, some write ∉ state.net.saved.pending
  appIdle : ∀ write, some write ∉ state.app.saved.pending
  persisted : state.Persisted

theorem KeyStore.Stored.ok (stored : state.Stored cfg crypto) :
    state.Ok cfg crypto where
  net := ⟨stored.tables, .of_rel stored.netIdle stored.persisted.net⟩
  app := ⟨stored.unique, .of_rel stored.appIdle stored.persisted.app⟩

/-- In every state of a run the pending stores bring the records up to date. -/
theorem key_store_coherent (appId : AppId) (enabled : cfg.settings = true)
    (stored : state.Stored cfg crypto) {inputs : List KeyStoreInput}
    (along : (keyStoreMachine cfg crypto appId).Along keyStoreAdmitted state
      inputs) : (keyStoreMachine cfg crypto appId).Always
      (fun reached => reached.pendingStores.Persisted) state inputs := by
  have always : (keyStoreMachine cfg crypto appId).Always
      (KeyStore.Ok cfg crypto) state inputs := by
    apply Machine.always_of_along _ stored.ok along
    intro reached input ok admitted
    exact keyStoreStep_ok appId ok enabled input admitted
  exact always.mono fun reached ok => ok.persisted

end Runs

def bootStore : KeyStore where
  net := ⟨emptyTable 2, ⟨List.replicate 2 none, fun _ => none⟩⟩
  app := ⟨List.replicate 2 AppKey.unused, ⟨List.replicate 2 none, fun _ => none⟩⟩

theorem bootStore_stored (cfg : Config) (crypto : Crypto) :
    bootStore.Stored cfg crypto where
  tables := TableOk.empty cfg crypto 2
  unique := by
    intro slot other app twin idx found _ named _
    rw [eq_of_mem_replicate (mem_of_getElem? found)] at named
    cases named
  netIdle := by simp [bootStore]
  appIdle := by simp [bootStore]
  persisted := by
    refine ⟨fun netIdx => ?_, fun appIdx => ?_⟩
    · have absent : slotByKey Subnet.key bootStore.net.subs netIdx = none := by
        simp [slotByKey, bootStore, emptyTable, Subnet.key, Subnet.unused]
      rw [absent]
      exact .none
    · have absent : slotByKey AppKey.key bootStore.app.apps appIdx = none := by
        simp [slotByKey, bootStore, AppKey.key, AppKey.unused]
      rw [absent]
      exact .none

def sampleKeyStoreRun : List KeyStoreInput :=
  [.subnetAdd 1 7, .subnetAdd 2 9, .subnetDel 1, .subnetAdd 3 11, .appKeyAdd 4 2 5,
    .subnetUpdate 2 8, .appKeyUpdate 4 2 6, .krPhaseSet 2 3, .subnetDel 3]

theorem key_store_coherent_overflow :
    (keyStoreMachine sampleCfgConfig plainCrypto plainAppId).Always
      (fun reached => reached.pendingStores.Persisted) bootStore
      sampleKeyStoreRun := by
  apply key_store_coherent plainAppId (by decide) (bootStore_stored _ _)
  decide +kernel

theorem isSome_eq_of_rel {Entry Record : Type} {keeps : Entry → Record → Prop}
    {entry : Option Entry} {record : Option Record}
    (same : Option.Rel keeps entry record) : entry.isSome = record.isSome := by
  cases same <;> rfl

theorem key_store_loses_record : bootStore.Stored sampleCfgConfig plainCrypto ∧
      ¬ ((keyStoreMachine sampleCfgConfig plainCrypto plainAppId).run bootStore
        [.subnetAdd 0x1005 7]).pendingStores.Persisted ∧
      ¬ ((keyStoreMachine sampleCfgConfig plainCrypto plainAppId).run bootStore
        [.netCreate 0x1005 1 7, .krUpdate 0x1005 false true]).pendingStores.Persisted := by
  refine ⟨bootStore_stored _ _, ?_, ?_⟩
  · intro persisted
    have same := isSome_eq_of_rel (persisted.net 0x1005)
    revert same
    decide +kernel
  · intro persisted
    have same := isSome_eq_of_rel (persisted.net 0x1005)
    revert same
    decide +kernel

end ZephyrBluetooth.Mesh
