import ZephyrBluetooth.Mesh.Subnet

namespace ZephyrBluetooth.Mesh

structure AppCred where
  id : Byte
  val : Key
  deriving DecidableEq

def AppCred.zero : AppCred := ⟨0, 0⟩

structure AppKey where
  netIdx : Nat
  appIdx : Nat
  updated : Bool
  keys : Slots AppCred
  deriving DecidableEq

variable {apps : List AppKey}

def AppKey.unused : AppKey := ⟨keyUnused, keyUnused, false, ⟨.zero, .zero⟩⟩

/-- `bt_mesh_app_id`, which writes nothing when it fails. -/
abbrev AppId := Key → Option Byte

/-- What an operation does to the table, with the events of the application keys
in order.  Settings updates go with every event but `.swapped`. -/
structure AppChange where
  apps : List AppKey
  evts : List (Nat × KeyEvt)

def AppChange.none (apps : List AppKey) : AppChange := ⟨apps, []⟩

def appGet (apps : List AppKey) (appIdx : Nat) : Option Nat :=
  apps.findIdx? fun app => app.appIdx == appIdx

def appKeyAlloc (apps : List AppKey) (appIdx : Nat) : Option Nat :=
  match appGet apps appIdx with
  | some slot => some slot
  | none => appGet apps keyUnused

def appKeyExists (apps : List AppKey) (appIdx : Nat) : Bool :=
  apps.any fun app => app.appIdx == appIdx

/-- What `app_key_del` leaves of a key: its `updated` flag stays. -/
def AppKey.deleted (app : AppKey) : AppKey :=
  { app with netIdx := keyUnused, appIdx := keyUnused, keys := ⟨.zero, .zero⟩ }

def AppKey.revoked (app : AppKey) : AppKey :=
  if app.updated then
    { app with keys := ⟨app.keys.new, .zero⟩, updated := false }
  else
    app

def appKeyAdd (appId : AppId) (subs : List Subnet) (apps : List AppKey)
    (appIdx netIdx : Nat) (key : Key) : Status × AppChange :=
  match subnetGet subs netIdx with
  | none => (.invalidNetkey, .none apps)
  | some _ =>
    match appKeyAlloc apps appIdx with
    | none => (.insuffResources, .none apps)
    | some slot =>
      match apps[slot]? with
      | none => (.insuffResources, .none apps)
      | some app =>
        if app.appIdx = appIdx then
          if app.netIdx ≠ netIdx then
            (.invalidNetkey, .none apps)
          else if key ≠ app.keys.old.val then
            (.idxAlreadyStored, .none apps)
          else
            (.success, .none apps)
        else
          match appId key with
          | none => (.cannotSet, .none apps)
          | some id =>
            (.success, ⟨apps.set slot
                  { app with
                    netIdx := netIdx, appIdx := appIdx, updated := false
                    keys := { app.keys with old := ⟨id, key⟩ } },
                [(appIdx, .added)]⟩)

def appKeyUpdate (appId : AppId) (subs : List Subnet) (apps : List AppKey)
    (appIdx netIdx : Nat) (key : Key) : Status × AppChange :=
  match appGet apps appIdx with
  | none => (.invalidAppkey, .none apps)
  | some slot =>
    match apps[slot]? with
    | none => (.invalidAppkey, .none apps)
    | some app =>
      if netIdx ≠ keyUnused ∧ app.netIdx ≠ netIdx then
        (.invalidBinding, .none apps)
      else
        match (subnetGet subs app.netIdx).bind fun place => subs[place]? with
        | none => (.invalidNetkey, .none apps)
        | some sub =>
          if sub.krPhase ≠ .phase1 then
            (.cannotUpdate, .none apps)
          else if app.updated then
            (if key ≠ app.keys.new.val then .idxAlreadyStored else .success,
              .none apps)
          else
            match appId key with
            | none => (.cannotUpdate, .none apps)
            | some id =>
              (.success, ⟨apps.set slot
                    { app with
                      updated := true
                      keys := { app.keys with new := ⟨id, key⟩ } },
                  [(app.appIdx, .updated)]⟩)

def appKeyDel (subs : List Subnet) (apps : List AppKey) (appIdx netIdx : Nat) :
    Status × AppChange :=
  if netIdx ≠ keyUnused ∧ (subnetGet subs netIdx).isNone = true then
    (.invalidNetkey, .none apps)
  else
    match appGet apps appIdx with
    | none => (.success, .none apps)
    | some slot =>
      match apps[slot]? with
      | none => (.success, .none apps)
      | some app =>
        if netIdx ≠ keyUnused ∧ netIdx ≠ app.netIdx then
          (.invalidBinding, .none apps)
        else
          (.success, ⟨apps.set slot app.deleted, [(app.appIdx, .deleted)]⟩)

def appOnSubnetEvt (netIdx : Nat) (evt : KeyEvt) (app : AppKey) : AppKey :=
  if app.appIdx = keyUnused ∨ app.netIdx ≠ netIdx then
    app
  else
    match evt with
    | .deleted => app.deleted
    | .revoked => app.revoked
    | .added | .updated | .swapped => app

def appEvtOnSubnetEvt (netIdx : Nat) (evt : KeyEvt) (app : AppKey) :
    Option (Nat × KeyEvt) :=
  if app.appIdx = keyUnused ∨ app.netIdx ≠ netIdx then
    none
  else
    match evt with
    | .deleted => some (app.appIdx, .deleted)
    | .revoked => if app.updated then some (app.appIdx, .revoked) else none
    | .swapped => if app.updated then some (app.appIdx, .swapped) else none
    | .added | .updated => none

def appSubnetEvt (apps : List AppKey) (netIdx : Nat) (evt : KeyEvt) : AppChange :=
  ⟨apps.map (appOnSubnetEvt netIdx evt),
    apps.filterMap (appEvtOnSubnetEvt netIdx evt)⟩

/-- The events of the application keys that a change of the subnets raises.  A
deleted subnet is named by the index that it had. -/
def appSubnetChange (subs : List Subnet) (change : SubnetChange)
    (apps : List AppKey) : AppChange :=
  match change.evt with
  | none => .none apps
  | some (slot, evt) =>
    match subs[slot]? with
    | none => .none apps
    | some sub => appSubnetEvt apps sub.netIdx evt

theorem appGet_some {appIdx slot : Nat} (found : appGet apps appIdx = some slot) :
    ∃ app, apps[slot]? = some app ∧ app.appIdx = appIdx := by
  obtain ⟨bound, same, _⟩ := List.findIdx?_eq_some_iff_getElem.mp found
  exact ⟨apps[slot], List.getElem?_eq_getElem bound, eq_of_beq same⟩

theorem appGet_none {appIdx : Nat} (missing : appGet apps appIdx = none)
    {app : AppKey} (stored : app ∈ apps) : app.appIdx ≠ appIdx := by
  have differs := List.findIdx?_eq_none_iff.mp missing app stored
  simpa using differs

theorem appKeyExists_iff (apps : List AppKey) (appIdx : Nat) :
    appKeyExists apps appIdx = true ↔ ∃ app ∈ apps, app.appIdx = appIdx := by
  simp [appKeyExists]

theorem appKeyAlloc_free {appIdx slot : Nat} {app : AppKey}
    (allocated : appKeyAlloc apps appIdx = some slot)
    (here : apps[slot]? = some app) (fresh : app.appIdx ≠ appIdx) :
    app.appIdx = keyUnused ∧ appIdx ≠ keyUnused ∧
      ∀ other ∈ apps, other.appIdx ≠ appIdx := by
  unfold appKeyAlloc at allocated
  cases present : appGet apps appIdx with
  | some =>
    rw [present] at allocated
    cases allocated
    obtain ⟨stored, storedAt, same⟩ := appGet_some present
    rw [here] at storedAt
    cases storedAt
    exact absurd same fresh
  | none =>
    rw [present] at allocated
    obtain ⟨stored, storedAt, free⟩ := appGet_some allocated
    rw [here] at storedAt
    cases storedAt
    refine ⟨free, ?_, fun other member => appGet_none present member⟩
    rintro rfl
    exact fresh free

inductive AppEffect (subs : List Subnet) (apps : List AppKey) : AppChange → Prop
  | unchanged : AppEffect subs apps (.none apps)
  | added {slot : Nat} {app : AppKey} (appIdx netIdx : Nat) (cred : AppCred)
      (found : apps[slot]? = some app) (free : app.appIdx = keyUnused)
      (named : appIdx ≠ keyUnused)
      (absent : ∀ other ∈ apps, other.appIdx ≠ appIdx)
      (inUse : netIdx ≠ keyUnused)
      (subnet : (subnetGet subs netIdx).isSome = true) :
      AppEffect subs apps ⟨apps.set slot
            { app with
              netIdx := netIdx, appIdx := appIdx, updated := false
              keys := { app.keys with old := cred } },
          [(appIdx, .added)]⟩
  | updated {slot place : Nat} {app : AppKey} {sub : Subnet} (cred : AppCred)
      (found : apps[slot]? = some app)
      (bound : subnetGet subs app.netIdx = some place)
      (stored : subs[place]? = some sub) (phase : sub.krPhase = .phase1)
      (current : app.updated = false) :
      AppEffect subs apps ⟨apps.set slot
            { app with updated := true, keys := { app.keys with new := cred } },
          [(app.appIdx, .updated)]⟩
  | deleted {slot : Nat} {app : AppKey} (found : apps[slot]? = some app) :
      AppEffect subs apps ⟨apps.set slot app.deleted, [(app.appIdx, .deleted)]⟩

theorem appKeyAdd_effect (appId : AppId) {subs : List Subnet}
    (apps : List AppKey) (appIdx : Nat) {netIdx : Nat} (key : Key)
    (unambiguous : netIdx = keyUnused → subnetGet subs netIdx = none) :
    AppEffect subs apps (appKeyAdd appId subs apps appIdx netIdx key).2 := by
  unfold appKeyAdd
  split
  · exact .unchanged
  rename_i place subnet
  have inUse : netIdx ≠ keyUnused := by
    intro unused
    rw [unambiguous unused] at subnet
    cases subnet
  split
  · exact .unchanged
  rename_i slot allocated
  split
  · exact .unchanged
  rename_i app found
  split
  · split
    · exact .unchanged
    · split <;> exact .unchanged
  · rename_i fresh
    obtain ⟨free, named, absent⟩ := appKeyAlloc_free allocated found fresh
    split
    · exact .unchanged
    rename_i id derived
    exact .added appIdx netIdx ⟨id, key⟩ found free named absent inUse
      (by rw [subnet]; rfl)

theorem appKeyUpdate_effect (appId : AppId) (subs : List Subnet)
    (apps : List AppKey) (appIdx netIdx : Nat) (key : Key) :
    AppEffect subs apps (appKeyUpdate appId subs apps appIdx netIdx key).2 := by
  unfold appKeyUpdate
  split
  · exact .unchanged
  split
  · exact .unchanged
  rename_i app found
  split
  · exact .unchanged
  split
  · exact .unchanged
  rename_i sub lookup
  obtain ⟨_, bound, stored⟩ := Option.bind_eq_some_iff.mp lookup
  split
  · exact .unchanged
  rename_i phase
  split
  · exact .unchanged
  rename_i current
  split
  · exact .unchanged
  rename_i id derived
  exact .updated ⟨id, key⟩ found bound stored (Decidable.not_not.mp phase)
    (by simpa using current)

theorem appKeyDel_effect (subs : List Subnet) (apps : List AppKey)
    (appIdx netIdx : Nat) :
    AppEffect subs apps (appKeyDel subs apps appIdx netIdx).2 := by
  unfold appKeyDel
  split
  · exact .unchanged
  split
  · exact .unchanged
  split
  · exact .unchanged
  rename_i app found
  split
  · exact .unchanged
  · exact .deleted found

end ZephyrBluetooth.Mesh
