import ZephyrBluetooth.Mesh.Basic

namespace ZephyrBluetooth.Mesh

/-! The replay protection list of `rpl.c`.  A slot whose `src` is zero is
empty; the bit fields hold 15 bits of address and 24 bits of each number. -/

structure Rpl where
  src : Nat
  oldIv : Bool
  seq : Nat
  seg : Nat
  deriving DecidableEq

def Rpl.empty : Rpl := ⟨0, false, 0, 0⟩

structure RplVal where
  seq : Nat
  oldIv : Bool

/-- `replay_list` with its `store` bits, the pending flag of its storage work
and the records stored under `bt/mesh/RPL`. -/
structure ReplayList where
  list : List Rpl
  store : List Bool
  pending : Bool
  saved : List (Nat × RplVal)

def ReplayList.boot (crpl : Nat) : ReplayList where
  list := List.replicate crpl Rpl.empty
  store := List.replicate crpl false
  pending := false
  saved := []

def settingsDelete (src : Nat) (saved : List (Nat × RplVal)) :
    List (Nat × RplVal) :=
  saved.filter fun record => record.1 != src

def settingsSaveOne (src : Nat) (value : RplVal)
    (saved : List (Nat × RplVal)) : List (Nat × RplVal) :=
  (src, value) :: settingsDelete src saved

def clearRpl (rl : ReplayList) (slot : Nat) : ReplayList :=
  match rl.list[slot]? with
  | none => rl
  | some rpl =>
    if rpl.src = 0 then
      rl
    else
      { rl with
        list := rl.list.set slot Rpl.empty
        store := rl.store.set slot false
        saved := settingsDelete rpl.src rl.saved }

def scheduleRplStore (cfg : Config) (rl : ReplayList) (slot : Nat)
    (force : Bool) : ReplayList :=
  { rl with
    store := rl.store.set slot true
    pending := rl.pending || force || decide (0 ≤ cfg.rplStoreTimeout) }

def Rpl.update (rpl : Rpl) (rx : NetRx) : Rpl where
  src := rx.addr % 2 ^ 15
  oldIv := rx.oldIv
  seq := rx.seq % 2 ^ 24
  seg := if rpl.oldIv && !rx.oldIv then 0 else rpl.seg

def rplUpdate (cfg : Config) (rl : ReplayList) (slot : Nat) (rx : NetRx) :
    ReplayList :=
  match rl.list[slot]? with
  | none => rl
  | some rpl =>
    let updated := { rl with list := rl.list.set slot (rpl.update rx) }
    if cfg.settings then scheduleRplStore cfg updated slot false else updated

/-- The loop of `bt_mesh_rpl_check`: the slot that takes the message, or `none`
for a replay and for a full list. -/
def rplScan (rx : NetRx) : List Rpl → Option Nat
  | [] => none
  | rpl :: rest =>
    if rpl.src = 0 then
      some 0
    else if rpl.src = rx.addr then
      if rx.oldIv && !rpl.oldIv then
        none
      else if (!rx.oldIv && rpl.oldIv) || decide (rpl.seq < rx.seq) then
        some 0
      else
        none
    else
      (rplScan rx rest).map (· + 1)

structure RplCheck where
  replay : Bool
  slot : Option Nat

/-- `bt_mesh_rpl_check`; `wantMatch` is false for a NULL `match`, in which case
the slot is updated at once. -/
def rplCheck (cfg : Config) (rl : ReplayList) (rx : NetRx)
    (wantMatch : Bool) : RplCheck × ReplayList :=
  if rx.netIf = .local then
    (⟨false, none⟩, rl)
  else if !rx.localMatch then
    (⟨false, none⟩, rl)
  else
    match rplScan rx rl.list with
    | none => (⟨true, none⟩, rl)
    | some slot =>
      if wantMatch then
        (⟨false, some slot⟩, rl)
      else
        (⟨false, none⟩, rplUpdate cfg rl slot rx)

def rplClear (cfg : Config) (rl : ReplayList) : ReplayList :=
  if cfg.settings then
    { rl with pending := true }
  else
    { rl with list := rl.list.map fun _ => Rpl.empty }

/-- One slot of `bt_mesh_rpl_reset`: "old old" entries are dropped and the
others become old. -/
def Rpl.age (rpl : Rpl) : Rpl :=
  if rpl.src = 0 then rpl
  else if rpl.oldIv then Rpl.empty
  else { rpl with oldIv := true }

def Rpl.ageStore (rpl : Rpl) (bit : Bool) : Bool :=
  if rpl.src = 0 then bit else !rpl.oldIv

def rplReset (cfg : Config) (rl : ReplayList) : ReplayList :=
  let aged := { rl with list := rl.list.map Rpl.age }
  if cfg.settings then
    { aged with
      store := List.zipWith Rpl.ageStore rl.list rl.store
      pending := rl.pending || rl.list.any fun rpl => rpl.src != 0 && !rpl.oldIv
      saved := rl.saved.filter fun record =>
        !rl.list.any fun rpl =>
          rpl.src != 0 && rpl.oldIv && rpl.src == record.1 }
  else
    aged

def storeRpl (rl : ReplayList) (rpl : Rpl) : ReplayList :=
  if rpl.src = 0 then
    rl
  else
    { rl with
      saved := settingsSaveOne rpl.src ⟨rpl.seq, rpl.oldIv⟩ rl.saved }

def storePendingRpl (rl : ReplayList) (slot : Nat) : ReplayList :=
  match rl.list[slot]?, rl.store[slot]? with
  | some rpl, some true => storeRpl { rl with store := rl.store.set slot false } rpl
  | _, _ => rl

def rplPendingStore (cfg : Config) (valid : Bool) (rl : ReplayList)
    (addr : Nat) : ReplayList :=
  if !cfg.settings || (!addrIsUnicast addr && addr != addrAllNodes) then
    rl
  else
    let started :=
      if addr = addrAllNodes then { rl with pending := false } else rl
    let slots :=
      if addr = addrAllNodes then List.range rl.list.length
      else (rl.list.findIdx? fun rpl => rpl.src == addr).toList
    slots.foldl
      (fun current slot =>
        if valid then storePendingRpl current slot else clearRpl current slot)
      started

theorem Rpl.update_src (rpl : Rpl) (rx : NetRx) : (rpl.update rx).src = rx.addr :=
  Nat.mod_eq_of_lt rx.addr_lt

theorem Rpl.update_seq (rpl : Rpl) (rx : NetRx) : (rpl.update rx).seq = rx.seq :=
  Nat.mod_eq_of_lt rx.seq_lt

theorem rplReset_list (cfg : Config) (rl : ReplayList) :
    (rplReset cfg rl).list = rl.list.map Rpl.age := by
  unfold rplReset
  cases cfg.settings <;> rfl

theorem rplClear_list (cfg : Config) (rl : ReplayList) :
    (rplClear cfg rl).list =
      if cfg.settings then rl.list else rl.list.map fun _ => Rpl.empty := by
  unfold rplClear
  cases cfg.settings <;> rfl

theorem rplUpdate_list (cfg : Config) (rl : ReplayList) (slot : Nat)
    (rx : NetRx) {rpl : Rpl} (stored : rl.list[slot]? = some rpl) :
    (rplUpdate cfg rl slot rx).list = rl.list.set slot (rpl.update rx) := by
  unfold rplUpdate
  rw [stored]
  cases cfg.settings <;> rfl

def checked (rx : NetRx) : Bool :=
  rx.netIf != .local && rx.localMatch

theorem rplCheck_unchecked {cfg : Config} {rl : ReplayList} {rx : NetRx}
    {wantMatch : Bool} (skipped : checked rx = false) :
    rplCheck cfg rl rx wantMatch = (⟨false, none⟩, rl) := by
  unfold rplCheck
  by_cases loopback : rx.netIf = .local
  · rw [if_pos loopback]
  have unmatched : rx.localMatch = false := by
    simpa [checked, loopback] using skipped
  rw [if_neg loopback, unmatched]
  rfl

theorem rplCheck_checked (cfg : Config) (rl : ReplayList) {rx : NetRx}
    (consulted : checked rx = true) :
    (rplCheck cfg rl rx false = (⟨true, none⟩, rl) ∧ rplScan rx rl.list = none) ∨
    ∃ slot, rplScan rx rl.list = some slot ∧
      rplCheck cfg rl rx false = (⟨false, none⟩, rplUpdate cfg rl slot rx) := by
  simp only [checked, Bool.and_eq_true, bne_iff_ne, ne_eq] at consulted
  unfold rplCheck
  rw [if_neg consulted.1, consulted.2]
  cases scan : rplScan rx rl.list with
  | none => exact .inl ⟨rfl, rfl⟩
  | some slot => exact .inr ⟨slot, rfl, rfl⟩

end ZephyrBluetooth.Mesh
