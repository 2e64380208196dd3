import ZephyrBluetooth.Mesh.Rpl

namespace ZephyrBluetooth.Mesh

open Bool

/-- The part of `struct bt_mesh_net` and of the settings flags that decides the
nonce of a message, with the replay list that IV updates act on. -/
structure Net where
  ivIndex : Nat
  seq : Nat
  valid : Bool
  ivuInProgress : Bool
  ivuTest : Bool
  ivuPending : Bool
  ivuDuration : Nat
  ivPending : Bool
  seqPending : Bool
  rpl : ReplayList

def ivuMinHours : Nat := 96

def ivuHours (cfg : Config) : Nat := ivuMinHours / cfg.ivuDivider

def netIviTx (net : Net) : Nat :=
  ivBefore net.ivIndex net.ivuInProgress

def storeIv (onlyDuration : Bool) (net : Net) : Net :=
  { net with
    ivPending := true
    seqPending := net.seqPending || !onlyDuration }

def storeSeq (cfg : Config) (net : Net) : Net :=
  if decide (1 < cfg.seqStoreRate) && net.seq % cfg.seqStoreRate != 0 then
    net
  else
    { net with seqPending := true }

/-- The tail of `bt_mesh_net_iv_update` from the label `do_update` on. -/
def doUpdate (cfg : Config) (net : Net) (ivIndex : Nat) (ivUpdate : Bool) :
    Net :=
  let entered := { net with ivuInProgress := ivUpdate, ivuDuration := 0 }
  let moved :=
    if ivUpdate then
      { entered with ivIndex := ivIndex, rpl := rplReset cfg entered.rpl }
    else
      { entered with seq := 0 }
  if cfg.settings then storeIv false moved else moved

/-- The checks of `bt_mesh_net_iv_update` between its mode switch and the label
`do_update`. -/
def ivUpdateGuarded (cfg : Config) (net : Net) (ivIndex : Nat)
    (ivUpdate txInProgress : Bool) : Bool × Net :=
  if !(cfg.ivUpdateTest && net.ivuTest) &&
      decide (net.ivuDuration < ivuMinHours) then
    (false, net)
  else if !ivUpdate && txInProgress then
    (false, { net with ivuPending := true })
  else
    (true, doUpdate cfg net ivIndex ivUpdate)

def netIvUpdate (cfg : Config) (net : Net) (ivIndex : Nat)
    (ivUpdate txInProgress : Bool) : Bool × Net :=
  if net.ivuInProgress then
    if ivIndex ≠ net.ivIndex then
      (false, net)
    else if ivUpdate then
      (false, net)
    else
      ivUpdateGuarded cfg net ivIndex ivUpdate txInProgress
  else if ivIndex = net.ivIndex then
    (false, net)
  else if ivIndex < net.ivIndex ∨ (net.ivIndex + 42) % 2 ^ 32 < ivIndex then
    (false, net)
  else if (net.ivIndex + 1) % 2 ^ 32 < ivIndex then
    let cleared :=
      { net with rpl := rplClear cfg net.rpl, ivIndex := ivIndex, seq := 0 }
    (true, doUpdate cfg cleared ivIndex ivUpdate)
  else if ivIndex = (net.ivIndex + 1) % 2 ^ 32 ∧ ivUpdate = false then
    (false, net)
  else if !ivUpdate then
    (false, net)
  else
    ivUpdateGuarded cfg net ivIndex ivUpdate txInProgress

/-- `bt_mesh_next_seq`; `primary` tells whether the primary subnet exists. -/
def nextSeq (cfg : Config) (net : Net) (primary txInProgress : Bool) :
    Nat × Net :=
  let advanced := { net with seq := (net.seq + 1) % 2 ^ 32 }
  let stored := if cfg.settings then storeSeq cfg advanced else advanced
  let updated :=
    if !stored.ivuInProgress && decide (cfg.ivUpdateSeqLimit < stored.seq) &&
        primary then
      (netIvUpdate cfg stored ((stored.ivIndex + 1) % 2 ^ 32) true txInProgress).2
    else
      stored
  (net.seq, updated)

def ivuRefresh (cfg : Config) (net : Net) (txInProgress : Bool) : Net :=
  if !net.valid then
    net
  else
    let aged :=
      { net with ivuDuration := min 255 (net.ivuDuration + ivuHours cfg) }
    if aged.ivuDuration < ivuMinHours then
      if cfg.settings then storeIv true aged else aged
    else if aged.ivuInProgress then
      (netIvUpdate cfg aged aged.ivIndex false txInProgress).2
    else if cfg.settings then
      storeIv true aged
    else
      aged

/-- The IV index part of `bt_mesh_net_create`. -/
def netCreateIv (cfg : Config) (net : Net) (flags ivIndex : Nat) : Net :=
  let created :=
    { net with
      ivIndex := ivIndex
      ivuInProgress := (flags >>> 1) % 2 == 1
      ivuDuration :=
        if (flags >>> 1) % 2 == 1 then ivuMinHours else net.ivuDuration }
  if cfg.settings then storeIv false created else created

def ivUpdateTest (net : Net) (enable : Bool) : Net :=
  { net with ivuTest := enable, ivuDuration := 0 }

theorem ivUpdateGuarded_cases (cfg : Config) (net : Net) (ivIndex : Nat)
    (ivUpdate txInProgress : Bool) :
    (ivUpdateGuarded cfg net ivIndex ivUpdate txInProgress).2 = net ∨
    (ivUpdateGuarded cfg net ivIndex ivUpdate txInProgress).2 =
      { net with ivuPending := true } ∨
    (ivUpdateGuarded cfg net ivIndex ivUpdate txInProgress).2 =
      doUpdate cfg net ivIndex ivUpdate := by
  unfold ivUpdateGuarded
  split
  · exact .inl rfl
  split
  · exact .inr (.inl rfl)
  · exact .inr (.inr rfl)

/-- The guards under which `bt_mesh_net_iv_update` performs IV Index
Recovery. -/
def recovers (net : Net) (ivIndex : Nat) : Prop :=
  net.ivuInProgress = false ∧ net.ivIndex + 1 < ivIndex ∧
    ivIndex ≤ (net.ivIndex + 42) % 2 ^ 32

instance (net : Net) (ivIndex : Nat) : Decidable (recovers net ivIndex) :=
  inferInstanceAs (Decidable (_ ∧ _))

/-- The state from which a recovery jumps to `do_update`. -/
def recovered (cfg : Config) (net : Net) (ivIndex : Nat) : Net :=
  { net with rpl := rplClear cfg net.rpl, ivIndex := ivIndex, seq := 0 }

/-- Every way `bt_mesh_net_iv_update` changes the state, with the guards that
lead there. -/
inductive IvUpdateEffect (cfg : Config) (net : Net) (ivIndex : Nat)
    (ivUpdate : Bool) : Net → Prop
  | unchanged : IvUpdateEffect cfg net ivIndex ivUpdate net
  | deferred :
      IvUpdateEffect cfg net ivIndex ivUpdate { net with ivuPending := true }
  | leave (inProgress : net.ivuInProgress = true)
      (flag : ivUpdate = false) :
      IvUpdateEffect cfg net ivIndex ivUpdate (doUpdate cfg net net.ivIndex false)
  | enter (normal : net.ivuInProgress = false) (flag : ivUpdate = true)
      (successor : ivIndex = net.ivIndex + 1) (bound : ivIndex < 2 ^ 32) :
      IvUpdateEffect cfg net ivIndex ivUpdate (doUpdate cfg net ivIndex true)
  | recover (recovery : recovers net ivIndex) (bound : ivIndex < 2 ^ 32) :
      IvUpdateEffect cfg net ivIndex ivUpdate
        (doUpdate cfg (recovered cfg net ivIndex) ivIndex ivUpdate)

theorem netIvUpdate_effect (cfg : Config) (net : Net) (ivIndex : Nat)
    (ivUpdate txInProgress : Bool)
    (current : net.ivIndex < 2 ^ 32) (bound : ivIndex < 2 ^ 32) :
    IvUpdateEffect cfg net ivIndex ivUpdate
      (netIvUpdate cfg net ivIndex ivUpdate txInProgress).2 := by
  unfold netIvUpdate
  split
  next inProgress =>
    split
    · exact .unchanged
    next same =>
      split
      · exact .unchanged
      next flag =>
        simp only [not_eq_true] at flag
        subst flag
        simp only [ne_eq, Decidable.not_not] at same
        subst same
        rcases ivUpdateGuarded_cases cfg net net.ivIndex false txInProgress with
          guarded | guarded | guarded
        · rw [guarded]; exact .unchanged
        · rw [guarded]; exact .deferred
        · rw [guarded]; exact .leave inProgress rfl
  next normal =>
    simp only [not_eq_true] at normal
    split
    · exact .unchanged
    next different =>
      split
      · exact .unchanged
      next window =>
        have ahead : net.ivIndex < ivIndex := by omega
        have noWrap : (net.ivIndex + 1) % 2 ^ 32 = net.ivIndex + 1 :=
          Nat.mod_eq_of_lt (by omega)
        rw [noWrap]
        split
        next ahead =>
          exact .recover ⟨normal, ahead, by omega⟩ bound
        next successor =>
          split
          · exact .unchanged
          split
          · exact .unchanged
          next flag =>
            simp only [not_eq_eq_eq_not, Bool.not_true, not_eq_false] at flag
            subst flag
            have successorEq : ivIndex = net.ivIndex + 1 := by omega
            rcases ivUpdateGuarded_cases cfg net ivIndex true txInProgress with
              guarded | guarded | guarded
            · rw [guarded]; exact .unchanged
            · rw [guarded]; exact .deferred
            · rw [guarded]; exact .enter normal rfl successorEq bound

variable {ivIndex : Nat}

theorem netIvUpdate_recovers (cfg : Config) {net : Net}
    (ivUpdate txInProgress : Bool) (bound : ivIndex < 2 ^ 32)
    (recovery : recovers net ivIndex) :
    (netIvUpdate cfg net ivIndex ivUpdate txInProgress).2 =
      doUpdate cfg (recovered cfg net ivIndex) ivIndex ivUpdate := by
  obtain ⟨normal, ahead, _⟩ := recovery
  have noWrap : (net.ivIndex + 1) % 2 ^ 32 = net.ivIndex + 1 :=
    Nat.mod_eq_of_lt (by omega)
  have different : ivIndex ≠ net.ivIndex := by omega
  have inside :
      ¬ (ivIndex < net.ivIndex ∨ (net.ivIndex + 42) % 2 ^ 32 < ivIndex) := by
    omega
  unfold netIvUpdate
  simp only [normal, false_eq_true, if_false]
  rw [if_neg different, if_neg inside, noWrap, if_pos ahead]
  rfl

section

variable (cfg : Config) (net : Net) (ivIndex : Nat) (ivUpdate : Bool)

@[simp] theorem doUpdate_rpl :
    (doUpdate cfg net ivIndex ivUpdate).rpl =
      if ivUpdate then rplReset cfg net.rpl else net.rpl := by
  unfold doUpdate
  cases ivUpdate <;> cases cfg.settings <;> rfl

@[simp] theorem doUpdate_ivIndex :
    (doUpdate cfg net ivIndex ivUpdate).ivIndex =
      if ivUpdate then ivIndex else net.ivIndex := by
  unfold doUpdate
  cases ivUpdate <;> cases cfg.settings <;> rfl

@[simp] theorem doUpdate_seq :
    (doUpdate cfg net ivIndex ivUpdate).seq = if ivUpdate then net.seq else 0 := by
  unfold doUpdate
  cases ivUpdate <;> cases cfg.settings <;> rfl

@[simp] theorem doUpdate_ivuInProgress :
    (doUpdate cfg net ivIndex ivUpdate).ivuInProgress = ivUpdate := by
  unfold doUpdate
  cases ivUpdate <;> cases cfg.settings <;> rfl

@[simp] theorem doUpdate_valid :
    (doUpdate cfg net ivIndex ivUpdate).valid = net.valid := by
  unfold doUpdate
  cases ivUpdate <;> cases cfg.settings <;> rfl

end

theorem IvUpdateEffect.valid {cfg : Config} {net updated : Net} {ivUpdate : Bool}
    (effect : IvUpdateEffect cfg net ivIndex ivUpdate updated) :
    updated.valid = net.valid := by
  cases effect with
  | unchanged => rfl
  | deferred => rfl
  | leave => exact doUpdate_valid ..
  | enter => exact doUpdate_valid ..
  | recover => exact doUpdate_valid ..

theorem IvUpdateEffect.ivIndex_lt {cfg : Config} {net updated : Net}
    {ivUpdate : Bool} (current : net.ivIndex < 2 ^ 32)
    (effect : IvUpdateEffect cfg net ivIndex ivUpdate updated) :
    updated.ivIndex < 2 ^ 32 := by
  cases effect with
  | unchanged => exact current
  | deferred => exact current
  | leave => simpa using current
  | enter normal flag successor bound => simpa using bound
  | recover recovery bound => simpa [recovered] using bound

theorem ivuRefresh_cases (cfg : Config) (net : Net) (txInProgress : Bool) :
    (∃ duration pending, ivuRefresh cfg net txInProgress =
        { net with ivuDuration := duration, ivPending := pending } ∧
      (pending = false → net.ivPending = false)) ∨
    (∃ duration, net.ivuInProgress = true ∧ ivuRefresh cfg net txInProgress =
        (netIvUpdate cfg { net with ivuDuration := duration } net.ivIndex false
          txInProgress).2) := by
  let aged : Net :=
    { net with ivuDuration := min 255 (net.ivuDuration + ivuHours cfg) }
  have stored : ∃ duration pending,
      (if cfg.settings then storeIv true aged else aged) =
        { net with ivuDuration := duration, ivPending := pending } ∧
      (pending = false → net.ivPending = false) := by
    cases cfg.settings with
    | false => exact ⟨_, net.ivPending, rfl, id⟩
    | true => exact ⟨aged.ivuDuration, true, by simp [storeIv, aged], by simp⟩
  unfold ivuRefresh
  by_cases valid : (!net.valid) = true
  · rw [if_pos valid]
    exact .inl ⟨net.ivuDuration, net.ivPending, rfl, id⟩
  rw [if_neg valid]
  by_cases early : aged.ivuDuration < ivuMinHours
  · exact .inl (by simpa only [aged, if_pos early] using stored)
  cases inProgress : net.ivuInProgress with
  | false =>
    left
    simpa only [aged, if_neg early, inProgress, false_eq_true, if_false] using stored
  | true =>
    right
    exact ⟨aged.ivuDuration, rfl, by
      simp only [aged, if_neg early, if_true]⟩

theorem ivuRefresh_effect (cfg : Config) (net : Net) (txInProgress : Bool)
    (current : net.ivIndex < 2 ^ 32) :
    ∃ duration pending, IvUpdateEffect cfg
        { net with ivuDuration := duration, ivPending := pending }
        net.ivIndex false (ivuRefresh cfg net txInProgress) := by
  rcases ivuRefresh_cases cfg net txInProgress with
    ⟨duration, pending, same, _⟩ | ⟨duration, _, updated⟩
  · rw [same]
    exact ⟨duration, pending, .unchanged⟩
  rw [updated]
  exact ⟨duration, net.ivPending,
    netIvUpdate_effect cfg { net with ivuDuration := duration } net.ivIndex
      false txInProgress current current⟩

theorem not_recovers_self (net : Net) : ¬ recovers net net.ivIndex := by
  intro recovery
  have ahead := recovery.2.1
  omega

end ZephyrBluetooth.Mesh
