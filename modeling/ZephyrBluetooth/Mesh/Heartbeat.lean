import ZephyrBluetooth.Data.Machine
import ZephyrBluetooth.Mesh.Subnet

namespace ZephyrBluetooth.Mesh

open Data

/-! Heartbeat publication (`heartbeat.c`).  A Heartbeat that was handed over
with callbacks is in flight until its end callback, or its start callback with
an error, has run. -/

structure HbPub where
  dst : Nat
  count : BitVec 16
  ttl : Nat
  feat : BitVec 16
  netIdx : Nat
  period : Nat

def featRelay : BitVec 16 := 0x0001

def featProxy : BitVec 16 := 0x0002

def featFriend : BitVec 16 := 0x0004

def featLowPower : BitVec 16 := 0x0008

def featSupported : BitVec 16 :=
  featRelay ||| featProxy ||| featFriend ||| featLowPower

def hbPwr2 (val : Nat) : Nat :=
  if val = 0 then
    0x0000
  else if val = 0xff ∨ val = 0x11 then
    0xffff
  else
    2 ^ (val - 1) % 2 ^ 16

structure HbNode where
  subnetGet : Nat → Bool
  provisioned : Bool
  relay : Bool
  gattProxy : Bool
  friend : Bool
  lpnEstablished : Bool

structure HbMsg where
  netIdx : Nat
  dst : Nat
  initTtl : Nat
  feat : BitVec 16

/-- What `bt_mesh_ctl_send` did with a Heartbeat: `dropped` sends run no
callback, `finalized` ones run both callbacks before the call returns. -/
inductive CtlSent where
  | failed
  | dropped
  | finalized
  | queued

inductive HbOut where
  | send (msg : HbMsg)
  | store
  | status (status : Status)

/-- The publication, the delay of its work item and the Heartbeats in flight
whose start callback has not run (`queued`) or has (`started`). -/
structure Hb where
  pub : HbPub
  timer : Option Nat
  queued : Nat
  started : Nat

def Hb.boot : Hb where
  pub :=
    { dst := addrUnassigned, count := 0, ttl := 0, feat := 0
      netIdx := keyUnused, period := 0 }
  timer := none
  queued := 0
  started := 0

def hbPublishEndCb (hb : Hb) : Hb :=
  let rearmed :=
    if hb.pub.period ≠ 0 ∧ 1 < hb.pub.count.toNat then
      { hb with timer := some hb.pub.period }
    else
      hb
  if rearmed.pub.count ≠ 0xffff then
    { rearmed with pub := { rearmed.pub with count := rearmed.pub.count - 1 } }
  else
    rearmed

def hbFeatures (node : HbNode) : BitVec 16 :=
  let relay := if node.relay then featRelay else 0
  let proxy := if node.gattProxy then relay ||| featProxy else relay
  let friend := if node.friend then proxy ||| featFriend else proxy
  if node.lpnEstablished then friend ||| featLowPower else friend

def heartbeatSend (node : HbNode) (pub : HbPub) : Option HbMsg :=
  if !node.subnetGet pub.netIdx || pub.dst == addrUnassigned then
    none
  else
    some
      { netIdx := pub.netIdx, dst := pub.dst, initTtl := pub.ttl
        feat := hbFeatures node }

def hbPublishStartCb (err : Bool) (hb : Hb) : Hb :=
  if err then hbPublishEndCb hb else hb

def hbPublish (node : HbNode) (sent : CtlSent) (hb : Hb) : Hb × List HbOut :=
  if hb.pub.period = 0 ∨ hb.pub.count = 0 then
    (hb, [])
  else if !node.subnetGet hb.pub.netIdx then
    ({ hb with pub := { hb.pub with dst := addrUnassigned } }, [])
  else
    match heartbeatSend node hb.pub with
    | none => (hb, [])
    | some msg =>
      match sent with
      | .failed => (hbPublishEndCb hb, [])
      | .dropped => (hb, [.send msg])
      | .finalized => (hbPublishEndCb (hbPublishStartCb false hb), [.send msg])
      | .queued => ({ hb with queued := hb.queued + 1 }, [.send msg])

def pubDisable (hb : Hb) : Hb :=
  { hb with
    pub :=
      { hb.pub with dst := addrUnassigned, count := 0, ttl := 0, period := 0 }
    timer := none }

/-- `bt_mesh_hb_pub_set`; `none` is the null pointer. -/
def hbPubSet (cfg : Config) (node : HbNode) (newPub : Option HbPub) (hb : Hb) :
    Hb × List HbOut :=
  let disabled :=
    (pubDisable hb,
      (if cfg.settings ∧ node.provisioned then [HbOut.store] else []) ++
        [.status .success])
  match newPub with
  | none => disabled
  | some new =>
    if new.dst = addrUnassigned then
      disabled
    else if !node.subnetGet new.netIdx then
      (hb, [.status .invalidNetkey])
    else
      let set := { hb with pub := { new with feat := new.feat &&& featSupported } }
      if !node.provisioned then
        (set, [.status .success])
      else
        ({ set with timer := some 0 },
          (if cfg.settings then [HbOut.store] else []) ++ [.status .success])

/-- `bt_mesh_hb_feature_changed`; its Heartbeat is sent without callbacks. -/
def hbFeatureChanged (node : HbNode) (features : BitVec 16) (hb : Hb) :
    List HbOut :=
  if hb.pub.dst = addrUnassigned then
    []
  else if hb.pub.feat &&& features = 0 then
    []
  else
    (heartbeatSend node hb.pub).toList.map HbOut.send

def hbStart (hb : Hb) : Hb :=
  if hb.pub.count ≠ 0 ∧ hb.pub.period ≠ 0 then
    { hb with timer := some 0 }
  else
    hb

def hbSuspend (hb : Hb) : Hb := { hb with timer := none }

def hbResume (hb : Hb) : Hb :=
  if hb.pub.period ≠ 0 ∧ hb.pub.count ≠ 0 then
    { hb with timer := some 0 }
  else
    hb

structure HbPubVal where
  dst : Nat
  period : Nat
  ttl : Nat
  feat : BitVec 16
  netIdx : Nat
  indefinite : Bool

/-- The publication that `hb_pub_set` reads from a record. -/
def hbPubRestored (val : HbPubVal) : HbPub where
  dst := val.dst
  period := hbPwr2 val.period
  ttl := val.ttl
  feat := val.feat
  netIdx := val.netIdx
  count := if val.indefinite then 0xffff else 0

inductive HbInput where
  | pubSet (node : HbNode) (newPub : Option HbPub)
  | restore (node : HbNode) (val : HbPubVal)
  | publish (node : HbNode) (sent : CtlSent)
  | startCb (err : Bool)
  | endCb
  | featureChanged (node : HbNode) (features : BitVec 16)
  | start
  | suspend
  | resume

def hbStep (cfg : Config) (hb : Hb) : HbInput → Hb × List HbOut
  | .pubSet node newPub => hbPubSet cfg node newPub hb
  | .restore node val => hbPubSet cfg node (some (hbPubRestored val)) hb
  | .publish node sent => hbPublish node sent { hb with timer := none }
  | .startCb err =>
    (hbPublishStartCb err
      { hb with
        queued := hb.queued - 1
        started := hb.started + (if err then 0 else 1) }, [])
  | .endCb => (hbPublishEndCb { hb with started := hb.started - 1 }, [])
  | .featureChanged node features => (hb, hbFeatureChanged node features hb)
  | .start => (hbStart hb, [])
  | .suspend => (hbSuspend hb, [])
  | .resume => (hbResume hb, [])

def hbMachine (cfg : Config) : Machine Hb HbInput HbOut where
  step := hbStep cfg

/-- The work item runs only when it is scheduled and a callback only for a
Heartbeat in flight. -/
def HbPossible (hb : Hb) : HbInput → Prop
  | .publish _ _ => hb.timer.isSome
  | .startCb _ => 0 < hb.queued
  | .endCb => 0 < hb.started
  | _ => True

def SetsCount : HbInput → BitVec 16 → Prop
  | .pubSet _ none, count => count = 0
  | .pubSet _ (some new), count =>
    count = new.count ∨ new.dst = addrUnassigned ∧ count = 0
  | .restore _ val, count =>
    count = (hbPubRestored val).count ∨ val.dst = addrUnassigned ∧ count = 0
  | _, _ => False

/-- The count is decreased from a value that is neither 0 nor `0xffff`. -/
def CountsDown (before after : BitVec 16) : Prop :=
  1 ≤ before.toNat ∧ before.toNat ≤ 0xfffe ∧ after.toNat < before.toNat

def PubCountKept (cfg : Config) (hb : Hb) (input : HbInput) : Prop :=
  let after := ((hbMachine cfg).next hb input).pub.count
  after = hb.pub.count ∨ SetsCount input after ∨ CountsDown hb.pub.count after

def CompletesCounted (hb : Hb) : HbInput → Prop
  | .startCb true => hb.pub.count ≠ 0
  | .endCb => hb.pub.count ≠ 0
  | _ => True

@[simp] theorem hbPublishEndCb_count (hb : Hb) :
    (hbPublishEndCb hb).pub.count =
      if hb.pub.count = 0xffff then hb.pub.count else hb.pub.count - 1 := by
  simp only [hbPublishEndCb, ne_eq, ite_not, apply_ite Hb.pub,
    apply_ite HbPub.count, ite_self]

theorem countsDown_pred {count : BitVec 16} (finite : count ≠ 0xffff) :
    CountsDown count (count - 1) ↔ count ≠ 0 := by
  unfold CountsDown
  constructor
  · rintro ⟨positive, _, _⟩ zero
    rw [zero] at positive
    exact absurd positive (by decide)
  · intro nonzero
    bv_omega

theorem hbPublishEndCb_kept_iff (hb : Hb) :
    (hbPublishEndCb hb).pub.count = hb.pub.count ∨
        CountsDown hb.pub.count (hbPublishEndCb hb).pub.count ↔
      hb.pub.count ≠ 0 := by
  rw [hbPublishEndCb_count]
  by_cases forever : hb.pub.count = 0xffff
  · rw [if_pos forever, forever]
    exact iff_of_true (.inl rfl) (by decide)
  rw [if_neg forever, countsDown_pred forever]
  refine ⟨?_, .inr⟩
  rintro (same | nonzero)
  · bv_omega
  · exact nonzero

theorem hbPublish_count (node : HbNode) (sent : CtlSent) (hb : Hb) :
    (hbPublish node sent hb).1.pub.count = hb.pub.count ∨
      CountsDown hb.pub.count (hbPublish node sent hb).1.pub.count := by
  unfold hbPublish
  split
  · exact .inl rfl
  rename_i running
  have nonzero : hb.pub.count ≠ 0 := fun zero => running (.inr zero)
  split
  · exact .inl rfl
  split
  · exact .inl rfl
  cases sent with
  | failed => exact (hbPublishEndCb_kept_iff hb).mpr nonzero
  | dropped => exact .inl rfl
  | finalized => exact (hbPublishEndCb_kept_iff hb).mpr nonzero
  | queued => exact .inl rfl

theorem hbPubSet_count (cfg : Config) (node : HbNode) (newPub : Option HbPub)
    (hb : Hb) : (hbPubSet cfg node newPub hb).1.pub.count = hb.pub.count ∨
      SetsCount (.pubSet node newPub) (hbPubSet cfg node newPub hb).1.pub.count := by
  cases newPub with
  | none => exact .inr rfl
  | some new =>
    simp only [hbPubSet]
    split
    · rename_i unassigned
      exact .inr (.inr ⟨unassigned, rfl⟩)
    split
    · exact .inl rfl
    split
    · exact .inr (.inl rfl)
    · exact .inr (.inl rfl)

theorem countKept_iff (cfg : Config) (hb : Hb) (input : HbInput) :
    PubCountKept cfg hb input ↔ CompletesCounted hb input := by
  have completes (phase : Hb) (same : phase.pub = hb.pub) :
      (hbPublishEndCb phase).pub.count = hb.pub.count ∨ False ∨
          CountsDown hb.pub.count (hbPublishEndCb phase).pub.count ↔
        hb.pub.count ≠ 0 := by
    rw [false_or, ← same]
    exact hbPublishEndCb_kept_iff phase
  cases input with
  | pubSet node newPub =>
    refine iff_of_true ?_ trivial
    rcases hbPubSet_count cfg node newPub hb with same | set
    · exact .inl same
    · exact .inr (.inl set)
  | restore node val =>
    refine iff_of_true ?_ trivial
    rcases hbPubSet_count cfg node (some (hbPubRestored val)) hb with same | set
    · exact .inl same
    · exact .inr (.inl set)
  | publish node sent =>
    refine iff_of_true ?_ trivial
    rcases hbPublish_count node sent { hb with timer := none } with same | down
    · exact .inl same
    · exact .inr (.inr down)
  | startCb err =>
    cases err with
    | false => exact iff_of_true (.inl rfl) trivial
    | true => exact completes _ rfl
  | endCb => exact completes _ rfl
  | featureChanged => exact iff_of_true (.inl rfl) trivial
  | start =>
    refine iff_of_true (.inl ?_) trivial
    simp only [hbMachine, Machine.next, hbStep, hbStart]
    split <;> rfl
  | suspend => exact iff_of_true (.inl rfl) trivial
  | resume =>
    refine iff_of_true (.inl ?_) trivial
    simp only [hbMachine, Machine.next, hbStep, hbResume]
    split <;> rfl

/-- In every run the count keeps to its law exactly when no Heartbeat completes
while the count is 0. -/
theorem pubCount_kept (cfg : Config) (hb : Hb) (inputs : List HbInput) :
    (hbMachine cfg).Along (PubCountKept cfg) hb inputs ↔
      (hbMachine cfg).Along CompletesCounted hb inputs :=
  Machine.along_congr (countKept_iff cfg) hb inputs

def hbStoringConfig : Config := plainConfig

def hbKnownNode : HbNode where
  subnetGet := fun _ => true
  provisioned := true
  relay := true
  gattProxy := true
  friend := false
  lpnEstablished := false

def hbDisabledInFlight : List HbInput :=
  [.pubSet hbKnownNode (some
        { dst := 0xc000, count := 1, ttl := 5, feat := 0, netIdx := 0
          period := 1 }),
    .publish hbKnownNode .queued,
    .pubSet hbKnownNode none,
    .startCb false,
    .endCb]

theorem pubCount_underflows :
    (hbMachine hbStoringConfig).Along HbPossible Hb.boot hbDisabledInFlight ∧
      ¬ (hbMachine hbStoringConfig).Along (PubCountKept hbStoringConfig) Hb.boot
        hbDisabledInFlight ∧ ((hbMachine hbStoringConfig).run Hb.boot
        hbDisabledInFlight.dropLast).pub.count = 0 ∧
      ((hbMachine hbStoringConfig).run Hb.boot
        hbDisabledInFlight).pub.count = 0xffff := by
  refine ⟨⟨trivial, rfl, trivial, Nat.one_pos, Nat.one_pos, trivial⟩, ?_, rfl, rfl⟩
  rintro ⟨_, _, _, _, kept, _⟩
  rcases kept with same | set | ⟨positive, _, _⟩
  · exact absurd same (by decide)
  · exact set
  · exact absurd positive (by decide)

end ZephyrBluetooth.Mesh
