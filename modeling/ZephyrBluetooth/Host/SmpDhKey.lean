import Mathlib.Data.List.FinRange
import ZephyrBluetooth.Data.Machine

namespace ZephyrBluetooth.Host

open Bool Data List Option

/-! DHKeys of several pairings from the one generator of the controller. -/

/-- Where the exchange of public keys stands: a central waits for the local key
(`SMP_FLAG_PKEY_SEND`), the key of the peer is allowed (`allowed_cmds`), or it is
stored and `generate_dhkey` is still to come. -/
inductive KeyPhase where
  | idle | waits | allowed | stored
  deriving DecidableEq

/-- The part of `struct bt_smp` that DHKey generation reads and writes; a `pkey`
of zeros is `default`, a `dhkey` of zeros `none`. -/
structure Smp (PubKey DhKey : Type) where
  central : Bool
  pairing : Bool
  /-- `SMP_FLAG_ENC_PENDING` or `SMP_FLAG_SEC_REQ` -/
  securing : Bool
  phase : KeyPhase
  dhkeyPending : Bool
  dhkeyGen : Bool
  pkey : PubKey
  dhkey : Option DhKey

namespace Smp

variable {PubKey DhKey : Type} (smp : Smp PubKey DhKey)

def init [Inhabited PubKey] (central : Bool) : Smp PubKey DhKey :=
  ⟨central, false, false, .idle, false, false, default, none⟩

def reset : Smp PubKey DhKey :=
  { smp with
    pairing := false, securing := false, phase := .idle, dhkeyPending := false,
    dhkeyGen := false }

/-- `smp_error`, which completes the pairing only where one is in progress. -/
def error : Smp PubKey DhKey :=
  if smp.pairing || smp.securing then smp.reset else smp

end Smp

structure KeyRun where
  /-- an error is returned before `generate_dhkey` -/
  refused : Bool
  /-- the application cancels the pairing from its callback -/
  cancelled : Bool
  /-- the controller takes the command of `bt_dh_key_gen` -/
  accepts : Bool

inductive DhKeyInput (PubKey : Type) (count : Nat) where
  | pair (i : Fin count) (scPublicKey : Bool)
  | secure (i : Fin count) (on : Bool)
  | pkeyReady (i : Fin count) (refused : Bool)
  | publicKey (i : Fin count) (key : PubKey)
  | generate (i : Fin count) (run : KeyRun)
  /-- `fails` counts the calls of `bt_dh_key_gen` that fail behind the event. -/
  | complete (success sendFails : Bool) (fails : Nat)
  | fail (i : Fin count)
  | reset (i : Fin count)
  | disconnect (i : Fin count)

structure SmpPool (PubKey DhKey : Type) (count : Nat) where
  pool : Fin count → Smp PubKey DhKey
  /-- `dh_key_cb` is set -/
  dhKeyCb : Bool
  /-- what the controller computes, with the context it was started for -/
  running : Option (Fin count × PubKey)

namespace SmpPool

section Model

variable {PubKey DhKey : Type} {count : Nat}
variable (dh : PubKey → DhKey) (state : SmpPool PubKey DhKey count) (i : Fin count)

def set (smp : Smp PubKey DhKey) : SmpPool PubKey DhKey count :=
  { state with pool := Function.update state.pool i smp }

def smpError : SmpPool PubKey DhKey count :=
  state.set i (state.pool i).error

def smpFind (flag : Smp PubKey DhKey → Bool) : Option (Fin count) :=
  (List.finRange count).find? fun i => flag (state.pool i)

def btDhKeyGen (key : PubKey) (accepts : Bool) :
    Option (SmpPool PubKey DhKey count) :=
  if state.dhKeyCb then none
  else if accepts then some { state with dhKeyCb := true, running := some (i, key) }
  else none

def marked : SmpPool PubKey DhKey count :=
  state.set i { state.pool i with dhkeyGen := true }

def smpDhkeyGenerate (accepts : Bool) : Bool × SmpPool PubKey DhKey count :=
  match (state.marked i).btDhKeyGen i (state.pool i).pkey accepts with
  | some started => (true, started)
  | none =>
    (false, (state.marked i).set i { (state.marked i).pool i with dhkeyGen := false })

def awaiting : SmpPool PubKey DhKey count :=
  state.set i { state.pool i with dhkeyPending := true }

def generateDhkey (accepts : Bool) : Bool × SmpPool PubKey DhKey count :=
  if ((state.awaiting i).smpFind Smp.dhkeyGen).isNone then
    (state.awaiting i).smpDhkeyGenerate i accepts
  else (true, state.awaiting i)

def cancelled (run : KeyRun) : SmpPool PubKey DhKey count :=
  if run.cancelled then state.smpError i else state

/-- The rest of `smp_public_key`, or `smp_public_key_periph` when the local key is
ready. -/
def answerKey (run : KeyRun) : SmpPool PubKey DhKey count :=
  if run.refused then state.smpError i
  else
    match (state.cancelled i run).generateDhkey i run.accepts with
    | (true, generated) => generated
    | (false, refused) => refused.smpError i

def smpDhkeyReady (dhkey : Option DhKey) (sendFails : Bool) :
    SmpPool PubKey DhKey count :=
  let heard := { state.pool i with dhkeyGen := false }
  match dhkey with
  | none => state.set i heard.error
  | some value =>
    let ready := { heard with dhkeyPending := false, dhkey := some value }
    state.set i (if sendFails then ready.error else ready)

/-- The loop of `bt_smp_dhkey_ready`. -/
def generateNext (state : SmpPool PubKey DhKey count) :
    Nat → SmpPool PubKey DhKey count
  | 0 =>
    match state.smpFind Smp.dhkeyPending with
    | none => state
    | some i => (state.smpDhkeyGenerate i true).2
  | fails + 1 =>
    match state.smpFind Smp.dhkeyPending with
    | none => state
    | some i => generateNext ((state.smpDhkeyGenerate i false).2.smpError i) fails

def btSmpDhkeyReady (dhkey : Option DhKey) (sendFails : Bool) (fails : Nat) :
    SmpPool PubKey DhKey count :=
  match state.smpFind Smp.dhkeyGen with
  | none => state.generateNext fails
  | some i => (state.smpDhkeyReady i dhkey sendFails).generateNext fails

def idle : SmpPool PubKey DhKey count :=
  { state with dhKeyCb := false, running := none }

/-- `bt_hci_evt_le_dhkey_complete`, sent for an operation that is running. -/
def dhkeyComplete (success sendFails : Bool) (fails : Nat) :
    SmpPool PubKey DhKey count :=
  match state.running with
  | none => state
  | some (_, key) =>
    if state.dhKeyCb then
      state.idle.btSmpDhkeyReady (if success then some (dh key) else none) sendFails
        fails
    else { state with running := none }

/-- The key of a context is that of its public key, no context waits while the
controller is idle, and none without a pairing waits or takes the next key. -/
structure Routed : Prop where
  derived : ∀ i value, (state.pool i).dhkey = some value →
    value = dh (state.pool i).pkey
  generated : ∀ i, (state.pool i).dhkeyGen = true →
    state.running = some (i, (state.pool i).pkey)
  waits : ∀ i, (state.pool i).dhkeyPending = true → state.running.isSome = true
  abandoned : ∀ i, (state.pool i).pairing = false →
    (state.pool i).dhkeyPending = false ∧ (state.pool i).dhkeyGen = false

/-- `generate_dhkey` is called for a pairing that is still in progress. -/
def Starts : DhKeyInput PubKey count → Prop
  | .generate i run => (state.pool i).phase = .stored →
    run.refused = true ∨ (state.pool i).pairing = true ∧ run.cancelled = false
  | _ => True

end Model

section Generator

variable {PubKey DhKey : Type} {count : Nat} {dh : PubKey → DhKey}
  {state next last : SmpPool PubKey DhKey count} {i : Fin count}
  {smp : Smp PubKey DhKey} {running : Option (Fin count × PubKey)}

structure Fine (dh : PubKey → DhKey) (running : Option (Fin count × PubKey))
    (i : Fin count) (smp : Smp PubKey DhKey) : Prop where
  derived : ∀ value, smp.dhkey = some value → value = dh smp.pkey
  generated : smp.dhkeyGen = true → running = some (i, smp.pkey)
  clean : smp.phase ≠ .idle →
    smp.dhkeyPending = false ∧ smp.dhkeyGen = false ∧ smp.dhkey = none
  abandoned : smp.pairing = false →
    smp.dhkeyPending = false ∧ smp.dhkeyGen = false

structure Core (dh : PubKey → DhKey) (state : SmpPool PubKey DhKey count) :
    Prop where
  running : state.dhKeyCb = state.running.isSome
  fine : ∀ i, Fine dh state.running i (state.pool i)

def Waits (state : SmpPool PubKey DhKey count) : Prop :=
  ∀ i, (state.pool i).dhkeyPending = true → state.running.isSome = true

def Same (state next : SmpPool PubKey DhKey count) : Prop :=
  ∀ j, (next.pool j).dhkey = (state.pool j).dhkey ∧
    (next.pool j).pkey = (state.pool j).pkey

structure Kept (dh : PubKey → DhKey) (state next : SmpPool PubKey DhKey count) :
    Prop where
  core : next.Core dh
  waits : next.Waits
  same : state.Same next

theorem pool_set_self : (state.set i smp).pool i = smp := by
  exact Function.update_self ..

theorem set_set (other : Smp PubKey DhKey) :
    (state.set i other).set i smp = state.set i smp := by
  unfold set
  rw [Function.update_idem]

theorem Same.refl : state.Same state := fun _ => ⟨rfl, rfl⟩

theorem Same.trans (first : state.Same next) (second : next.Same last) :
    state.Same last := fun j =>
  ⟨(second j).1.trans (first j).1, (second j).2.trans (first j).2⟩

theorem Same.set (dhkey : smp.dhkey = (state.pool i).dhkey)
    (pkey : smp.pkey = (state.pool i).pkey) : state.Same (state.set i smp) :=
  (Function.forall_update_iff state.pool fun j smp =>
    smp.dhkey = (state.pool j).dhkey ∧ smp.pkey = (state.pool j).pkey).mpr
    ⟨⟨dhkey, pkey⟩, fun _ _ => ⟨rfl, rfl⟩⟩

theorem awaiting_same : state.Same (state.awaiting i) :=
  .set rfl rfl

theorem Core.set (core : state.Core dh) (fine : Fine dh state.running i smp) :
    (state.set i smp).Core dh :=
  ⟨core.running, (Function.forall_update_iff state.pool fun j smp =>
    Fine dh state.running j smp).mpr ⟨fine, fun j _ => core.fine j⟩⟩

theorem Waits.set (waits : state.Waits)
    (pending : smp.dhkeyPending = true → state.running.isSome = true) :
    (state.set i smp).Waits :=
  (Function.forall_update_iff state.pool fun _ smp => smp.dhkeyPending = true →
    state.running.isSome = true).mpr ⟨pending, fun j _ => waits j⟩

theorem error_cases (smp : Smp PubKey DhKey) :
    smp.error = smp.reset ∨ smp.error = smp := by
  unfold Smp.error
  split
  · exact .inl rfl
  · exact .inr rfl

theorem Fine.error (fine : Fine dh running i smp) : Fine dh running i smp.error := by
  rcases error_cases smp with reset | same
  · rw [reset]
    exact ⟨fine.derived, nofun, fun phase => absurd rfl phase, fun _ => ⟨rfl, rfl⟩⟩
  · rwa [same]

theorem error_keys (smp : Smp PubKey DhKey) :
    smp.error.dhkey = smp.dhkey ∧ smp.error.pkey = smp.pkey := by
  rcases error_cases smp with same | same
  · rw [same]
    exact ⟨rfl, rfl⟩
  · rw [same]
    exact ⟨rfl, rfl⟩

theorem error_gen (quiet : smp.dhkeyGen = false) : smp.error.dhkeyGen = false := by
  rcases error_cases smp with same | same
  · rw [same]
    rfl
  · rwa [same]

theorem Kept.smpError (kept : state.Kept dh next) (i : Fin count) :
    state.Kept dh (next.smpError i) where
  core := kept.core.set (kept.core.fine i).error
  waits := by
    refine kept.waits.set fun pending => ?_
    rcases error_cases (next.pool i) with same | same
    · rw [same] at pending
      cases pending
    · rw [same] at pending
      exact kept.waits i pending
  same := kept.same.trans (.set (error_keys _).1 (error_keys _).2)

theorem smpFind_none {flag : Smp PubKey DhKey → Bool}
    (missing : state.smpFind flag = none) (i : Fin count) :
    flag (state.pool i) = false :=
  eq_false_iff.mpr (find?_eq_none.mp missing i (mem_finRange i))

theorem smpFind_some {flag : Smp PubKey DhKey → Bool}
    (found : state.smpFind flag = some i) : flag (state.pool i) = true := by
  have here := find?_some found
  exact here

def started (state : SmpPool PubKey DhKey count) (i : Fin count) :
    SmpPool PubKey DhKey count :=
  { state.marked i with dhKeyCb := true, running := some (i, (state.pool i).pkey) }

theorem smpDhkeyGenerate_eq (quiet : (state.pool i).dhkeyGen = false)
    (accepts : Bool) :
    state.smpDhkeyGenerate i accepts =
      if state.dhKeyCb || !accepts then (false, state)
      else (true, state.started i) := by
  have restored : (state.marked i).set i
      { (state.marked i).pool i with dhkeyGen := false } = state := by
    unfold marked
    rw [pool_set_self, set_set]
    unfold set
    rw [← quiet, Function.update_eq_self]
  have flag : (state.marked i).dhKeyCb = state.dhKeyCb := rfl
  unfold smpDhkeyGenerate btDhKeyGen
  rw [restored, flag]
  cases state.dhKeyCb with
  | true => rfl
  | false =>
    cases accepts with
    | true => rfl
    | false => rfl

theorem Core.started (core : state.Core dh)
    (quiet : ∀ j, (state.pool j).dhkeyGen = false)
    (idle : (state.pool i).phase = .idle)
    (underway : (state.pool i).pairing = true) :
    state.Kept dh (state.started i) where
  core := by
    refine ⟨rfl, (Function.forall_update_iff state.pool fun j smp =>
      Fine dh (some (i, (state.pool i).pkey)) j smp).mpr
      ⟨⟨(core.fine i).derived, fun _ => rfl, fun phase => absurd idle phase,
        fun done => nomatch done.symm.trans underway⟩, ?_⟩⟩
    refine fun j _ => ⟨(core.fine j).derived, fun gen => ?_, (core.fine j).clean,
      (core.fine j).abandoned⟩
    cases (quiet j).symm.trans gen
  waits _ _ := rfl
  same := .set rfl rfl

theorem Core.awaiting (core : state.Core dh) (idle : (state.pool i).phase = .idle)
    (underway : (state.pool i).pairing = true) : (state.awaiting i).Core dh :=
  core.set ⟨(core.fine i).derived, (core.fine i).generated,
    fun phase => absurd idle phase, fun done => nomatch done.symm.trans underway⟩

theorem Kept.generateDhkey (kept : state.Kept dh next)
    (idle : (next.pool i).phase = .idle) (underway : (next.pool i).pairing = true)
    (accepts : Bool) :
    state.Kept dh (next.generateDhkey i accepts).2 ∨ accepts = false ∧
      next.running = none ∧
      next.generateDhkey i accepts = (false, next.awaiting i) := by
  have core := kept.core.awaiting idle underway
  have waiting (runs : next.running.isSome = true) :
      state.Kept dh (next.awaiting i) :=
    ⟨core, kept.waits.set fun _ => runs, kept.same.trans awaiting_same⟩
  have phase : ((next.awaiting i).pool i).phase = .idle := by
    unfold awaiting
    rw [pool_set_self]
    exact idle
  have still : ((next.awaiting i).pool i).pairing = true := by
    unfold awaiting
    rw [pool_set_self]
    exact underway
  unfold SmpPool.generateDhkey
  split
  · rename_i missing
    have quiet := smpFind_none (isNone_iff_eq_none.mp missing)
    rw [smpDhkeyGenerate_eq (quiet i), core.running]
    split
    · rename_i failed
      cases runs : next.running with
      | some => exact .inl (waiting (by rw [runs]; rfl))
      | none =>
        have idle : (next.awaiting i).running = none := runs
        rw [idle] at failed
        exact .inr ⟨by simpa using failed, rfl, rfl⟩
    · obtain ⟨core, waits, same⟩ := core.started quiet phase still
      exact .inl ⟨core, waits, (kept.same.trans awaiting_same).trans same⟩
  · rename_i found
    obtain ⟨j, here⟩ := ne_none_iff_exists'.mp
      (mt isNone_iff_eq_none.mpr found)
    exact .inl (waiting
      (isSome_of_eq_some ((core.fine j).generated (smpFind_some here))))

theorem Kept.answerKey (kept : state.Kept dh next)
    (idle : (next.pool i).phase = .idle) {run : KeyRun}
    (within : run.refused = true ∨
      (next.pool i).pairing = true ∧ run.cancelled = false) :
    state.Kept dh (next.answerKey i run) := by
  unfold SmpPool.answerKey
  split
  · exact kept.smpError i
  rename_i goes
  obtain ⟨underway, whole⟩ := within.resolve_left goes
  rw [show next.cancelled i run = next from if_neg (by rw [whole]; nofun)]
  rcases kept.generateDhkey idle underway run.accepts with kept | ⟨_, _, failed⟩
  · split
    · rename_i same
      rwa [same] at kept
    · rename_i same
      rw [same] at kept
      exact kept.smpError i
  · rw [failed]
    have reset : (next.awaiting i).smpError i =
        next.set i { next.pool i with dhkeyPending := true }.reset := by
      unfold awaiting SmpPool.smpError
      rw [pool_set_self, set_set]
      exact congrArg (next.set i) (if_pos (by simp [underway]))
    change state.Kept dh ((next.awaiting i).smpError i)
    rw [reset]
    exact ⟨kept.core.set ⟨(kept.core.fine i).derived, nofun,
      fun phase => absurd rfl phase, fun _ => ⟨rfl, rfl⟩⟩, kept.waits.set nofun,
      kept.same.trans (.set rfl rfl)⟩

theorem Core.generateNext (core : state.Core dh) (free : state.dhKeyCb = false)
    (quiet : ∀ j, (state.pool j).dhkeyGen = false) (fails : Nat) :
    state.Kept dh (state.generateNext fails) := by
  have settled (missing : state.smpFind Smp.dhkeyPending = none) :
      state.Kept dh state := by
    refine ⟨core, fun j waiting => ?_, .refl⟩
    cases (smpFind_none missing j).symm.trans waiting
  induction fails generalizing state with
  | zero =>
    unfold SmpPool.generateNext
    split
    · exact settled ‹_›
    · rename_i i found
      rw [smpDhkeyGenerate_eq (quiet i), free]
      refine core.started quiet (by_contra fun phase => ?_)
        (eq_true_of_not_eq_false fun done => ?_)
      · cases ((core.fine i).clean phase).1.symm.trans (smpFind_some found)
      · cases ((core.fine i).abandoned done).1.symm.trans (smpFind_some found)
  | succ fails ih =>
    unfold SmpPool.generateNext
    split
    · exact settled ‹_›
    · rename_i i found
      rw [smpDhkeyGenerate_eq (quiet i), free]
      have failed : (state.smpError i).Core dh := core.set (core.fine i).error
      have still : ∀ j, ((state.smpError i).pool j).dhkeyGen = false :=
        (Function.forall_update_iff state.pool fun _ smp =>
          smp.dhkeyGen = false).mpr ⟨error_gen (quiet i), fun j _ => quiet j⟩
      obtain ⟨core, waits, same⟩ := ih failed free still fun missing => by
        refine ⟨failed, fun j waiting => ?_, .refl⟩
        cases (smpFind_none missing j).symm.trans waiting
      exact ⟨core, waits, .trans (.set (error_keys _).1 (error_keys _).2) same⟩

theorem Core.idle (core : state.Core dh)
    (quiet : ∀ j, (state.pool j).dhkeyGen = false) : state.idle.Core dh :=
  ⟨rfl, fun j => ⟨(core.fine j).derived, fun gen => (by
    cases (quiet j).symm.trans gen), (core.fine j).clean, (core.fine j).abandoned⟩⟩

theorem Fine.heard (fine : Fine dh state.running i (state.pool i))
    (gen : (state.pool i).dhkeyGen = true) {dhkey : Option DhKey}
    (value : dhkey = none ∨ dhkey = some (dh (state.pool i).pkey))
    (sendFails : Bool) :
    ∃ smp, state.idle.smpDhkeyReady i dhkey sendFails = (state.set i smp).idle ∧
      Fine dh state.running i smp ∧ smp.dhkeyGen = false ∧
      (smp.dhkey = (state.pool i).dhkey ∨ smp.dhkey = some (dh smp.pkey)) := by
  have idle : (state.pool i).phase = .idle := by
    by_contra phase
    cases (fine.clean phase).2.1.symm.trans gen
  rcases value with rfl | rfl
  · have fine : Fine dh state.running i { state.pool i with dhkeyGen := false } :=
      ⟨fine.derived, nofun, fun phase => absurd idle phase,
        fun done => ⟨(fine.abandoned done).1, rfl⟩⟩
    exact ⟨_, rfl, fine.error, error_gen rfl, .inl (error_keys _).1⟩
  · have fine : Fine dh state.running i { state.pool i with
        dhkeyGen := false, dhkeyPending := false,
        dhkey := some (dh (state.pool i).pkey) } :=
      ⟨fun value found => (some.inj found).symm, nofun,
        fun phase => absurd idle phase, fun _ => ⟨rfl, rfl⟩⟩
    cases sendFails with
    | true =>
      refine ⟨_, rfl, fine.error, error_gen rfl, .inr ?_⟩
      rw [if_pos rfl, (error_keys _).1, (error_keys _).2]
      rfl
    | false => exact ⟨_, rfl, fine, rfl, .inr rfl⟩

theorem Core.dhkeyComplete (core : state.Core dh) (waits : state.Waits)
    (success sendFails : Bool) (fails : Nat) :
    (state.dhkeyComplete dh success sendFails fails).Core dh ∧
      (state.dhkeyComplete dh success sendFails fails).Waits ∧
      ∀ j, ((state.dhkeyComplete dh success sendFails fails).pool j).dhkey =
          (state.pool j).dhkey ∨ (state.pool j).dhkeyGen = true ∧
          ((state.dhkeyComplete dh success sendFails fails).pool j).dhkey =
            some (dh ((state.dhkeyComplete dh success sendFails fails).pool j).pkey) := by
  unfold SmpPool.dhkeyComplete
  cases computes : state.running with
  | none => exact ⟨core, waits, fun _ => .inl rfl⟩
  | some started =>
    have flag : state.dhKeyCb = true := by rw [core.running, computes]; rfl
    simp only [flag, if_true]
    unfold btSmpDhkeyReady
    cases found : state.idle.smpFind Smp.dhkeyGen with
    | none =>
      have quiet : ∀ j, (state.pool j).dhkeyGen = false := smpFind_none found
      obtain ⟨core, waits, same⟩ := (core.idle quiet).generateNext rfl quiet fails
      exact ⟨core, waits, fun j => .inl (same j).1⟩
    | some i =>
      have gen : (state.pool i).dhkeyGen = true := smpFind_some found
      have only : ∀ j, (state.pool j).dhkeyGen = true → state.running =
          some (j, (state.pool j).pkey) := fun j => (core.fine j).generated
      have own : started = (i, (state.pool i).pkey) :=
        some.inj (computes.symm.trans (only i gen))
      subst own
      obtain ⟨smp, heard, fine, silent, dhkey⟩ := @Fine.heard _ _ _ dh state i
        (core.fine i) gen (if success then some (dh (state.pool i).pkey) else none)
        (by cases success; exacts [.inl rfl, .inr rfl]) sendFails
      have quiet : ∀ j, ((state.set i smp).pool j).dhkeyGen = false := by
        refine (Function.forall_update_iff state.pool fun _ smp =>
          smp.dhkeyGen = false).mpr ⟨silent, fun j apart => ?_⟩
        refine eq_false_iff.mpr fun other => apart ?_
        exact congrArg Prod.fst (some.inj ((only j other).symm.trans computes))
      simp only [heard]
      obtain ⟨core', waits, same⟩ :=
        ((core.set fine).idle quiet).generateNext rfl quiet fails
      refine ⟨core', waits, fun j => ?_⟩
      rw [(same j).1, (same j).2]
      exact (Function.forall_update_iff state.pool fun j smp =>
        smp.dhkey = (state.pool j).dhkey ∨ (state.pool j).dhkeyGen = true ∧
          smp.dhkey = some (dh smp.pkey)).mpr
        ⟨dhkey.imp_right fun ready => ⟨gen, ready⟩, fun _ _ => .inl rfl⟩ j

end Generator

section Runs

variable {PubKey DhKey : Type} {count : Nat} [Inhabited PubKey]

def init (central : Fin count → Bool) : SmpPool PubKey DhKey count :=
  ⟨fun i => .init (central i), false, none⟩

/-- `smp_init` starts a pairing, or came with the security request before it. -/
def startPairing (state : SmpPool PubKey DhKey count) (i : Fin count)
    (scPublicKey : Bool) : SmpPool PubKey DhKey count :=
  let central := (state.pool i).central
  if (state.pool i).pairing then state
  else state.set i
    { Smp.init central with
      pairing := true
      phase := if central && !scPublicKey then .waits else .allowed }

def step (dh : PubKey → DhKey) (state : SmpPool PubKey DhKey count) :
    DhKeyInput PubKey count → SmpPool PubKey DhKey count
  | .pair i scPublicKey => state.startPairing i scPublicKey
  | .secure i on => state.set i { state.pool i with securing := on }
  | .pkeyReady i refused =>
    if (state.pool i).phase = .waits then
      let sent := if refused then (state.pool i).error else state.pool i
      state.set i { sent with phase := .allowed }
    else state
  | .publicKey i key =>
    if (state.pool i).phase = .allowed then
      state.set i { state.pool i with phase := .stored, pkey := key }
    else state.smpError i
  | .generate i run =>
    if (state.pool i).phase = .stored then
      (state.set i { state.pool i with phase := .idle }).answerKey i run
    else state
  | .complete success sendFails fails => state.dhkeyComplete dh success sendFails fails
  | .fail i => state.smpError i
  | .reset i => state.set i (state.pool i).reset
  | .disconnect i => state.set i (.init (state.pool i).central)

/-- A step changes a key to zeros, or to the DH value of the public key of the
context that the completed operation was started for, in the pairing that is in
progress there; the value for a pairing that was abandoned is discarded. -/
def Delivers (dh : PubKey → DhKey) (state : SmpPool PubKey DhKey count)
    (input : DhKeyInput PubKey count) : Prop :=
  ∀ i, ((state.step dh input).pool i).dhkey = (state.pool i).dhkey ∨
    ((state.step dh input).pool i).dhkey = none ∨
    ((state.pool i).pairing = true ∧ (state.pool i).dhkeyGen = true ∧
        state.running = some (i, (state.pool i).pkey)) ∧
      ((state.step dh input).pool i).dhkey =
        some (dh ((state.step dh input).pool i).pkey)

def machine (dh : PubKey → DhKey) :
    Machine (SmpPool PubKey DhKey count) (DhKeyInput PubKey count) Unit :=
  ⟨fun state input => (state.step dh input, [])⟩

variable {dh : PubKey → DhKey} {state : SmpPool PubKey DhKey count}

theorem delivers_set {i : Fin count} {smp : Smp PubKey DhKey}
    {input : DhKeyInput PubKey count} (same : state.step dh input = state.set i smp)
    (dhkey : smp.dhkey = (state.pool i).dhkey ∨ smp.dhkey = none) :
    state.Delivers dh input := by
  unfold Delivers
  rw [same]
  exact (Function.forall_update_iff state.pool fun j smp =>
    smp.dhkey = (state.pool j).dhkey ∨ smp.dhkey = none ∨
      ((state.pool j).pairing = true ∧ (state.pool j).dhkeyGen = true ∧
        state.running = some (j, (state.pool j).pkey)) ∧
        smp.dhkey = some (dh smp.pkey)).mpr
    ⟨dhkey.imp_right .inl, fun _ _ => .inl rfl⟩

theorem Core.step (core : state.Core dh) (waits : state.Waits)
    (input : DhKeyInput PubKey count) (starts : state.Starts input) :
    state.Delivers dh input ∧
      (state.step dh input).Core dh ∧ (state.step dh input).Waits := by
  have here : state.Kept dh state := ⟨core, waits, .refl⟩
  have stays {input : DhKeyInput PubKey count} (same : state.step dh input = state) :
      state.Delivers dh input ∧
        (state.step dh input).Core dh ∧ (state.step dh input).Waits := by
    unfold Delivers
    rw [same]
    exact ⟨fun _ => .inl rfl, core, waits⟩
  have fails {input : DhKeyInput PubKey count} (i : Fin count)
      (same : state.step dh input = state.smpError i) : state.Delivers dh input ∧
        (state.step dh input).Core dh ∧ (state.step dh input).Waits := by
    refine ⟨delivers_set same (.inl (error_keys _).1), ?_⟩
    rw [same]
    exact ⟨(here.smpError i).core, (here.smpError i).waits⟩
  have clears {input : DhKeyInput PubKey count} (i : Fin count)
      {smp : Smp PubKey DhKey} (same : state.step dh input = state.set i smp)
      (clean : smp.dhkeyPending = false ∧ smp.dhkeyGen = false ∧ smp.dhkey = none) :
      state.Delivers dh input ∧
        (state.step dh input).Core dh ∧ (state.step dh input).Waits := by
    refine ⟨delivers_set same (.inr clean.2.2), ?_⟩
    rw [same]
    refine ⟨core.set ⟨fun value found => ?_, fun gen => ?_, fun _ => clean,
        fun _ => ⟨clean.1, clean.2.1⟩⟩,
      waits.set fun pending => ?_⟩
    · cases clean.2.2.symm.trans found
    · cases clean.2.1.symm.trans gen
    · cases clean.1.symm.trans pending
  cases input with
  | pair i =>
    by_cases busy : (state.pool i).pairing = true
    · exact stays (if_pos busy)
    · exact clears i (if_neg busy) ⟨rfl, rfl, rfl⟩
  | secure i =>
    have fine := core.fine i
    exact ⟨delivers_set rfl (.inl rfl),
      core.set ⟨fine.derived, fine.generated, fine.clean, fine.abandoned⟩,
      waits.set (waits i)⟩
  | pkeyReady i refused =>
    by_cases phase : (state.pool i).phase = .waits
    · have clean := (core.fine i).clean (by rw [phase]; nofun)
      refine clears i (if_pos phase) ?_
      cases refused with
      | false => exact clean
      | true =>
        rcases error_cases (state.pool i) with same | same
        · simp only [if_true, same]
          exact ⟨rfl, rfl, clean.2.2⟩
        · simp only [if_true, same]
          exact clean
    · exact stays (if_neg phase)
  | publicKey i =>
    by_cases phase : (state.pool i).phase = .allowed
    · exact clears i (if_pos phase) ((core.fine i).clean (by rw [phase]; nofun))
    · exact fails i (if_neg phase)
  | generate i run =>
    by_cases phase : (state.pool i).phase = .stored
    · have fine := core.fine i
      have stored : state.Kept dh
          (state.set i { state.pool i with phase := .idle }) :=
        ⟨core.set ⟨fine.derived, fine.generated, fun phase => absurd rfl phase,
            fine.abandoned⟩,
          waits.set (waits i), .set rfl rfl⟩
      have answered := stored.answerKey (i := i)
        (by rw [pool_set_self]) (by rw [pool_set_self]; exact starts phase)
      have same : state.step dh (.generate i run) = _ := if_pos phase
      unfold Delivers
      rw [same]
      exact ⟨fun j => .inl (answered.same j).1, answered.core, answered.waits⟩
    · exact stays (if_neg phase)
  | complete success sendFails fails =>
    obtain ⟨after, waits, keys⟩ := core.dhkeyComplete waits success sendFails fails
    refine ⟨fun j => (keys j).imp_right fun ⟨gen, ready⟩ => .inr ⟨⟨?_, gen, ?_⟩, ready⟩,
      after, waits⟩
    · refine eq_true_of_not_eq_false fun done => ?_
      cases ((core.fine j).abandoned done).2.symm.trans gen
    · exact (core.fine j).generated gen
  | fail i => exact fails i rfl
  | reset i =>
    exact ⟨delivers_set rfl (.inl rfl), core.set
      ⟨(core.fine i).derived, nofun, fun phase => absurd rfl phase,
        fun _ => ⟨rfl, rfl⟩⟩, waits.set nofun⟩
  | disconnect i => exact clears i rfl ⟨rfl, rfl, rfl⟩

/-- In a run where keys are generated only for pairings still in progress, each
DHKey goes to the pairing it was computed for, or is discarded, and no context
waits for a generation that does not come. -/
theorem dhkeys_routed (dh : PubKey → DhKey) (central : Fin count → Bool)
    (inputs : List (DhKeyInput PubKey count))
    (along : (machine dh).Along Starts (init central) inputs) :
    (machine dh).Always (Routed dh) (init central) inputs ∧
      (machine dh).Along (Delivers dh) (init central) inputs := by
  have start : (init central : SmpPool PubKey DhKey count).Core dh ∧
      (init central : SmpPool PubKey DhKey count).Waits :=
    ⟨⟨rfl, fun _ => ⟨nofun, nofun, fun phase => absurd rfl phase,
      fun _ => ⟨rfl, rfl⟩⟩⟩, nofun⟩
  have kept : ∀ (state : SmpPool PubKey DhKey count) input,
      state.Core dh ∧ state.Waits → state.Starts input → state.Delivers dh input ∧
        ((machine dh).next state input).Core dh ∧
          ((machine dh).next state input).Waits :=
    fun state input sound starts => sound.1.step sound.2 input starts
  refine ⟨?_, Machine.along_of_along kept start along⟩
  refine Machine.Always.mono (fun state sound => ⟨fun i => (sound.1.fine i).derived,
    fun i => (sound.1.fine i).generated, sound.2, fun i => (sound.1.fine i).abandoned⟩)
    (Machine.always_of_along (fun state input sound starts =>
      (kept state input sound starts).2) start along)

def twoPairings : List (DhKeyInput Nat 2) :=
  [.pair 0 true, .publicKey 0 7, .generate 0 ⟨false, false, true⟩, .pair 1 true,
    .publicKey 1 9, .generate 1 ⟨false, false, true⟩, .complete true false 0,
    .complete true false 0]

theorem dhkeys_routed_two :
    ((machine (· + 100)).Always (Routed (· + 100)) (init fun _ => true) twoPairings ∧
      (machine (· + 100)).Along (Delivers (· + 100)) (init fun _ => true)
        twoPairings) ∧ (finRange 2).map (fun i =>
      (((machine (· + 100)).run (init fun _ => true) twoPairings).pool i).dhkey) =
        [some 107, some 109] :=
  ⟨dhkeys_routed (· + 100) (fun _ => true) twoPairings ⟨trivial, trivial,
    fun _ => .inr ⟨rfl, rfl⟩, trivial, trivial, fun _ => .inr ⟨rfl, rfl⟩, trivial,
    trivial, trivial⟩, by decide⟩

theorem dhkeys_routed_cancelled : ¬ ∀ inputs : List (DhKeyInput Nat 1),
      (machine id).Always (Routed id) (init fun _ => true) inputs := by
  intro all
  have last := (all [.pair 0 true, .publicKey 0 7,
    .generate 0 ⟨false, true, false⟩]).last
  have computes := last.waits 0 (by decide)
  revert computes
  decide

end Runs

end SmpPool

end ZephyrBluetooth.Host
