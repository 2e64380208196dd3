import ZephyrBluetooth.Host.CccValue

namespace ZephyrBluetooth.Host

open Data List

variable {value : BitVec 16} {data : List (BitVec 8)}

/-- The return value for the answer of `cfg_write` when it refuses the value; a
size of one byte is an old way to accept it. -/
def cfgRefusal (cfgWrite : Option (GattConn → BitVec 16 → Int)) (conn : GattConn)
    (value : BitVec 16) : Option Int :=
  match cfgWrite with
  | none => none
  | some write =>
    if write conn value < 0 then some (write conn value)
    else if write conn value ≠ 2 ∧ write conn value ≠ 1 then some (-0x0e)
    else none

namespace CccState

variable (state : CccState)

def btGattAttrWriteCcc (cfgWrite : Option (GattConn → BitVec 16 → Int))
    (conn : GattConn) (offset : Nat) (data : List (BitVec 8)) : Int × CccState :=
  if offset ≠ 0 then (-0x07, state)
  else
    match writtenValue offset data with
    | none => (-0x0d, state)
    | some value =>
      match state.claim conn value with
      | none => (if value = 0 then data.length else -0x11, state)
      | some claimed =>
        match cfgRefusal cfgWrite conn value with
        | some err => (err, { state with cfgs := claimed })
        | none => (data.length, state.attrWriteCcc conn offset data true)

def free : Nat :=
  state.cfgs.countP fun cfg => decide (cfg.peer = .any)

def Kept (next : CccState) : Prop :=
  next.cfgs = state.cfgs ∧ next.value = state.value ∧ next.free = state.free

/-- A peer without an entry writes a value that the application refuses, and an
entry is free. -/
def RefusedNew (cfgWrite : Option (GattConn → BitVec 16 → Int)) (conn : GattConn)
    (offset : Nat) (data : List (BitVec 8)) : Prop :=
  state.cfgs.any conn.isPeer = false ∧ 0 < state.free ∧
    ∃ value, writtenValue offset data = some value ∧ value ≠ 0 ∧
      (cfgRefusal cfgWrite conn value).isSome

variable {state}

theorem btGattAttrWriteCcc_attrWriteCcc
    (cfgWrite : Option (GattConn → BitVec 16 → Int)) (conn : GattConn) (offset : Nat)
    (data : List (BitVec 8)) :
    (state.btGattAttrWriteCcc cfgWrite conn offset data).2 =
      state.attrWriteCcc conn offset data
        ((writtenValue offset data).all fun value =>
          (cfgRefusal cfgWrite conn value).isNone) := by
  unfold btGattAttrWriteCcc
  by_cases shifted : offset ≠ 0
  · rw [if_pos shifted]
    unfold attrWriteCcc writtenValue
    rw [if_pos shifted]
  rw [if_neg shifted]
  cases parsed : writtenValue offset data with
  | none => simp [attrWriteCcc, parsed]
  | some value =>
    cases found : state.claim conn value with
    | none => simp [attrWriteCcc, parsed, found]
    | some =>
      cases refused : cfgRefusal cfgWrite conn value with
      | some => simp [attrWriteCcc, parsed, found, refused]
      | none => simp [found, refused]

theorem Kept.refl (state : CccState) : state.Kept state :=
  ⟨rfl, rfl, rfl⟩

theorem free_pos_iff :
    0 < state.free ↔ state.cfgs.any (fun cfg => decide (cfg.peer = .any)) = true := by
  unfold free
  rw [countP_pos_iff, any_eq_true]

theorem claim_kept {conn : GattConn} {claimed : List CccCfg}
    (found : state.claim conn value = some claimed) :
    state.Kept { state with cfgs := claimed } ↔
      state.cfgs.any conn.isPeer = true := by
  unfold claim at found
  by_cases own : state.cfgs.any conn.isPeer = true
  · rw [if_pos own] at found
    cases found
    exact iff_of_true (.refl state) own
  · apply iff_of_false _ own
    rw [if_neg own] at found
    split at found
    · cases found
    obtain ⟨_, item, _, split, free, -, rfl⟩ := changeFirst_split found
    rintro ⟨same, -, -⟩
    rw [split] at same
    have entry := (cons.inj (append_cancel_left same)).1
    have peer : conn.dst = item.peer := congrArg CccCfg.peer entry
    exact conn.dst_real (peer.trans (of_decide_eq_true free))

theorem refusedNew_iff {cfgWrite : Option (GattConn → BitVec 16 → Int)}
    {conn : GattConn} {offset : Nat}
    (parsed : writtenValue offset data = some value) :
    state.RefusedNew cfgWrite conn offset data ↔
      state.cfgs.any conn.isPeer = false ∧ (state.claim conn value).isSome ∧
        (cfgRefusal cfgWrite conn value).isSome := by
  unfold RefusedNew claim
  rw [free_pos_iff]
  constructor
  · rintro ⟨new, free, _, same, set, refused⟩
    cases parsed.symm.trans same
    refine ⟨new, ?_, refused⟩
    rw [new, if_neg Bool.false_ne_true, if_neg set, changeFirst_isSome]
    exact free
  · rintro ⟨new, found, refused⟩
    rw [new, if_neg Bool.false_ne_true] at found
    split at found
    · cases found
    · rename_i set
      rw [changeFirst_isSome] at found
      exact ⟨new, found, value, parsed, set, refused⟩

/-- A write that fails leaves the configuration as it was exactly when it is not
one of a new peer whose value the application refuses. -/
theorem write_ccc_refused_iff (state : CccState)
    (cfgWrite : Option (GattConn → BitVec 16 → Int)) (conn : GattConn) (offset : Nat)
    (data : List (BitVec 8)) :
    ((state.btGattAttrWriteCcc cfgWrite conn offset data).1 < 0 →
        state.Kept (state.btGattAttrWriteCcc cfgWrite conn offset data).2) ↔
      ¬ state.RefusedNew cfgWrite conn offset data := by
  unfold btGattAttrWriteCcc
  by_cases shifted : offset ≠ 0
  · rw [if_pos shifted]
    refine iff_of_true (fun _ => .refl state) ?_
    rintro ⟨-, -, value, parsed, -⟩
    unfold writtenValue at parsed
    rw [if_pos shifted] at parsed
    cases parsed
  rw [if_neg shifted]
  cases parsed : writtenValue offset data with
  | none =>
    refine iff_of_true (fun _ => .refl state) ?_
    rintro ⟨-, -, value, same, -⟩
    cases parsed.symm.trans same
  | some value =>
    rw [refusedNew_iff parsed]
    simp only
    cases found : state.claim conn value with
    | none => exact iff_of_true (fun _ => .refl state) (by simp)
    | some =>
      cases refused : cfgRefusal cfgWrite conn value with
      | none =>
        refine iff_of_true (fun failed => ?_) (by simp)
        exact absurd failed (Int.not_lt.mpr (Int.natCast_nonneg _))
      | some err =>
        have negative : err < 0 := by
          unfold cfgRefusal at refused
          split at refused
          · cases refused
          · split at refused
            · cases refused
              assumption
            · split at refused
              · cases refused
                decide
              · cases refused
        simp only [negative, true_imp_iff, claim_kept found,
          Option.isSome_some, and_true]
        rw [Bool.not_eq_false]

def visit (security : LinkSecurity) (data : List (BitVec 8)) (bonded : Bool)
    (conn : GattConn) : List CccInput :=
  [.connect conn security, .write conn.index 0 data false,
    .disconnect conn.index bonded]

theorem write_ccc_refused_exhausts :
    (¬ ∀ (state : CccState) (cfgWrite : Option (GattConn → BitVec 16 → Int))
        (conn : GattConn) (offset : Nat) (data : List (BitVec 8)),
      (state.btGattAttrWriteCcc cfgWrite conn offset data).1 < 0 →
        state.Kept (state.btGattAttrWriteCcc cfgWrite conn offset data).2) ∧
    (((cccMachine ⟨true, false, false⟩).run (.init 1)
      (visit ⟨1, false⟩ [1, 0] false (samplePeer 0 5))).btGattAttrWriteCcc none
        (samplePeer 0 6) 0 [1, 0]).1 = -0x11 := by
  refine ⟨fun kept => ?_, by decide⟩
  have same := (kept ((CccState.init 1).joined (samplePeer 0 5))
    (some fun _ _ => -0x05) (samplePeer 0 5) 0 [1, 0] (by decide)).2.2
  revert same
  decide

end CccState

end ZephyrBluetooth.Host
