import Mathlib.Algebra.BigOperators.Fin
import ZephyrBluetooth.Mesh.CfgSrv

namespace ZephyrBluetooth.Mesh

open Data Function List Option Prod

variable {addr slot : Nat} {uuid : Uuid} {vas after : List VirtualAddr}
  {va : VirtualAddr} {keyExists : Bool} {params : PubParams}

/-! The reference counts of virtual address labels against the publications and
subscriptions that hold their addresses. -/

def refOf (uuid : Uuid) (vas : List VirtualAddr) : Nat :=
  ((vas.find? (·.labels uuid)).map (·.ref)).getD 0

def published (addr : Nat) (model : Model) : Nat :=
  if model.pub.map (·.addr) = some addr then 1 else 0

def held (addr : Nat) (model : Model) : Nat :=
  published addr model + model.groups.count addr

def holders {count : Nat} (models : Fin count → Model) (addr : Nat) : Nat :=
  ∑ mod, held addr (models mod)

structure Labels (mac : LabelMac) where
  isLabel : Uuid → Prop
  distinct : ∀ {uuid other addr}, isLabel uuid → isLabel other →
    virtualAddr mac uuid = some addr → virtualAddr mac other = some addr →
      uuid = other

section Table

variable {mac : LabelMac} (labels : Labels mac)

def Labels.hasAddr (addr : Nat) : Prop :=
  ∃ uuid, labels.isLabel uuid ∧ virtualAddr mac uuid = some addr

structure VasOk (vas : List VirtualAddr) : Prop where
  known : ∀ {slot : Nat} {va : VirtualAddr}, vas[slot]? = some va → va.ref ≠ 0 →
    labels.isLabel va.uuid ∧ virtualAddr mac va.uuid = some va.addr
  single : ∀ {slot other : Nat} {va wa : VirtualAddr},
    vas[slot]? = some va → vas[other]? = some wa → va.ref ≠ 0 → wa.ref ≠ 0 →
      va.uuid = wa.uuid → slot = other

def Balanced (vas : List VirtualAddr) (count : Nat → Nat) : Prop :=
  ∀ uuid addr, labels.isLabel uuid → virtualAddr mac uuid = some addr →
    refOf uuid vas = count addr

variable {labels}

theorem Labels.hasAddr.isVirtual (has : labels.hasAddr addr) :
    addrIsVirtual addr = true := by
  obtain ⟨_, _, label⟩ := has
  exact virtualAddr_isVirtual label

theorem Labels.not_hasAddr_unassigned : ¬ labels.hasAddr addrUnassigned := by
  intro has
  cases has.isVirtual

theorem Labels.not_hasAddr_group (group : addrIsGroup addr = true) :
    ¬ labels.hasAddr addr := by
  intro has
  have virtual := has.isVirtual
  simp only [addrIsVirtual, addrIsGroup, Bool.and_eq_true, decide_eq_true_eq] at *
  omega

theorem VirtualAddr.labels_iff (uuid : Uuid) (va : VirtualAddr) :
    va.labels uuid = true ↔ va.ref ≠ 0 ∧ va.uuid = uuid := by
  simp [VirtualAddr.labels]

theorem refOf_eq_zero
    (unused : ∀ {slot : Nat} {va : VirtualAddr}, vas[slot]? = some va →
      va.ref ≠ 0 → va.uuid ≠ uuid) : refOf uuid vas = 0 := by
  unfold refOf
  cases found : vas.find? (·.labels uuid) with
  | none => rfl
  | some va =>
    have holds := (va.labels_iff uuid).mp (find?_some found)
    obtain ⟨slot, here⟩ := getElem?_of_mem (mem_of_find?_eq_some found)
    exact absurd holds.2 (unused here holds.1)

theorem VasOk.refOf_eq (ok : VasOk labels vas) (here : vas[slot]? = some va)
    (used : va.ref ≠ 0) : refOf va.uuid vas = va.ref := by
  unfold refOf
  cases found : vas.find? (·.labels va.uuid) with
  | none =>
    have none := find?_eq_none.mp found va (mem_of_getElem? here)
    exact absurd ((va.labels_iff va.uuid).mpr ⟨used, rfl⟩) none
  | some wa =>
    have holds := (wa.labels_iff va.uuid).mp (find?_some found)
    obtain ⟨_, there⟩ := getElem?_of_mem (mem_of_find?_eq_some found)
    obtain rfl := ok.single here there used holds.1 holds.2.symm
    rw [here, some_inj] at there
    rw [there]
    rfl

theorem VasOk.set (ok : VasOk labels vas) (here : vas[slot]? = some va)
    (updated : VirtualAddr)
    (known : updated.ref ≠ 0 →
      labels.isLabel updated.uuid ∧ virtualAddr mac updated.uuid = some updated.addr)
    (single : ∀ {other : Nat} {wa : VirtualAddr}, vas[other]? = some wa →
      updated.ref ≠ 0 → wa.ref ≠ 0 → wa.uuid = updated.uuid → other = slot) :
    VasOk labels (vas.set slot updated) ∧ ∀ uuid, refOf uuid (vas.set slot updated) =
        if updated.ref ≠ 0 ∧ updated.uuid = uuid then updated.ref
        else if va.ref ≠ 0 ∧ va.uuid = uuid then 0
        else refOf uuid vas := by
  have inside := (List.getElem?_eq_some_iff.mp here).1
  have self : (vas.set slot updated)[slot]? = some updated := by
    rw [getElem?_set_self inside]
  have elsewhere : ∀ {other : Nat}, other ≠ slot →
      (vas.set slot updated)[other]? = vas[other]? := fun different =>
    getElem?_set_ne (Ne.symm different)
  have tableOk : VasOk labels (vas.set slot updated) := by
    constructor
    · intro other wa there used
      by_cases same : other = slot
      · subst same
        rw [self, some_inj] at there
        subst there
        exact known used
      · rw [elsewhere same] at there
        exact ok.known there used
    · intro first second wa xa one two usedOne usedTwo equal
      by_cases sameOne : first = slot
      · subst sameOne
        rw [self, some_inj] at one
        subst one
        by_cases sameTwo : second = first
        · exact sameTwo.symm
        · rw [elsewhere sameTwo] at two
          exact (single two usedOne usedTwo equal.symm).symm
      · rw [elsewhere sameOne] at one
        by_cases sameTwo : second = slot
        · subst sameTwo
          rw [self, some_inj] at two
          subst two
          exact single one usedTwo usedOne equal
        · rw [elsewhere sameTwo] at two
          exact ok.single one two usedOne usedTwo equal
  refine ⟨tableOk, ?_⟩
  intro uuid
  split
  · rename_i new
    rw [← new.2]
    exact tableOk.refOf_eq self new.1
  · rename_i notNew
    split
    · rename_i old
      apply refOf_eq_zero
      intro other wa there used equal
      by_cases same : other = slot
      · subst same
        rw [self, some_inj] at there
        subst there
        exact notNew ⟨used, equal⟩
      · rw [elsewhere same] at there
        exact same (ok.single there here used old.1 (equal.trans old.2.symm))
    · rename_i notOld
      by_cases stored : ∃ (other : Nat) (wa : VirtualAddr), vas[other]? = some wa ∧
          wa.ref ≠ 0 ∧ wa.uuid = uuid
      · obtain ⟨other, wa, there, used, rfl⟩ := stored
        have different : other ≠ slot := by
          rintro rfl
          rw [here, some_inj] at there
          subst there
          exact notOld ⟨used, rfl⟩
        rw [ok.refOf_eq there used]
        rw [← elsewhere different] at there
        exact tableOk.refOf_eq there used
      · have unused : ∀ {other : Nat} {wa : VirtualAddr}, vas[other]? = some wa →
            wa.ref ≠ 0 → wa.uuid ≠ uuid := fun there used equal =>
          stored ⟨_, _, there, used, equal⟩
        rw [refOf_eq_zero unused]
        apply refOf_eq_zero
        intro other wa there used equal
        by_cases same : other = slot
        · subst same
          rw [self, some_inj] at there
          subst there
          exact notNew ⟨used, equal⟩
        · rw [elsewhere same] at there
          exact unused there used equal

theorem findIdx?_found {search : VirtualAddr → Bool}
    (found : vas.findIdx? search = some slot) :
    ∃ va, vas[slot]? = some va ∧ search va = true := by
  obtain ⟨inside, holds, _⟩ := findIdx?_eq_some_iff_getElem.mp found
  exact ⟨vas[slot], getElem?_eq_getElem inside, holds⟩

theorem findIdx?_labels_none (none : vas.findIdx? (·.labels uuid) = none)
    (here : vas[slot]? = some va) (used : va.ref ≠ 0) : va.uuid ≠ uuid := by
  intro equal
  have unlabelled := findIdx?_eq_none_iff.mp none va (mem_of_getElem? here)
  rw [(va.labels_iff uuid).mpr ⟨used, equal⟩] at unlabelled
  cases unlabelled

section

variable (ok : VasOk labels vas)
include ok

theorem vaAdd_success (label : labels.isLabel uuid)
    (room : refOf uuid vas + 1 < 2 ^ 15)
    (added : vaAdd mac uuid vas = (.success, addr, after)) :
    VasOk labels after ∧ virtualAddr mac uuid = some addr ∧
      ∀ other, refOf other after = refOf other vas + if other = uuid then 1 else 0 := by
  unfold vaAdd at added
  cases stored : vas.findIdx? (·.labels uuid) with
  | some =>
    obtain ⟨va, here, holds⟩ := findIdx?_found stored
    obtain ⟨used, rfl⟩ := (va.labels_iff uuid).mp holds
    rw [stored] at added
    simp only [here, mk.injEq, true_and] at added
    obtain ⟨rfl, rfl⟩ := added
    have known := ok.known here used
    have count := ok.refOf_eq here used
    have grown : (va.ref + 1) % 2 ^ 15 = va.ref + 1 := by
      rw [count] at room
      exact Nat.mod_eq_of_lt room
    have set := ok.set here
      { va with ref := (va.ref + 1) % 2 ^ 15, changed := true }
      (fun _ => known)
      (fun there _ otherUsed equal => ok.single there here otherUsed used equal)
    refine ⟨set.1, known.2, ?_⟩
    intro other
    rw [set.2 other, grown]
    by_cases same : other = va.uuid
    · subst same
      simp [count]
    · simp [same, Ne.symm same]
  | none =>
    rw [stored] at added
    cases free : vas.findIdx? (fun va => va.ref = 0) with
    | none =>
      rw [free] at added
      cases added
    | some =>
      obtain ⟨va, here, unused⟩ := findIdx?_found free
      rw [free] at added
      simp only [here] at added
      cases derived : virtualAddr mac uuid with
      | none =>
        rw [derived] at added
        cases added
      | some created =>
        rw [derived] at added
        simp only [mk.injEq, true_and] at added
        obtain ⟨rfl, rfl⟩ := added
        have set := ok.set here ⟨1, true, created, uuid⟩
          (fun _ => ⟨label, derived⟩)
          (fun there _ otherUsed equal =>
            absurd equal (findIdx?_labels_none stored there otherUsed))
        have isFree : va.ref = 0 := by simpa using unused
        refine ⟨set.1, rfl, ?_⟩
        intro other
        rw [set.2 other]
        by_cases same : other = uuid
        · subst same
          rw [refOf_eq_zero (findIdx?_labels_none stored)]
          simp
        · simp [same, Ne.symm same, isFree]

theorem vaAdd_failed {status : Status}
    (added : vaAdd mac uuid vas = (status, addr, after))
    (failed : status ≠ .success) :
    VasOk labels after ∧ ∀ other, refOf other after = refOf other vas := by
  unfold vaAdd at added
  cases stored : vas.findIdx? (·.labels uuid) with
  | some =>
    obtain ⟨va, here, _⟩ := findIdx?_found stored
    rw [stored] at added
    simp only [here, mk.injEq] at added
    exact absurd added.1.symm failed
  | none =>
    rw [stored] at added
    cases free : vas.findIdx? (fun va => va.ref = 0) with
    | none =>
      rw [free] at added
      cases added
      exact ⟨ok, fun _ => rfl⟩
    | some =>
      obtain ⟨va, here, unused⟩ := findIdx?_found free
      have isFree : va.ref = 0 := by simpa using unused
      rw [free] at added
      simp only [here] at added
      cases derived : virtualAddr mac uuid with
      | some =>
        rw [derived] at added
        simp only [mk.injEq] at added
        exact absurd added.1.symm failed
      | none =>
        rw [derived] at added
        obtain ⟨_, _, rfl⟩ := added
        have set := ok.set here
          { va with uuid := uuid, addr := addrUnassigned }
          (fun used => absurd isFree used)
          (fun _ used _ _ => absurd isFree used)
        refine ⟨set.1, ?_⟩
        intro other
        rw [set.2 other]
        simp [isFree]

theorem vaDel_cases (uuid : Uuid) :
    refOf uuid vas = 0 ∧ vaDel uuid vas = (none, vas) ∨
      ∃ addr after, vaDel uuid vas = (some addr, after) ∧
        refOf uuid vas ≠ 0 ∧ virtualAddr mac uuid = some addr ∧
        VasOk labels after ∧
        ∀ other, refOf other after + (if other = uuid then 1 else 0) =
          refOf other vas := by
  unfold vaDel
  cases stored : vas.findIdx? (·.labels uuid) with
  | none => exact .inl ⟨refOf_eq_zero (findIdx?_labels_none stored), rfl⟩
  | some =>
    obtain ⟨va, here, holds⟩ := findIdx?_found stored
    obtain ⟨used, rfl⟩ := (va.labels_iff uuid).mp holds
    have known := ok.known here used
    have count := ok.refOf_eq here used
    have set := ok.set here
      { va with ref := va.ref - 1, changed := true }
      (fun _ => known)
      (fun there _ otherUsed equal => ok.single there here otherUsed used equal)
    right
    refine ⟨va.addr, _, by simp [here], by rw [count]; exact used, known.2,
      set.1, ?_⟩
    intro other
    rw [set.2 other]
    by_cases same : other = va.uuid
    · subst same
      rw [count]
      by_cases last : va.ref - 1 = 0
      · rw [if_neg (fun all => all.1 last), if_pos ⟨used, rfl⟩, if_pos rfl]
        omega
      · rw [if_pos ⟨last, rfl⟩, if_pos rfl]
        exact Nat.sub_one_add_one used
    · simp [same, Ne.symm same]

end

theorem vaDel_added (table : VasOk labels after)
    (grown : ∀ other, refOf other after =
      refOf other vas + if other = uuid then 1 else 0) :
    VasOk labels (vaDel uuid after).2 ∧
      ∀ other, refOf other (vaDel uuid after).2 = refOf other vas := by
  rcases vaDel_cases table uuid with ⟨zero, _⟩ | ⟨_, _, dropped, _, _, finalOk, shrunk⟩
  · rw [grown uuid, if_pos rfl] at zero
    cases zero
  rw [dropped]
  refine ⟨finalOk, ?_⟩
  intro other
  exact add_right_cancel ((shrunk other).trans (grown other))

variable {count : Nat → Nat}

theorem Balanced.congr (balanced : Balanced labels vas count)
    (same : ∀ uuid, refOf uuid after = refOf uuid vas) :
    Balanced labels after count := by
  intro uuid addr label derived
  rw [same uuid]
  exact balanced uuid addr label derived

theorem Balanced.added (balanced : Balanced labels vas count)
    (label : labels.isLabel uuid) (derived : virtualAddr mac uuid = some addr)
    (grown : ∀ other, refOf other after =
      refOf other vas + if other = uuid then 1 else 0) :
    Balanced labels after (fun place => count place + if place = addr then 1 else 0) := by
  intro other place otherLabel otherDerived
  rw [grown other, balanced other place otherLabel otherDerived]
  by_cases same : other = uuid
  · subst same
    rw [derived, some_inj] at otherDerived
    simp [otherDerived]
  · have apart : place ≠ addr := by
      rintro rfl
      exact same (labels.distinct otherLabel label otherDerived derived)
    simp [same, apart]

theorem Balanced.dropped (label : labels.isLabel uuid)
    (derived : virtualAddr mac uuid = some addr)
    (shrunk : ∀ other, refOf other after + (if other = uuid then 1 else 0) =
      refOf other vas)
    (balanced : Balanced labels vas
      (fun place => count place + if place = addr then 1 else 0)) :
    Balanced labels after count := by
  intro other place otherLabel otherDerived
  have exact := balanced other place otherLabel otherDerived
  rw [← shrunk other] at exact
  by_cases same : other = uuid
  · subst same
    rw [derived, some_inj] at otherDerived
    simp only [if_true, otherDerived] at exact
    omega
  · have apart : place ≠ addr := by
      rintro rfl
      exact same (labels.distinct otherLabel label otherDerived derived)
    simpa [same, apart] using exact

theorem refOf_ne_zero (counted : refOf uuid vas ≠ 0) :
    ∃ va ∈ vas, va.ref ≠ 0 ∧ va.uuid = uuid := by
  unfold refOf at counted
  cases found : vas.find? (·.labels uuid) with
  | none =>
    rw [found] at counted
    exact absurd rfl counted
  | some va =>
    exact ⟨va, mem_of_find?_eq_some found,
      (va.labels_iff uuid).mp (find?_some found)⟩

section

variable (ok : VasOk labels vas)
include ok

theorem VasOk.vaLabelGet_some (found : vaLabelGet addr vas = some uuid) :
    labels.isLabel uuid ∧ virtualAddr mac uuid = some addr := by
  obtain ⟨_, isFound, rfl⟩ := map_eq_some_iff.mp found
  have holds := find?_some isFound
  simp only [Bool.and_eq_true, decide_eq_true_eq] at holds
  obtain ⟨used, rfl⟩ := holds
  obtain ⟨_, here⟩ := getElem?_of_mem (mem_of_find?_eq_some isFound)
  exact ok.known here used

theorem VasOk.vaLabelGet_eq (label : labels.isLabel uuid)
    (derived : virtualAddr mac uuid = some addr) (counted : refOf uuid vas ≠ 0) :
    vaLabelGet addr vas = some uuid := by
  cases found : vaLabelGet addr vas with
  | some =>
    obtain ⟨otherLabel, otherDerived⟩ := ok.vaLabelGet_some found
    rw [labels.distinct otherLabel label otherDerived derived]
  | none =>
    obtain ⟨va, member, used, rfl⟩ := refOf_ne_zero counted
    obtain ⟨_, here⟩ := getElem?_of_mem member
    have known := (ok.known here used).2
    rw [derived, some_inj] at known
    rw [vaLabelGet, map_eq_none_iff, find?_eq_none] at found
    exact absurd (by simp [used, known]) (found va member)

theorem VasOk.release (addr : Nat) (count : Nat → Nat)
    (balanced : Balanced labels vas
      (fun place => count place + if place = addr then 1 else 0)) :
    VasOk labels (vaRelease addr vas) ∧
      Balanced labels (vaRelease addr vas) count := by
  unfold vaRelease
  by_cases has : labels.hasAddr addr
  · rw [if_pos has.isVirtual]
    obtain ⟨uuid, label, derived⟩ := has
    have positive : refOf uuid vas ≠ 0 := by
      rw [balanced uuid addr label derived]
      simp
    rw [ok.vaLabelGet_eq label derived positive]
    rcases vaDel_cases ok uuid with ⟨zero, _⟩ | ⟨_, _, dropped, _, _, afterOk, shrunk⟩
    · exact absurd zero positive
    · simp only [dropped]
      exact ⟨afterOk, balanced.dropped label derived shrunk⟩
  · have unchanged : Balanced labels vas count := by
      intro uuid place label derived
      have apart : place ≠ addr := by
        rintro rfl
        exact has ⟨uuid, label, derived⟩
      simpa [apart] using balanced uuid place label derived
    split
    · split
      · rename_i uuid found
        exact absurd ⟨uuid, ok.vaLabelGet_some found⟩ has
      · exact ⟨ok, unchanged⟩
    · exact ⟨ok, unchanged⟩

end

theorem count_cons_eq (addr first : Nat) (rest : List Nat) :
    (first :: rest).count addr = rest.count addr + if addr = first then 1 else 0 := by
  by_cases same : addr = first
  · subst same
    simp
  · simp [same, count_cons_of_ne (Ne.symm same)]

theorem VasOk.releaseAll {groups : List Nat} (ok : VasOk labels vas)
    (balanced : Balanced labels vas (fun place => count place + groups.count place)) :
    VasOk labels (groups.foldl (fun vas addr => vaRelease addr vas) vas) ∧
      Balanced labels (groups.foldl (fun vas addr => vaRelease addr vas) vas)
        count := by
  induction groups generalizing vas with
  | nil => exact ⟨ok, balanced⟩
  | cons addr rest ih =>
    have first : Balanced labels vas (fun place =>
        (count place + rest.count place) + if place = addr then 1 else 0) := by
      intro uuid place label derived
      rw [balanced uuid place label derived]
      simp only [count_cons_eq, add_assoc]
    obtain ⟨restOk, restBalanced⟩ := ok.release addr _ first
    exact ih restOk restBalanced

end Table

section Holders

variable {count : Nat}

def heldElsewhere (models : Fin count → Model) (mod : Fin count) (addr : Nat) :
    Nat :=
  ∑ other ∈ Finset.univ.erase mod, held addr (models other)

section

variable (models : Fin count → Model)
include models

theorem holders_eq (mod : Fin count) (addr : Nat) :
    holders models addr = heldElsewhere models mod addr + held addr (models mod) := by
  rw [holders, heldElsewhere, add_comm]
  exact (Finset.add_sum_erase _ (fun other => held addr (models other))
    (Finset.mem_univ mod)).symm

theorem heldElsewhere_update (mod : Fin count) (model : Model) (addr : Nat) :
    heldElsewhere (update models mod model) mod addr =
      heldElsewhere models mod addr := by
  apply Finset.sum_congr rfl
  intro other member
  rw [update_of_ne (Finset.ne_of_mem_erase member)]

theorem holders_update (mod : Fin count) (model : Model) (addr : Nat) :
    holders (update models mod model) addr =
      heldElsewhere models mod addr + held addr model := by
  rw [holders_eq _ mod, heldElsewhere_update, update_self]

end

theorem count_set {groups : List Nat} {entry old : Nat}
    (here : groups[entry]? = some old) (new addr : Nat) :
    (groups.set entry new).count addr + (if addr = old then 1 else 0) =
      groups.count addr + if addr = new then 1 else 0 := by
  induction groups generalizing entry with
  | nil => cases here
  | cons first rest ih =>
    cases entry with
    | zero =>
      rw [getElem?_cons_zero, some_inj] at here
      subst here
      rw [set_cons_zero, count_cons_eq, count_cons_eq]
      omega
    | succ =>
      rw [getElem?_cons_succ] at here
      have later := ih here
      rw [set_cons_succ, count_cons_eq, count_cons_eq]
      omega

end Holders

section Handlers

variable {count : Nat} {mac : LabelMac} (labels : Labels mac) {mod : Fin count}

structure RefsOk (state : CfgState count) : Prop where
  table : VasOk labels state.vas
  exact : Balanced labels state.vas (holders state.models)

structure Handled (before : CfgState count)
    (out : Status × CfgState count) : Prop where
  ok : RefsOk labels out.2
  kept : out.1 ≠ .success → ∀ uuid, refOf uuid out.2.vas = refOf uuid before.vas

variable {labels}

theorem Handled.success {before after : CfgState count}
    (ok : RefsOk labels after) : Handled labels before (.success, after) :=
  ⟨ok, fun failed => absurd rfl failed⟩

theorem Handled.refused {before : CfgState count} (ok : RefsOk labels before)
    (status : Status) : Handled labels before (status, before) :=
  ⟨ok, fun _ _ => rfl⟩

theorem Balanced.recount {before after : Nat → Nat}
    (balanced : Balanced labels vas before)
    (same : ∀ addr, labels.hasAddr addr → after addr = before addr) :
    Balanced labels vas after := by
  intro uuid addr label derived
  rw [same addr ⟨uuid, label, derived⟩]
  exact balanced uuid addr label derived

variable {state : CfgState count}

theorem RefsOk.update (mod : Fin count) (model : Model) (table : VasOk labels vas)
    (balanced : Balanced labels vas (fun addr =>
      heldElsewhere state.models mod addr + held addr model)) :
    RefsOk labels ⟨update state.models mod model, vas⟩ :=
  ⟨table, balanced.recount fun addr _ => holders_update state.models mod model addr⟩

structure RefsAhead (labels : Labels mac) (extra : Nat → Nat)
    (state : CfgState count) : Prop where
  table : VasOk labels state.vas
  exact : Balanced labels state.vas (fun addr =>
    holders state.models addr + extra addr)

theorem RefsAhead.subListClear {extra : Nat → Nat}
    (ahead : RefsAhead labels extra state) (mod : Fin count) :
    RefsAhead labels extra (subListClear state mod) := by
  have balanced : Balanced labels state.vas (fun addr =>
      (heldElsewhere state.models mod addr + published addr (state.models mod) +
        extra addr) + (state.models mod).groups.count addr) := by
    refine ahead.exact.recount ?_
    intro addr _
    rw [holders_eq state.models mod addr, held]
    omega
  obtain ⟨table, released⟩ := ahead.table.releaseAll balanced
  refine ⟨table, released.recount ?_⟩
  intro addr has
  have none : ((state.models mod).groups.map fun _ => addrUnassigned).count addr = 0 := by
    rw [count_eq_zero]
    intro member
    obtain ⟨_, _, rfl⟩ := mem_map.mp member
    exact labels.not_hasAddr_unassigned has
  rw [Mesh.subListClear, holders_update, held, none]
  rfl

theorem RefsAhead.cleared {extra : Nat → Nat}
    (ahead : RefsAhead labels extra state) (comp : Comp count) (mod : Fin count) :
    RefsAhead labels extra (walkModels comp mod modSubClearVisitor state) := by
  rw [walkModels_eq]
  exact visits_clear (RefsAhead labels extra)
    (fun _ other kept => RefsAhead.subListClear kept other) _ ahead

theorem RefsOk.cleared (ok : RefsOk labels state)
    (comp : Comp count) (mod : Fin count) :
    RefsOk labels (walkModels comp mod modSubClearVisitor state) := by
  have ahead : RefsAhead labels (fun _ => 0) state := ⟨ok.table, ok.exact⟩
  have cleared := ahead.cleared comp mod
  exact ⟨cleared.table, cleared.exact⟩

theorem held_setGroup (cfg : Config) (model : Model) (entry new addr : Nat) :
    held addr ((model.setGroup entry new).subStore cfg) =
      published addr model + (model.groups.set entry new).count addr := rfl

theorem RefsOk.storeGroup (cfg : Config)
    {mod : Fin count} {entry old new : Nat} {count : Nat → Nat}
    (table : VasOk labels state.vas)
    (here : (state.models mod).groups[entry]? = some old)
    (balanced : Balanced labels state.vas count)
    (moved : ∀ addr, labels.hasAddr addr →
      count addr + (if addr = old then 1 else 0) =
        holders state.models addr + if addr = new then 1 else 0) :
    RefsOk labels (state.storeGroup cfg mod entry new) := by
  refine .update mod _ table (balanced.recount ?_)
  intro addr has
  have counted := moved addr has
  have set := count_set here new addr
  rw [holders_eq state.models mod, held] at counted
  rw [held_setGroup]
  omega

theorem RefsOk.storeOther (cfg : Config)
    {entry old new : Nat} (ok : RefsOk labels state)
    (here : (state.models mod).groups[entry]? = some old)
    (notOld : ¬ labels.hasAddr old) (notNew : ¬ labels.hasAddr new) :
    RefsOk labels (state.storeGroup cfg mod entry new) := by
  refine .storeGroup cfg ok.table here ok.exact ?_
  intro addr has
  have apartOld : addr ≠ old := by
    rintro rfl
    exact notOld has
  have apartNew : addr ≠ new := by
    rintro rfl
    exact notNew has
  rw [if_neg apartOld, if_neg apartNew]

theorem held_pub {model : Model} {pub : ModelPub} (here : model.pub = some pub)
    (addr : Nat) :
    held addr model =
      model.groups.count addr + if addr = pub.addr then 1 else 0 := by
  rw [held, published, here, add_comm]
  simp [eq_comm]

theorem held_setPub (cfg : Config) (model : Model) (pub : ModelPub) (addr : Nat) :
    held addr ({ model with pub := some pub }.pubStore cfg) =
      model.groups.count addr + if addr = pub.addr then 1 else 0 :=
  held_pub (rfl : ({ model with pub := some pub }.pubStore cfg).pub = some pub) addr

theorem PubEffect.assigned_ok {cfg : Config} {out : Status × CfgState count}
    (effect : PubEffect cfg keyExists addr params mod state out)
    (isAssigned : addr ≠ addrUnassigned) (table : VasOk labels state.vas)
    (balanced : Balanced labels state.vas (fun place =>
      holders state.models place + if place = addr then 1 else 0)) :
    out.1 = .success ∧ RefsOk labels out.2 ∨ out.1 ≠ .success ∧ out.2 = state := by
  cases effect with
  | refused status failed => exact .inr ⟨failed, rfl⟩
  | idle unassigned => exact absurd unassigned isAssigned
  | cleared pub here valid unassigned => exact absurd unassigned isAssigned
  | assigned pub here =>
    refine .inl ⟨rfl, ?_⟩
    have released := table.release pub.addr
      (fun place => heldElsewhere state.models mod place +
        ((state.models mod).groups.count place + if place = addr then 1 else 0))
      (balanced.recount fun place _ => by
        rw [holders_eq state.models mod, held_pub here]
        omega)
    refine .update mod _ released.1 (released.2.recount ?_)
    intro place _
    rw [held_setPub]
    rfl

/-- A publication is neither set to the address of a label by its number nor
cleared while it holds one. -/
def pubAdmitted (labels : Labels mac) (cfg : Config) (addr : Nat)
    (params : PubParams) (keyExists : Bool) (model : Model) : Prop :=
  ∀ pub, model.pub = some pub → pubParamsValid cfg params pub = true →
    (addr = addrUnassigned → ¬ labels.hasAddr pub.addr) ∧
      (keyExists = true → modelHasKey model params.appIdx = true →
        ¬ labels.hasAddr addr)

theorem modPubSet_handled (cfg : Config) (ok : RefsOk labels state)
    (admitted : pubAdmitted labels cfg addr params keyExists (state.models mod)) :
    Handled labels state (modPubSet cfg keyExists addr params mod state) := by
  have effect := modPubSet_effect cfg keyExists addr params mod state
  generalize modPubSet cfg keyExists addr params mod state = out at effect ⊢
  have again := effect
  cases effect with
  | refused status => exact .refused ok status
  | idle => exact .refused ok _
  | cleared pub here valid unassigned =>
    have unlabelled := (admitted pub here valid).1 unassigned
    refine .success (.update mod _ ok.table (ok.exact.recount ?_))
    intro place has
    have apart : place ≠ pub.addr := by
      rintro rfl
      exact unlabelled has
    have placed : place ≠ addrUnassigned := by
      rintro rfl
      exact labels.not_hasAddr_unassigned has
    rw [holders_eq state.models mod, held_pub here]
    rw [held_setPub, ModelPub.cleared, if_neg apart, if_neg placed]
  | assigned pub here valid isAssigned present bound =>
    have unlabelled := (admitted pub here valid).2 present bound
    have balanced : Balanced labels state.vas (fun place =>
        holders state.models place + if place = addr then 1 else 0) := by
      refine ok.exact.recount ?_
      intro place has
      have apart : place ≠ addr := by
        rintro rfl
        exact unlabelled has
      rw [if_neg apart]
      rfl
    rcases again.assigned_ok isAssigned ok.table balanced with ⟨_, after⟩ | ⟨failed, _⟩
    · exact .success after
    · exact absurd rfl failed

theorem modPubVaSet_handled (cfg : Config) (ok : RefsOk labels state)
    (label : labels.isLabel uuid) (room : refOf uuid state.vas + 1 < 2 ^ 15) :
    Handled labels state (modPubVaSet cfg mac uuid params keyExists mod state) := by
  unfold modPubVaSet
  split
  · rename_i addr vas added
    obtain ⟨table, derived, grown⟩ := vaAdd_success ok.table label room added
    have balanced := ok.exact.added label derived grown
    have isAssigned : addr ≠ addrUnassigned := by
      rintro rfl
      exact labels.not_hasAddr_unassigned ⟨uuid, label, derived⟩
    have effect := modPubSet_effect cfg keyExists addr params mod
      { state with vas := vas }
    rcases effect.assigned_ok isAssigned table balanced with
      ⟨success, after⟩ | ⟨failed, same⟩
    · split
      · rename_i result
        rw [result] at after
        exact .success after
      · rename_i status final _ result
        rw [result] at success
        exact absurd success ‹_›
    · split
      · rename_i result
        rw [result] at failed
        exact absurd rfl failed
      · rename_i status final _ result
        rw [result] at same
        obtain rfl : final = { state with vas := vas } := same
        obtain ⟨backOk, back⟩ := vaDel_added table grown
        exact ⟨⟨backOk, ok.exact.congr back⟩, fun _ => back⟩
  · rename_i status addr vas notSuccess added
    obtain ⟨table, same⟩ := vaAdd_failed ok.table added notSuccess
    exact ⟨⟨table, ok.exact.congr same⟩, fun _ => same⟩

theorem modSubAdd_handled (cfg : Config) (comp : Comp count) (addr : Nat)
    (mod : Fin count) (ok : RefsOk labels state) :
    Handled labels state (modSubAdd cfg comp addr mod state) := by
  unfold modSubAdd
  split
  · exact .refused ok _
  rename_i group
  have isGroup : addrIsGroup addr = true := by simpa using group
  dsimp only
  split
  · exact .refused ok _
  split
  · exact .refused ok _
  rename_i entry free
  exact .success (ok.storeOther cfg (modelFindGroup_some free)
    labels.not_hasAddr_unassigned (labels.not_hasAddr_group isGroup))

theorem modSubDel_handled (cfg : Config) (comp : Comp count) (addr : Nat)
    (mod : Fin count) (ok : RefsOk labels state) :
    Handled labels state (modSubDel cfg comp addr mod state) := by
  unfold modSubDel
  split
  · exact .refused ok _
  rename_i group
  have isGroup : addrIsGroup addr = true := by simpa using group
  dsimp only
  split
  · exact .refused ok _
  rename_i entry found
  exact .success (ok.storeOther cfg (modelFindGroup_some found)
    (labels.not_hasAddr_group isGroup) labels.not_hasAddr_unassigned)

/-- The first entry of the model is written over by an overwrite: the model is
cleared before, or the entry holds no label. -/
def firstAdmitted (labels : Labels mac) (comp : Comp count) (mod : Fin count)
    (model : Model) : Prop :=
  comp.ext.next mod = some mod →
    ∀ addr, model.groups[0]? = some addr → ¬ labels.hasAddr addr

theorem firstAdmitted.replaced {comp : Comp count} (state : CfgState count)
    (admitted : firstAdmitted labels comp mod (state.models mod))
    (nonempty : 0 < (state.models mod).groups.length) :
    ∃ old, ((walkModels comp mod modSubClearVisitor state).models mod).groups[0]? =
      some old ∧ ¬ labels.hasAddr old := by
  have here := getElem?_eq_getElem nonempty
  rw [walkModels_clear, clearedModels]
  split
  · refine ⟨addrUnassigned, ?_, labels.not_hasAddr_unassigned⟩
    rw [Model.groupsCleared, getElem?_map, here]
    rfl
  · rename_i unvisited
    refine ⟨_, here, admitted ?_ _ here⟩
    by_contra notSelf
    exact unvisited (mem_visitedModels_self notSelf)

section

variable {state : CfgState count} (cfg : Config) (comp : Comp count)

theorem modSubOverwrite_handled (addr : Nat) (mod : Fin count)
    (ok : RefsOk labels state)
    (admitted : firstAdmitted labels comp mod (state.models mod)) :
    Handled labels state (modSubOverwrite cfg comp addr mod state) := by
  unfold modSubOverwrite
  split
  · exact .refused ok _
  rename_i group
  have isGroup : addrIsGroup addr = true := by simpa using group
  split
  · rename_i nonempty
    obtain ⟨_, here, unlabelled⟩ := firstAdmitted.replaced state admitted nonempty
    exact .success ((ok.cleared comp mod).storeOther cfg here unlabelled
      (labels.not_hasAddr_group isGroup))
  · exact .refused ok _

theorem modSubDelAll_handled (mod : Fin count) (ok : RefsOk labels state) :
    Handled labels state (modSubDelAll cfg comp mod state) := by
  have cleared := ok.cleared comp mod
  refine .success (.update mod _ cleared.table (cleared.exact.recount ?_))
  intro addr _
  exact (holders_eq _ mod addr).symm

theorem modSubVaAdd_handled (mod : Fin count) (ok : RefsOk labels state)
    (label : labels.isLabel uuid) (room : refOf uuid state.vas + 1 < 2 ^ 15) :
    Handled labels state (modSubVaAdd cfg mac comp uuid mod state) := by
  unfold modSubVaAdd
  split
  · rename_i addr vas added
    obtain ⟨table, derived, grown⟩ := vaAdd_success ok.table label room added
    obtain ⟨backOk, back⟩ := vaDel_added table grown
    dsimp only
    split
    · exact ⟨⟨backOk, ok.exact.congr back⟩, fun _ => back⟩
    split
    · exact ⟨⟨backOk, ok.exact.congr back⟩, fun _ => back⟩
    rename_i entry free
    refine .success (.storeGroup cfg table (modelFindGroup_some free)
      (ok.exact.added label derived grown) ?_)
    intro place has
    have placed : place ≠ addrUnassigned := by
      rintro rfl
      exact labels.not_hasAddr_unassigned has
    rw [if_neg placed]
    rfl
  · rename_i status addr vas notSuccess added
    obtain ⟨table, same⟩ := vaAdd_failed ok.table added notSuccess
    exact ⟨⟨table, ok.exact.congr same⟩, fun _ => same⟩

theorem modSubVaOverwrite_handled (mod : Fin count) (ok : RefsOk labels state)
    (label : labels.isLabel uuid) (room : refOf uuid state.vas + 1 < 2 ^ 15)
    (admitted : firstAdmitted labels comp mod (state.models mod)) :
    Handled labels state (modSubVaOverwrite cfg mac comp uuid mod state) := by
  unfold modSubVaOverwrite
  split
  · rename_i nonempty
    split
    · rename_i addr vas added
      obtain ⟨table, derived, grown⟩ := vaAdd_success ok.table label room added
      have ahead : RefsAhead labels (fun place => if place = addr then 1 else 0)
          { state with vas := vas } :=
        ⟨table, ok.exact.added label derived grown⟩
      have cleared := ahead.cleared comp mod
      obtain ⟨old, here, unlabelled⟩ :=
        firstAdmitted.replaced { state with vas := vas } admitted nonempty
      refine .success (.storeGroup cfg cleared.table here cleared.exact ?_)
      intro place has
      have apart : place ≠ old := by
        rintro rfl
        exact unlabelled has
      rw [if_neg apart]
      rfl
    · rename_i status addr vas notSuccess added
      obtain ⟨table, same⟩ := vaAdd_failed ok.table added notSuccess
      exact ⟨⟨table, ok.exact.congr same⟩, fun _ => same⟩
  · exact .refused ok _

end

/-- A subscription to a label is deleted only from a model that has it, and what
stands for the address of an unknown label is not the address of a label that
the model is subscribed to. -/
def vaDelAdmitted (labels : Labels mac) (comp : Comp count) (uuid : Uuid)
    (stale : Nat) (mod : Fin count) (state : CfgState count) : Prop :=
  if refOf uuid state.vas = 0 then
    (modelFindGroup comp state.models mod stale).entry.isSome = true →
      ¬ labels.hasAddr stale
  else
    ∀ addr, virtualAddr mac uuid = some addr →
      (modelFindGroup comp state.models mod addr).entry.isSome = true

theorem modSubVaDel_handled (cfg : Config) (comp : Comp count) {stale : Nat}
    (ok : RefsOk labels state) (label : labels.isLabel uuid)
    (admitted : vaDelAdmitted labels comp uuid stale mod state) :
    Handled labels state (modSubVaDel cfg comp uuid stale mod state) := by
  unfold modSubVaDel
  unfold vaDelAdmitted at admitted
  rcases vaDel_cases ok.table uuid with ⟨zero, missing⟩ |
    ⟨addr, vas, dropped, counted, derived, table, shrunk⟩
  · rw [if_pos zero] at admitted
    simp only [missing, getD_none]
    split
    · exact .refused ok _
    split
    · exact .refused ok _
    rename_i entry found
    exact .success (ok.storeOther cfg (modelFindGroup_some found)
      (admitted (by rw [found]; rfl)) labels.not_hasAddr_unassigned)
  · rw [if_neg counted] at admitted
    have present := admitted addr derived
    simp only [dropped, getD_some]
    have assigned : addr ≠ addrUnassigned := by
      rintro rfl
      exact labels.not_hasAddr_unassigned ⟨uuid, label, derived⟩
    rw [if_neg assigned]
    split
    · rename_i absent
      rw [absent] at present
      cases present
    · rename_i entry found
      have here := modelFindGroup_some found
      refine .success (.update _ _ table (Balanced.dropped label derived shrunk
        (ok.exact.recount ?_)))
      intro place has
      have placed : place ≠ addrUnassigned := by
        rintro rfl
        exact labels.not_hasAddr_unassigned has
      have emptied := count_set here addrUnassigned place
      rw [if_neg placed] at emptied
      rw [holders_eq state.models (modelFindGroup comp state.models mod addr).mod]
      rw [held_setGroup, held]
      dsimp only
      omega

def CfgMsg.label : CfgMsg → Option Uuid
  | .pubVaSet _ _ uuid _ _ | .subVaAdd _ _ uuid | .subVaDel _ _ uuid _
  | .subVaOverwrite _ _ uuid => some uuid
  | .pubSet _ _ _ _ _ | .subAdd _ _ _ | .subDel _ _ _ | .subOverwrite _ _ _
  | .subDelAll _ _ => none

def refsAdmitted (labels : Labels mac) (cfg : Config) (comp : Comp count)
    (mod : Fin count) (state : CfgState count) : CfgMsg → Prop
  | .pubSet _ _ addr params keyExists =>
    pubAdmitted labels cfg addr params keyExists (state.models mod)
  | .pubVaSet _ _ uuid _ _ | .subVaAdd _ _ uuid => refOf uuid state.vas + 1 < 2 ^ 15
  | .subOverwrite _ _ _ => firstAdmitted labels comp mod (state.models mod)
  | .subVaOverwrite _ _ uuid =>
    refOf uuid state.vas + 1 < 2 ^ 15 ∧
      firstAdmitted labels comp mod (state.models mod)
  | .subVaDel _ _ uuid stale => vaDelAdmitted labels comp uuid stale mod state
  | .subAdd _ _ _ | .subDel _ _ _ | .subDelAll _ _ => True

theorem cfgModelMsg_handled (cfg : Config) (comp : Comp count) (mod : Fin count)
    (msg : CfgMsg) (ok : RefsOk labels state)
    (known : ∀ uuid, msg.label = some uuid → labels.isLabel uuid)
    (admitted : refsAdmitted labels cfg comp mod state msg) :
    Handled labels state (cfgModelMsg cfg mac comp mod state msg) := by
  cases msg with
  | pubSet => exact modPubSet_handled cfg ok admitted
  | pubVaSet elemAddr id uuid =>
    exact modPubVaSet_handled cfg ok (known uuid rfl) admitted
  | subAdd elemAddr id addr => exact modSubAdd_handled cfg comp addr mod ok
  | subDel elemAddr id addr => exact modSubDel_handled cfg comp addr mod ok
  | subOverwrite elemAddr id addr =>
    exact modSubOverwrite_handled cfg comp addr mod ok admitted
  | subDelAll => exact modSubDelAll_handled cfg comp mod ok
  | subVaAdd elemAddr id uuid =>
    exact modSubVaAdd_handled cfg comp mod ok (known uuid rfl) admitted
  | subVaDel elemAddr id uuid =>
    exact modSubVaDel_handled cfg comp ok (known uuid rfl) admitted
  | subVaOverwrite elemAddr id uuid =>
    exact modSubVaOverwrite_handled cfg comp mod ok (known uuid rfl) admitted.1
      admitted.2

def refsKeeping (labels : Labels mac) (cfg : Config) (comp : Comp count)
    (state : CfgState count) (msg : CfgMsg) : Prop :=
  (∀ uuid, msg.label = some uuid → labels.isLabel uuid) ∧
    ∀ mod, msg.wellFormed = true →
      modelLookup comp msg.target.1 msg.target.2 = .ok mod →
        refsAdmitted labels cfg comp mod state msg

/-- The references are exact after the message, and unchanged if it is not
answered with success. -/
def RefsExact (labels : Labels mac) (cfg : Config) (comp : Comp count)
    (state : CfgState count) (msg : CfgMsg) : Prop :=
  let after := (cfgMachine cfg mac comp).next state msg
  Balanced labels after.vas (holders after.models) ∧
    (.ok .success ∉ (cfgMachine cfg mac comp).emit state msg →
      ∀ uuid, refOf uuid after.vas = refOf uuid state.vas)

theorem cfgMsg_refs (cfg : Config) (comp : Comp count)
    (msg : CfgMsg) (ok : RefsOk labels state)
    (keeping : refsKeeping labels cfg comp state msg) :
    RefsExact labels cfg comp state msg ∧
      RefsOk labels ((cfgMachine cfg mac comp).next state msg) := by
  simp only [RefsExact, Machine.next, Machine.emit, cfgMachine]
  rcases cfgMsg_cases cfg mac comp state msg with
    ⟨answer, result⟩ | ⟨mod, wellFormed, lookup, result⟩
  · rw [result]
    exact ⟨⟨ok.exact, fun _ _ => rfl⟩, ok⟩
  have handled := cfgModelMsg_handled cfg comp mod msg ok keeping.1
    (keeping.2 mod wellFormed lookup)
  rw [result]
  refine ⟨⟨handled.ok.exact, ?_⟩, handled.ok⟩
  intro unanswered
  apply handled.kept
  intro success
  exact unanswered (by simp [success])

/-- Labels are counted exactly in every run whose messages keep to the cases in
which the handlers do so. -/
theorem cfg_refs_exact (cfg : Config) (comp : Comp count)
    {state : CfgState count} (start : RefsOk labels state) (msgs : List CfgMsg)
    (along : (cfgMachine cfg mac comp).Along (refsKeeping labels cfg comp)
      state msgs) :
    (cfgMachine cfg mac comp).Along (RefsExact labels cfg comp) state msgs := by
  apply Machine.along_of_along _ start along
  intro state msg ok keeping
  exact cfgMsg_refs cfg comp msg ok keeping

end Handlers

def sampleCfgConfig : Config := plainConfig

def sampleMac : LabelMac := fun uuid => some (uuid.setWidth 16)

def sampleLabels : Labels sampleMac where
  isLabel uuid := uuid = 5
  distinct := by
    rintro uuid _ _ rfl rfl _ _
    rfl

def sampleComp : Comp 2 where
  primary := 1
  elemCount := 1
  elemIdx _ := 0
  modelId ix := .sig ix.val
  ext := ⟨fun _ => none, fun _ => false⟩
  rings _ := ⟨[], by simp, .inl ⟨rfl, rfl⟩⟩

def sampleModel : Model where
  keys := [0]
  groups := [0, 0]
  pub := some ⟨0, 0, false, 0, 0, 0, 0, false⟩
  bindPending := false
  subPending := false
  pubPending := false

def sampleCfg : CfgState 2 :=
  ⟨fun _ => sampleModel, List.replicate 2 ⟨0, false, 0, 0⟩⟩

def sampleMsgs : List CfgMsg :=
  [.subVaAdd 1 (.sig 0) 5, .subVaAdd 1 (.sig 1) 5, .subVaDel 1 (.sig 0) 5 0]

theorem sampleCfg_ok : RefsOk sampleLabels sampleCfg := by
  refine ⟨⟨?_, ?_⟩, ?_⟩
  · intro slot va here used
    obtain ⟨_, rfl⟩ := mem_replicate.mp (mem_of_getElem? here)
    exact absurd rfl used
  · intro slot other va wa here _ used
    obtain ⟨_, rfl⟩ := mem_replicate.mp (mem_of_getElem? here)
    exact absurd rfl used
  · rintro _ _ rfl derived
    cases derived
    decide +kernel

theorem cfg_refs_exact_delete :
    (cfgMachine sampleCfgConfig sampleMac sampleComp).Along
      (RefsExact sampleLabels sampleCfgConfig sampleComp) sampleCfg sampleMsgs := by
  apply cfg_refs_exact sampleCfgConfig sampleComp sampleCfg_ok
  refine ⟨⟨?_, ?_⟩, ⟨?_, ?_⟩, ⟨?_, ?_⟩, trivial⟩
  · rintro uuid label
    cases label
    rfl
  · rintro mod _ lookup
    change refOf 5 sampleCfg.vas + 1 < 2 ^ 15
    decide +kernel
  · rintro uuid label
    cases label
    rfl
  · rintro mod _ lookup
    change refOf 5 _ + 1 < 2 ^ 15
    decide +kernel
  · rintro uuid label
    cases label
    rfl
  · rintro mod _ lookup
    cases lookup
    change vaDelAdmitted _ _ _ _ _ _
    rw [vaDelAdmitted, if_neg (by decide +kernel)]
    intro addr derived
    cases derived
    decide +kernel

theorem cfg_refs_leaked : RefsOk sampleLabels sampleCfg ∧
      ¬ (cfgMachine sampleCfgConfig sampleMac sampleComp).Along
        (RefsExact sampleLabels sampleCfgConfig sampleComp) sampleCfg
        [.pubVaSet 1 (.sig 0) 5 ⟨0, false, 0, 0, 0⟩ true,
          .pubSet 1 (.sig 0) 0 ⟨0, false, 0, 0, 0⟩ true] ∧
      ¬ (cfgMachine sampleCfgConfig sampleMac sampleComp).Along
        (RefsExact sampleLabels sampleCfgConfig sampleComp) sampleCfg
        [.subVaAdd 1 (.sig 0) 5, .subVaDel 1 (.sig 1) 5 0] := by
  refine ⟨sampleCfg_ok, ?_, ?_⟩
  · rintro ⟨_, ⟨exact, _⟩, _⟩
    have counted := exact 5 0x8005 rfl (by decide +kernel)
    revert counted
    decide +kernel
  · rintro ⟨_, ⟨_, kept⟩, _⟩
    have same := kept (by decide +kernel) 5
    revert same
    decide +kernel

end ZephyrBluetooth.Mesh
