import ZephyrBluetooth.Host.GattClient

namespace ZephyrBluetooth.Host

open Data List

theorem RspTouch.Inside.mono {touch : RspTouch} {length more : Nat}
    (inside : touch.Inside length) (le : length ≤ more) : touch.Inside more := by
  cases touch with
  | read => exact le_trans inside le
  | pass => exact le_trans inside le

theorem entryLoop_safe {func : DiscoverFunc} {entryLen : Nat}
    {entry : Nat → List RspTouch × DiscoverEntry} (proper : 0 < entryLen)
    (inside : ∀ pos, ∀ touch ∈ (entry pos).1, touch.Inside (pos + entryLen))
    {length : Nat} (nonempty : 1 ≤ length) {state : EntryState}
    (within : state.pos + state.left ≤ length) :
    (entryLoop func entryLen entry).Safe (RspTouch.Inside length) state := by
  apply @Loop.safe_of_measure _ _ _ _ _
    (fun state => state.pos + state.left ≤ length) EntryState.left _ _ within
  intro state within
  have first : RspTouch.Inside length (.read 0 1) := nonempty
  unfold entryLoop
  by_cases short : state.left < entryLen
  · simp only [if_pos short]
    constructor
    · intro touch member
      rw [mem_singleton.mp member]
      exact first
    · intro after next
      cases next
  · simp only [if_neg short]
    have touches : ∀ touch ∈ RspTouch.read 0 1 :: (entry state.pos).1,
        touch.Inside length := by
      intro touch member
      rcases mem_cons.mp member with rfl | member
      · exact first
      · exact (inside state.pos touch member).mono (by omega)
    cases (entry state.pos).2 with
    | invalid => exact ⟨touches, nofun⟩
    | included attrHandle startHandle endHandle =>
      exact ⟨touches, nofun⟩
    | skipped handle =>
      refine ⟨touches, ?_⟩
      intro after next
      cases next
      simp only
      omega
    | found handle attr =>
      simp only
      cases func (state.calls ++ [attr]) with
      | stop => exact ⟨touches, nofun⟩
      | proceed =>
        refine ⟨touches, ?_⟩
        intro after next
        cases next
        simp only
        omega

theorem refusedLoop_safe {length : Nat} (nonempty : 1 ≤ length)
    (state : EntryState) : refusedLoop.Safe (RspTouch.Inside length) state := by
  apply (Loop.safe_done rfl).mpr
  intro touch member
  rw [mem_singleton.mp member]
  exact nonempty

section Entries

variable (params : DiscoverParams) (pdu : RspPdu)

theorem includeEntry_inside (short : Bool) (pos : Nat) :
    ∀ touch ∈ (includeEntry params pdu short pos).1,
      touch.Inside (pos + if short then 8 else 6) := by
  unfold includeEntry
  simp only
  cases short <;> split <;> simp [RspTouch.Inside]

theorem chrcEntry_inside (short : Bool) (pos : Nat) :
    ∀ touch ∈ (chrcEntry params pdu short pos).1,
      touch.Inside (pos + if short then 7 else 21) := by
  unfold chrcEntry
  simp only
  cases short <;> split <;> simp [RspTouch.Inside]

theorem serviceEntry_inside (short : Bool) (pos : Nat) :
    ∀ touch ∈ (serviceEntry params pdu short pos).1,
      touch.Inside (pos + if short then 6 else 20) := by
  unfold serviceEntry
  simp only
  cases short <;> split
  · simp [RspTouch.Inside]
  · split <;> simp [RspTouch.Inside]
  · simp [RspTouch.Inside]
  · split <;> simp [RspTouch.Inside]

end Entries

theorem findTypeLoop_safe (func : DiscoverFunc) (params : DiscoverParams)
    (uuid : BtUuid) (pdu : RspPdu) (state : GroupState) :
    (findTypeLoop func params uuid pdu).Safe (RspTouch.Inside pdu.length) state := by
  apply @Loop.safe_of_measure _ _ _ _ _ (fun _ => True)
    (fun state => pdu.length / 4 - state.index) _ _ trivial
  intro state _
  unfold findTypeLoop
  by_cases odd : pdu.length % 4 ≠ 0
  · simp only [if_pos odd]
    exact ⟨by simp, nofun⟩
  simp only [if_neg odd]
  by_cases more : state.index < pdu.length / 4 % 256
  · simp only [if_pos more]
    have low := Nat.mod_le (pdu.length / 4) 256
    have room := Nat.div_mul_le_self pdu.length 4
    constructor
    · intro touch member
      rw [mem_singleton.mp member]
      show 4 * state.index + 4 ≤ pdu.length
      omega
    · intro after next
      split at next
      · cases next
      cases next
      refine ⟨trivial, ?_⟩
      show pdu.length / 4 - (state.index + 1) < pdu.length / 4 - state.index
      omega
  · simp only [if_neg more]
    exact ⟨by simp, nofun⟩

variable {uuid : BtUuid}

theorem infoEntry_next {func : DiscoverFunc} {params : DiscoverParams}
    {handle : Nat} {state after : InfoState}
    (next : infoEntry func params uuid handle state = .next after) :
    after.index = state.index + 1 := by
  unfold infoEntry at next
  simp only at next
  repeat' split at next
  all_goals first
    | cases next
      rfl
    | cases next

variable {pdu : RspPdu}

theorem infoLen_cases {len : Nat} (known : infoLen pdu = some len) :
    len = 4 ∨ len = 18 := by
  unfold infoLen at known
  split at known
  · exact .inl (Option.some.inj known).symm
  split at known
  · exact .inr (Option.some.inj known).symm
  · cases known

theorem findInfoLoop_safe (func : DiscoverFunc) (params : DiscoverParams)
    (nonempty : 1 ≤ pdu.length) (small : pdu.length < 2 ^ 16)
    (state : InfoState) :
    (findInfoLoop func params pdu).Safe (RspTouch.Inside pdu.length) state := by
  have first : RspTouch.Inside pdu.length (.read 0 1) := nonempty
  have rest := RspPdu.behindFirst_eq nonempty small
  apply @Loop.safe_of_measure _ _ _ _ _ (fun _ => True)
    (fun state => pdu.length - state.index) _ _ trivial
  intro state _
  unfold findInfoLoop
  cases known : infoLen pdu with
  | none =>
    refine ⟨?_, nofun⟩
    intro touch member
    rw [mem_singleton.mp member]
    exact first
  | some len =>
    have proper : 4 ≤ len := by
      rcases infoLen_cases known with rfl | rfl <;> decide
    by_cases short : pdu.behindFirst < len
    · simp only [if_pos short]
      refine ⟨?_, nofun⟩
      intro touch member
      rw [mem_singleton.mp member]
      exact first
    · simp only [if_neg short]
      by_cases more : state.index < pdu.behindFirst / len
      · simp only [if_pos more]
        have room : len * (state.index + 1) ≤ pdu.behindFirst :=
          le_trans (Nat.mul_le_mul_left len more)
            (Nat.mul_div_le pdu.behindFirst len)
        rw [mul_add] at room
        have count := le_trans more (Nat.div_le_self pdu.behindFirst len)
        constructor
        · intro touch member
          rcases mem_cons.mp member with rfl | member
          · exact first
          rcases mem_cons.mp member with rfl | member
          · show 1 + len * state.index + 2 ≤ pdu.length
            omega
          split at member
          · cases member
          rw [mem_singleton.mp member]
          show 1 + len * state.index + 2 + (len - 2) ≤ pdu.length
          omega
        · intro after next
          have step := infoEntry_next next
          refine ⟨trivial, ?_⟩
          omega
      · simp only [if_neg more]
        refine ⟨?_, nofun⟩
        intro touch member
        rw [mem_singleton.mp member]
        exact first

theorem readMultVlLoop_safe {state : PullState}
    (within : state.pos + state.left ≤ pdu.length) :
    (readMultVlLoop pdu).Safe (RspTouch.Inside pdu.length) state := by
  apply @Loop.safe_of_measure _ _ _ _ _
    (fun state => state.pos + state.left ≤ pdu.length) PullState.left _ _ within
  intro state within
  unfold readMultVlLoop
  by_cases short : state.left < 2
  · simp only [if_pos short]
    exact ⟨by simp, nofun⟩
  simp only [if_neg short]
  have fits := min_le_right (pdu.word state.pos) (state.left - 2)
  constructor
  · simp only [forall_mem_cons, not_mem_nil, false_implies,
      implies_true, and_true, RspTouch.Inside]
    omega
  · intro after next
    cases next
    simp only
    omega

theorem multNotificationLoop_safe (subscribed : Nat → Nat)
    {state : PullState} (within : state.pos + state.left ≤ pdu.length) :
    (multNotificationLoop subscribed pdu).Safe (RspTouch.Inside pdu.length)
      state := by
  apply @Loop.safe_of_measure _ _ _ _ _
    (fun state => state.pos + state.left ≤ pdu.length) PullState.left _ _ within
  intro state within
  unfold multNotificationLoop
  by_cases short : state.left ≤ 4
  · simp only [if_pos short]
    exact ⟨by simp, nofun⟩
  simp only [if_neg short]
  have header : RspTouch.Inside pdu.length (.read state.pos 4) := by
    show state.pos + 4 ≤ pdu.length
    omega
  by_cases past : state.left - 4 < pdu.word (state.pos + 2)
  · simp only [if_pos past]
    refine ⟨?_, nofun⟩
    intro touch member
    rw [mem_singleton.mp member]
    exact header
  · simp only [if_neg past]
    constructor
    · intro touch member
      rcases mem_cons.mp member with rfl | member
      · exact header
      rw [(mem_replicate.mp member).2]
      show state.pos + 4 + pdu.word (state.pos + 2) ≤ pdu.length
      omega
    · intro after next
      cases next
      simp only
      omega

def stdSize (uuid : BtUuid) : Option Nat :=
  if uuid = BtUuid.gattCep ∨ uuid = BtUuid.gattCcc ∨ uuid = BtUuid.gattScc then
    some 4
  else if uuid = BtUuid.gattCpf then some 9
  else none

/-- An entry of which the handle lies within the `left` bytes, and the value too
unless the handle is zero. -/
def StdEntryFits (size left handle : Nat) : Prop :=
  2 ≤ left ∧ (handle ≠ 0 → size ≤ left)

/-- The entries that are reached, up to the first zero handle, have room for
their value; entries of length zero are never left. -/
def StdFits (uuid : BtUuid) (pdu : RspPdu) : Prop :=
  match stdSize uuid with
  | none => pdu.byte 0 ≤ pdu.length - 1 → 2 ≤ pdu.length - 1
  | some size =>
    if pdu.byte 0 = 0 then
      2 ≤ pdu.length - 1 ∧ pdu.word 1 = 0
    else
      ∀ index < (pdu.length - 1) / pdu.byte 0,
        (∀ earlier < index, pdu.word (1 + pdu.byte 0 * earlier) ≠ 0) →
        StdEntryFits size (pdu.length - 1 - pdu.byte 0 * index)
          (pdu.word (1 + pdu.byte 0 * index))

theorem stdValue_none (unknown : stdSize uuid = none)
    (pdu : RspPdu) (pos : Nat) : stdValue pdu uuid pos = none := by
  unfold stdSize at unknown
  unfold stdValue
  split at unknown
  · cases unknown
  rename_i plain
  split at unknown
  · cases unknown
  · rename_i format
    rw [if_neg plain, if_neg format]

theorem stdValue_some {size : Nat} (known : stdSize uuid = some size)
    (pdu : RspPdu) (pos : Nat) : 2 ≤ size ∧
      ∃ value, stdValue pdu uuid pos = some (.read pos (size - 2), value) := by
  unfold stdSize at known
  split at known
  · rename_i plain
    cases known
    exact ⟨by decide, _, if_pos plain⟩
  · rename_i plain
    split at known
    · rename_i format
      cases known
      exact ⟨by decide, _, (if_neg plain).trans (if_pos format)⟩
    · cases known

theorem stdLoop_round {uuid : BitVec 16} {size : Nat}
    (known : stdSize (.uuid16 uuid) = some size) (pdu : RspPdu)
    (state : EntryState) (more : pdu.byte 0 ≤ state.left) :
    if pdu.word state.pos = 0 then
      (parseReadStdCharDesc keepGoing pdu uuid).round state =
        ([.read 0 1, .read state.pos 2], .done ⟨state.calls, .failed⟩)
    else
      ∃ handle calls, (parseReadStdCharDesc keepGoing pdu uuid).round state =
        ([.read 0 1, .read state.pos 2, .read (state.pos + 2) (size - 2)],
          .next ⟨state.pos + pdu.byte 0, state.left - pdu.byte 0, handle,
            calls⟩) := by
  have going : ¬ state.left < pdu.byte 0 := not_lt.mpr more
  obtain ⟨_, value, read⟩ := stdValue_some known pdu (state.pos + 2)
  split
  · rename_i zero
    simp only [parseReadStdCharDesc, entryLoop, if_neg going, stdEntry, if_pos zero]
  · rename_i handle
    refine ⟨pdu.word state.pos, state.calls ++
      [⟨.uuid16 uuid, pdu.word state.pos, value⟩], ?_⟩
    simp only [parseReadStdCharDesc, entryLoop, if_neg going, stdEntry,
      if_neg handle, read, keepGoing]

theorem stdLoop_empty (pdu : RspPdu) (uuid : BitVec 16) {state : EntryState}
    (short : state.left < pdu.byte 0) :
    ∃ result, (parseReadStdCharDesc keepGoing pdu uuid).round state =
      ([.read 0 1], .done result) := by
  refine ⟨⟨state.calls, if state.left = 0 ∧ state.handle ≠ 0 then
    .resume state.handle else .failed⟩, ?_⟩
  simp only [parseReadStdCharDesc, entryLoop, if_pos short]

section Std

variable {uuid : BitVec 16} {size : Nat} {pdu : RspPdu}

theorem stdLoop_forever (known : stdSize (.uuid16 uuid) = some size)
    (empty : pdu.byte 0 = 0) {state : EntryState}
    (handle : pdu.word state.pos ≠ 0) :
    ¬ (parseReadStdCharDesc keepGoing pdu uuid).Safe
      (RspTouch.Inside pdu.length) state := by
  rintro ⟨touches, result, ends, -⟩
  apply @Loop.not_ends_of_kept _ _ _ _
    (fun state => pdu.word state.pos ≠ 0) _ state handle touches result ends
  intro state handle
  have round := stdLoop_round known pdu state (by omega)
  rw [if_neg handle] at round
  obtain ⟨_, _, round⟩ := round
  refine ⟨_, _, round, ?_⟩
  rw [empty]
  exact handle

theorem stdLoop_safe_iff (known : stdSize (.uuid16 uuid) = some size)
    (nonempty : 1 ≤ pdu.length) (proper : pdu.byte 0 ≠ 0) {state : EntryState}
    (within : state.pos + state.left = pdu.length) :
    (parseReadStdCharDesc keepGoing pdu uuid).Safe (RspTouch.Inside pdu.length)
        state ↔ ∀ index < state.left / pdu.byte 0,
        (∀ earlier < index, pdu.word (state.pos + pdu.byte 0 * earlier) ≠ 0) →
        StdEntryFits size (state.left - pdu.byte 0 * index)
          (pdu.word (state.pos + pdu.byte 0 * index)) := by
  obtain ⟨_, -⟩ := stdValue_some known pdu 0
  induction measure : state.left using Nat.strongRecOn generalizing state with
  | _ left ih =>
    subst measure
    by_cases short : state.left < pdu.byte 0
    · obtain ⟨_, last⟩ := stdLoop_empty pdu uuid short
      rw [Loop.safe_done last, Nat.div_eq_of_lt short]
      refine ⟨fun _ index below => absurd below (Nat.not_lt_zero _), ?_⟩
      intro _ touch member
      rw [mem_singleton.mp member]
      exact nonempty
    · have more : pdu.byte 0 ≤ state.left := not_lt.mp short
      have positive : 0 < pdu.byte 0 := Nat.pos_of_ne_zero proper
      have count : state.left / pdu.byte 0 =
          (state.left - pdu.byte 0) / pdu.byte 0 + 1 :=
        Nat.div_eq_sub_div positive more
      have first : 0 < state.left / pdu.byte 0 := Nat.div_pos more positive
      have round := stdLoop_round known pdu state more
      by_cases zero : pdu.word state.pos = 0
      · rw [if_pos zero] at round
        rw [Loop.safe_done round]
        constructor
        · intro fine index below reached
          cases index with
          | zero =>
            have handle := fine (.read state.pos 2) (by simp)
            refine ⟨?_, ?_⟩
            · have reads : state.pos + 2 ≤ pdu.length := handle
              omega
            · intro nonzero
              exact absurd zero nonzero
          | succ => exact absurd zero (reached 0 (Nat.succ_pos _))
        · intro fits
          obtain ⟨two, -⟩ := fits 0 first (fun _ below =>
            absurd below (Nat.not_lt_zero _))
          simp only [forall_mem_cons, not_mem_nil, false_implies,
            implies_true, and_true, RspTouch.Inside]
          omega
      · rw [if_neg zero] at round
        obtain ⟨handle, calls, round⟩ := round
        rw [Loop.safe_next round]
        have next : state.pos + pdu.byte 0 + (state.left - pdu.byte 0) =
            pdu.length := by omega
        rw [@ih (state.left - pdu.byte 0) (by omega)
          ⟨state.pos + pdu.byte 0, state.left - pdu.byte 0, handle, calls⟩
          next rfl]
        constructor
        · rintro ⟨fine, later⟩ index below reached
          cases index with
          | zero =>
            have reads : state.pos + 2 ≤ pdu.length :=
              fine (.read state.pos 2) (by simp)
            have value : state.pos + 2 + (size - 2) ≤ pdu.length :=
              fine (.read (state.pos + 2) (size - 2)) (by simp)
            refine ⟨?_, ?_⟩
            · omega
            · intro _
              omega
          | succ index =>
            have fits := later index (by omega) (by
              intro earlier before
              have reach := reached (earlier + 1) (by omega)
              rw [mul_add, mul_one, add_comm (_ * _),
                ← add_assoc] at reach
              exact reach)
            rw [mul_add, mul_one, add_comm (_ * _),
              ← Nat.add_assoc, Nat.sub_add_eq]
            exact fits
        · intro fits
          obtain ⟨two, value⟩ := fits 0 first (fun _ below =>
            absurd below (Nat.not_lt_zero _))
          have room : size ≤ state.left := value zero
          refine ⟨?_, ?_⟩
          · simp only [forall_mem_cons, not_mem_nil, false_implies,
              implies_true, and_true, RspTouch.Inside]
            omega
          · intro index below reached
            have fit := fits (index + 1) (by omega) (by
              intro earlier before
              cases earlier with
              | zero => exact zero
              | succ earlier =>
                rw [mul_add, mul_one, add_comm (_ * _), ← add_assoc]
                exact reached earlier (by omega))
            rw [mul_add, mul_one, add_comm (_ * _),
              ← Nat.add_assoc, Nat.sub_add_eq] at fit
            exact fit

end Std

def LastRead (endHandle handle : Nat) : Prop := handle = 0 ∨ handle = endHandle

/-- There are no entries, or the first one is not valid, or no single byte is
left behind entries that have room for a handle. -/
def ReadFits (endHandle : Nat) (pdu : RspPdu) : Prop :=
  pdu.length = 1 ∨ 2 ≤ pdu.length - 1 ∧ pdu.word 1 = 0 ∨
    2 ≤ pdu.byte 0 ∧ ((pdu.length - 1) % pdu.byte 0 = 1 →
        ∃ index < (pdu.length - 1) / pdu.byte 0,
          LastRead endHandle (pdu.word (1 + pdu.byte 0 * index)))

theorem RspPdu.byte_lt (pdu : RspPdu) (offset : Nat) : pdu.byte offset < 256 :=
  (pdu.mem offset).isLt

section ReadByUuid

variable {endHandle : Nat} {pdu : RspPdu} {state : ReadState}

theorem readLoop_empty (none : state.left = 0) :
    (parseReadByUuid endHandle pdu).round state =
      ([], .done (.again state.startHandle)) := by
  simp only [parseReadByUuid, if_pos none]

section

variable (some : state.left ≠ 0)
include some

theorem readLoop_zero (zero : pdu.word state.pos = 0) :
    (parseReadByUuid endHandle pdu).round state =
      ([.read state.pos 2], .done .invalid) := by
  simp only [parseReadByUuid, if_neg some, if_pos zero]

theorem readLoop_cut
    (handle : pdu.word state.pos ≠ 0) (short : state.left < pdu.byte 0) :
    (parseReadByUuid endHandle pdu).round state = ([.read state.pos 2, .read 0 1,
          .pass (state.pos + 2) ((state.left + 2 ^ 16 - 2) % 2 ^ 16)],
        .done (.again (pdu.word state.pos))) := by
  simp only [parseReadByUuid, if_neg some, if_neg handle, if_pos short]

theorem readLoop_full
    (handle : pdu.word state.pos ≠ 0) (long : ¬ state.left < pdu.byte 0) :
    (parseReadByUuid endHandle pdu).round state = ([.read state.pos 2, .read 0 1,
          .pass (state.pos + 2) ((pdu.byte 0 + 2 ^ 16 - 2) % 2 ^ 16)],
        if pdu.word state.pos = endHandle then .done .complete
        else .next ⟨state.pos + pdu.byte 0, state.left - pdu.byte 0,
          (pdu.word state.pos + 1) % 2 ^ 16⟩) := by
  simp only [parseReadByUuid, if_neg some, if_neg handle, if_neg long]
  split <;> rfl

end

theorem readLoop_lone (within : state.pos + state.left = pdu.length)
    (lone : state.left = 1) :
    ¬ (parseReadByUuid endHandle pdu).Safe (RspTouch.Inside pdu.length) state := by
  have some : state.left ≠ 0 := by omega
  have outside : ¬ RspTouch.Inside pdu.length (.read state.pos 2) := by
    show ¬ state.pos + 2 ≤ pdu.length
    omega
  intro safe
  by_cases zero : pdu.word state.pos = 0
  · exact outside ((Loop.safe_done (readLoop_zero some zero)).mp safe _ (by simp))
  by_cases short : state.left < pdu.byte 0
  · exact outside
      ((Loop.safe_done (readLoop_cut some zero short)).mp safe _ (by simp))
  have round := @readLoop_full endHandle pdu state some zero short
  split at round
  · exact outside ((Loop.safe_done round).mp safe _ (by simp))
  · exact outside (((Loop.safe_next round).mp safe).1 _ (by simp))

theorem readLoop_narrow (small : pdu.length < 2 ^ 16)
    (within : state.pos + state.left = pdu.length) (two : 2 ≤ state.left)
    (narrow : pdu.byte 0 < 2) (handle : pdu.word state.pos ≠ 0) :
    ¬ (parseReadByUuid endHandle pdu).Safe (RspTouch.Inside pdu.length) state := by
  have outside : ¬ RspTouch.Inside pdu.length
      (.pass (state.pos + 2) ((pdu.byte 0 + 2 ^ 16 - 2) % 2 ^ 16)) := by
    show ¬ state.pos + 2 + (pdu.byte 0 + 2 ^ 16 - 2) % 2 ^ 16 ≤ pdu.length
    omega
  have round := @readLoop_full endHandle pdu state (by omega) handle (by omega)
  intro safe
  split at round
  · exact outside ((Loop.safe_done round).mp safe _ (by simp))
  · exact outside (((Loop.safe_next round).mp safe).1 _ (by simp))

section

variable (nonempty : 1 ≤ pdu.length)
include nonempty

theorem readTouches_inside {len : Nat}
    (room : state.pos + 2 + len ≤ pdu.length) :
    ∀ touch ∈ [RspTouch.read state.pos 2, .read 0 1, .pass (state.pos + 2) len],
      touch.Inside pdu.length := by
  simp only [forall_mem_cons, not_mem_nil, false_implies, implies_true,
    and_true, RspTouch.Inside]
  omega

theorem readLoop_safe_iff (wide : 2 ≤ pdu.byte 0) {state : ReadState}
    (within : state.pos + state.left = pdu.length) :
    (parseReadByUuid endHandle pdu).Safe (RspTouch.Inside pdu.length) state ↔
      (state.left % pdu.byte 0 = 1 → ∃ index < state.left / pdu.byte 0,
          LastRead endHandle (pdu.word (state.pos + pdu.byte 0 * index))) := by
  have narrow := pdu.byte_lt 0
  induction measure : state.left using Nat.strongRecOn generalizing state with
  | _ left ih =>
    subst measure
    by_cases none : state.left = 0
    · rw [Loop.safe_done (readLoop_empty none), none, Nat.zero_mod]
      exact ⟨fun _ one => absurd one (by decide), fun _ _ member => by cases member⟩
    by_cases short : state.left < pdu.byte 0
    · rw [Nat.mod_eq_of_lt short, Nat.div_eq_of_lt short]
      by_cases lone : state.left = 1
      · constructor
        · intro safe
          exact absurd safe (readLoop_lone within lone)
        · intro found
          obtain ⟨index, below, -⟩ := found lone
          exact absurd below (Nat.not_lt_zero _)
      · refine ⟨fun _ one => absurd one lone, fun _ => ?_⟩
        by_cases zero : pdu.word state.pos = 0
        · rw [Loop.safe_done (readLoop_zero none zero)]
          intro touch member
          rw [mem_singleton.mp member]
          show state.pos + 2 ≤ pdu.length
          omega
        · rw [Loop.safe_done (readLoop_cut none zero short)]
          apply readTouches_inside nonempty
          omega
    · have more : pdu.byte 0 ≤ state.left := not_lt.mp short
      have positive : 0 < pdu.byte 0 := by omega
      have first : 0 < state.left / pdu.byte 0 := Nat.div_pos more positive
      have count : state.left / pdu.byte 0 =
          (state.left - pdu.byte 0) / pdu.byte 0 + 1 :=
        Nat.div_eq_sub_div positive more
      have same : state.left % pdu.byte 0 =
          (state.left - pdu.byte 0) % pdu.byte 0 :=
        Nat.mod_eq_sub_mod more
      by_cases zero : pdu.word state.pos = 0
      · rw [Loop.safe_done (readLoop_zero none zero)]
        refine ⟨fun _ _ => ⟨0, first, .inl zero⟩, ?_⟩
        intro _ touch member
        rw [mem_singleton.mp member]
        show state.pos + 2 ≤ pdu.length
        omega
      · have round := @readLoop_full endHandle pdu state none zero short
        have inside := @readTouches_inside pdu state nonempty
          ((pdu.byte 0 + 2 ^ 16 - 2) % 2 ^ 16) (by omega)
        by_cases last : pdu.word state.pos = endHandle
        · rw [if_pos last] at round
          rw [Loop.safe_done round]
          exact ⟨fun _ _ => ⟨0, first, .inr last⟩, fun _ => inside⟩
        · rw [if_neg last] at round
          have next : state.pos + pdu.byte 0 + (state.left - pdu.byte 0) =
              pdu.length := by omega
          have onward := @ih (state.left - pdu.byte 0) (by omega)
            ⟨state.pos + pdu.byte 0, state.left - pdu.byte 0,
              (pdu.word state.pos + 1) % 2 ^ 16⟩ next rfl
          rw [Loop.safe_next round, same]
          constructor
          · rintro ⟨-, later⟩ one
            obtain ⟨index, below, found⟩ := onward.mp later one
            refine ⟨index + 1, by omega, ?_⟩
            rw [mul_add, mul_one, add_comm (_ * _), ← add_assoc]
            exact found
          · intro later
            refine ⟨inside, onward.mpr ?_⟩
            intro one
            obtain ⟨index, below, found⟩ := later one
            cases index with
            | zero =>
              rcases found with handle | handle
              · exact absurd handle zero
              · exact absurd handle last
            | succ index =>
              rw [mul_add, mul_one, add_comm (_ * _), ← add_assoc] at found
              exact ⟨index, by omega, found⟩

theorem parseReadByUuid_safe_iff
    (small : pdu.length < 2 ^ 16) (startHandle : Nat) :
    (parseReadByUuid endHandle pdu).Safe (RspTouch.Inside pdu.length)
        ⟨1, pdu.behindFirst, startHandle⟩ ↔ ReadFits endHandle pdu := by
  rw [RspPdu.behindFirst_eq nonempty small]
  have within : 1 + (pdu.length - 1) = pdu.length := by omega
  unfold ReadFits
  by_cases wide : 2 ≤ pdu.byte 0
  · rw [readLoop_safe_iff nonempty wide within]
    simp only [wide, true_and]
    constructor
    · exact fun found => .inr (.inr found)
    · rintro (one | ⟨two, zero⟩ | found)
      · rw [one, Nat.sub_self, Nat.zero_mod]
        exact fun wrong => absurd wrong (by decide)
      · intro one
        refine ⟨0, Nat.div_pos ?_ (by omega), .inl zero⟩
        by_contra short
        rw [Nat.mod_eq_of_lt (not_le.mp short)] at one
        omega
      · exact found
  · simp only [wide, false_and, or_false]
    by_cases empty : pdu.length = 1
    · simp only [empty, true_or, iff_true]
      rw [Loop.safe_done (readLoop_empty rfl)]
      intro touch member
      cases member
    · by_cases lone : pdu.length - 1 = 1
      · constructor
        · intro safe
          exact absurd safe (readLoop_lone within lone)
        · rintro (one | ⟨two, -⟩)
          · exact absurd one empty
          · omega
      · by_cases zero : pdu.word 1 = 0
        · have some : pdu.length - 1 ≠ 0 := by omega
          rw [Loop.safe_done (@readLoop_zero endHandle pdu
            ⟨1, pdu.length - 1, startHandle⟩ some zero)]
          constructor
          · intro _
            exact .inr ⟨by omega, zero⟩
          · intro _ touch member
            rw [mem_singleton.mp member]
            show 1 + 2 ≤ pdu.length
            omega
        · have two : 2 ≤ pdu.length - 1 := by omega
          constructor
          · intro safe
            exact absurd safe
              (readLoop_narrow small within two (not_le.mp wide) zero)
          · rintro (one | ⟨-, handle⟩)
            · exact absurd one empty
            · exact absurd handle zero

end

end ReadByUuid

theorem parseReadStdCharDesc_safe_iff (uuid : BitVec 16)
    (nonempty : 1 ≤ pdu.length) (small : pdu.length < 2 ^ 16) :
    (parseReadStdCharDesc keepGoing pdu uuid).Safe (RspTouch.Inside pdu.length)
        (pdu.entryStart []) ↔ StdFits (.uuid16 uuid) pdu := by
  have within : 1 + (pdu.length - 1) = pdu.length := by omega
  unfold RspPdu.entryStart StdFits
  rw [RspPdu.behindFirst_eq nonempty small]
  cases known : stdSize (.uuid16 uuid) with
  | none =>
    by_cases short : pdu.length - 1 < pdu.byte 0
    · obtain ⟨_, last⟩ := @stdLoop_empty pdu uuid
        ⟨1, pdu.length - 1, 0, []⟩ short
      rw [Loop.safe_done last]
      refine ⟨fun _ long => absurd long (not_le.mpr short), ?_⟩
      intro _ touch member
      rw [mem_singleton.mp member]
      exact nonempty
    · have last : (parseReadStdCharDesc keepGoing pdu uuid).round
          ⟨1, pdu.length - 1, 0, []⟩ =
            ([.read 0 1, .read 1 2], .done ⟨[], .failed⟩) := by
        simp only [parseReadStdCharDesc, entryLoop, if_neg short, stdEntry,
          stdValue_none known, ite_self]
      rw [Loop.safe_done last]
      simp only [forall_mem_cons, not_mem_nil, false_implies,
        implies_true, and_true, RspTouch.Inside]
      omega
  | some =>
    simp only
    by_cases empty : pdu.byte 0 = 0
    · rw [if_pos empty]
      have round := stdLoop_round known pdu ⟨1, pdu.length - 1, 0, []⟩
        (by simp only; omega)
      by_cases zero : pdu.word 1 = 0
      · rw [if_pos zero] at round
        rw [Loop.safe_done round]
        simp only [forall_mem_cons, not_mem_nil, false_implies,
          implies_true, and_true, RspTouch.Inside, zero]
        omega
      · constructor
        · intro safe
          exact absurd safe (stdLoop_forever known empty zero)
        · rintro ⟨-, wrong⟩
          exact absurd wrong zero
    · rw [if_neg empty]
      exact stdLoop_safe_iff known nonempty empty within

inductive ClientRsp where
  | includes (params : DiscoverParams)
  | characteristic (params : DiscoverParams)
  | stdCharDesc (uuid : BitVec 16)
  | service (params : DiscoverParams)
  | readByUuid (endHandle startHandle : Nat)
  | findInfo (params : DiscoverParams)
  | findType (params : DiscoverParams) (uuid : BtUuid)
  | readMultVl
  | multNotification (subscribed : Nat → Nat)

namespace ClientRsp

def expectLen : ClientRsp → Nat
  | includes _ | characteristic _ | stdCharDesc _ | service _ | readByUuid .. |
    findInfo _ => 1
  | findType .. => 4
  | readMultVl => 2
  | multNotification _ => 4

/-- The parser comes to an end, reads only the PDU, and passes on only what is
left of it. -/
def Bounded (pdu : RspPdu) : ClientRsp → Prop
  | includes params =>
    (parseInclude keepGoing params pdu).Safe (RspTouch.Inside pdu.length)
      (pdu.entryStart [])
  | characteristic params =>
    (parseCharacteristic keepGoing params pdu).Safe
      (RspTouch.Inside pdu.length) (pdu.entryStart [])
  | stdCharDesc uuid =>
    (parseReadStdCharDesc keepGoing pdu uuid).Safe
      (RspTouch.Inside pdu.length) (pdu.entryStart [])
  | service params =>
    (parseService keepGoing params pdu).Safe (RspTouch.Inside pdu.length)
      (pdu.entryStart [])
  | readByUuid endHandle startHandle =>
    (parseReadByUuid endHandle pdu).Safe (RspTouch.Inside pdu.length)
      ⟨1, pdu.behindFirst, startHandle⟩
  | findInfo params =>
    (findInfoLoop keepGoing params pdu).Safe (RspTouch.Inside pdu.length)
      (findInfoStart [])
  | findType params uuid =>
    (findTypeLoop keepGoing params uuid pdu).Safe
      (RspTouch.Inside pdu.length) (findTypeStart [])
  | readMultVl => (readMultVlLoop pdu).Safe (RspTouch.Inside pdu.length) pdu.whole
  | multNotification subscribed =>
    (multNotificationLoop subscribed pdu).Safe (RspTouch.Inside pdu.length) pdu.whole

def Fits (pdu : RspPdu) : ClientRsp → Prop
  | stdCharDesc uuid => StdFits (.uuid16 uuid) pdu
  | readByUuid endHandle _ => ReadFits endHandle pdu
  | _ => True

end ClientRsp

section

variable (params : DiscoverParams) {pdu : RspPdu} (nonempty : 1 ≤ pdu.length)
  {state : EntryState} (within : state.pos + state.left ≤ pdu.length)
include nonempty within

theorem parseInclude_safe :
    (parseInclude keepGoing params pdu).Safe (RspTouch.Inside pdu.length) state := by
  unfold parseInclude
  split
  · exact entryLoop_safe (by decide) (includeEntry_inside params pdu true)
      nonempty within
  split
  · exact entryLoop_safe (by decide) (includeEntry_inside params pdu false)
      nonempty within
  · exact refusedLoop_safe nonempty state

theorem parseCharacteristic_safe :
    (parseCharacteristic keepGoing params pdu).Safe (RspTouch.Inside pdu.length)
      state := by
  unfold parseCharacteristic
  split
  · exact entryLoop_safe (by decide) (chrcEntry_inside params pdu true)
      nonempty within
  split
  · exact entryLoop_safe (by decide) (chrcEntry_inside params pdu false)
      nonempty within
  · exact refusedLoop_safe nonempty state

theorem parseService_safe :
    (parseService keepGoing params pdu).Safe (RspTouch.Inside pdu.length) state := by
  unfold parseService
  split
  · exact entryLoop_safe (by decide) (serviceEntry_inside params pdu true)
      nonempty within
  split
  · exact entryLoop_safe (by decide) (serviceEntry_inside params pdu false)
      nonempty within
  · exact refusedLoop_safe nonempty state

end

/-- Every parser keeps to the PDU, except two on the responses that do not
fit. -/
theorem client_parsers_bounded_iff (rsp : ClientRsp) (pdu : RspPdu)
    (expected : rsp.expectLen ≤ pdu.length) (small : pdu.length < 2 ^ 16) :
    rsp.Bounded pdu ↔ rsp.Fits pdu := by
  have within (nonempty : 1 ≤ pdu.length) :
      (pdu.entryStart []).pos + (pdu.entryStart []).left ≤ pdu.length := by
    show 1 + pdu.behindFirst ≤ pdu.length
    rw [RspPdu.behindFirst_eq nonempty small]
    omega
  cases rsp with
  | includes params =>
    exact iff_of_true (parseInclude_safe params expected (within expected)) trivial
  | characteristic params =>
    exact iff_of_true
      (parseCharacteristic_safe params expected (within expected)) trivial
  | stdCharDesc uuid => exact parseReadStdCharDesc_safe_iff uuid expected small
  | service params =>
    exact iff_of_true (parseService_safe params expected (within expected)) trivial
  | readByUuid endHandle startHandle =>
    exact parseReadByUuid_safe_iff expected small startHandle
  | findInfo params =>
    exact iff_of_true (findInfoLoop_safe _ params expected small _) trivial
  | findType params uuid =>
    exact iff_of_true (findTypeLoop_safe _ params uuid pdu _) trivial
  | readMultVl =>
    refine iff_of_true (readMultVlLoop_safe ?_) trivial
    show 0 + pdu.length ≤ pdu.length
    omega
  | multNotification subscribed =>
    refine iff_of_true (multNotificationLoop_safe subscribed ?_) trivial
    show 0 + pdu.length ≤ pdu.length
    omega

theorem client_parsers_bounded_iff_single :
    ClientRsp.expectLen (.readByUuid 9 1) ≤ (RspPdu.ofList [3, 5, 0, 7]).length ∧
      ((ClientRsp.readByUuid 9 1).Bounded (.ofList [3, 5, 0, 7]) ↔
        (ClientRsp.readByUuid 9 1).Fits (.ofList [3, 5, 0, 7])) :=
  ⟨by decide, client_parsers_bounded_iff _ _ (by decide) (by decide)⟩

theorem client_parsers_unbounded :
    ¬ ∀ (rsp : ClientRsp) (pdu : RspPdu), rsp.expectLen ≤ pdu.length →
      pdu.length < 2 ^ 16 → rsp.Bounded pdu := by
  intro bounded
  have safe := bounded (.stdCharDesc 0x2902#16) (.ofList [0, 5, 0, 1, 0])
    (by decide) (by decide)
  have known : stdSize (.uuid16 0x2902#16) = some 4 := rfl
  exact stdLoop_forever known rfl (by decide) safe

end ZephyrBluetooth.Host
