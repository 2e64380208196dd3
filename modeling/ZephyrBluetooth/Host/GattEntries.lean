import ZephyrBluetooth.Host.GattClient

namespace ZephyrBluetooth.Host

open Data List Bool

def walkEntries (func : DiscoverFunc) (finish : Nat → ParseEnd) :
    List DiscoverEntry → Nat → List FoundAttr → Parsed
  | [], handle, calls => ⟨calls, finish handle⟩
  | .invalid :: _, _, calls => ⟨calls, .failed⟩
  | .included attrHandle startHandle endHandle :: _, _, calls =>
    ⟨calls, .readIncluded attrHandle startHandle endHandle⟩
  | .skipped handle :: rest, _, calls => walkEntries func finish rest handle calls
  | .found handle attr :: rest, _, calls =>
    match func (calls ++ [attr]) with
    | .stop => ⟨calls ++ [attr], .stopped⟩
    | .proceed => walkEntries func finish rest handle (calls ++ [attr])

section Walk

variable {func : DiscoverFunc} {finish : Nat → ParseEnd}

theorem walkEntries_skipped (handle before : Nat) (rest : List DiscoverEntry)
    (calls : List FoundAttr) :
    walkEntries func finish (.skipped handle :: rest) before calls =
      walkEntries func finish rest handle calls := rfl

variable {calls : List FoundAttr}

theorem walkEntries_stop {attr : FoundAttr}
    (verdict : func (calls ++ [attr]) = .stop) (handle before : Nat)
    (rest : List DiscoverEntry) :
    walkEntries func finish (.found handle attr :: rest) before calls =
      ⟨calls ++ [attr], .stopped⟩ := by
  rw [walkEntries, verdict]

theorem walkEntries_proceed {attr : FoundAttr}
    (verdict : func (calls ++ [attr]) = .proceed) (handle before : Nat)
    (rest : List DiscoverEntry) :
    walkEntries func finish (.found handle attr :: rest) before calls =
      walkEntries func finish rest handle (calls ++ [attr]) := by
  rw [walkEntries, verdict]

end Walk

namespace DiscoverEntry

def handle : DiscoverEntry → Option Nat
  | .skipped handle | .found handle _ => some handle
  | .invalid | .included .. => none

def reports : DiscoverEntry → Option FoundAttr
  | .found _ attr => some attr
  | .skipped _ | .invalid | .included .. => none

end DiscoverEntry

def lastHandle (before : Nat) : List DiscoverEntry → Nat
  | [] => before
  | entry :: rest => lastHandle (entry.handle.getD before) rest

/-- `func` asks to go on after each of the attributes. -/
def Accepts (func : DiscoverFunc) : List FoundAttr → List FoundAttr → Prop
  | _, [] => True
  | calls, attr :: rest =>
    func (calls ++ [attr]) = .proceed ∧ Accepts func (calls ++ [attr]) rest

structure Passable (func : DiscoverFunc) (calls : List FoundAttr)
    (entries : List DiscoverEntry) : Prop where
  handles : ∀ entry ∈ entries, entry.handle.isSome
  accepted : Accepts func calls (entries.filterMap DiscoverEntry.reports)

section Passable

variable {func : DiscoverFunc} {finish : Nat → ParseEnd}

theorem passable_nil (calls : List FoundAttr) : Passable func calls [] where
  handles := nofun
  accepted := trivial

theorem passable_skipped_iff (handle : Nat) (calls : List FoundAttr)
    (rest : List DiscoverEntry) :
    Passable func calls (.skipped handle :: rest) ↔ Passable func calls rest := by
  constructor
  · rintro ⟨handles, accepted⟩
    exact ⟨fun entry member => handles entry (mem_cons_of_mem _ member), accepted⟩
  · rintro ⟨handles, accepted⟩
    exact ⟨forall_mem_cons.mpr ⟨rfl, handles⟩, accepted⟩

theorem passable_found_iff (handle : Nat) (attr : FoundAttr)
    (calls : List FoundAttr) (rest : List DiscoverEntry) :
    Passable func calls (.found handle attr :: rest) ↔
      func (calls ++ [attr]) = .proceed ∧ Passable func (calls ++ [attr]) rest := by
  constructor
  · rintro ⟨handles, accepted⟩
    exact ⟨accepted.1, fun entry member => handles entry (mem_cons_of_mem _ member),
      accepted.2⟩
  · rintro ⟨verdict, handles, accepted⟩
    exact ⟨forall_mem_cons.mpr ⟨rfl, handles⟩, verdict, accepted⟩

theorem not_passable_invalid (calls : List FoundAttr)
    (rest : List DiscoverEntry) : ¬ Passable func calls (.invalid :: rest) := by
  intro passable
  cases passable.handles _ mem_cons_self

theorem not_passable_included (attrHandle startHandle endHandle : Nat)
    (calls : List FoundAttr) (rest : List DiscoverEntry) :
    ¬ Passable func calls (.included attrHandle startHandle endHandle :: rest) := by
  intro passable
  cases passable.handles _ mem_cons_self

variable {calls : List FoundAttr}

theorem walkEntries_append {front : List DiscoverEntry}
    (passable : Passable func calls front)
    (rest : List DiscoverEntry) (before : Nat) :
    walkEntries func finish (front ++ rest) before calls =
      walkEntries func finish rest (lastHandle before front)
        (calls ++ front.filterMap DiscoverEntry.reports) := by
  induction front generalizing before calls with
  | nil =>
    rw [filterMap_nil, append_nil]
    rfl
  | cons entry front ih =>
    cases entry with
    | invalid => exact absurd passable (not_passable_invalid _ _)
    | included => exact absurd passable (not_passable_included _ _ _ _ _)
    | skipped handle => exact ih ((passable_skipped_iff _ _ _).mp passable) handle
    | found handle =>
      obtain ⟨verdict, later⟩ := (passable_found_iff _ _ _ _).mp passable
      have continued := ih later handle
      rw [append_assoc] at continued
      rw [cons_append, walkEntries_proceed verdict, continued]
      rfl

theorem walkEntries_passable {entries : List DiscoverEntry}
    (passable : Passable func calls entries)
    (before : Nat) : walkEntries func finish entries before calls =
      ⟨calls ++ entries.filterMap DiscoverEntry.reports,
        finish (lastHandle before entries)⟩ := by
  have walked := @walkEntries_append _ finish _ _ passable [] before
  rw [append_nil] at walked
  exact walked

inductive Halted (func : DiscoverFunc) (calls : List FoundAttr)
    (entries : List DiscoverEntry) : ParseEnd → Prop where
  | failed : Halted func calls entries .failed
  | stopped : Halted func calls entries .stopped
  | included (front rest : List DiscoverEntry)
      (attrHandle startHandle endHandle : Nat)
      (shape : entries = front ++ .included attrHandle startHandle endHandle :: rest)
      (passable : Passable func calls front) :
      Halted func calls entries (.readIncluded attrHandle startHandle endHandle)

theorem walkEntries_halted {entries : List DiscoverEntry}
    (blocked : ¬ Passable func calls entries)
    (before : Nat) : Halted func calls entries
      (walkEntries func finish entries before calls).outcome := by
  induction entries generalizing before calls with
  | nil => exact absurd (passable_nil calls) blocked
  | cons entry rest ih =>
    cases entry with
    | invalid => exact .failed
    | included => exact .included [] rest _ _ _ rfl (passable_nil calls)
    | skipped handle =>
      have later := ih (fun passable => blocked
          ((passable_skipped_iff _ _ _).mpr passable)) handle
      rw [walkEntries_skipped]
      cases ended : (walkEntries func finish rest handle calls).outcome with
      | failed => exact .failed
      | stopped => exact .stopped
      | resume =>
        rw [ended] at later
        cases later
      | readIncluded =>
        rw [ended] at later
        cases later with
        | included front back _ _ _ shape passable =>
          refine .included (.skipped handle :: front) back _ _ _ ?_ ?_
          · rw [shape]
            rfl
          · exact (passable_skipped_iff _ _ _).mpr passable
    | found handle attr =>
      cases verdict : func (calls ++ [attr]) with
      | stop =>
        rw [walkEntries_stop verdict]
        exact .stopped
      | proceed =>
        have later := ih (fun passable => blocked
            ((passable_found_iff _ _ _ _).mpr ⟨verdict, passable⟩)) handle
        rw [walkEntries_proceed verdict]
        cases ended : (walkEntries func finish rest handle
          (calls ++ [attr])).outcome with
        | failed => exact .failed
        | stopped => exact .stopped
        | resume last =>
          rw [ended] at later
          cases later
        | readIncluded attrHandle startHandle endHandle =>
          rw [ended] at later
          cases later with
          | included front back _ _ _ shape passable =>
            refine .included (.found handle attr :: front) back
              _ _ _ ?_ ?_
            · rw [shape]
              rfl
            · exact (passable_found_iff _ _ _ _).mpr ⟨verdict, passable⟩

end Passable

def entriesAt (entryLen : Nat) (entry : Nat → DiscoverEntry) :
    Nat → Nat → List DiscoverEntry
  | _, 0 => []
  | pos, count + 1 => entry pos :: entriesAt entryLen entry (pos + entryLen) count

def entryFinish (whole : Bool) (handle : Nat) : ParseEnd :=
  if whole ∧ handle ≠ 0 then .resume handle else .failed

variable {rounds : Nat}

theorem entryLoop_result (func : DiscoverFunc) {entryLen : Nat}
    (positive : 0 < entryLen) (entry : Nat → List RspTouch × DiscoverEntry)
    (state : EntryState) (enough : state.left / entryLen < rounds) :
    (entryLoop func entryLen entry).result rounds state =
      some (walkEntries func (entryFinish (state.left % entryLen == 0))
        (entriesAt entryLen (fun pos => (entry pos).2) state.pos
          (state.left / entryLen)) state.handle state.calls) := by
  induction counted : state.left / entryLen generalizing state rounds with
  | zero =>
    obtain ⟨rounds, rfl⟩ := Nat.exists_eq_add_of_lt enough
    have short : state.left < entryLen := by
      by_contra long
      have := Nat.div_pos (Nat.le_of_not_lt long) positive
      omega
    have last : (entryLoop func entryLen entry).round state =
        ([.read 0 1], .done ⟨state.calls,
          if state.left = 0 ∧ state.handle ≠ 0 then .resume state.handle
          else .failed⟩) := if_pos short
    rw [Loop.result_done last, Nat.mod_eq_of_lt short]
    unfold entriesAt walkEntries entryFinish
    simp only [beq_iff_eq]
  | succ count ih =>
    obtain ⟨rounds, rfl⟩ := Nat.exists_eq_add_of_lt enough
    have long : ¬ state.left < entryLen := by
      intro short
      rw [Nat.div_eq_of_lt short] at counted
      cases counted
    have fewer : (state.left - entryLen) / entryLen = count := by
      have := Nat.div_eq_sub_div positive (Nat.le_of_not_lt long)
      omega
    have remains : (state.left - entryLen) % entryLen = state.left % entryLen :=
      (Nat.mod_eq_sub_mod (Nat.le_of_not_lt long)).symm
    unfold entriesAt
    cases shown : (entry state.pos).2 with
    | invalid =>
      have last : (entryLoop func entryLen entry).round state =
          (.read 0 1 :: (entry state.pos).1, .done ⟨state.calls, .failed⟩) := by
        unfold entryLoop
        simp only [if_neg long, shown]
      rw [Loop.result_done last]
      rfl
    | included attrHandle startHandle endHandle =>
      have last : (entryLoop func entryLen entry).round state =
          (.read 0 1 :: (entry state.pos).1, .done ⟨state.calls,
              .readIncluded attrHandle startHandle endHandle⟩) := by
        unfold entryLoop
        simp only [if_neg long, shown]
      rw [Loop.result_done last]
      rfl
    | skipped handle =>
      have going : (entryLoop func entryLen entry).round state =
          (.read 0 1 :: (entry state.pos).1, .next
              { state with
                pos := state.pos + entryLen
                left := state.left - entryLen
                handle := handle }) := by
        unfold entryLoop
        simp only [if_neg long, shown]
      rw [Loop.result_next going, walkEntries_skipped,
        ih _ (by simp only [fewer]; omega) fewer, remains]
    | found handle attr =>
      cases verdict : func (state.calls ++ [attr]) with
      | stop =>
        have last : (entryLoop func entryLen entry).round state =
            (.read 0 1 :: (entry state.pos).1,
              .done ⟨state.calls ++ [attr], .stopped⟩) := by
          unfold entryLoop
          simp only [if_neg long, shown, verdict]
        rw [Loop.result_done last, walkEntries_stop verdict]
      | proceed =>
        have going : (entryLoop func entryLen entry).round state =
            (.read 0 1 :: (entry state.pos).1, .next
                { pos := state.pos + entryLen
                  left := state.left - entryLen
                  handle := handle
                  calls := state.calls ++ [attr] }) := by
          unfold entryLoop
          simp only [if_neg long, shown, verdict]
        rw [Loop.result_next going, walkEntries_proceed verdict,
          ih _ (by simp only [fewer]; omega) fewer, remains]

theorem refusedLoop_result (state : EntryState) (rounds : Nat) :
    refusedLoop.result (rounds + 1) state = some ⟨state.calls, .failed⟩ :=
  Loop.result_done rfl rounds

def groupEntry (params : DiscoverParams) (uuid : BtUuid) (pdu : RspPdu)
    (index : Nat) : DiscoverEntry :=
  .found (pdu.word (4 * index + 2)) ⟨params.serviceUuid, pdu.word (4 * index),
      .service (pdu.word (4 * index + 2)) uuid⟩

theorem findTypeLoop_result (func : DiscoverFunc) (params : DiscoverParams)
    (uuid : BtUuid) {pdu : RspPdu} (whole : pdu.length % 4 = 0)
    (state : GroupState)
    (enough : pdu.length / 4 % 256 - state.index < rounds) :
    (findTypeLoop func params uuid pdu).result rounds state =
      some (walkEntries func .resume
        (entriesAt 1 (groupEntry params uuid pdu) state.index
          (pdu.length / 4 % 256 - state.index)) state.endHandle state.calls) := by
  induction counted : pdu.length / 4 % 256 - state.index
    generalizing state rounds with
  | zero =>
    obtain ⟨rounds, rfl⟩ := Nat.exists_eq_add_of_lt enough
    have last : (findTypeLoop func params uuid pdu).round state =
        ([], .done ⟨state.calls, .resume state.endHandle⟩) := by
      unfold findTypeLoop
      simp only [whole, ne_eq, not_true_eq_false, if_false]
      rw [if_neg (by omega)]
    rw [Loop.result_done last]
    rfl
  | succ count ih =>
    obtain ⟨rounds, rfl⟩ := Nat.exists_eq_add_of_lt enough
    have inside : state.index < pdu.length / 4 % 256 := by omega
    have fewer : pdu.length / 4 % 256 - (state.index + 1) = count := by omega
    unfold entriesAt groupEntry
    cases verdict : func (state.calls ++
      [⟨params.serviceUuid, pdu.word (4 * state.index),
        .service (pdu.word (4 * state.index + 2)) uuid⟩]) with
    | stop =>
      have last : (findTypeLoop func params uuid pdu).round state =
          ([.read (4 * state.index) 4], .done ⟨state.calls ++
              [⟨params.serviceUuid, pdu.word (4 * state.index),
                .service (pdu.word (4 * state.index + 2)) uuid⟩],
              .stopped⟩) := by
        unfold findTypeLoop
        simp only [whole, ne_eq, not_true_eq_false, if_false]
        rw [if_pos inside, verdict]
      rw [Loop.result_done last, walkEntries_stop verdict]
    | proceed =>
      have going : (findTypeLoop func params uuid pdu).round state =
          ([.read (4 * state.index) 4],
            .next ⟨state.index + 1, pdu.word (4 * state.index + 2),
              state.calls ++ [⟨params.serviceUuid, pdu.word (4 * state.index),
                  .service (pdu.word (4 * state.index + 2)) uuid⟩]⟩) := by
        unfold findTypeLoop
        simp only [whole, ne_eq, not_true_eq_false, if_false]
        rw [if_pos inside, verdict]
      rw [Loop.result_next going, walkEntries_proceed verdict]
      exact ih _ (by simp only [fewer]; omega) fewer

def infoAt (pdu : RspPdu) (len : Nat) : Nat → Nat → List (Nat × BtUuid)
  | _, 0 => []
  | index, count + 1 =>
    (pdu.word (1 + len * index), if len = 4 then pdu.uuid16 (1 + len * index + 2)
      else pdu.uuid128 (1 + len * index + 2)) ::
      infoAt pdu len (index + 1) count

/-- What a search makes of the pairs; after a declaration of a characteristic
one of them is skipped. -/
def infoEntries (params : DiscoverParams) :
    Bool → List (Nat × BtUuid) → List DiscoverEntry
  | _, [] => []
  | true, (handle, _) :: rest => .skipped handle :: infoEntries params false rest
  | false, (handle, uuid) :: rest =>
    if !params.passes uuid then
      .skipped handle :: infoEntries params false rest
    else if params.type = .descriptor ∧ notDescriptor uuid then
      .skipped handle :: infoEntries params false rest
    else if params.type = .descriptor ∧ uuid.same BtUuid.gattChrc then
      .skipped handle :: infoEntries params true rest
    else
      .found handle ⟨uuid, handle, .none⟩ :: infoEntries params false rest

section

variable (func : DiscoverFunc) (params : DiscoverParams) {pdu : RspPdu} {len : Nat}
  (format : infoLen pdu = some len) (some_entry : len ≤ pdu.behindFirst)
  (state : InfoState)
include format some_entry

theorem findInfoLoop_round :
    (findInfoLoop func params pdu).round state =
      if state.index < pdu.behindFirst / len then
        (.read 0 1 :: .read (1 + len * state.index) 2 :: (if state.skip then []
            else [.read (1 + len * state.index + 2) (len - 2)]),
          infoEntry func params
            (if len = 4 then pdu.uuid16 (1 + len * state.index + 2)
            else pdu.uuid128 (1 + len * state.index + 2))
            (pdu.word (1 + len * state.index)) state)
      else ([.read 0 1], .done ⟨state.calls, .resume state.handle⟩) := by
  unfold findInfoLoop
  simp only [format, if_neg (not_lt.mpr some_entry)]

theorem findInfoLoop_result
    (enough : pdu.behindFirst / len - state.index < rounds) :
    (findInfoLoop func params pdu).result rounds state =
      some (walkEntries func .resume (infoEntries params state.skip
          (infoAt pdu len state.index (pdu.behindFirst / len - state.index)))
        state.handle state.calls) := by
  induction counted : pdu.behindFirst / len - state.index
    generalizing state rounds with
  | zero =>
    obtain ⟨rounds, rfl⟩ := Nat.exists_eq_add_of_lt enough
    have last := findInfoLoop_round func params format some_entry state
    rw [if_neg (by omega)] at last
    rw [Loop.result_done last]
    rfl
  | succ count ih =>
    obtain ⟨rounds, rfl⟩ := Nat.exists_eq_add_of_lt enough
    have turn := findInfoLoop_round func params format some_entry state
    rw [if_pos (by omega)] at turn
    have fewer : pdu.behindFirst / len - (state.index + 1) = count := by omega
    unfold infoAt
    generalize uuid_eq : (if len = 4 then pdu.uuid16 (1 + len * state.index + 2)
      else pdu.uuid128 (1 + len * state.index + 2)) = uuid at turn ⊢
    unfold infoEntry at turn
    cases skipping : state.skip with
    | true =>
      simp only [skipping, if_true] at turn
      rw [Loop.result_next turn, infoEntries, walkEntries_skipped]
      exact ih _ (by simp only [fewer]; omega) fewer
    | false =>
      simp only [skipping, false_eq_true, if_false] at turn
      unfold infoEntries
      cases passing : !params.passes uuid with
      | true =>
        simp only [passing, if_true] at turn
        rw [Loop.result_next turn, if_pos rfl, walkEntries_skipped]
        exact ih _ (by simp only [fewer]; omega) fewer
      | false =>
        simp only [passing, false_eq_true, if_false] at turn
        rw [if_neg Bool.false_ne_true]
        by_cases other : params.type = .descriptor ∧ notDescriptor uuid
        · rw [if_pos other] at turn
          rw [Loop.result_next turn, if_pos other, walkEntries_skipped]
          exact ih _ (by simp only [fewer]; omega) fewer
        · rw [if_neg other] at turn
          rw [if_neg other]
          by_cases declared : params.type = .descriptor ∧ uuid.same BtUuid.gattChrc
          · rw [if_pos declared] at turn
            rw [Loop.result_next turn, if_pos declared, walkEntries_skipped]
            exact ih _ (by simp only [fewer]; omega) fewer
          · rw [if_neg declared] at turn
            rw [if_neg declared]
            cases verdict : func (state.calls ++
              [⟨uuid, pdu.word (1 + len * state.index), .none⟩]) with
            | stop =>
              rw [verdict] at turn
              rw [Loop.result_done turn, walkEntries_stop verdict]
            | proceed =>
              rw [verdict] at turn
              rw [Loop.result_next turn, walkEntries_proceed verdict]
              exact ih _ (by simp only [fewer]; omega) fewer

end

structure DecodedRsp where
  entries : List DiscoverEntry
  finish : Nat → ParseEnd

def refusedRsp : DecodedRsp := ⟨[], fun _ => .failed⟩

def RspPdu.entriesOf (pdu : RspPdu) (entryLen : Nat)
    (entry : Nat → List RspTouch × DiscoverEntry) : DecodedRsp where
  entries := entriesAt entryLen (fun pos => (entry pos).2) 1
    (pdu.behindFirst / entryLen)
  finish := entryFinish (pdu.behindFirst % entryLen == 0)

namespace DiscoverParams

variable (func : DiscoverFunc) (params : DiscoverParams) (pdu : RspPdu)

/-- The response to a request of the search, parsed by `gatt_find_type_rsp`,
`gatt_read_group_rsp`, `gatt_read_type_rsp` or `gatt_find_info_rsp`.  A parser
that ends has at most one round for each byte, and two. -/
def parse (calls : List FoundAttr) : Option Parsed :=
  let rounds := pdu.length + 2
  match params.type, params.uuid with
  | .primary, some uuid | .secondary, some uuid =>
    (findTypeLoop func params uuid pdu).result rounds (findTypeStart calls)
  | .primary, none | .secondary, none =>
    (parseService func params pdu).result rounds (pdu.entryStart calls)
  | .includes, _ =>
    (parseInclude func params pdu).result rounds (pdu.entryStart calls)
  | .characteristic, _ =>
    (parseCharacteristic func params pdu).result rounds (pdu.entryStart calls)
  | .stdCharDesc, some (.uuid16 uuid) =>
    (parseReadStdCharDesc func pdu uuid).result rounds (pdu.entryStart calls)
  | .stdCharDesc, _ => refusedLoop.result rounds (pdu.entryStart calls)
  | .descriptor, _ | .attributes, _ =>
    (findInfoLoop func params pdu).result rounds (findInfoStart calls)

def decodeGroups (uuid : BtUuid) : DecodedRsp :=
  if pdu.length % 4 ≠ 0 then refusedRsp
  else
    ⟨entriesAt 1 (groupEntry params uuid pdu) 0 (pdu.length / 4 % 256), .resume⟩

def decodeService : DecodedRsp :=
  if pdu.byte 0 = 6 then pdu.entriesOf 6 (serviceEntry params pdu true)
  else if pdu.byte 0 = 20 then pdu.entriesOf 20 (serviceEntry params pdu false)
  else refusedRsp

def decodeInclude : DecodedRsp :=
  if pdu.byte 0 = 8 then pdu.entriesOf 8 (includeEntry params pdu true)
  else if pdu.byte 0 = 6 then pdu.entriesOf 6 (includeEntry params pdu false)
  else refusedRsp

def decodeCharacteristic : DecodedRsp :=
  if pdu.byte 0 = 7 then pdu.entriesOf 7 (chrcEntry params pdu true)
  else if pdu.byte 0 = 21 then pdu.entriesOf 21 (chrcEntry params pdu false)
  else refusedRsp

def decodeInfo : DecodedRsp :=
  match infoLen pdu with
  | none => refusedRsp
  | some len =>
    if pdu.behindFirst < len then refusedRsp
    else
      ⟨infoEntries params false (infoAt pdu len 0 (pdu.behindFirst / len)), .resume⟩

def decode : DecodedRsp :=
  match params.type, params.uuid with
  | .primary, some uuid | .secondary, some uuid => params.decodeGroups pdu uuid
  | .primary, none | .secondary, none => params.decodeService pdu
  | .includes, _ => params.decodeInclude pdu
  | .characteristic, _ => params.decodeCharacteristic pdu
  | .stdCharDesc, some (.uuid16 uuid) =>
    pdu.entriesOf (pdu.byte 0) (stdEntry pdu (.uuid16 uuid))
  | .stdCharDesc, _ => refusedRsp
  | .descriptor, _ | .attributes, _ => params.decodeInfo pdu

variable {func params pdu}

theorem entryFinish_cases (whole : Bool) (handle : Nat) :
    entryFinish whole handle = .failed ∨
      entryFinish whole handle = .resume handle := by
  unfold entryFinish
  split
  · exact .inr rfl
  · exact .inl rfl

theorem entriesOf_finish (entryLen : Nat)
    (entry : Nat → List RspTouch × DiscoverEntry) (handle : Nat) :
    (pdu.entriesOf entryLen entry).finish handle = .failed ∨
      (pdu.entriesOf entryLen entry).finish handle = .resume handle := by
  unfold RspPdu.entriesOf
  generalize (pdu.behindFirst % entryLen == 0) = whole
  exact entryFinish_cases whole handle

theorem decode_finish (params : DiscoverParams) (pdu : RspPdu) (handle : Nat) :
    (params.decode pdu).finish handle = .failed ∨
      (params.decode pdu).finish handle = .resume handle := by
  unfold decode
  split
  case h_1 | h_2 =>
    unfold decodeGroups
    split
    · exact .inl rfl
    · exact .inr rfl
  case h_3 | h_4 =>
    unfold decodeService
    split_ifs
    · exact entriesOf_finish ..
    · exact entriesOf_finish ..
    · exact .inl rfl
  · unfold decodeInclude
    split_ifs
    · exact entriesOf_finish ..
    · exact entriesOf_finish ..
    · exact .inl rfl
  · unfold decodeCharacteristic
    split_ifs
    · exact entriesOf_finish ..
    · exact entriesOf_finish ..
    · exact .inl rfl
  · exact entriesOf_finish ..
  · exact .inl rfl
  case h_9 | h_10 =>
    cases found : infoLen pdu with
    | none => exact .inl (by simp only [decodeInfo, found, refusedRsp])
    | some len =>
      by_cases short : pdu.behindFirst < len
      · exact .inl (by simp only [decodeInfo, found, if_pos short, refusedRsp])
      · exact .inr (by simp only [decodeInfo, found, if_neg short])

theorem entryLoop_entriesOf {entryLen : Nat} (positive : 0 < entryLen)
    (entry : Nat → List RspTouch × DiscoverEntry) (calls : List FoundAttr)
    (small : pdu.behindFirst < pdu.length + 2) :
    (entryLoop func entryLen entry).result (pdu.length + 2)
        (pdu.entryStart calls) =
      some (walkEntries func (pdu.entriesOf entryLen entry).finish
        (pdu.entriesOf entryLen entry).entries 0 calls) := by
  have shorter := Nat.div_le_self pdu.behindFirst entryLen
  unfold RspPdu.entryStart RspPdu.entriesOf
  generalize pdu.behindFirst = left at shorter small ⊢
  exact entryLoop_result func positive entry ⟨1, left, 0, calls⟩
    (lt_of_le_of_lt shorter small)

section Results

variable (func params) (calls : List FoundAttr)

theorem findTypeRsp_result (uuid : BtUuid) :
    (findTypeLoop func params uuid pdu).result (pdu.length + 2)
        (findTypeStart calls) =
      some (walkEntries func (params.decodeGroups pdu uuid).finish
        (params.decodeGroups pdu uuid).entries 0 calls) := by
  unfold decodeGroups
  by_cases whole : pdu.length % 4 = 0
  · rw [if_neg (not_not.mpr whole)]
    exact findTypeLoop_result func params uuid whole ⟨0, 0, calls⟩
      (by simp only; omega)
  · rw [if_pos whole]
    apply Loop.result_done
    unfold findTypeLoop
    simp only [if_pos whole]
    rfl

variable (bounded : pdu.behindFirst < pdu.length + 2)
include bounded

theorem parseService_result :
    (parseService func params pdu).result (pdu.length + 2)
        (pdu.entryStart calls) =
      some (walkEntries func (params.decodeService pdu).finish
        (params.decodeService pdu).entries 0 calls) := by
  unfold parseService decodeService
  split
  · exact entryLoop_entriesOf (by decide) _ calls bounded
  split
  · exact entryLoop_entriesOf (by decide) _ calls bounded
  · exact refusedLoop_result _ _

theorem parseInclude_result :
    (parseInclude func params pdu).result (pdu.length + 2)
        (pdu.entryStart calls) =
      some (walkEntries func (params.decodeInclude pdu).finish
        (params.decodeInclude pdu).entries 0 calls) := by
  unfold parseInclude decodeInclude
  split
  · exact entryLoop_entriesOf (by decide) _ calls bounded
  split
  · exact entryLoop_entriesOf (by decide) _ calls bounded
  · exact refusedLoop_result _ _

theorem parseCharacteristic_result :
    (parseCharacteristic func params pdu).result (pdu.length + 2)
        (pdu.entryStart calls) =
      some (walkEntries func (params.decodeCharacteristic pdu).finish
        (params.decodeCharacteristic pdu).entries 0 calls) := by
  unfold parseCharacteristic decodeCharacteristic
  split
  · exact entryLoop_entriesOf (by decide) _ calls bounded
  split
  · exact entryLoop_entriesOf (by decide) _ calls bounded
  · exact refusedLoop_result _ _

theorem findInfoRsp_result :
    (findInfoLoop func params pdu).result (pdu.length + 2) (findInfoStart calls) =
      some (walkEntries func (params.decodeInfo pdu).finish
        (params.decodeInfo pdu).entries 0 calls) := by
  unfold decodeInfo
  cases format : infoLen pdu with
  | none =>
    apply Loop.result_done
    unfold findInfoLoop
    simp only [format]
    rfl
  | some len =>
    by_cases short : pdu.behindFirst < len
    · simp only [if_pos short]
      apply Loop.result_done
      unfold findInfoLoop
      simp only [format, if_pos short]
      rfl
    · simp only [if_neg short]
      have shorter := Nat.div_le_self pdu.behindFirst len
      exact findInfoLoop_result func params format (Nat.le_of_not_lt short)
        ⟨0, 0, false, calls⟩ (by simp only; omega)

end Results

theorem parse_eq (nonempty : 1 ≤ pdu.length) (small : pdu.length < 2 ^ 16)
    (sized : params.type = .stdCharDesc → 0 < pdu.byte 0)
    (calls : List FoundAttr) :
    params.parse func pdu calls = some (walkEntries func (params.decode pdu).finish
        (params.decode pdu).entries 0 calls) := by
  have rest := RspPdu.behindFirst_eq nonempty small
  have bounded : pdu.behindFirst < pdu.length + 2 := by omega
  unfold parse decode
  cases type : params.type with
  | primary =>
    cases params.uuid with
    | none => exact parseService_result func params calls bounded
    | some uuid => exact findTypeRsp_result func params calls uuid
  | secondary =>
    cases params.uuid with
    | none => exact parseService_result func params calls bounded
    | some uuid => exact findTypeRsp_result func params calls uuid
  | includes => exact parseInclude_result func params calls bounded
  | characteristic => exact parseCharacteristic_result func params calls bounded
  | stdCharDesc =>
    cases params.uuid with
    | none => exact refusedLoop_result _ _
    | some uuid =>
      cases uuid with
      | uuid16 => exact entryLoop_entriesOf (sized type) _ calls bounded
      | uuid32 => exact refusedLoop_result _ _
      | uuid128 => exact refusedLoop_result _ _
  | descriptor => exact findInfoRsp_result func params calls bounded
  | attributes => exact findInfoRsp_result func params calls bounded

end DiscoverParams

end ZephyrBluetooth.Host
