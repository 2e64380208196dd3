import ZephyrBluetooth.Data.Loop
import ZephyrBluetooth.Host.AttServer

namespace ZephyrBluetooth.Host

open Data

structure RspPdu where
  mem : Nat → Byte
  length : Nat

namespace RspPdu

variable (pdu : RspPdu)

def byte (offset : Nat) : Nat := (pdu.mem offset).toNat

def word (offset : Nat) : Nat := pdu.byte offset + 256 * pdu.byte (offset + 1)

def bytes (offset count : Nat) : List Byte :=
  (List.range count).map fun index => pdu.mem (offset + index)

def uuid16 (offset : Nat) : BtUuid := .uuid16 (BitVec.ofNat 16 (pdu.word offset))

def uuid128 (offset : Nat) : BtUuid :=
  .uuid128 (BitVec.ofNat 128 (BtUuid.ofLittleEndian (pdu.bytes offset 16)))

def behindFirst : Nat := (pdu.length + 2 ^ 16 - 1) % 2 ^ 16

variable {pdu} in
theorem behindFirst_eq (nonempty : 1 ≤ pdu.length)
    (small : pdu.length < 2 ^ 16) : pdu.behindFirst = pdu.length - 1 := by
  unfold behindFirst
  omega

end RspPdu

def RspPdu.ofList (bytes : List Byte) : RspPdu where
  mem := fun offset => bytes.getD offset 0
  length := bytes.length

/-- What a parser takes from a PDU, and which part of it goes to the callback. -/
inductive RspTouch where
  | read (offset len : Nat)
  | pass (offset len : Nat)

def RspTouch.Inside (length : Nat) : RspTouch → Prop
  | .read offset len => offset + len ≤ length
  | .pass offset len => offset + len ≤ length

namespace BtUuid

def gattInclude : BtUuid := uuid16 0x2802#16

def gattCep : BtUuid := uuid16 0x2900#16

def gattCcc : BtUuid := uuid16 0x2902#16

def gattScc : BtUuid := uuid16 0x2903#16

def gattCpf : BtUuid := uuid16 0x2904#16

end BtUuid

/-- `struct bt_gatt_discover_params`; the handle of an include declaration is
kept in the place of `start_handle`. -/
inductive DiscoverType where
  | primary
  | secondary
  | includes
  | characteristic
  | descriptor
  | attributes
  | stdCharDesc
  deriving DecidableEq

structure DiscoverParams where
  type : DiscoverType
  uuid : Option BtUuid
  startHandle : Nat
  endHandle : Nat
  inclStart : Nat
  inclEnd : Nat

/-- `user_data` of an attribute that is reported. -/
inductive FoundValue where
  | service (endHandle : Nat) (uuid : BtUuid)
  | included (startHandle endHandle : Nat) (uuid : BtUuid)
  | chrc (valueHandle properties : Nat) (uuid : BtUuid)
  | properties (value : Nat)
  | cpf (format exponent unit nameSpace description : Nat)
  | none
  deriving DecidableEq

structure FoundAttr where
  uuid : BtUuid
  handle : Nat
  value : FoundValue
  deriving DecidableEq

/-- `params->func` for an attribute: its verdict, which may depend on all that
was reported before. -/
abbrev DiscoverFunc := List FoundAttr → GattIter

def keepGoing : DiscoverFunc := fun _ => .proceed

/-- How a parser leaves: with a handle to go on from, with `func(NULL)`, stopped
by `func`, or for the UUID of an included service. -/
inductive ParseEnd where
  | resume (handle : Nat)
  | failed
  | stopped
  | readIncluded (attrHandle startHandle endHandle : Nat)

structure Parsed where
  calls : List FoundAttr
  outcome : ParseEnd

inductive DiscoverEntry where
  | invalid
  | skipped (handle : Nat)
  | found (handle : Nat) (attr : FoundAttr)
  | included (attrHandle startHandle endHandle : Nat)

structure EntryState where
  pos : Nat
  left : Nat
  handle : Nat
  calls : List FoundAttr

abbrev EntryLoop := Loop EntryState Parsed RspTouch

namespace DiscoverParams

variable (params : DiscoverParams)

def passes (uuid : BtUuid) : Bool := params.uuid.all fun wanted => uuid.same wanted

def serviceUuid : BtUuid :=
  if params.type = .primary then BtUuid.gattPrimary else BtUuid.gattSecondary

end DiscoverParams

def entryLoop (func : DiscoverFunc) (entryLen : Nat)
    (entry : Nat → List RspTouch × DiscoverEntry) : EntryLoop where
  round state :=
    if state.left < entryLen then
      ([.read 0 1], .done ⟨state.calls,
        if state.left = 0 ∧ state.handle ≠ 0 then .resume state.handle
        else .failed⟩)
    else
      let touches := .read 0 1 :: (entry state.pos).1
      match (entry state.pos).2 with
      | .invalid => (touches, .done ⟨state.calls, .failed⟩)
      | .included attrHandle startHandle endHandle =>
        (touches,
          .done ⟨state.calls, .readIncluded attrHandle startHandle endHandle⟩)
      | .skipped handle =>
        (touches, .next
          { state with
            pos := state.pos + entryLen
            left := state.left - entryLen
            handle := handle })
      | .found handle attr =>
        match func (state.calls ++ [attr]) with
        | .stop => (touches, .done ⟨state.calls ++ [attr], .stopped⟩)
        | .proceed =>
          (touches, .next
            { pos := state.pos + entryLen
              left := state.left - entryLen
              handle := handle
              calls := state.calls ++ [attr] })

def refusedLoop : EntryLoop where
  round state := ([.read 0 1], .done ⟨state.calls, .failed⟩)

def RspPdu.entryStart (pdu : RspPdu) (calls : List FoundAttr) : EntryState where
  pos := 1
  left := pdu.behindFirst
  handle := 0
  calls := calls

section Entries

variable (func : DiscoverFunc) (params : DiscoverParams) (pdu : RspPdu)

/-- An entry that goes to `func` if it passes the filter. -/
def reported (uuid : BtUuid) (handle : Nat) (attr : FoundAttr) : DiscoverEntry :=
  if params.passes uuid then .found handle attr else .skipped handle

def includeEntry (short : Bool) (pos : Nat) : List RspTouch × DiscoverEntry :=
  let handle := pdu.word pos
  let startHandle := pdu.word (pos + 2)
  let endHandle := pdu.word (pos + 4)
  if handle = 0 then
    ([.read pos 2], .invalid)
  else if short then
    let uuid := pdu.uuid16 (pos + 6)
    ([.read pos 2, .read (pos + 2) 4, .read (pos + 6) 2], reported params uuid handle
        ⟨BtUuid.gattInclude, handle, .included startHandle endHandle uuid⟩)
  else
    ([.read pos 2, .read (pos + 2) 4], .included handle startHandle endHandle)

def parseInclude : EntryLoop :=
  if pdu.byte 0 = 8 then entryLoop func 8 (includeEntry params pdu true)
  else if pdu.byte 0 = 6 then entryLoop func 6 (includeEntry params pdu false)
  else refusedLoop

def chrcEntry (short : Bool) (pos : Nat) : List RspTouch × DiscoverEntry :=
  let handle := pdu.word pos
  if handle = 0 then
    ([.read pos 2], .invalid)
  else
    let uuid := if short then pdu.uuid16 (pos + 5) else pdu.uuid128 (pos + 5)
    ([.read pos 2, .read (pos + 2) 3, .read (pos + 5) (if short then 2 else 16)],
      reported params uuid handle ⟨BtUuid.gattChrc, handle,
          .chrc (pdu.word (pos + 3)) (pdu.byte (pos + 2)) uuid⟩)

def parseCharacteristic : EntryLoop :=
  if pdu.byte 0 = 7 then entryLoop func 7 (chrcEntry params pdu true)
  else if pdu.byte 0 = 21 then entryLoop func 21 (chrcEntry params pdu false)
  else refusedLoop

def stdValue (uuid : BtUuid) (pos : Nat) : Option (RspTouch × FoundValue) :=
  if uuid = BtUuid.gattCep ∨ uuid = BtUuid.gattCcc ∨ uuid = BtUuid.gattScc then
    some (.read pos 2, .properties (pdu.word pos))
  else if uuid = BtUuid.gattCpf then
    some (.read pos 7, .cpf (pdu.byte pos) (pdu.byte (pos + 1)) (pdu.word (pos + 2))
        (pdu.byte (pos + 4)) (pdu.word (pos + 5)))
  else none

def stdEntry (uuid : BtUuid) (pos : Nat) : List RspTouch × DiscoverEntry :=
  let handle := pdu.word pos
  if handle = 0 then
    ([.read pos 2], .invalid)
  else
    match stdValue pdu uuid (pos + 2) with
    | none => ([.read pos 2], .invalid)
    | some (touch, value) =>
      ([.read pos 2, touch], .found handle ⟨uuid, handle, value⟩)

/-- `parse_read_std_char_desc`, for a UUID of 16 bits. -/
def parseReadStdCharDesc (uuid : BitVec 16) : EntryLoop :=
  entryLoop func (pdu.byte 0) (stdEntry pdu (.uuid16 uuid))

def serviceEntry (short : Bool) (pos : Nat) : List RspTouch × DiscoverEntry :=
  let startHandle := pdu.word pos
  let endHandle := pdu.word (pos + 2)
  if startHandle = 0 then
    ([.read pos 2], .invalid)
  else if endHandle = 0 ∨ endHandle < startHandle then
    ([.read pos 2, .read (pos + 2) 2], .invalid)
  else
    let uuid := if short then pdu.uuid16 (pos + 4) else pdu.uuid128 (pos + 4)
    ([.read pos 2, .read (pos + 2) 2, .read (pos + 4) (if short then 2 else 16)],
      .found endHandle ⟨params.serviceUuid, startHandle, .service endHandle uuid⟩)

def parseService : EntryLoop :=
  if pdu.byte 0 = 6 then entryLoop func 6 (serviceEntry params pdu true)
  else if pdu.byte 0 = 20 then entryLoop func 20 (serviceEntry params pdu false)
  else refusedLoop

end Entries

structure GroupState where
  index : Nat
  endHandle : Nat
  calls : List FoundAttr

/-- The loop of `gatt_find_type_rsp`, which counts in 8 bits. -/
def findTypeLoop (func : DiscoverFunc) (params : DiscoverParams) (uuid : BtUuid)
    (pdu : RspPdu) : Loop GroupState Parsed RspTouch where
  round state :=
    if pdu.length % 4 ≠ 0 then
      ([], .done ⟨state.calls, .failed⟩)
    else if state.index < pdu.length / 4 % 256 then
      let startHandle := pdu.word (4 * state.index)
      let endHandle := pdu.word (4 * state.index + 2)
      let calls := state.calls ++
        [⟨params.serviceUuid, startHandle, .service endHandle uuid⟩]
      ([.read (4 * state.index) 4], match func calls with
        | .stop => .done ⟨calls, .stopped⟩
        | .proceed => .next ⟨state.index + 1, endHandle, calls⟩)
    else
      ([], .done ⟨state.calls, .resume state.endHandle⟩)

def findTypeStart (calls : List FoundAttr) : GroupState := ⟨0, 0, calls⟩

structure InfoState where
  index : Nat
  handle : Nat
  skip : Bool
  calls : List FoundAttr

def infoLen (pdu : RspPdu) : Option Nat :=
  if pdu.byte 0 = 1 then some 4 else if pdu.byte 0 = 2 then some 18 else none

def notDescriptor (uuid : BtUuid) : Bool :=
  uuid.same BtUuid.gattPrimary || uuid.same BtUuid.gattSecondary ||
    uuid.same BtUuid.gattInclude

/-- One attribute of a Find Information response; after a characteristic
declaration the next one is skipped. -/
def infoEntry (func : DiscoverFunc) (params : DiscoverParams) (uuid : BtUuid)
    (handle : Nat) (state : InfoState) : Round InfoState Parsed :=
  let on := { state with index := state.index + 1, handle := handle }
  if state.skip then
    .next { on with skip := false }
  else if !params.passes uuid then
    .next on
  else if params.type = .descriptor ∧ notDescriptor uuid then
    .next on
  else if params.type = .descriptor ∧ uuid.same BtUuid.gattChrc then
    .next { on with skip := true }
  else
    let calls := state.calls ++ [⟨uuid, handle, .none⟩]
    match func calls with
    | .stop => .done ⟨calls, .stopped⟩
    | .proceed => .next { on with calls := calls }

/-- The loop of `gatt_find_info_rsp`. -/
def findInfoLoop (func : DiscoverFunc) (params : DiscoverParams)
    (pdu : RspPdu) : Loop InfoState Parsed RspTouch where
  round state :=
    match infoLen pdu with
    | none => ([.read 0 1], .done ⟨state.calls, .failed⟩)
    | some len =>
      if pdu.behindFirst < len then
        ([.read 0 1], .done ⟨state.calls, .failed⟩)
      else if state.index < pdu.behindFirst / len then
        let pos := 1 + len * state.index
        let uuid := if len = 4 then pdu.uuid16 (pos + 2) else pdu.uuid128 (pos + 2)
        (.read 0 1 :: .read pos 2 ::
            if state.skip then [] else [.read (pos + 2) (len - 2)],
          infoEntry func params uuid (pdu.word pos) state)
      else
        ([.read 0 1], .done ⟨state.calls, .resume state.handle⟩)

def findInfoStart (calls : List FoundAttr) : InfoState := ⟨0, 0, false, calls⟩

structure ReadState where
  pos : Nat
  left : Nat
  startHandle : Nat

inductive ReadEnd where
  | invalid
  | complete
  | again (startHandle : Nat)

/-- `parse_read_by_uuid`, with a callback that always goes on. -/
def parseReadByUuid (endHandle : Nat) (pdu : RspPdu) :
    Loop ReadState ReadEnd RspTouch where
  round state :=
    if state.left = 0 then
      ([], .done (.again state.startHandle))
    else
      let handle := pdu.word state.pos
      if handle = 0 then
        ([.read state.pos 2], .done .invalid)
      else
        let entryLen := pdu.byte 0
        let len :=
          (if state.left < entryLen then state.left + 2 ^ 16 - 2
          else entryLen + 2 ^ 16 - 2) % 2 ^ 16
        let touches := [.read state.pos 2, .read 0 1, .pass (state.pos + 2) len]
        if state.left < entryLen then
          (touches, .done (.again handle))
        else if handle = endHandle then
          (touches, .done .complete)
        else
          (touches, .next ⟨state.pos + entryLen, state.left - entryLen,
              (handle + 1) % 2 ^ 16⟩)

/-- What is left of a `net_buf_simple`. -/
structure PullState where
  pos : Nat
  left : Nat

def RspPdu.whole (pdu : RspPdu) : PullState := ⟨0, pdu.length⟩

/-- The loop of `gatt_read_mult_vl_rsp`. -/
def readMultVlLoop (pdu : RspPdu) : Loop PullState Unit RspTouch where
  round state :=
    if state.left < 2 then
      ([], .done ())
    else
      let len := min (pdu.word state.pos) (state.left - 2)
      ([.read state.pos 2, .pass (state.pos + 2) len],
        .next ⟨state.pos + 2 + len, state.left - 2 - len⟩)

/-- The loop of `bt_gatt_mult_notification`; `subscribed` counts the
subscriptions to a handle whose security level is reached. -/
def multNotificationLoop (subscribed : Nat → Nat) (pdu : RspPdu) :
    Loop PullState Unit RspTouch where
  round state :=
    if state.left ≤ 4 then
      ([], .done ())
    else
      let len := pdu.word (state.pos + 2)
      if state.left - 4 < len then
        ([.read state.pos 4], .done ())
      else
        (.read state.pos 4 :: List.replicate (subscribed (pdu.word state.pos))
              (.pass (state.pos + 4) len),
          .next ⟨state.pos + 4 + len, state.left - 4 - len⟩)

end ZephyrBluetooth.Host
