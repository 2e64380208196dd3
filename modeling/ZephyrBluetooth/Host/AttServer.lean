import ZephyrBluetooth.Host.GattDb
import ZephyrBluetooth.Host.NetBuf

namespace ZephyrBluetooth.Host

/-! The responses of `att.c`, built attribute by attribute during an iteration
of the database. -/

/-- A difference of `size_t` values. -/
def sizeSub (left right : Nat) : Nat :=
  (left + 2 ^ 32 - right) % 2 ^ 32

theorem sizeSub_le {left right : Nat} (below : right ≤ left)
    (small : left < 2 ^ 32) : sizeSub left right = left - right := by
  unfold sizeSub
  omega

namespace BtUuid

def gattPrimary : BtUuid := uuid16 0x2800#16

def gattSecondary : BtUuid := uuid16 0x2801#16

def gattChrc : BtUuid := uuid16 0x2803#16

/-- `count` bytes, the lowest first. -/
def littleEndian : Nat → Nat → List Byte
  | 0, _ => []
  | count + 1, value => BitVec.ofNat 8 value :: littleEndian count (value / 256)

def ofLittleEndian : List Byte → Nat
  | [] => 0
  | low :: rest => low.toNat + 256 * ofLittleEndian rest

end BtUuid

/-- What the application serves: permissions, and read callbacks that never
return more than they are asked for. -/
structure AttServer (Data : Type) where
  database : GattDb Data
  checkPerm : GattAttr Data → Nat
  read : GattAttr Data → Nat → Nat → Except Nat (List Byte)
  read_le : ∀ attr len offset bytes,
    read attr len offset = .ok bytes → bytes.length ≤ len

/-- The bearer that answers, the size of a further fragment and which of their
allocations succeed. -/
structure AttRoom where
  mtu : Nat
  dataSize : Nat
  spare : List Bool

inductive AttBuilt where
  | send (buf : NetBuf)
  | error (adds : List NetAdd) (handle err : Nat)
  | silent

def attErrInvalidHandle : Nat := 0x01

section Builders

variable {Data : Type} [DecidableEq Data] (server : AttServer Data)
variable (room : AttRoom)

/-- What `attr_read_cb` may change, and whether the loop goes on. -/
abbrev AttrReadCb (Carried : Type) :=
  NetBuf → Nat → Carried → NetBuf × Carried × Bool

structure ChanRead (Carried : Type) where
  buf : NetBuf
  spare : List Bool
  carried : Carried
  result : Except Nat Nat

/-- The loop of `att_chan_read`.  Every round but the last fills at least one
byte up to the MTU, so that `mtu` rounds are enough. -/
def attChanReadLoop {Carried : Type} (attr : GattAttr Data)
    (cb : AttrReadCb Carried) :
    Nat → List Bool → NetBuf → Nat → Nat → Carried → ChanRead Carried
  | 0, spare, buf, _, total, carried => ⟨buf, spare, carried, .ok total⟩
  | rounds + 1, spare, buf, offset, total, carried =>
    let full :=
      min (sizeSub room.mtu buf.fragsLen) buf.last.tailroom = 0
    if full ∧ spare.headD false = false then
      ⟨buf, spare, carried, .ok total⟩
    else
      let spare := if full then spare.tail else spare
      let buf := if full then buf.fragAdd room.dataSize else buf
      let len := min (sizeSub room.mtu buf.fragsLen) buf.last.tailroom
      match server.read attr len offset with
      | .error err =>
        ⟨buf, spare, carried, if total = 0 then .error err else .ok total⟩
      | .ok bytes =>
        match cb buf bytes.length carried with
        | (buf, carried, false) => ⟨buf, spare, carried, .ok total⟩
        | (buf, carried, true) =>
          let added := buf.addLast bytes
          if added.fragsLen < room.mtu ∧ bytes.length = len then
            attChanReadLoop attr cb rounds spare added
              ((offset + bytes.length) % 2 ^ 16)
              (total + bytes.length) carried
          else
            ⟨added, spare, carried, .ok (total + bytes.length)⟩

def attChanRead {Carried : Type} (attr : GattAttr Data) (spare : List Bool)
    (buf : NetBuf) (offset : Nat) (cb : AttrReadCb Carried)
    (carried : Carried) : ChanRead Carried :=
  if room.mtu ≤ buf.fragsLen then ⟨buf, spare, carried, .ok 0⟩
  else attChanReadLoop server room attr cb room.mtu spare buf offset 0 carried

def AttRoom.opened (buf : NetBuf) (spare : List Bool) : NetBuf × List Bool :=
  if buf.last.tailroom = 0 then (buf.fragAdd room.dataSize, spare.tail)
  else (buf, spare)

def AttRoom.space (buf : NetBuf) : Nat :=
  min (room.mtu - buf.fragsLen) buf.last.tailroom

def errToAtt (err : Nat) : Nat :=
  if 0 < err ∧ err ≤ 0xff then err else 0x0e

structure ReadData where
  buf : NetBuf
  spare : List Bool
  offset : Nat
  err : Nat

def attrReadAll : AttrReadCb Unit := fun buf _ carried => (buf, carried, true)

def readCb : GattAttrFunc Data ReadData := fun attr _ data =>
  if server.checkPerm attr ≠ 0 then
    ({ data with err := server.checkPerm attr }, .stop)
  else
    let read := attChanRead server room attr data.spare data.buf data.offset
      attrReadAll ()
    let filled := { data with buf := read.buf, spare := read.spare, err := 0 }
    match read.result with
    | .error err => ({ filled with err := errToAtt err }, .stop)
    | .ok _ => (filled, .proceed)

def attReadRsp (buf : NetBuf) (handle offset : Nat) : AttBuilt :=
  let data := btGattForeachAttr server.database handle handle
    (readCb server room) ⟨buf, room.spare, offset, attErrInvalidHandle⟩
  if data.err ≠ 0 then .error data.buf.adds handle data.err
  else .send data.buf

end Builders

theorem AttRoom.opened_fragsLen (room : AttRoom) (buf : NetBuf) (spare : List Bool) :
    (room.opened buf spare).1.fragsLen = buf.fragsLen := by
  unfold AttRoom.opened
  split
  · exact NetBuf.fragAdd_fragsLen ..
  · rfl

theorem NetBuf.bytes_addLast (buf : NetBuf) (bytes : List Byte) :
    (buf.addLast bytes).bytes = buf.bytes ++ bytes := by
  simp [NetBuf.bytes, NetBuf.addLast]

theorem NetBuf.bytes_fragAdd (buf : NetBuf) (size : Nat) :
    (buf.fragAdd size).bytes = buf.bytes := by
  simp [NetBuf.bytes, NetBuf.fragAdd]

theorem AttRoom.opened_bytes (room : AttRoom) (buf : NetBuf)
    (spare : List Bool) : (room.opened buf spare).1.bytes = buf.bytes := by
  unfold AttRoom.opened
  split
  · exact NetBuf.bytes_fragAdd ..
  · rfl

theorem AttRoom.opened_tailroom (room : AttRoom) (filling : 0 < room.dataSize)
    (buf : NetBuf) (spare : List Bool) :
    0 < (room.opened buf spare).1.last.tailroom := by
  unfold AttRoom.opened
  split
  · exact filling
  · rename_i some
    exact Nat.pos_of_ne_zero some

section Round

variable {Data : Type} {server : AttServer Data} {room : AttRoom} {Carried : Type}
variable {attr : GattAttr Data} {cb : AttrReadCb Carried} {buf : NetBuf}

theorem attChanReadLoop_closed (full : buf.last.tailroom = 0)
    {spare : List Bool} (none : spare.headD false = false)
    (rounds offset total : Nat) (carried : Carried) :
    attChanReadLoop server room attr cb (rounds + 1) spare buf offset total
      carried = ⟨buf, spare, carried, .ok total⟩ := by
  have empty : min (sizeSub room.mtu buf.fragsLen) buf.last.tailroom = 0 := by
    omega
  unfold attChanReadLoop
  simp only [empty, none, and_self, if_true]

theorem attChanReadLoop_round (small : room.mtu < 2 ^ 32)
    (roomy : buf.fragsLen < room.mtu) {spare : List Bool}
    (more : buf.last.tailroom = 0 → spare.headD false = true)
    (rounds offset total : Nat) (carried : Carried) :
    attChanReadLoop server room attr cb (rounds + 1) spare buf offset total
        carried =
      match server.read attr (room.space (room.opened buf spare).1) offset with
      | .error err =>
        ⟨(room.opened buf spare).1, (room.opened buf spare).2, carried,
          if total = 0 then .error err else .ok total⟩
      | .ok bytes =>
        match cb (room.opened buf spare).1 bytes.length carried with
        | (next, carried, false) =>
          ⟨next, (room.opened buf spare).2, carried, .ok total⟩
        | (next, carried, true) =>
          if (next.addLast bytes).fragsLen < room.mtu ∧
              bytes.length = room.space (room.opened buf spare).1 then
            attChanReadLoop server room attr cb rounds
              (room.opened buf spare).2 (next.addLast bytes)
              ((offset + bytes.length) % 2 ^ 16) (total + bytes.length)
              carried
          else
            ⟨next.addLast bytes, (room.opened buf spare).2, carried,
              .ok (total + bytes.length)⟩ := by
  have left := sizeSub_le (le_of_lt roomy) small
  have wide : sizeSub room.mtu (buf.fragAdd room.dataSize).fragsLen =
      room.mtu - (buf.fragAdd room.dataSize).fragsLen := by
    rw [NetBuf.fragAdd_fragsLen, left]
  conv_lhs => unfold attChanReadLoop
  unfold AttRoom.opened AttRoom.space
  by_cases full : buf.last.tailroom = 0
  · simp only [left, wide, full, Nat.min_zero, more full, Bool.true_eq_false,
      and_false, if_true, if_false]
  · have some : ¬ min (room.mtu - buf.fragsLen) buf.last.tailroom = 0 := by omega
    simp only [left, full, some, false_and, if_false]

end Round

end ZephyrBluetooth.Host
