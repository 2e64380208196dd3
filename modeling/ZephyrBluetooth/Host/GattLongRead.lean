import ZephyrBluetooth.Data.Loop
import ZephyrBluetooth.Host.AttServer
import ZephyrBluetooth.Host.GattFilter

namespace ZephyrBluetooth.Host

open Data List

variable {spare : List Bool}

/-! Long reads: the client asks for the rest of a value with one request after
the other, over any bearer, until a response is shorter than the largest MTU
allows. -/

def attErrInvalidOffset : Nat := 0x07

def btGattAttrRead (value : List Byte) (bufLen offset : Nat) :
    Except Nat (List Byte) :=
  if value.length < offset then .error attErrInvalidOffset
  else .ok ((value.drop offset).take (min bufLen (value.length - offset)))

variable {offset : Nat}

theorem btGattAttrRead_eq {value : List Byte}
    (inside : offset ≤ value.length) (bufLen : Nat) :
    btGattAttrRead value bufLen offset = .ok ((value.drop offset).take bufLen) := by
  unfold btGattAttrRead
  rw [if_neg (not_lt.mpr inside), ← length_drop, ← take_eq_take_min]

theorem btGattAttrRead_le {value : List Byte} {bufLen offset : Nat}
    {bytes : List Byte}
    (served : btGattAttrRead value bufLen offset = .ok bytes) :
    bytes.length ≤ bufLen := by
  unfold btGattAttrRead at served
  split at served
  · cases served
  cases served
  rw [length_take]
  omega

def AttRoom.fragments (spare : List Bool) : Nat :=
  (spare.takeWhile id).length

def AttRoom.capacity (room : AttRoom) (spare : List Bool) (buf : NetBuf) : Nat :=
  min (room.mtu - buf.fragsLen)
    (buf.last.tailroom + room.dataSize * AttRoom.fragments spare)

section Reading

variable {Data : Type} {server : AttServer Data}
variable {room : AttRoom} {attr : GattAttr Data} {value : List Byte}

theorem AttRoom.fragments_none (none : spare.headD false = false) :
    AttRoom.fragments spare = 0 := by
  cases spare with
  | nil => rfl
  | cons =>
    rw [headD_cons] at none
    rw [none]
    rfl

theorem AttRoom.capacity_opened {buf : NetBuf}
    (more : buf.last.tailroom = 0 → spare.headD false = true) :
    room.capacity (room.opened buf spare).2 (room.opened buf spare).1 =
      room.capacity spare buf := by
  unfold AttRoom.opened
  split
  · rename_i full
    cases spare with
    | nil => exact nomatch more full
    | cons first rest =>
      have granted : first = true := more full
      have fragments : AttRoom.fragments (true :: rest) =
          AttRoom.fragments rest + 1 := rfl
      have tailroom : (buf.fragAdd room.dataSize).last.tailroom =
          room.dataSize := Nat.sub_zero _
      unfold AttRoom.capacity
      rw [granted, fragments, full, tailroom, NetBuf.fragAdd_fragsLen,
        mul_add_one, tail_cons, zero_add, add_comm]
  · rfl

section

variable (small : room.mtu < 2 ^ 32) (filling : 0 < room.dataSize)
  (short : value.length < 2 ^ 16)
  (reads : ∀ len offset,
    server.read attr len offset = btGattAttrRead value len offset)
include small filling short reads

theorem attChanReadLoop_value {rounds : Nat} {buf : NetBuf} {offset total : Nat}
    (roomy : buf.fragsLen < room.mtu) (enough : room.mtu - buf.fragsLen ≤ rounds)
    (inside : offset ≤ value.length) :
    (attChanReadLoop server room attr attrReadAll rounds spare buf offset total
        ()).buf.bytes =
        buf.bytes ++ (value.drop offset).take (room.capacity spare buf) ∧
      ∃ read, (attChanReadLoop server room attr attrReadAll rounds spare buf
        offset total ()).result = .ok read := by
  induction rounds generalizing spare buf offset total with
  | zero => omega
  | succ rounds ih =>
    by_cases closed : buf.last.tailroom = 0 ∧ spare.headD false = false
    · have none : room.capacity spare buf = 0 := by
        unfold AttRoom.capacity
        rw [AttRoom.fragments_none closed.2, closed.1]
        omega
      rw [attChanReadLoop_closed closed.1 closed.2, none]
      exact ⟨by simp, total, rfl⟩
    have more : buf.last.tailroom = 0 → spare.headD false = true :=
      fun full => Bool.eq_true_of_not_eq_false fun none => closed ⟨full, none⟩
    rw [attChanReadLoop_round small roomy more, reads,
      btGattAttrRead_eq inside, ← AttRoom.capacity_opened more,
      ← room.opened_bytes buf spare]
    have same := room.opened_fragsLen buf spare
    have tail := room.opened_tailroom filling buf spare
    generalize room.opened buf spare = opened at same tail
    obtain ⟨place, left⟩ := opened
    simp only [attrReadAll] at same tail ⊢
    generalize chunk : (value.drop offset).take (room.space place) = bytes
    have length : bytes.length =
        min (room.space place) (value.length - offset) := by
      rw [← chunk, length_take, length_drop]
    have grown := NetBuf.addLast_fragsLen place bytes
    unfold AttRoom.space at chunk length ⊢
    split
    · rename_i goes
      obtain ⟨below, whole⟩ := goes
      have unwrapped : (offset + bytes.length) % 2 ^ 16 =
          offset + bytes.length := Nat.mod_eq_of_lt (by omega)
      have later := @ih left (place.addLast bytes)
        ((offset + bytes.length) % 2 ^ 16) (total + bytes.length) below
        (by omega) (by omega)
      refine ⟨?_, later.2⟩
      rw [later.1, NetBuf.bytes_addLast, append_assoc, unwrapped]
      congr 1
      have tailroom : (place.addLast bytes).last.tailroom =
          place.last.tailroom - bytes.length := by
        simp only [Frag.tailroom, NetBuf.addLast, length_append]
        omega
      have capacity : room.capacity left place =
          bytes.length + room.capacity left (place.addLast bytes) := by
        unfold AttRoom.capacity
        rw [tailroom, grown]
        omega
      rw [capacity, take_add, whole, chunk, ← whole, drop_drop]
    · rename_i ends
      refine ⟨?_, _, rfl⟩
      rw [NetBuf.bytes_addLast, ← chunk]
      congr 1
      rw [grown] at ends
      have least : min (room.mtu - place.fragsLen) place.last.tailroom ≤
          room.capacity left place := by
        unfold AttRoom.capacity
        omega
      by_cases short : bytes.length =
          min (room.mtu - place.fragsLen) place.last.tailroom
      · have limit : room.capacity left place =
            min (room.mtu - place.fragsLen) place.last.tailroom := by
          unfold AttRoom.capacity
          omega
        rw [limit]
      · rw [take_of_length_le (by rw [length_drop]; omega),
          take_of_length_le (by rw [length_drop]; omega)]

theorem attChanRead_value (inside : offset ≤ value.length)
    (spare : List Bool) (buf : NetBuf) :
    (attChanRead server room attr spare buf offset attrReadAll ()).buf.bytes =
        buf.bytes ++ (value.drop offset).take (room.capacity spare buf) ∧
      ∃ read, (attChanRead server room attr spare buf offset attrReadAll
        ()).result = .ok read := by
  unfold attChanRead
  split
  · have none : room.capacity spare buf = 0 := by
      unfold AttRoom.capacity
      omega
    rw [none]
    exact ⟨by simp, 0, rfl⟩
  · exact attChanReadLoop_value small filling short reads (by omega) (by omega)
      inside

end

theorem attReadRsp_value [DecidableEq Data]
    (sorted : server.database.Sorted) {handle : Nat}
    (listed : (attr, handle) ∈ server.database.attributes)
    (readable : server.checkPerm attr = 0) (small : room.mtu < 2 ^ 32)
    (filling : 0 < room.dataSize) (short : value.length < 2 ^ 16)
    (reads : ∀ len offset,
      server.read attr len offset = btGattAttrRead value len offset)
    (inside : offset ≤ value.length) (buf : NetBuf) :
    ∃ filled, attReadRsp server room buf handle offset = .send filled ∧
      filled.bytes = buf.bytes ++
        (value.drop offset).take (room.capacity room.spare buf) := by
  obtain ⟨bytes, _, went⟩ :=
    attChanRead_value small filling short reads inside room.spare buf
  unfold attReadRsp
  rw [sorted.foreach_handle listed]
  unfold readCb
  simp only [readable, ne_eq, not_true_eq_false, if_false, went]
  exact ⟨_, rfl, bytes⟩

end Reading

/-- `func` of the parameters: with a part of the value, or without data. -/
inductive ReadCall where
  | data (bytes : List Byte)
  | done (err : Nat)

/-- `gatt_read_rsp` for one handle, with the offset of the next request;
`mtu` is what `bt_att_get_mtu` returns. -/
def gattReadRsp (mtu offset : Nat) :
    Except Nat (List Byte) → List ReadCall × Option Nat
  | .error err => ([.done err], none)
  | .ok pdu =>
    if pdu.length = 0 then ([.done 0], none)
    else if pdu.length < mtu - 1 then ([.data pdu, .done 0], none)
    else ([.data pdu], some ((offset + pdu.length) % 2 ^ 16))

structure ReadBearer where
  client : Nat
  server : Nat
  client_least : 23 ≤ client
  server_least : 23 ≤ server
  server_lt : server < 2 ^ 16

/-- `BT_ATT_DEFAULT_LE_MTU` is itself a possible MTU. -/
theorem default_mtu_le : 23 ≤ 23 :=
  le_refl 23

structure ReadTry where
  bearer : ReadBearer
  size : Nat
  size_pos : 0 < size
  dataSize : Nat
  dataSize_pos : 0 < dataSize
  spare : List Bool

/-- The read of a value that `bt_gatt_attr_read` serves, with the bearers of the
connection and the choice for each request. -/
structure LongRead (Data : Type) [DecidableEq Data] where
  server : AttServer Data
  sorted : server.database.Sorted
  attr : GattAttr Data
  handle : Nat
  listed : (attr, handle) ∈ server.database.attributes
  readable : server.checkPerm attr = 0
  value : List Byte
  short : value.length ≤ 512
  reads : ∀ len offset, server.read attr len offset = btGattAttrRead value len offset
  bearers : List ReadBearer
  request : Nat → ReadTry
  chosen : ∀ count, (request count).bearer ∈ bearers

namespace LongRead

variable {Data : Type} [DecidableEq Data] (read : LongRead Data)

def btAttGetMtu : Nat :=
  read.bearers.foldl (fun mtu bearer => max mtu bearer.client) 0

def room (count : Nat) : AttRoom where
  mtu := (read.request count).bearer.server
  dataSize := (read.request count).dataSize
  spare := (read.request count).spare

/-- The response with its opcode: `BT_ATT_OP_READ_RSP` or
`BT_ATT_OP_READ_BLOB_RSP`. -/
def created (count offset : Nat) : NetBuf :=
  (NetBuf.alloc (read.request count).size).addHead
    [if offset = 0 then 0x0b else 0x0d]

/-- The answer to the request with an offset, behind the opcode; a request that
gets none ends with an error. -/
def answer (count offset : Nat) : Except Nat (List Byte) :=
  match attReadRsp read.server (read.room count) (read.created count offset)
      read.handle offset with
  | .send buf => .ok (buf.bytes.drop 1)
  | .error _ _ err => .error err
  | .silent => .error 0x0e

/-- `bt_gatt_read` and `gatt_read_rsp` in turn; a state is the number of requests
and the offset. -/
def loop : Loop (Nat × Nat) Unit ReadCall where
  round state :=
    match gattReadRsp read.btAttGetMtu state.2 (read.answer state.1 state.2) with
    | (calls, none) => (calls, .done ())
    | (calls, some offset) => (calls, .next (state.1 + 1, offset))

def Completes (state : Nat × Nat) : Prop :=
  ∃ chunks : List (List Byte),
    read.loop.Ends state (chunks.map .data ++ [.done 0]) () ∧
      chunks.flatten = read.value.drop state.2

def capacity (count : Nat) : Nat :=
  (read.room count).capacity (read.request count).spare (read.created count 0)

def asked : Nat → Nat
  | 0 => 0
  | count + 1 => asked count + read.capacity count

/-- The response has room for the rest of the value, or for as much as the
largest MTU allows. -/
def Suffices (count : Nat) : Prop :=
  read.value.length ≤ read.asked count + read.capacity count ∨
    read.btAttGetMtu - 1 ≤ read.capacity count

variable {read}

theorem answer_eq (inside : offset ≤ read.value.length)
    (count : Nat) : read.answer count offset =
      .ok ((read.value.drop offset).take (read.capacity count)) := by
  have small : (read.room count).mtu < 2 ^ 32 :=
    lt_of_lt_of_le (read.request count).bearer.server_lt (by decide)
  have short : read.value.length < 2 ^ 16 := lt_of_le_of_lt read.short (by decide)
  obtain ⟨_, sent, bytes⟩ := attReadRsp_value read.sorted read.listed
    read.readable small (read.request count).dataSize_pos short read.reads
    inside (read.created count offset)
  have opcode : (read.created count offset).bytes =
      [if offset = 0 then 0x0b else 0x0d] := rfl
  have same : (read.room count).capacity (read.room count).spare
      (read.created count offset) = read.capacity count := rfl
  unfold answer
  rw [sent]
  simp only
  rw [bytes, opcode, same]
  rfl

theorem foldl_max_least {mtus : List ReadBearer} (nonempty : mtus ≠ [])
    (start : Nat) :
    23 ≤ mtus.foldl (fun mtu bearer => max mtu bearer.client) start := by
  induction mtus generalizing start with
  | nil => exact absurd rfl nonempty
  | cons bearer rest ih =>
    cases rest with
    | nil =>
      have least := bearer.client_least
      simp only [foldl_cons, foldl_nil]
      omega
    | cons => exact ih (by simp) _

theorem mtu_least : 23 ≤ read.btAttGetMtu :=
  foldl_max_least (ne_nil_of_mem (read.chosen 0)) 0

theorem asked_mono {count later : Nat} (order : count ≤ later) :
    read.asked count ≤ read.asked later := by
  induction order with
  | refl => exact le_refl _
  | step _ ih => exact le_trans ih (Nat.le_add_right _ _)

theorem suffices_behind {count later : Nat}
    (behind : read.value.length ≤ read.asked count) (order : count ≤ later) :
    read.Suffices later := by
  have mono := read.asked_mono order
  exact .inl (by omega)

theorem calls_none {chunks : List (List Byte)}
    (same : chunks.map ReadCall.data ++ [.done 0] = [.done 0]) : chunks = [] := by
  cases chunks with
  | nil => rfl
  | cons => cases same

theorem calls_first {chunks : List (List Byte)} {bytes : List Byte}
    {calls : List ReadCall}
    (same : chunks.map ReadCall.data ++ [.done 0] = .data bytes :: calls) :
    ∃ rest, chunks = bytes :: rest ∧
      rest.map ReadCall.data ++ [.done 0] = calls := by
  cases chunks with
  | nil => cases same
  | cons chunk rest =>
    cases same
    exact ⟨rest, rfl, rfl⟩

section

variable {count offset : Nat} (inside : offset ≤ read.value.length)
include inside

theorem round_empty
    (empty : min (read.capacity count) (read.value.length - offset) = 0) :
    read.loop.round (count, offset) = ([.done 0], .done ()) := by
  have length : ((read.value.drop offset).take (read.capacity count)).length =
      0 := by
    rw [length_take, length_drop]
    exact empty
  unfold loop
  simp only [answer_eq inside, gattReadRsp, if_pos length]

section

variable (some : min (read.capacity count) (read.value.length - offset) ≠ 0)
include some

theorem round_last
    (short : min (read.capacity count) (read.value.length - offset) <
      read.btAttGetMtu - 1) : read.loop.round (count, offset) =
      ([.data ((read.value.drop offset).take (read.capacity count)), .done 0],
        .done ()) := by
  have length : ((read.value.drop offset).take (read.capacity count)).length =
      min (read.capacity count) (read.value.length - offset) := by
    rw [length_take, length_drop]
  unfold loop
  simp only [answer_eq inside, gattReadRsp, length, if_neg some, if_pos short]

theorem round_next
    (full : ¬ min (read.capacity count) (read.value.length - offset) <
      read.btAttGetMtu - 1) : read.loop.round (count, offset) =
      ([.data ((read.value.drop offset).take (read.capacity count))],
        .next (count + 1,
          offset + min (read.capacity count) (read.value.length - offset))) := by
  have length : ((read.value.drop offset).take (read.capacity count)).length =
      min (read.capacity count) (read.value.length - offset) := by
    rw [length_take, length_drop]
  have short := read.short
  have unwrapped : (offset + min (read.capacity count)
      (read.value.length - offset)) % 2 ^ 16 =
        offset + min (read.capacity count) (read.value.length - offset) :=
    Nat.mod_eq_of_lt (by omega)
  unfold loop
  simp only [answer_eq inside, gattReadRsp, length, if_neg some, if_neg full,
    unwrapped]

end

theorem completes_empty
    (empty : min (read.capacity count) (read.value.length - offset) = 0) :
    read.Completes (count, offset) ↔ read.value.length = offset := by
  have went := round_empty inside empty
  constructor
  · rintro ⟨_, ends, whole⟩
    obtain ⟨calls, -⟩ := (Loop.ends_done_iff went).mp ends
    rw [calls_none calls] at whole
    have rest : (read.value.drop offset).length = 0 := by
      rw [← whole]
      rfl
    rw [length_drop] at rest
    omega
  · intro past
    refine ⟨[], Loop.ends_done went, ?_⟩
    rw [flatten_nil, ← past, drop_length]

section

variable (some : min (read.capacity count) (read.value.length - offset) ≠ 0)
include some

theorem completes_last
    (short : min (read.capacity count) (read.value.length - offset) <
      read.btAttGetMtu - 1) : read.Completes (count, offset) ↔
      read.value.length ≤ offset + read.capacity count := by
  have went := round_last inside some short
  constructor
  · rintro ⟨_, ends, whole⟩
    obtain ⟨calls, -⟩ := (Loop.ends_done_iff went).mp ends
    obtain ⟨_, rfl, none⟩ := calls_first calls
    rw [calls_none none] at whole
    have lengths := congrArg length whole
    simp only [flatten_cons, flatten_nil, append_nil,
      length_take, length_drop] at lengths
    omega
  · intro fits
    refine ⟨[(read.value.drop offset).take (read.capacity count)],
      Loop.ends_done went, ?_⟩
    rw [flatten_singleton]
    apply take_of_length_le
    rw [length_drop]
    omega

theorem completes_next
    (full : ¬ min (read.capacity count) (read.value.length - offset) <
      read.btAttGetMtu - 1) :
    read.Completes (count, offset) ↔ read.Completes (count + 1,
        offset + min (read.capacity count) (read.value.length - offset)) := by
  have went := round_next inside some full
  have length : ((read.value.drop offset).take (read.capacity count)).length =
      min (read.capacity count) (read.value.length - offset) := by
    rw [length_take, length_drop]
  have split := take_append_drop
    (min (read.capacity count) (read.value.length - offset))
    (read.value.drop offset)
  rw [← length_drop, ← take_eq_take_min, length_drop, drop_drop] at split
  constructor
  · rintro ⟨chunks, ends, whole⟩
    obtain ⟨_, calls, ends⟩ := (Loop.ends_next_iff went).mp ends
    obtain ⟨rest, rfl, rfl⟩ := calls_first calls
    refine ⟨rest, ends, ?_⟩
    rw [flatten_cons] at whole
    exact append_cancel_left (whole.trans split.symm)
  · rintro ⟨chunks, ends, whole⟩
    refine ⟨(read.value.drop offset).take (read.capacity count) :: chunks,
      (Loop.ends_next_iff went).mpr ⟨_, rfl, ends⟩, ?_⟩
    rw [flatten_cons, whole]
    exact split

end

end

theorem completes_from {count offset : Nat}
    (reached : offset = min (read.asked count) read.value.length) :
    read.Completes (count, offset) ↔
      ∀ later, count ≤ later → read.Suffices later := by
  induction left : read.value.length - offset using Nat.strongRecOn
    generalizing count offset with
  | _ left ih =>
    have inside : offset ≤ read.value.length := by omega
    have least := read.mtu_least
    have own : read.asked (count + 1) = read.asked count + read.capacity count :=
      rfl
    by_cases empty : min (read.capacity count) (read.value.length - offset) = 0
    · rw [completes_empty inside empty]
      constructor
      · intro past later order
        exact suffices_behind (by omega) order
      · intro suffice
        have here := suffice count (le_refl _)
        unfold Suffices at here
        omega
    · by_cases short : min (read.capacity count)
          (read.value.length - offset) < read.btAttGetMtu - 1
      · rw [completes_last inside empty short]
        constructor
        · intro fits later order
          rcases eq_or_lt_of_le order with rfl | beyond
          · exact .inl (by omega)
          · exact @suffices_behind _ _ _ (count + 1) _ (by omega) beyond
        · intro suffice
          have here := suffice count (le_refl _)
          unfold Suffices at here
          omega
      · rw [completes_next inside empty short, ih _ (by omega) (by omega) rfl]
        constructor
        · intro suffice later order
          rcases eq_or_lt_of_le order with rfl | beyond
          · exact .inr (by omega)
          · exact suffice later beyond
        · intro suffice later beyond
          exact suffice later (Nat.le_of_succ_le beyond)

/-- The client is given the whole value just where each response it may ask for
has room enough. -/
theorem long_read_completes_iff (read : LongRead Data) :
    read.Completes (0, 0) ↔ ∀ count, read.Suffices count := by
  rw [completes_from (Nat.zero_min _).symm]
  constructor
  · intro suffice count
    exact suffice count (Nat.zero_le _)
  · intro suffice later _
    exact suffice later

def mixedRead : LongRead Nat where
  server :=
    { database :=
        ⟨⟨[[⟨.uuid16 0x2A00#16, 0, 0, zero_handle_lt⟩]], by decide⟩,
          fun _ => .blank, []⟩
      checkPerm := fun _ => 0
      read := fun _ => btGattAttrRead (List.replicate 30 0)
      read_le := fun _ _ _ _ => btGattAttrRead_le }
  sorted := ⟨by decide, by decide, by decide⟩
  attr := ⟨.uuid16 0x2A00#16, 0, 0, zero_handle_lt⟩
  handle := 1
  listed := List.mem_singleton.mpr rfl
  readable := rfl
  value := List.replicate 30 0
  short := by decide
  reads := fun _ _ => rfl
  bearers :=
    [⟨23, 23, default_mtu_le, default_mtu_le, by decide⟩,
      ⟨64, 64, by decide, by decide, by decide⟩]
  request _ :=
    ⟨⟨23, 23, default_mtu_le, default_mtu_le, by decide⟩, 64, by decide, 64,
      by decide, []⟩
  chosen _ := mem_cons_self

theorem long_read_cut : ¬ mixedRead.Completes (0, 0) := by
  rintro ⟨_, ends, whole⟩
  have went : mixedRead.loop.round (0, 0) =
      ([.data (replicate 22 0), .done 0], .done ()) := rfl
  obtain ⟨calls, -⟩ := (Loop.ends_done_iff went).mp ends
  obtain ⟨_, rfl, none⟩ := calls_first calls
  rw [calls_none none] at whole
  have lengths : 22 = 30 := congrArg length whole
  cases lengths

end LongRead

end ZephyrBluetooth.Host
