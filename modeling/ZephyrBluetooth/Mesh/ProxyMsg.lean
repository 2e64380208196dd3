import ZephyrBluetooth.Data.Machine
import ZephyrBluetooth.Mesh.Basic

namespace ZephyrBluetooth.Mesh

open Data List Prod

/-- `struct net_buf_simple`: the bytes before the data, nearest first, and the
data.  `sound` tells whether every assertion of its operations has held. -/
structure SimpleBuf where
  room : List Byte
  data : List Byte
  size : Nat
  sound : Bool

variable {msg : SimpleBuf}

namespace SimpleBuf

def push (buf : SimpleBuf) (byte : Byte) : SimpleBuf :=
  { buf with
    room := buf.room.tail
    data := byte :: buf.data
    sound := buf.sound && !buf.room.isEmpty }

def pull (buf : SimpleBuf) (len : Nat) : SimpleBuf :=
  { buf with
    room := (buf.data.take len).reverse ++ buf.room
    data := buf.data.drop len
    sound := buf.sound && decide (len ≤ buf.data.length) }

def addMem (buf : SimpleBuf) (bytes : List Byte) : SimpleBuf :=
  { buf with
    data := buf.data ++ bytes
    sound := buf.sound &&
      decide (buf.room.length + buf.data.length + bytes.length ≤ buf.size) }

def reset (buf : SimpleBuf) : SimpleBuf :=
  { buf with room := [], data := [] }

end SimpleBuf

inductive Sar where
  | complete
  | first
  | cont
  | last
  deriving DecidableEq

def Sar.bits : Sar → Byte
  | .complete => 0x00
  | .first => 0x01
  | .cont => 0x02
  | .last => 0x03

def pduHdr (sar : Sar) (type : Byte) : Byte :=
  (sar.bits <<< 6) ||| (type &&& 0x3f)

def pduType (header : Byte) : Byte := header &&& 0x3f

def pduSar (header : Byte) : Sar :=
  match (header >>> 6).toNat with
  | 0 => .complete
  | 1 => .first
  | 2 => .cont
  | _ => .last

theorem pduSar_hdr (sar : Sar) (type : Byte) : pduSar (pduHdr sar type) = sar := by
  revert type
  cases sar <;> decide

theorem pduType_hdr (sar : Sar) (type : Byte) :
    pduType (pduHdr sar type) = type &&& 0x3f := by
  revert type
  cases sar <;> decide

theorem pduType_small {type : Byte} (small : type.toNat < 2 ^ 6) :
    type &&& 0x3f = type := by
  apply BitVec.eq_of_toNat_eq
  rw [BitVec.toNat_and]
  exact Nat.and_two_pow_sub_one_of_lt_two_pow small

/-- `CONFIG_BT_MESH_PROXY` and `CONFIG_BT_MESH_PB_GATT`. -/
structure ProxyConfig where
  proxy : Bool
  pbGatt : Bool

def proxyNetPdu : Byte := 0x00

def proxyBeacon : Byte := 0x01

def proxyConfig : Byte := 0x02

def proxyProv : Byte := 0x03

inductive ProxyHandler where
  | netRecv
  | beaconRecv
  | proxyCfg
  | pbGattRecv
  | unhandled

def proxyHandler (cfg : ProxyConfig) (type : Byte) : ProxyHandler :=
  if cfg.proxy ∧ type = proxyNetPdu then
    .netRecv
  else if cfg.proxy ∧ type = proxyBeacon then
    .beaconRecv
  else if cfg.proxy ∧ type = proxyConfig then
    .proxyCfg
  else if cfg.pbGatt ∧ type = proxyProv then
    .pbGattRecv
  else
    .unhandled

/-- A call of `proxy_complete_pdu`. -/
structure ProxyPdu where
  msgType : Byte
  data : List Byte
  handler : ProxyHandler

/-- `struct bt_mesh_proxy_role`; `timer` tells whether the SAR timer runs. -/
structure ProxyRole where
  msgType : Byte
  timer : Bool
  buf : SimpleBuf

namespace ProxyRole

def addMem (role : ProxyRole) (bytes : List Byte) : ProxyRole :=
  { role with buf := role.buf.addMem bytes }

end ProxyRole

def proxyCompletePdu (cfg : ProxyConfig) (role : ProxyRole) :
    ProxyRole × List ProxyPdu :=
  ({ role with buf := role.buf.reset },
    [⟨role.msgType, role.buf.data, proxyHandler cfg role.msgType⟩])

/-- `bt_mesh_proxy_msg_recv`; its callers reject writes without a header. -/
def proxyMsgRecv (cfg : ProxyConfig) (role : ProxyRole) (data : List Byte) :
    Except Errno Nat × ProxyRole × List ProxyPdu :=
  match data with
  | [] => (.error .inval, role, [])
  | header :: payload =>
    match pduSar header with
    | .complete =>
      if role.buf.data ≠ [] then
        (.error .inval, role, [])
      else
        (.ok data.length, proxyCompletePdu cfg
            ({ role with msgType := pduType header }.addMem payload))
    | .first =>
      if role.buf.data ≠ [] then
        (.error .inval, role, [])
      else
        (.ok data.length,
          { role with timer := true, msgType := pduType header }.addMem payload,
          [])
    | .cont =>
      if role.buf.data = [] then
        (.error .inval, role, [])
      else if role.msgType ≠ pduType header then
        (.error .inval, role, [])
      else
        (.ok data.length, { role with timer := true }.addMem payload, [])
    | .last =>
      if role.buf.data = [] then
        (.error .inval, role, [])
      else if role.msgType ≠ pduType header then
        (.error .inval, role, [])
      else
        (.ok data.length,
          proxyCompletePdu cfg ({ role with timer := false }.addMem payload))

def proxyMachine (cfg : ProxyConfig) :
    Machine ProxyRole (List Byte) ProxyPdu where
  step role data := (proxyMsgRecv cfg role data).2

structure AttMtu where
  value : Nat
  min : 23 ≤ value
  lt : value < 2 ^ 16

def AttMtu.payload (mtu : AttMtu) : Nat := mtu.value - 3

theorem AttMtu.payload_ge (mtu : AttMtu) : 20 ≤ mtu.payload :=
  Nat.sub_le_sub_right mtu.min 3

/-- What one call of `role->cb.send` was given: the bytes and whether the `end`
callback came with them. -/
structure ProxyChunk where
  bytes : List Byte
  withEnd : Bool

structure ProxySent where
  result : Except Errno Unit
  chunks : List ProxyChunk
  msg : SimpleBuf

/-- What the call number `count` of `role->cb.send` returned. -/
def sendResult (answer : Nat → Option Errno) (count : Nat) :
    Except Errno Unit :=
  match answer count with
  | none => .ok ()
  | some err => .error err

/-- The loop of `bt_mesh_proxy_msg_send`. -/
def proxySendRest (mtu : AttMtu) (type : Byte) (answer : Nat → Option Errno)
    (count : Nat) (msg : SimpleBuf) : ProxySent :=
  if msg.data = [] then
    ⟨.ok (), [], msg⟩
  else if msg.data.length + 1 ≤ mtu.payload then
    let pushed := msg.push (pduHdr .last type)
    ⟨sendResult answer count, [⟨pushed.data, true⟩], pushed⟩
  else
    let pushed := msg.push (pduHdr .cont type)
    match answer count with
    | some err => ⟨.error err, [⟨pushed.data.take mtu.payload, false⟩], pushed⟩
    | none =>
      let rest :=
        proxySendRest mtu type answer (count + 1) (pushed.pull mtu.payload)
      { rest with
        chunks := ⟨pushed.data.take mtu.payload, false⟩ :: rest.chunks }
termination_by msg.data.length
decreasing_by
  have wide := mtu.payload_ge
  simp only [SimpleBuf.pull, SimpleBuf.push, length_drop, length_cons]
  omega

def proxyMsgSend (mtu : AttMtu) (type : Byte) (answer : Nat → Option Errno)
    (msg : SimpleBuf) : ProxySent :=
  if msg.data.length < mtu.payload then
    let pushed := msg.push (pduHdr .complete type)
    ⟨sendResult answer 0, [⟨pushed.data, true⟩], pushed⟩
  else
    let pushed := msg.push (pduHdr .first type)
    match answer 0 with
    | some err => ⟨.error err, [⟨pushed.data.take mtu.payload, false⟩], pushed⟩
    | none =>
      let rest :=
        proxySendRest mtu type answer 1 (pushed.pull mtu.payload)
      { rest with
        chunks := ⟨pushed.data.take mtu.payload, false⟩ :: rest.chunks }

def ProxySent.frames (sent : ProxySent) : List (List Byte) :=
  sent.chunks.map ProxyChunk.bytes

namespace ProxyRole

structure Holds (role : ProxyRole) (size : Nat) (type : Byte)
    (got : List Byte) : Prop where
  msgType : role.msgType = type
  room : role.buf.room = []
  data : role.buf.data = got
  size : role.buf.size = size
  sound : role.buf.sound = true

structure Idle (role : ProxyRole) : Prop where
  timer : role.timer = false
  room : role.buf.room = []
  data : role.buf.data = []
  sound : role.buf.sound = true

variable {role : ProxyRole} {size : Nat} {type : Byte} {got payload : List Byte}

theorem Holds.addMem (holds : role.Holds size type got)
    (fits : got.length + payload.length ≤ size) :
    (role.addMem payload).Holds size type (got ++ payload) where
  msgType := holds.msgType
  room := holds.room
  data := congrArg (· ++ payload) holds.data
  size := holds.size
  sound := by
    simp only [ProxyRole.addMem, SimpleBuf.addMem, holds.sound, holds.room,
      holds.data, holds.size, length_nil, zero_add, Bool.true_and,
      decide_eq_true_eq]
    exact fits

theorem Holds.complete (cfg : ProxyConfig) (holds : role.Holds size type got)
    (stopped : role.timer = false) :
    (proxyCompletePdu cfg role).2 = [⟨type, got, proxyHandler cfg type⟩] ∧
      (proxyCompletePdu cfg role).1.Idle := by
  refine ⟨?_, stopped, rfl, rfl, holds.sound⟩
  simp only [proxyCompletePdu, holds.msgType, holds.data]

end ProxyRole

section RoundTrip

variable {cfg : ProxyConfig} {mtu : AttMtu} {answer : Nat → Option Errno}
variable {role next : ProxyRole} {size : Nat} {type : Byte}
variable {got payload data : List Byte}

/-- The chunks fit the MTU and are accepted one by one; the last one completes
the PDU and leaves the role idle. -/
structure ProxySent.Delivers (cfg : ProxyConfig) (mtu : AttMtu)
    (role : ProxyRole) (sent : ProxySent) (type : Byte) (data : List Byte) :
    Prop where
  sentOk : sent.result = .ok ()
  sound : sent.msg.sound = true
  fits : ∀ chunk ∈ sent.chunks, chunk.bytes.length ≤ mtu.value - 3
  accepted : (proxyMachine cfg).Along
    (fun role frame => (proxyMsgRecv cfg role frame).1 = .ok frame.length)
    role sent.frames
  completed : (proxyMachine cfg).trace role sent.frames =
    [⟨type, data, proxyHandler cfg type⟩]
  idle : ((proxyMachine cfg).run role sent.frames).Idle

theorem ProxySent.Delivers.cons {sent : ProxySent} {chunk : ProxyChunk}
    (delivers : sent.Delivers cfg mtu next type data)
    (gathered : proxyMsgRecv cfg role chunk.bytes =
      (.ok chunk.bytes.length, next, []))
    (small : chunk.bytes.length ≤ mtu.payload) :
    ({ sent with chunks := chunk :: sent.chunks } : ProxySent).Delivers cfg mtu
      role type data := by
  have stepped : (proxyMachine cfg).step role chunk.bytes = (next, []) :=
    congrArg snd gathered
  have reached : (proxyMachine cfg).next role chunk.bytes = next :=
    congrArg fst stepped
  have quiet : (proxyMachine cfg).emit role chunk.bytes = [] :=
    congrArg snd stepped
  exact
    { sentOk := delivers.sentOk
      sound := delivers.sound
      fits := forall_mem_cons.mpr ⟨small, delivers.fits⟩
      accepted := by
        refine ⟨congrArg fst gathered, ?_⟩
        rw [reached]
        exact delivers.accepted
      completed := by
        change (proxyMachine cfg).trace role (chunk.bytes :: sent.frames) = _
        rw [Machine.trace_cons, reached, quiet]
        exact delivers.completed
      idle := by
        change ((proxyMachine cfg).run role (chunk.bytes :: sent.frames)).Idle
        rw [Machine.run_cons, reached]
        exact delivers.idle }

theorem ProxySent.Delivers.single {chunk : ProxyChunk} (sound : msg.sound = true)
    (small : chunk.bytes.length ≤ mtu.payload)
    (taken : proxyMsgRecv cfg role chunk.bytes = (.ok chunk.bytes.length, next,
        [⟨type, data, proxyHandler cfg type⟩])) (idle : next.Idle) :
    (⟨.ok (), [chunk], msg⟩ : ProxySent).Delivers cfg mtu role type data := by
  have stepped : (proxyMachine cfg).step role chunk.bytes =
      (next, [⟨type, data, proxyHandler cfg type⟩]) := congrArg snd taken
  exact
    { sentOk := rfl
      sound := sound
      fits := forall_mem_singleton.mpr small
      accepted := ⟨congrArg fst taken, trivial⟩
      completed := by
        change (proxyMachine cfg).emit role chunk.bytes ++ [] = _
        rw [append_nil]
        exact congrArg snd stepped
      idle := by
        change ((proxyMachine cfg).next role chunk.bytes).Idle
        rw [show (proxyMachine cfg).next role chunk.bytes = next from
          congrArg fst stepped]
        exact idle }

theorem proxyMsgRecv_cont (small : type.toNat < 2 ^ 6)
    (holds : role.Holds size type got) (started : got ≠ []) :
    proxyMsgRecv cfg role (pduHdr .cont type :: payload) = (.ok (payload.length + 1),
        { role with timer := true }.addMem payload, []) := by
  have begun : role.buf.data ≠ [] := by
    rw [holds.data]
    exact started
  have sameType : role.msgType = pduType (pduHdr .cont type) := by
    rw [pduType_hdr, pduType_small small, holds.msgType]
  simp only [proxyMsgRecv, pduSar_hdr, if_neg begun,
    if_neg (not_not.mpr sameType), length_cons]

theorem proxyMsgRecv_last (small : type.toNat < 2 ^ 6)
    (holds : role.Holds size type got) (started : got ≠ []) :
    proxyMsgRecv cfg role (pduHdr .last type :: payload) = (.ok (payload.length + 1),
        proxyCompletePdu cfg ({ role with timer := false }.addMem payload)) := by
  have begun : role.buf.data ≠ [] := by
    rw [holds.data]
    exact started
  have sameType : role.msgType = pduType (pduHdr .last type) := by
    rw [pduType_hdr, pduType_small small, holds.msgType]
  simp only [proxyMsgRecv, pduSar_hdr, if_neg begun,
    if_neg (not_not.mpr sameType), length_cons]

theorem take_push (msg : SimpleBuf) (header : Byte) :
    (msg.push header).data.take mtu.payload =
      header :: msg.data.take (mtu.payload - 1) := by
  have wide := mtu.payload_ge
  have split : mtu.payload = mtu.payload - 1 + 1 := by omega
  rw [split]
  rfl

theorem pull_push_data (msg : SimpleBuf) (header : Byte) :
    ((msg.push header).pull mtu.payload).data = msg.data.drop (mtu.payload - 1) := by
  have wide := mtu.payload_ge
  have split : mtu.payload = mtu.payload - 1 + 1 := by omega
  rw [split]
  rfl

theorem pull_push_room (msg : SimpleBuf) (header : Byte) :
    ((msg.push header).pull mtu.payload).room ≠ [] := by
  have wide := mtu.payload_ge
  have taken := @take_push mtu msg header
  simp only [SimpleBuf.pull, taken, reverse_cons, append_assoc, ne_eq,
    append_eq_nil_iff, cons_ne_nil, false_and, and_false,
    not_false_eq_true]

theorem pull_push_sound (header : Byte) (room : msg.room ≠ [])
    (sound : msg.sound = true) (long : mtu.payload ≤ msg.data.length + 1) :
    ((msg.push header).pull mtu.payload).sound = true := by
  simp only [SimpleBuf.pull, SimpleBuf.push, sound, Bool.true_and,
    isEmpty_eq_false_iff.mpr room, Bool.not_false, length_cons,
    decide_eq_true_eq]
  exact long

theorem push_sound (header : Byte) (room : msg.room ≠ []) (sound : msg.sound = true) :
    (msg.push header).sound = true := by
  simp only [SimpleBuf.push, sound, isEmpty_eq_false_iff.mpr room,
    Bool.not_false, Bool.and_self]

theorem proxySendRest_delivers (small : type.toNat < 2 ^ 6)
    (answered : ∀ count, answer count = none) (count : Nat) (msg : SimpleBuf)
    (more : msg.data ≠ []) (room : msg.room ≠ []) (sound : msg.sound = true)
    (holds : role.Holds size type got) (started : got ≠ [])
    (enough : got.length + msg.data.length ≤ size) :
    (proxySendRest mtu type answer count msg).Delivers cfg mtu role type
      (got ++ msg.data) := by
  have wide := mtu.payload_ge
  induction count, msg using proxySendRest.induct mtu type answer
    generalizing role got with
  | case1 count msg empty => exact absurd empty more
  | case2 count msg _ short =>
    rw [proxySendRest, if_neg more, if_pos short]
    have last : sendResult answer count = .ok () := by
      simp only [sendResult, answered]
    rw [last]
    have held : ({ role with timer := false } : ProxyRole).Holds size type got :=
      ⟨holds.msgType, holds.room, holds.data, holds.size, holds.sound⟩
    obtain ⟨completed, idle⟩ := (held.addMem enough).complete cfg rfl
    refine .single (push_sound _ room sound) short ?_ idle
    change proxyMsgRecv cfg role (pduHdr .last type :: msg.data) = _
    rw [proxyMsgRecv_last small holds started, ← completed]
    rfl
  | case3 count msg _ long err failed =>
    rw [answered] at failed
    cases failed
  | case4 count msg _ long _ passed =>
    rename_i ih
    rw [proxySendRest, if_neg more, if_neg long]
    simp only [passed, take_push]
    have left := @pull_push_data mtu msg (pduHdr .cont type)
    have split := take_append_drop (mtu.payload - 1) msg.data
    have lengths := congrArg length split
    rw [length_append, length_drop] at lengths
    have taken : (msg.data.take (mtu.payload - 1)).length = mtu.payload - 1 :=
      length_take_of_le (by omega)
    have held : ({ role with timer := true } : ProxyRole).Holds size type got :=
      ⟨holds.msgType, holds.room, holds.data, holds.size, holds.sound⟩
    have gathered := @ProxyRole.Holds.addMem _ size type got
      (msg.data.take (mtu.payload - 1)) held (by omega)
    have rest := ih (by
        rw [left, ne_eq, drop_eq_nil_iff]
        omega)
      (pull_push_room msg _) (pull_push_sound _ room sound (by omega)) gathered
      (by
        intro empty
        exact started (append_eq_nil_iff.mp empty).1)
      (by
        rw [left, length_append, length_drop]
        omega)
    rw [left, append_assoc, split] at rest
    refine rest.cons ?_ ?_
    · exact proxyMsgRecv_cont small holds started
    · simp only [length_cons]
      omega

/-- A PDU whose type fits the six bits of the header, as those of all callers do,
reaches an idle role with enough buffer whole, whatever its length and the
MTU. -/
theorem proxyMsgSend_delivers (cfg : ProxyConfig) (mtu : AttMtu)
    {type : Byte} (small : type.toNat < 2 ^ 6) {answer : Nat → Option Errno}
    (answered : ∀ count, answer count = none) {msg : SimpleBuf}
    (room : msg.room ≠ []) (sound : msg.sound = true) {role : ProxyRole}
    (idle : role.Idle) (enough : msg.data.length ≤ role.buf.size) :
    (proxyMsgSend mtu type answer msg).Delivers cfg mtu role type msg.data := by
  have wide := mtu.payload_ge
  have named (sar : Sar) : pduType (pduHdr sar type) = type := by
    rw [pduType_hdr, pduType_small small]
  unfold proxyMsgSend
  split
  next short =>
    have last : sendResult answer 0 = .ok () := by
      simp only [sendResult, answered]
    rw [last]
    have held : ({ role with msgType := type } : ProxyRole).Holds role.buf.size
        type [] := ⟨rfl, idle.room, idle.data, rfl, idle.sound⟩
    obtain ⟨completed, finished⟩ :=
      (@ProxyRole.Holds.addMem _ _ _ _ msg.data held (by simpa)).complete cfg
        idle.timer
    refine .single (push_sound _ room sound) short ?_ finished
    change proxyMsgRecv cfg role (pduHdr .complete type :: msg.data) = _
    rw [nil_append] at completed
    rw [← completed]
    simp only [proxyMsgRecv, pduSar_hdr, idle.data, ne_eq, not_true_eq_false,
      if_false, named, length_cons]
    rfl
  next long =>
    simp only [answered, take_push]
    have left := @pull_push_data mtu msg (pduHdr .first type)
    have split := take_append_drop (mtu.payload - 1) msg.data
    have lengths := congrArg length split
    rw [length_append, length_drop] at lengths
    have taken : (msg.data.take (mtu.payload - 1)).length = mtu.payload - 1 :=
      length_take_of_le (by omega)
    have held : ({ role with timer := true, msgType := type } :
        ProxyRole).Holds role.buf.size type [] :=
      ⟨rfl, idle.room, idle.data, rfl, idle.sound⟩
    have gathered := @ProxyRole.Holds.addMem _ _ _ _
      (msg.data.take (mtu.payload - 1)) held (by
        rw [length_nil]
        omega)
    rw [nil_append] at gathered
    have rest := @proxySendRest_delivers cfg mtu answer _ _ _ _ small answered 1
      ((msg.push (pduHdr .first type)).pull mtu.payload)
      (by
        rw [left, ne_eq, drop_eq_nil_iff]
        omega)
      (pull_push_room msg _) (pull_push_sound _ room sound (by omega)) gathered
      (by
        intro empty
        rw [empty, length_nil] at taken
        omega)
      (by
        rw [left, length_drop]
        omega)
    rw [left, split] at rest
    refine rest.cons ?_ ?_
    · simp only [proxyMsgRecv, pduSar_hdr, idle.data, ne_eq, not_true_eq_false,
        if_false, named, length_cons]
    · simp only [length_cons]
      omega

theorem minAttMtu_min : 23 ≤ 23 := by decide

theorem minAttMtu_lt : 23 < 2 ^ 16 := by decide

def minAttMtu : AttMtu := ⟨23, minAttMtu_min, minAttMtu_lt⟩

def idleProxyRole : ProxyRole := ⟨0, false, ⟨[], [], 65, true⟩⟩

theorem proxyMsgSend_delivers_three :
    (proxyMsgSend minAttMtu proxyProv (fun _ => none)
      ⟨[0x00], replicate 40 0xaa, 41, true⟩).Delivers ⟨true, true⟩ minAttMtu
      idleProxyRole proxyProv (replicate 40 0xaa) :=
  proxyMsgSend_delivers ⟨true, true⟩ minAttMtu (by decide) (fun _ => rfl)
    (by decide) rfl ⟨rfl, rfl, rfl, rfl⟩ (by decide)

end RoundTrip

end ZephyrBluetooth.Mesh
