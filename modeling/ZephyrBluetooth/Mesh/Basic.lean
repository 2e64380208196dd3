import Mathlib.Algebra.Group.Int.Defs
import Mathlib.Algebra.GroupWithZero.Nat

namespace ZephyrBluetooth.Mesh

/-! Configuration, addresses and the reception context of the mesh modules.
Fixed-width integers are naturals with explicit wrap-around.  A configuration
field is named after the end of its Kconfig symbol (`settings` is
`CONFIG_BT_SETTINGS`, the others are `CONFIG_BT_MESH_...`). -/

structure Config where
  settings : Bool
  rplStoreTimeout : Int
  seqStoreRate : Nat
  ivUpdateSeqLimit : Nat
  ivUpdateTest : Bool
  ivuDivider : Nat
  gattProxy : Bool := true
  friend : Bool := true
  friendQueueSize : Nat := 16
  lowPower : Bool := true
  txSegMax : Nat := 3
  txSegRetransCount : Nat := 4
  rxSegMax : Nat := 3
  seqStoreRate_le : seqStoreRate ≤ 1000000 := by decide
  txSegMax_le : txSegMax ≤ 32 := by decide
  rxSegMax_le : rxSegMax ≤ 32 := by decide

theorem defaultRate_le : 128 ≤ 1000000 := by decide

theorem defaultSegMax_le : 3 ≤ 32 := by decide

/-- The Kconfig defaults, with settings. -/
def plainConfig : Config where
  settings := true
  rplStoreTimeout := 5
  seqStoreRate := 128
  ivUpdateSeqLimit := 0x800000
  ivUpdateTest := false
  ivuDivider := 4
  seqStoreRate_le := defaultRate_le
  txSegMax_le := defaultSegMax_le
  rxSegMax_le := defaultSegMax_le

inductive Errno where
  | inval
  | noMem
  | already
  | io
  | busy
  | noBufs
  | noEnt
  | again
  | msgSize
  | badMsg
  | tooBig
  | timedOut
  | canceled
  deriving DecidableEq

abbrev Byte := BitVec 8

def keyPrimary : Nat := 0x0000

def keyUnused : Nat := 0xffff

def addrUnassigned : Nat := 0x0000

def addrAllNodes : Nat := 0xffff

def addrIsUnicast (addr : Nat) : Bool :=
  addr != 0 && decide (addr < 0x8000)

theorem addrIsUnicast_iff (addr : Nat) :
    addrIsUnicast addr = true ↔ addr ≠ 0 ∧ addr < 0x8000 := by
  simp [addrIsUnicast]

inductive NetIf where
  | adv
  | local
  | proxy
  | proxyCfg
  deriving DecidableEq

/-- `struct bt_mesh_net_rx` as `bt_mesh_net_decode` leaves it: `net_decrypt`
drops every source address that is not unicast, and the sequence number is read
from a 24-bit field. -/
structure NetRx where
  netIf : NetIf
  sub : Nat
  addr : Nat
  recvDst : Nat
  sendTtl : Nat
  seq : Nat
  oldIv : Bool
  ctl : Bool
  localMatch : Bool
  friendMatch : Bool
  addr_unicast : addrIsUnicast addr = true
  seq_lt : seq < 2 ^ 24

theorem firstSeq_lt : 1 < 2 ^ 24 := by decide

theorem NetRx.addr_ne_zero (rx : NetRx) : rx.addr ≠ 0 :=
  ((addrIsUnicast_iff rx.addr).mp rx.addr_unicast).1

theorem NetRx.addr_lt (rx : NetRx) : rx.addr < 2 ^ 15 :=
  ((addrIsUnicast_iff rx.addr).mp rx.addr_unicast).2

def ivBefore (ivIndex : Nat) (old : Bool) : Nat :=
  (ivIndex + 2 ^ 32 - old.toNat) % 2 ^ 32

theorem ivBefore_add {ivIndex : Nat} {old : Bool} (current : ivIndex < 2 ^ 32)
    (noWrap : old = true → ivIndex ≠ 0) :
    ivBefore ivIndex old + old.toNat = ivIndex := by
  unfold ivBefore
  cases old with
  | false =>
    simp only [Bool.toNat_false]
    omega
  | true =>
    have positive := noWrap rfl
    simp only [Bool.toNat_true]
    omega

/-- `BT_MESH_NET_IVI_RX`: the IV index a received message was secured with. -/
def netIviRx (ivIndex : Nat) (rx : NetRx) : Nat :=
  ivBefore ivIndex rx.oldIv

end ZephyrBluetooth.Mesh
