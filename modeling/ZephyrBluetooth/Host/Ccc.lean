import ZephyrBluetooth.Data.First
import Mathlib.Data.BitVec

namespace ZephyrBluetooth.Host

open Data

/-! Client characteristic configurations: a CCC descriptor has a fixed number of
entries, one for a peer. -/

structure BtAddrLe where
  type : BitVec 8
  val : BitVec 48
  deriving DecidableEq

/-- `BT_ADDR_LE_ANY`. -/
def BtAddrLe.any : BtAddrLe := ⟨0, 0⟩

theorem BtAddrLe.nine_real : (⟨0, 9⟩ : BtAddrLe) ≠ .any := by decide

structure AddrWithId where
  addr : BtAddrLe
  id : BitVec 8
  deriving DecidableEq

structure CccCfg where
  id : BitVec 8
  peer : BtAddrLe
  value : BitVec 16
  deriving DecidableEq

namespace CccCfg

def cleared : CccCfg := ⟨0, .any, 0⟩

def isFor (cfg : CccCfg) (peer : AddrWithId) : Bool :=
  decide (cfg.id = peer.id) && decide (cfg.peer = peer.addr)

end CccCfg

/-- `initAddr` is the address the connection was made with, `dst` the identity
address once it is known; both are addresses of a device. -/
structure GattConn where
  index : Nat
  id : BitVec 8
  dst : BtAddrLe
  initAddr : BtAddrLe
  dst_real : dst ≠ .any
  initAddr_real : initAddr ≠ .any

variable {cfg : CccCfg}

namespace GattConn

variable (conn : GattConn)

def isPeerAddrLe (id : BitVec 8) (peer : BtAddrLe) : Bool :=
  decide (id = conn.id) &&
    (decide (peer = conn.dst) || decide (peer = conn.initAddr))

def isPeer (cfg : CccCfg) : Bool :=
  conn.isPeerAddrLe cfg.id cfg.peer

def meets (other : GattConn) : Bool :=
  decide (conn.id = other.id) &&
    (decide (conn.dst = other.dst) || decide (conn.dst = other.initAddr) ||
      decide (conn.initAddr = other.dst) ||
      decide (conn.initAddr = other.initAddr))

variable {conn}

theorem isPeerAddrLe_iff {id : BitVec 8} {peer : BtAddrLe} :
    conn.isPeerAddrLe id peer = true ↔
      id = conn.id ∧ (peer = conn.dst ∨ peer = conn.initAddr) := by
  simp [isPeerAddrLe]

theorem isPeer_iff : conn.isPeer cfg = true ↔
      cfg.id = conn.id ∧ (cfg.peer = conn.dst ∨ cfg.peer = conn.initAddr) :=
  isPeerAddrLe_iff

theorem isPeerAddrLe_ne_any {id : BitVec 8} {peer : BtAddrLe}
    (own : conn.isPeerAddrLe id peer = true) : peer ≠ .any := by
  obtain ⟨-, same | same⟩ := isPeerAddrLe_iff.mp own
  · rw [same]
    exact conn.dst_real
  · rw [same]
    exact conn.initAddr_real

theorem meets_comm (conn other : GattConn) :
    conn.meets other = other.meets conn := by
  rw [Bool.eq_iff_iff]
  simp only [meets, Bool.and_eq_true, Bool.or_eq_true, decide_eq_true_eq]
  constructor
  · rintro ⟨id, ((same | same) | same) | same⟩ <;> simp [id, same]
  · rintro ⟨id, ((same | same) | same) | same⟩ <;> simp [id, same]

theorem meets_of_isPeer {other : GattConn} (own : conn.isPeer cfg = true)
    (shared : other.isPeer cfg = true) : conn.meets other = true := by
  rw [isPeer_iff] at own shared
  obtain ⟨id, own⟩ := own
  obtain ⟨id', shared⟩ := shared
  have same : conn.id = other.id := id.symm.trans id'
  rcases own with own | own <;> rcases shared with shared | shared <;>
    simp [meets, same, ← own, ← shared]

end GattConn

def cccValue (cfgs : List CccCfg) (peer : AddrWithId) : BitVec 16 :=
  ((cfgs.find? (·.isFor peer)).map CccCfg.value).getD 0

theorem cccValue_append {front back : List CccCfg} {peer : AddrWithId}
    (others : ∀ cfg ∈ front, cfg.isFor peer = false) :
    cccValue (front ++ back) peer = cccValue back peer := by
  have none : front.find? (·.isFor peer) = none := by
    rw [List.find?_eq_none]
    intro cfg member
    simp [others cfg member]
  simp [cccValue, List.find?_append, none]

theorem cccValue_cons {rest : List CccCfg} {peer : AddrWithId}
    (own : cfg.isFor peer = true) : cccValue (cfg :: rest) peer = cfg.value := by
  simp [cccValue, own]

end ZephyrBluetooth.Host
