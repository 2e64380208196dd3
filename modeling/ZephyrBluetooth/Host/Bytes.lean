import Mathlib.Data.BitVec

namespace ZephyrBluetooth.Host

abbrev Byte := BitVec 8

def le16 (value : Nat) : List Byte :=
  [BitVec.ofNat 8 value, BitVec.ofNat 8 (value / 256)]

def pullLe16 : List Byte → Option (Nat × List Byte)
  | low :: high :: rest => some (low.toNat + 256 * high.toNat, rest)
  | _ => none

theorem pullLe16_le16 {value : Nat} (small : value ≤ 0xffff) (rest : List Byte) :
    pullLe16 (le16 value ++ rest) = some (value, rest) := by
  unfold le16
  rw [List.cons_append, List.cons_append, List.nil_append]
  simp only [pullLe16, BitVec.toNat_ofNat, Option.some_inj, Prod.mk.injEq, and_true]
  omega

end ZephyrBluetooth.Host
