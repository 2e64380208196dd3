import ZephyrBluetooth.Host.GattClient

namespace ZephyrBluetooth.Host

open List

namespace BtUuid

theorem shifted_inj {width : Nat} (narrow : width ≤ 32)
    {left right : BitVec width} : uuid128Base + (left.setWidth 128 <<< 96) =
      uuid128Base + (right.setWidth 128 <<< 96) ↔ left = right := by
  rw [BitVec.add_right_inj]
  constructor
  · intro equal
    have values := congrArg BitVec.toNat equal
    have small : left.toNat < 2 ^ 32 :=
      lt_of_lt_of_le left.isLt (Nat.pow_le_pow_right (by decide) narrow)
    have other : right.toNat < 2 ^ 32 :=
      lt_of_lt_of_le right.isLt (Nat.pow_le_pow_right (by decide) narrow)
    simp only [BitVec.toNat_shiftLeft, BitVec.toNat_setWidth,
      Nat.shiftLeft_eq] at values
    apply BitVec.eq_of_toNat_eq
    omega
  · intro equal
    rw [equal]

theorem same_iff {left right : BtUuid} :
    left.same right = true ↔ left.toUuid128 = right.toUuid128 := by
  cases left with
  | uuid16 =>
    cases right with
    | uuid16 => exact decide_eq_true_iff.trans (shifted_inj (by decide)).symm
    | uuid32 => simp [same]
    | uuid128 => simp [same]
  | uuid32 =>
    cases right with
    | uuid16 => simp [same]
    | uuid32 => exact decide_eq_true_iff.trans (shifted_inj (by decide)).symm
    | uuid128 => simp [same]
  | uuid128 =>
    cases right with
    | uuid16 => simp [same]
    | uuid32 => simp [same]
    | uuid128 => simp [same, toUuid128]

theorem same_of_same {uuid wanted other : BtUuid}
    (left : uuid.same wanted = true) : uuid.same other = wanted.same other := by
  rw [Bool.eq_iff_iff, same_iff, same_iff, same_iff.mp left]

@[simp] theorem littleEndian_length (count value : Nat) :
    (littleEndian count value).length = count := by
  induction count generalizing value with
  | zero => rfl
  | succ count ih => simp [littleEndian, ih]

theorem ofLittleEndian_littleEndian {count value : Nat}
    (small : value < 256 ^ count) :
    ofLittleEndian (littleEndian count value) = value := by
  induction count generalizing value with
  | zero =>
    rw [pow_zero] at small
    have zero : value = 0 := by omega
    rw [zero]
    rfl
  | succ count ih =>
    have quotient : value / 256 < 256 ^ count := by
      apply Nat.div_lt_of_lt_mul
      rw [mul_comm, ← Nat.pow_succ]
      exact small
    simp only [littleEndian, ofLittleEndian, ih quotient, BitVec.toNat_ofNat]
    omega

end BtUuid

namespace RspPdu

variable (front back : List Byte)

theorem byte_at (value : Byte) :
    (ofList (front ++ value :: back)).byte front.length = value.toNat := by
  unfold byte ofList
  simp

theorem word_at {value : Nat} (small : value < 2 ^ 16) :
    (ofList (front ++ (le16 value ++ back))).word front.length = value := by
  have low := byte_at front (BitVec.ofNat 8 (value / 256) :: back)
    (BitVec.ofNat 8 value)
  have high := byte_at (front ++ [BitVec.ofNat 8 value]) back
    (BitVec.ofNat 8 (value / 256))
  rw [append_assoc, length_append] at high
  unfold word le16
  rw [cons_append, cons_append, nil_append, low]
  rw [singleton_append, length_singleton] at high
  rw [high, BitVec.toNat_ofNat, BitVec.toNat_ofNat]
  omega

theorem bytes_at (body : List Byte) :
    (ofList (front ++ (body ++ back))).bytes front.length body.length = body := by
  apply ext_getElem
  · simp [bytes]
  · intro index _ inside
    have found : (front ++ (body ++ back))[front.length + index]? =
        some body[index] := by
      rw [getElem?_append_right (Nat.le_add_right _ _),
        Nat.add_sub_cancel_left, getElem?_append_left inside,
        getElem?_eq_getElem inside]
    simp [bytes, ofList, found]

theorem uuid16_at (value : BitVec 16) :
    (ofList (front ++ (le16 value.toNat ++ back))).uuid16 front.length =
      .uuid16 value := by
  unfold uuid16
  rw [word_at _ _ value.isLt, BitVec.ofNat_toNat, BitVec.setWidth_eq]

theorem uuid128_at (value : BitVec 128) :
    (ofList (front ++ (BtUuid.littleEndian 16 value.toNat ++ back))).uuid128
      front.length = .uuid128 value := by
  have body := bytes_at front back (BtUuid.littleEndian 16 value.toNat)
  rw [BtUuid.littleEndian_length] at body
  have small : value.toNat < 256 ^ 16 := value.isLt
  unfold uuid128
  rw [body, BtUuid.ofLittleEndian_littleEndian small, BitVec.ofNat_toNat,
    BitVec.setWidth_eq]

end RspPdu

end ZephyrBluetooth.Host
