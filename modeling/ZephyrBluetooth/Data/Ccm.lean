import Mathlib.Data.List.GetD
import Mathlib.Data.BitVec

namespace ZephyrBluetooth.Data.Ccm

open BitVec List

/-! Counter with CBC-MAC (RFC 3610) with two octets for the length, over any block
function. -/

abbrev Octet := BitVec 8

abbrev Block := Fin 16 → Octet

def xor16 (first second : Block) : Block :=
  fun index => first index ^^^ second index

/-- Sixteen octets of a string from a multiple of sixteen on, padded with zeros. -/
def block (data : List Octet) (place : Nat) : Block :=
  fun index => data.getD (16 * place + index) 0

def blocks (data : List Octet) : Nat :=
  (data.length + 15) / 16

def header (flags : Octet) (nonce : Fin 13 → Octet) (value : Nat) : Block :=
  fun index =>
    if index.val = 0 then flags
    else if inside : index.val - 1 < 13 then nonce ⟨index.val - 1, inside⟩
    else if index.val = 14 then BitVec.ofNat 8 (value / 256)
    else BitVec.ofNat 8 value

variable (encrypt : Block → Block)

def absorb (data : List Octet) (chained : Block) (place : Nat) : Block :=
  encrypt (xor16 chained (block data place))

def cbcMac (data : List Octet) (start : Block) : Block :=
  (List.range (blocks data)).foldl (absorb encrypt data) start

/-- The additional data behind its length, which is below 0xff00. -/
def additional (aad : List Octet) : List Octet :=
  if aad = [] then []
  else BitVec.ofNat 8 (aad.length / 256) :: BitVec.ofNat 8 aad.length :: aad

def flags (aad : List Octet) (micSize : Nat) : Octet :=
  BitVec.ofNat 8 (64 * (if aad = [] then 0 else 1) + 8 * ((micSize - 2) / 2) + 1)

variable (nonce : Fin 13 → Octet)

def stream (count : Nat) : Block :=
  encrypt (header 1 nonce count)

/-- The last block of the CBC-MAC, for any length field in the first one. -/
def tag (msg aad : List Octet) (length micSize : Nat) : Block :=
  cbcMac encrypt msg (cbcMac encrypt (additional aad)
    (encrypt (header (flags aad micSize) nonce length)))

def mic (msg aad : List Octet) (length micSize : Nat) : List Octet :=
  (List.range micSize).map fun index =>
    xor16 (stream encrypt nonce 0) (tag encrypt nonce msg aad length micSize)
      (Fin.ofNat 16 index)

def crypt (msg : List Octet) : List Octet :=
  msg.mapIdx fun index octet =>
    octet ^^^ stream encrypt nonce (index / 16 + 1) (Fin.ofNat 16 index)

def ccm (msg aad : List Octet) (micSize : Nat) : List Octet :=
  crypt encrypt nonce msg ++ mic encrypt nonce msg aad msg.length micSize

theorem crypt_crypt (msg : List Octet) :
    crypt encrypt nonce (crypt encrypt nonce msg) = msg := by
  unfold crypt
  apply ext_getElem
  · simp
  · intro index _ _
    simp only [getElem_mapIdx]
    rw [BitVec.xor_assoc, BitVec.xor_self]
    exact xor_zero

theorem crypt_length (msg : List Octet) :
    (crypt encrypt nonce msg).length = msg.length :=
  length_mapIdx

def pick (place : Fin 16) : Block → Block :=
  fun input _ => input place

def Apart (first second : Block) : Prop :=
  ∃ left right, left ≠ right ∧ first = (fun _ => left) ∧ second = (fun _ => right)

variable {place : Fin 16} {first second : Block}

theorem apart_pick (different : first place ≠ second place) :
    Apart (pick place first) (pick place second) :=
  ⟨_, _, different, rfl, rfl⟩

section

variable (apart : Apart first second)
include apart

theorem Apart.ne (index : Fin 16) : first index ≠ second index := by
  obtain ⟨_, _, different, rfl, rfl⟩ := apart
  exact different

theorem Apart.absorb (data : List Octet) (count : Nat) :
    Apart (Ccm.absorb (pick place) data first count)
      (Ccm.absorb (pick place) data second count) := by
  apply apart_pick
  intro same
  exact apart.ne place ((xor_left_inj _).mp same)

theorem Apart.cbcMac (data : List Octet) :
    Apart (Ccm.cbcMac (pick place) data first) (Ccm.cbcMac (pick place) data second) := by
  unfold Ccm.cbcMac
  induction blocks data with
  | zero => exact apart
  | succ count ih =>
    rw [range_succ, foldl_append, foldl_append]
    exact ih.absorb data count

end

theorem apart_last {front : List Octet} {last other : Octet} (different : last ≠ other)
    (start : Block) :
    Apart (Ccm.cbcMac (pick (Fin.ofNat 16 front.length)) (front ++ [last]) start)
      (Ccm.cbcMac (pick (Fin.ofNat 16 front.length)) (front ++ [other]) start) := by
  have count : ∀ octet, blocks (front ++ [octet]) = front.length / 16 + 1 := by
    intro octet
    unfold blocks
    rw [length_append]
    have one : [octet].length = 1 := rfl
    omega
  have before : ∀ octet, ∀ place < front.length / 16,
      block (front ++ [octet]) place = block front place := by
    intro octet place below
    funext index
    unfold block
    rw [getD_append _ _ _ _ (by omega)]
  have same : ∀ octet, ∀ count ≤ front.length / 16, ∀ start,
      (range count).foldl (Ccm.absorb (pick (Fin.ofNat 16 front.length))
        (front ++ [octet])) start =
      (range count).foldl (Ccm.absorb (pick (Fin.ofNat 16 front.length))
        front) start := by
    intro octet count below start
    apply foldl_ext
    intro chained place member
    unfold Ccm.absorb
    rw [before octet place (lt_of_lt_of_le (mem_range.mp member) below)]
  unfold Ccm.cbcMac
  rw [count, count, range_succ, foldl_append, foldl_append,
    same _ _ (le_refl _), same _ _ (le_refl _)]
  apply apart_pick
  intro equal
  have lasts := (xor_right_inj _).mp equal
  unfold block at lasts
  have place : 16 * (front.length / 16) + (Fin.ofNat 16 front.length).val =
      front.length := Nat.div_add_mod _ _
  rw [place] at lasts
  simp at lasts
  exact different lasts

end ZephyrBluetooth.Data.Ccm
