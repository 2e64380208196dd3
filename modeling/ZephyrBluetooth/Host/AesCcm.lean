import ZephyrBluetooth.Data.Ccm
import ZephyrBluetooth.Host.Bytes

namespace ZephyrBluetooth.Host

open BitVec Data.Ccm List

variable {msgLen micSize : Nat} {aad : List Byte}

/-! `aes_ccm.c`: the messages are in memory, the nonce and the key are arrays. -/

abbrev Mem := Nat → Byte

def Mem.bytes (mem : Mem) (start count : Nat) : List Byte :=
  (List.range count).map fun index => mem (start + index)

inductive CcmResult where
  | ok | einval | ebadmsg

section Code

variable (encrypt : Block → Block) (nonce : Fin 13 → Byte)

/-- The rounds over the additional data, from index `i` of `b` and `j` of the data
on. -/
def aadRounds (aad : List Byte) (aadLen i j : Nat) (b x : Block) : Block :=
  if 16 < aadLen then
    aadRounds aad (aadLen - 16) 0 (j + (16 - i))
      (fun k => if i ≤ k then x k ^^^ aad.getD (j + (k - i)) 0 else b k)
      (encrypt fun k => if i ≤ k then x k ^^^ aad.getD (j + (k - i)) 0 else b k)
  else
    encrypt fun k =>
      if aadLen ≤ k then x k
      else if i ≤ k then x k ^^^ aad.getD (j + (k - i)) 0
      else b k
termination_by aadLen

/-- Both lengths are `uint8_t` here. -/
def ccmCalculateX0 (aad : List Byte) (micSize msgLen : Nat) : Block :=
  let aadLen := aad.length % 2 ^ 8
  let flags := ((micSize - 2) / 2) <<< 3 ||| (if aadLen ≠ 0 then 1 else 0) <<< 6 ||| 1
  let b := header (BitVec.ofNat 8 flags) nonce (msgLen % 2 ^ 8)
  let x := encrypt b
  if aadLen ≠ 0 then
    aadRounds encrypt aad ((aadLen + 2) % 2 ^ 8) 2 0
      (fun k =>
        if k.val = 0 then x k ^^^ BitVec.ofNat 8 (aadLen / 256)
        else if k.val = 1 then x k ^^^ BitVec.ofNat 8 aadLen
        else b k) x
  else x

def lastBlk (msgLen : Nat) : Nat :=
  if msgLen % 16 = 0 then 16 else msgLen % 16

def ccmAuth (msg : Mem) (msgLen : Nat) (aad : List Byte) (micSize : Nat) : Block :=
  let blkCnt := (msgLen + 15) / 16 % 2 ^ 16
  xor16 (encrypt (header 1 nonce 0))
    ((List.range blkCnt).foldl (fun x j => encrypt fun i =>
        if j + 1 = blkCnt ∧ lastBlk msgLen ≤ i then x i else x i ^^^ msg (16 * j + i))
      (ccmCalculateX0 encrypt nonce aad micSize msgLen))

-- One name for the proof that every `Fin.ofNat 16` below carries.
local instance neZero_sixteen : NeZero 16 := inferInstance

/-- `read` is the message, or the output itself when that is written in place. -/
def ccmCrypt (read : Mem → Mem) (msgLen : Nat) (outMsg : Mem) : Mem :=
  let blkCnt := (msgLen + 15) / 16 % 2 ^ 16
  (List.range blkCnt).foldl
    (fun out j p =>
      let count := if j + 1 < blkCnt then 16 else lastBlk msgLen
      if 16 * j ≤ p ∧ p < 16 * j + count then
        read out p ^^^ encrypt (header 1 nonce (j + 1)) (Fin.ofNat 16 (p - 16 * j))
      else out p)
    outMsg

def btCcmDecrypt (inPlace : Bool) (encData : Mem) (len : Nat) (aad : List Byte)
    (plaintext : Mem) (micSize : Nat) : CcmResult × Mem :=
  if 0xff00 ≤ aad.length ∨ 16 < micSize then (.einval, plaintext)
  else
    let read := fun out => if inPlace then out else encData
    let out := ccmCrypt encrypt nonce read len
      (if inPlace then encData else plaintext)
    let mic := ccmAuth encrypt nonce out len aad micSize
    if ∀ index < micSize, mic (Fin.ofNat 16 index) = read out (len + index) then
      (.ok, out)
    else (.ebadmsg, out)

def btCcmEncrypt (inPlace : Bool) (plaintext : Mem) (len : Nat) (aad : List Byte)
    (encData : Mem) (micSize : Nat) : CcmResult × Mem :=
  if 0xff00 ≤ aad.length ∨ 16 < micSize then (.einval, encData)
  else
    let read := fun out => if inPlace then out else plaintext
    let mic := ccmAuth encrypt nonce (read encData) len aad micSize
    (.ok, ccmCrypt encrypt nonce read len fun p =>
      if len ≤ p ∧ p < len + micSize then mic (Fin.ofNat 16 (p - len)) else encData p)

end Code

structure CcmSizes where
  len : Nat
  aadLen : Nat
  micSize : Nat
  len_lt : len < 2 ^ 16
  aadLen_lt : aadLen < 0xff00
  mic : micSize ∈ [4, 6, 8, 10, 12, 14, 16]

def CcmEncrypts (sizes : CcmSizes) : Prop :=
  ∀ encrypt nonce (aad : List Byte), aad.length = sizes.aadLen →
    ∀ inPlace plaintext encData,
      (btCcmEncrypt encrypt nonce inPlace plaintext sizes.len aad encData
        sizes.micSize).1 = .ok ∧
      (btCcmEncrypt encrypt nonce inPlace plaintext sizes.len aad encData
        sizes.micSize).2.bytes 0 (sizes.len + sizes.micSize) =
      ccm encrypt nonce ((if inPlace then encData else plaintext).bytes 0 sizes.len)
        aad sizes.micSize

def CcmAccepts (sizes : CcmSizes) : Prop :=
  ∀ encrypt nonce (aad : List Byte), aad.length = sizes.aadLen →
    ∀ inPlace encData plaintext,
      (btCcmDecrypt encrypt nonce inPlace encData sizes.len aad plaintext
        sizes.micSize).1 = .ok ↔
      encData.bytes sizes.len sizes.micSize =
        mic encrypt nonce ((btCcmDecrypt encrypt nonce inPlace encData sizes.len aad
          plaintext sizes.micSize).2.bytes 0 sizes.len) aad sizes.len sizes.micSize

/-- What the functions do with any block function, for data of these sizes: the
output is that of the specification, decrypting it restores the message, and exactly
the code of the decrypted message is accepted. -/
structure MeetsCcm (sizes : CcmSizes) : Prop where
  encrypts : CcmEncrypts sizes
  restores : ∀ encrypt nonce (aad : List Byte), aad.length = sizes.aadLen →
    ∀ inPlace plaintext encData again out,
      let sent := (btCcmEncrypt encrypt nonce inPlace plaintext sizes.len aad encData
        sizes.micSize).2
      (btCcmDecrypt encrypt nonce again sent sizes.len aad out sizes.micSize).1 = .ok ∧
      (btCcmDecrypt encrypt nonce again sent sizes.len aad out
        sizes.micSize).2.bytes 0 sizes.len =
          (if inPlace then encData else plaintext).bytes 0 sizes.len
  accepts : CcmAccepts sizes

theorem Mem.bytes_getD (mem : Mem) (start count place : Nat) :
    (mem.bytes start count).getD place 0 =
      if place < count then mem (start + place) else 0 := by
  unfold Mem.bytes
  split
  · rename_i inside
    simp [inside]
  · rename_i outside
    rw [getD_eq_default _ _ (by simpa using outside)]

theorem Mem.bytes_length (mem : Mem) (start count : Nat) :
    (mem.bytes start count).length = count := by
  simp [Mem.bytes]

section Loops

variable (encrypt : Block → Block) (nonce : Fin 13 → Byte)

theorem authLoop_eq (msg : Mem) (small : msgLen < 2 ^ 16) (x : Block) :
    (range ((msgLen + 15) / 16 % 2 ^ 16)).foldl
      (fun x j => encrypt fun i =>
        if j + 1 = (msgLen + 15) / 16 % 2 ^ 16 ∧ lastBlk msgLen ≤ i then x i
        else x i ^^^ msg (16 * j + i)) x =
      cbcMac encrypt (msg.bytes 0 msgLen) x := by
  have count : (msgLen + 15) / 16 % 2 ^ 16 = blocks (msg.bytes 0 msgLen) := by
    unfold blocks
    rw [Mem.bytes_length]
    omega
  unfold cbcMac
  rw [count]
  apply foldl_ext
  intro x j member
  have below := mem_range.mp member
  unfold absorb
  congr 1
  funext i
  unfold xor16 block
  rw [Mem.bytes_getD, zero_add]
  unfold blocks lastBlk at *
  rw [Mem.bytes_length] at *
  have inside := i.isLt
  by_cases last : j + 1 = (msgLen + 15) / 16 ∧
      (if msgLen % 16 = 0 then 16 else msgLen % 16) ≤ i
  · rw [if_pos last, if_neg (by split at last <;> omega)]
    exact xor_zero.symm
  · rw [if_neg last, if_pos (by split at last <;> omega)]

theorem aadRounds_eq {aad : List Byte} (some : aad ≠ []) {aadLen i j place : Nat}
    {b x : Block} (index : j + 2 = 16 * place + i)
    (left : 16 * place + aadLen = aad.length + 2) (more : i ≤ aadLen) (low : i ≤ 16)
    (begun : 0 < aadLen) (front : ∀ k : Fin 16, k.val < i →
      b k = x k ^^^ (additional aad).getD (16 * place + k) 0) :
    aadRounds encrypt aad aadLen i j b x =
      (range' place (blocks (additional aad) - place)).foldl
        (absorb encrypt (additional aad)) x := by
  have data : additional aad =
      BitVec.ofNat 8 (aad.length / 256) :: BitVec.ofNat 8 aad.length :: aad :=
    if_neg some
  have count : blocks (additional aad) = (aad.length + 17) / 16 := by
    rw [data]
    rfl
  induction aadLen using Nat.strongRecOn generalizing i j place b x with
  | ind aadLen ih =>
    have filled : ∀ k : Fin 16,
        (if i ≤ k then x k ^^^ aad.getD (j + (k - i)) 0 else b k) =
          xor16 x (block (additional aad) place) k := by
      intro k
      unfold xor16 block
      split
      · have shifted : 16 * place + k.val = (j + (k - i)) + 1 + 1 := by omega
        rw [shifted, data]
        rfl
      · exact front k (by omega)
    unfold aadRounds
    split
    · have next : blocks (additional aad) - place =
          (blocks (additional aad) - (place + 1)) + 1 := by omega
      have later := @ih (aadLen - 16) (by omega) 0 (j + (16 - i)) (place + 1)
        (fun k => if i ≤ k then x k ^^^ aad.getD (j + (k - i)) 0 else b k)
        (absorb encrypt (additional aad) x place) (by omega) (by omega)
        (Nat.zero_le _) (Nat.zero_le _) (by omega) nofun
      rw [next, range'_succ, foldl_cons, ← later]
      unfold absorb
      rw [← funext filled]
    · have one : blocks (additional aad) - place = 1 := by omega
      rw [one]
      change _ = absorb encrypt (additional aad) x place
      unfold absorb
      congr 1
      funext k
      split
      · rename_i beyond
        unfold xor16 block
        rw [getD_eq_default]
        · exact xor_zero.symm
        · rw [data, length_cons, length_cons]
          omega
      · exact filled k

theorem ccmCalculateX0_eq (small : aad.length < 254)
    (sized : micSize ∈ [4, 6, 8, 10, 12, 14, 16]) (msgLen : Nat) :
    ccmCalculateX0 encrypt nonce aad micSize msgLen =
      cbcMac encrypt (additional aad)
        (encrypt (header (flags aad micSize) nonce (msgLen % 2 ^ 8))) := by
  have bits : ∀ size ∈ [4, 6, 8, 10, 12, 14, 16], ∀ extra < 2,
      BitVec.ofNat 8 (((size - 2) / 2) <<< 3 ||| extra <<< 6 ||| 1) =
        BitVec.ofNat 8 (64 * extra + 8 * ((size - 2) / 2) + 1) := by decide
  have whole : aad.length % 2 ^ 8 = aad.length := Nat.mod_eq_of_lt (by omega)
  unfold ccmCalculateX0 flags
  simp only [whole]
  by_cases none : aad = []
  · have zero : ¬aad.length ≠ 0 := by
      rw [none]
      decide
    rw [if_neg zero, if_neg zero, if_pos none, bits _ sized 0 (by decide), none]
    rfl
  · have some : aad.length ≠ 0 := fun zero => none (length_eq_zero_iff.mp zero)
    rw [if_pos some, if_pos some, if_neg none, bits _ sized 1 (by decide),
      Nat.mod_eq_of_lt (by omega),
      @aadRounds_eq _ _ none _ _ _ 0 _ _ rfl (zero_add _) (by omega) (by decide)
        (by omega)]
    · unfold cbcMac
      rw [range_eq_range']
      rfl
    · intro k low
      have data : additional aad =
          BitVec.ofNat 8 (aad.length / 256) :: BitVec.ofNat 8 aad.length :: aad :=
        if_neg none
      obtain zero | one : k.val = 0 ∨ k.val = 1 := by omega
      · rw [if_pos zero, zero, data]
        rfl
      · rw [if_neg (by omega), if_pos one, one, data]
        rfl

theorem ccmAuth_eq (msg : Mem) (fits : msgLen < 2 ^ 16) (small : aad.length < 254)
    (sized : micSize ∈ [4, 6, 8, 10, 12, 14, 16]) :
    ccmAuth encrypt nonce msg msgLen aad micSize = xor16 (stream encrypt nonce 0)
        (tag encrypt nonce (msg.bytes 0 msgLen) aad (msgLen % 2 ^ 8) micSize) := by
  unfold ccmAuth tag
  rw [← ccmCalculateX0_eq encrypt nonce small sized, ← authLoop_eq encrypt msg fits]
  rfl

/-- The octets behind the block are as they were, so that the output may be the
message. -/
theorem ccmCrypt_eq (inPlace : Bool) (source : Mem) (fits : msgLen < 2 ^ 16)
    (outMsg : Mem) (p : Nat) :
    ccmCrypt encrypt nonce (fun out => if inPlace then out else source) msgLen outMsg p =
      if p < msgLen then
        (if inPlace then outMsg else source) p ^^^
          stream encrypt nonce (p / 16 + 1) (Fin.ofNat 16 p)
      else outMsg p := by
  have partly : ∀ count ≤ (msgLen + 15) / 16, ∀ p, (range count).foldl
        (fun out j p =>
          if 16 * j ≤ p ∧ p < 16 * j +
              (if j + 1 < (msgLen + 15) / 16 then 16 else lastBlk msgLen) then
            (if inPlace then out else source) p ^^^
              encrypt (header 1 nonce (j + 1)) (Fin.ofNat 16 (p - 16 * j))
          else out p) outMsg p =
      if p < 16 * count ∧ p < msgLen then
        (if inPlace then outMsg else source) p ^^^
          stream encrypt nonce (p / 16 + 1) (Fin.ofNat 16 p)
      else outMsg p := by
    intro count below
    induction count with
    | zero =>
      intro p
      rw [if_neg (by omega)]
      rfl
    | succ count ih =>
      intro p
      have before := ih (by omega) p
      rw [range_succ, foldl_append, foldl_cons, foldl_nil]
      have last : 16 * count +
          (if count + 1 < (msgLen + 15) / 16 then 16 else lastBlk msgLen) =
          min (16 * (count + 1)) msgLen := by
        unfold lastBlk
        by_cases more : count + 1 < (msgLen + 15) / 16
        · rw [if_pos more]
          omega
        · rw [if_neg more]
          split <;> omega
      rw [last]
      by_cases here : 16 * count ≤ p ∧ p < min (16 * (count + 1)) msgLen
      · have place : p / 16 = count := by omega
        have index : Fin.ofNat 16 (p - 16 * count) = Fin.ofNat 16 p := by
          apply Fin.ext
          change (p - 16 * count) % 16 = p % 16
          omega
        have inside : p < 16 * (count + 1) ∧ p < msgLen := by omega
        have outside : ¬(p < 16 * count ∧ p < msgLen) := by omega
        rw [if_neg outside] at before
        rw [if_pos here, if_pos inside, place, index]
        cases inPlace with
        | true => exact congrArg (· ^^^ _) before
        | false => rfl
      · rw [if_neg here, before]
        by_cases earlier : p < 16 * count ∧ p < msgLen
        · have inside : p < 16 * (count + 1) ∧ p < msgLen := by omega
          rw [if_pos earlier, if_pos inside]
        · have outside : ¬(p < 16 * (count + 1) ∧ p < msgLen) := by omega
          rw [if_neg earlier, if_neg outside]
  unfold ccmCrypt
  have count : (msgLen + 15) / 16 % 2 ^ 16 = (msgLen + 15) / 16 := by omega
  have whole := partly _ (le_refl _) p
  simp only [count]
  have all : (p < 16 * ((msgLen + 15) / 16) ∧ p < msgLen) = (p < msgLen) := by
    apply propext
    omega
  simp only [all] at whole
  exact whole

theorem Mem.bytes_add (mem : Mem) (first second : Nat) :
    mem.bytes 0 (first + second) = mem.bytes 0 first ++ mem.bytes first second := by
  unfold Mem.bytes
  rw [range_add, map_append, map_map]
  simp [Function.comp_def]

theorem Mem.bytes_congr {mem other : Mem} {start count : Nat}
    (same : ∀ index < count, mem (start + index) = other (start + index)) :
    mem.bytes start count = other.bytes start count :=
  map_congr_left fun index member => same index (mem_range.mp member)

section

variable (inPlace : Bool)
include inPlace

theorem ccmCrypt_bytes (source : Mem) (fits : msgLen < 2 ^ 16) (outMsg : Mem) :
    (ccmCrypt encrypt nonce (fun out => if inPlace then out else source) msgLen
      outMsg).bytes 0 msgLen =
      crypt encrypt nonce ((if inPlace then outMsg else source).bytes 0 msgLen) := by
  unfold crypt Mem.bytes
  apply ext_getElem
  · simp
  · intro p below inside
    have small : p < msgLen := by simpa using below
    simp only [getElem_map, getElem_range, getElem_mapIdx, zero_add]
    rw [ccmCrypt_eq encrypt nonce inPlace source fits, if_pos small]

theorem ccmCrypt_behind (source : Mem) (fits : msgLen < 2 ^ 16)
    (outMsg : Mem) (count : Nat) :
    (ccmCrypt encrypt nonce (fun out => if inPlace then out else source) msgLen
      outMsg).bytes msgLen count = outMsg.bytes msgLen count := by
  apply Mem.bytes_congr
  intro index below
  rw [ccmCrypt_eq encrypt nonce inPlace source fits, if_neg (by omega)]

theorem btCcmEncrypt_bytes (plaintext encData : Mem) {len : Nat}
    (fits : len < 2 ^ 16) (short : aad.length < 0xff00) (sized : micSize ≤ 16) :
    (btCcmEncrypt encrypt nonce inPlace plaintext len aad encData micSize).1 = .ok ∧
    (btCcmEncrypt encrypt nonce inPlace plaintext len aad encData micSize).2.bytes 0
        (len + micSize) =
      crypt encrypt nonce ((if inPlace then encData else plaintext).bytes 0 len) ++
        (range micSize).map fun index =>
          ccmAuth encrypt nonce (if inPlace then encData else plaintext) len aad micSize
            (Fin.ofNat 16 index) := by
  have allowed : ¬(0xff00 ≤ aad.length ∨ 16 < micSize) := by omega
  unfold btCcmEncrypt
  rw [if_neg allowed]
  refine ⟨rfl, ?_⟩
  dsimp only
  rw [Mem.bytes_add, ccmCrypt_bytes _ _ _ _ fits, ccmCrypt_behind _ _ _ _ fits]
  congr 1
  · congr 1
    cases inPlace with
    | true =>
      apply Mem.bytes_congr
      intro index below
      exact if_neg (by omega)
    | false => rfl
  · unfold Mem.bytes
    apply map_congr_left
    intro index member
    have below := mem_range.mp member
    have inside : len ≤ len + index ∧ len + index < len + micSize := by omega
    dsimp only
    rw [if_pos inside, Nat.add_sub_cancel_left]

theorem btCcmDecrypt_bytes (encData plaintext : Mem) {len : Nat}
    (fits : len < 2 ^ 16) (short : aad.length < 0xff00) (sized : micSize ≤ 16) :
    ∃ out : Mem, (btCcmDecrypt encrypt nonce inPlace encData len aad plaintext
        micSize).2 = out ∧
      out.bytes 0 len = crypt encrypt nonce (encData.bytes 0 len) ∧
      ((btCcmDecrypt encrypt nonce inPlace encData len aad plaintext micSize).1 = .ok ↔
        encData.bytes len micSize = (range micSize).map fun index =>
          ccmAuth encrypt nonce out len aad micSize (Fin.ofNat 16 index)) := by
  have allowed : ¬(0xff00 ≤ aad.length ∨ 16 < micSize) := by omega
  refine ⟨ccmCrypt encrypt nonce (fun out => if inPlace then out else encData) len
    (if inPlace then encData else plaintext), ?_, ?_, ?_⟩
  · unfold btCcmDecrypt
    rw [if_neg allowed]
    dsimp only
    rw [apply_ite Prod.snd, ite_self]
  · rw [ccmCrypt_bytes _ _ _ _ fits]
    cases inPlace <;> rfl
  · have behind : ∀ index, (if inPlace then ccmCrypt encrypt nonce
          (fun out => if inPlace then out else encData) len
          (if inPlace then encData else plaintext) else encData) (len + index) =
          encData (len + index) := by
      intro index
      cases inPlace with
      | true =>
        exact (ccmCrypt_eq encrypt nonce true encData fits encData _).trans
          (if_neg (by omega))
      | false => rfl
    unfold btCcmDecrypt Mem.bytes
    rw [if_neg allowed, map_inj_left]
    simp only [behind, mem_range]
    constructor
    · intro accepted index below
      by_contra differs
      rw [if_neg fun same => differs (same index below).symm] at accepted
      cases accepted
    · intro same
      rw [if_pos fun index below => (same index below).symm]

end

theorem mic_mem (sized : micSize ∈ [4, 6, 8, 10, 12, 14, 16]) :
    0 < micSize ∧ micSize ≤ 16 := by
  revert micSize
  decide

variable {encrypt nonce}

theorem tag_of_mic (positive : 0 < micSize) {mask tag other : Block}
    (same : ((range micSize).map fun index => xor16 mask tag (Fin.ofNat 16 index)) =
      (range micSize).map fun index => xor16 mask other (Fin.ofNat 16 index)) :
    tag 0 = other 0 := by
  obtain ⟨_, rfl⟩ := Nat.exists_eq_add_of_lt positive
  have head := congrArg head? same
  rw [zero_add, range_succ_eq_map] at head
  exact (xor_right_inj _).mp (Option.some.inj head)

theorem aadRounds_congr {other : List Byte} {aadLen i j : Nat} {b x : Block}
    (low : i ≤ 16) (same : ∀ p < j + (aadLen - i), aad.getD p 0 = other.getD p 0) :
    aadRounds encrypt aad aadLen i j b x = aadRounds encrypt other aadLen i j b x := by
  induction aadLen using Nat.strongRecOn generalizing i j b x with
  | ind aadLen ih =>
    unfold aadRounds
    split
    · have read : (fun k : Fin 16 =>
          if i ≤ k then x k ^^^ aad.getD (j + (k - i)) 0 else b k) =
          fun k : Fin 16 => if i ≤ k then x k ^^^ other.getD (j + (k - i)) 0 else b k := by
        funext k
        split
        · rw [same _ (by omega)]
        · rfl
      rw [read]
      exact ih _ (by omega) (Nat.zero_le _) fun p below => same p (by omega)
    · congr 1
      funext k
      split
      · rfl
      split
      · rw [same _ (by omega)]
      · rfl

theorem ccmAuth_last {front : List Byte} (long : 253 ≤ front.length)
    (last other : Byte) (msg : Mem) (msgLen micSize : Nat) :
    ccmAuth encrypt nonce msg msgLen (front ++ [last]) micSize =
      ccmAuth encrypt nonce msg msgLen (front ++ [other]) micSize := by
  have lengths : ∀ octet : Byte, (front ++ [octet]).length = front.length + 1 :=
    fun octet => length_append
  have start : ccmCalculateX0 encrypt nonce (front ++ [last]) micSize msgLen =
      ccmCalculateX0 encrypt nonce (front ++ [other]) micSize msgLen := by
    unfold ccmCalculateX0
    simp only [lengths]
    split
    · refine aadRounds_congr (by decide) fun p below => ?_
      have inside : p < front.length := by omega
      rw [getD_append _ _ _ _ inside, getD_append _ _ _ _ inside]
    · rfl
  unfold ccmAuth
  rw [start]

end Loops

theorem bounded (sizes : CcmSizes) (meets : MeetsCcm sizes) :
    sizes.len < 256 ∧ sizes.aadLen < 254 := by
  obtain ⟨positive, sized⟩ := mic_mem sizes.mic
  have outputs : ∀ encrypt nonce (aad : List Byte), aad.length = sizes.aadLen →
      ((List.range sizes.micSize).map fun index =>
        ccmAuth encrypt nonce (fun _ => 0) sizes.len aad sizes.micSize
          (Fin.ofNat 16 index)) =
      mic encrypt nonce (Mem.bytes (fun _ => 0) 0 sizes.len) aad sizes.len
        sizes.micSize := by
    intro encrypt nonce aad length
    have output := (meets.encrypts encrypt nonce aad length false (fun _ => 0)
      fun _ => 0).2
    rw [(btCcmEncrypt_bytes encrypt nonce false _ _ sizes.len_lt
      (length ▸ sizes.aadLen_lt) sized).2] at output
    unfold ccm at output
    rw [Mem.bytes_length] at output
    exact (append_inj output rfl).2
  have short : sizes.aadLen < 254 := by
    by_contra long
    obtain ⟨count, same⟩ : ∃ count, sizes.aadLen = count + 1 :=
      ⟨sizes.aadLen - 1, by omega⟩
    have front : (List.replicate count (0 : Byte)).length = count := length_replicate
    have length : ∀ octet, (List.replicate count (0 : Byte) ++ [octet]).length =
        sizes.aadLen := by
      intro octet
      rw [length_append, front, same]
      rfl
    have some : ∀ octet, List.replicate count (0 : Byte) ++ [octet] ≠ [] :=
      fun octet => append_ne_nil_of_right_ne_nil _ (cons_ne_nil _ _)
    have data : ∀ octet, additional (List.replicate count (0 : Byte) ++ [octet]) =
        (BitVec.ofNat 8 (sizes.aadLen / 256) :: BitVec.ofNat 8 sizes.aadLen ::
          List.replicate count (0 : Byte)) ++ [octet] := by
      intro octet
      unfold additional
      rw [if_neg (some octet), length]
      rfl
    have flag : flags (List.replicate count (0 : Byte) ++ [0]) sizes.micSize =
        flags (List.replicate count (0 : Byte) ++ [1]) sizes.micSize := by
      unfold flags
      rw [if_neg (some _), if_neg (some _)]
    have zero := outputs (pick (Fin.ofNat 16 (BitVec.ofNat 8 (sizes.aadLen / 256) ::
      BitVec.ofNat 8 sizes.aadLen :: List.replicate count (0 : Byte)).length))
      (fun _ => 0) _ (length 0)
    have one := outputs (pick (Fin.ofNat 16 (BitVec.ofNat 8 (sizes.aadLen / 256) ::
      BitVec.ofNat 8 sizes.aadLen :: List.replicate count (0 : Byte)).length))
      (fun _ => 0) _ (length 1)
    rw [ccmAuth_last (by omega) 0 1, one] at zero
    refine Apart.ne ?_ 0 (tag_of_mic positive zero)
    unfold tag
    rw [data, data, flag]
    exact (apart_last (by decide) _).cbcMac _
  refine ⟨?_, short⟩
  by_contra long
  have length : (List.replicate sizes.aadLen (0 : Byte)).length = sizes.aadLen :=
    length_replicate
  have output := outputs (pick 14) (fun _ => 0) _ length
  simp only [ccmAuth_eq (pick 14) (fun _ => 0) (fun _ => 0) sizes.len_lt
    (length ▸ short) sizes.mic] at output
  have tags := tag_of_mic positive output
  refine Apart.ne ?_ 0 tags
  unfold tag
  refine Apart.cbcMac (Apart.cbcMac (apart_pick ?_) _) _
  change BitVec.ofNat 8 (sizes.len % 2 ^ 8 / 256) ≠ BitVec.ofNat 8 (sizes.len / 256)
  intro equal
  have numbers := congrArg BitVec.toNat equal
  have small := sizes.len_lt
  rw [BitVec.toNat_ofNat, BitVec.toNat_ofNat] at numbers
  omega

theorem meetsCcm_iff (sizes : CcmSizes) :
    MeetsCcm sizes ↔ sizes.len < 256 ∧ sizes.aadLen < 254 := by
  refine ⟨bounded sizes, ?_⟩
  rintro ⟨len, aadLen⟩
  obtain ⟨-, sized⟩ := mic_mem sizes.mic
  have auth : ∀ encrypt nonce (aad : List Byte), aad.length = sizes.aadLen →
      ∀ msg : Mem, ((range sizes.micSize).map fun index =>
        ccmAuth encrypt nonce msg sizes.len aad sizes.micSize (Fin.ofNat 16 index)) =
      mic encrypt nonce (msg.bytes 0 sizes.len) aad sizes.len sizes.micSize := by
    intro encrypt nonce aad length msg
    rw [ccmAuth_eq encrypt nonce msg sizes.len_lt (length ▸ aadLen) sizes.mic,
      show sizes.len % 2 ^ 8 = sizes.len from Nat.mod_eq_of_lt len]
    rfl
  have encrypts : CcmEncrypts sizes := by
    intro encrypt nonce aad length inPlace plaintext encData
    have output := btCcmEncrypt_bytes encrypt nonce inPlace plaintext encData
      sizes.len_lt (length ▸ sizes.aadLen_lt) sized
    refine ⟨output.1, ?_⟩
    rw [output.2, auth _ _ _ length]
    unfold ccm
    rw [Mem.bytes_length]
  have accepts : CcmAccepts sizes := by
    intro encrypt nonce aad length inPlace encData plaintext
    obtain ⟨out, same, -, accepted⟩ := btCcmDecrypt_bytes encrypt nonce inPlace encData
      plaintext sizes.len_lt (length ▸ sizes.aadLen_lt) sized
    rw [accepted, auth _ _ _ length, same]
  refine ⟨encrypts, ?_, accepts⟩
  intro encrypt nonce aad length inPlace plaintext encData again out
  have sent := (encrypts encrypt nonce aad length inPlace plaintext encData).2
  unfold ccm at sent
  rw [Mem.bytes_add] at sent
  obtain ⟨cipher, code⟩ := append_inj sent (by
    rw [crypt_length, Mem.bytes_length, Mem.bytes_length])
  obtain ⟨_, same, plain, -⟩ := btCcmDecrypt_bytes encrypt nonce again
    (btCcmEncrypt encrypt nonce inPlace plaintext sizes.len aad encData sizes.micSize).2
    out sizes.len_lt (length ▸ sizes.aadLen_lt) sized
  rw [cipher, crypt_crypt] at plain
  dsimp only
  rw [accepts encrypt nonce aad length, same, plain, code, Mem.bytes_length]
  exact ⟨rfl, rfl⟩

theorem ccm_long_message : ¬∀ sizes, MeetsCcm sizes := by
  intro meets
  have bounds := bounded ⟨256, 0, 4, by decide, by decide, by decide⟩ (meets _)
  exact absurd bounds.1 (by decide)

end ZephyrBluetooth.Host
