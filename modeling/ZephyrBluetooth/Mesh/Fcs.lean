import ZephyrBluetooth.Mesh.Basic

namespace ZephyrBluetooth.Mesh

def crcTable : List Byte :=
  [0x00, 0x91, 0xe3, 0x72, 0x07, 0x96, 0xe4, 0x75,
    0x0e, 0x9f, 0xed, 0x7c, 0x09, 0x98, 0xea, 0x7b,
    0x1c, 0x8d, 0xff, 0x6e, 0x1b, 0x8a, 0xf8, 0x69,
    0x12, 0x83, 0xf1, 0x60, 0x15, 0x84, 0xf6, 0x67,
    0x38, 0xa9, 0xdb, 0x4a, 0x3f, 0xae, 0xdc, 0x4d,
    0x36, 0xa7, 0xd5, 0x44, 0x31, 0xa0, 0xd2, 0x43,
    0x24, 0xb5, 0xc7, 0x56, 0x23, 0xb2, 0xc0, 0x51,
    0x2a, 0xbb, 0xc9, 0x58, 0x2d, 0xbc, 0xce, 0x5f,
    0x70, 0xe1, 0x93, 0x02, 0x77, 0xe6, 0x94, 0x05,
    0x7e, 0xef, 0x9d, 0x0c, 0x79, 0xe8, 0x9a, 0x0b,
    0x6c, 0xfd, 0x8f, 0x1e, 0x6b, 0xfa, 0x88, 0x19,
    0x62, 0xf3, 0x81, 0x10, 0x65, 0xf4, 0x86, 0x17,
    0x48, 0xd9, 0xab, 0x3a, 0x4f, 0xde, 0xac, 0x3d,
    0x46, 0xd7, 0xa5, 0x34, 0x41, 0xd0, 0xa2, 0x33,
    0x54, 0xc5, 0xb7, 0x26, 0x53, 0xc2, 0xb0, 0x21,
    0x5a, 0xcb, 0xb9, 0x28, 0x5d, 0xcc, 0xbe, 0x2f,
    0xe0, 0x71, 0x03, 0x92, 0xe7, 0x76, 0x04, 0x95,
    0xee, 0x7f, 0x0d, 0x9c, 0xe9, 0x78, 0x0a, 0x9b,
    0xfc, 0x6d, 0x1f, 0x8e, 0xfb, 0x6a, 0x18, 0x89,
    0xf2, 0x63, 0x11, 0x80, 0xf5, 0x64, 0x16, 0x87,
    0xd8, 0x49, 0x3b, 0xaa, 0xdf, 0x4e, 0x3c, 0xad,
    0xd6, 0x47, 0x35, 0xa4, 0xd1, 0x40, 0x32, 0xa3,
    0xc4, 0x55, 0x27, 0xb6, 0xc3, 0x52, 0x20, 0xb1,
    0xca, 0x5b, 0x29, 0xb8, 0xcd, 0x5c, 0x2e, 0xbf,
    0x90, 0x01, 0x73, 0xe2, 0x97, 0x06, 0x74, 0xe5,
    0x9e, 0x0f, 0x7d, 0xec, 0x99, 0x08, 0x7a, 0xeb,
    0x8c, 0x1d, 0x6f, 0xfe, 0x8b, 0x1a, 0x68, 0xf9,
    0x82, 0x13, 0x61, 0xf0, 0x85, 0x14, 0x66, 0xf7,
    0xa8, 0x39, 0x4b, 0xda, 0xaf, 0x3e, 0x4c, 0xdd,
    0xa6, 0x37, 0x45, 0xd4, 0xa1, 0x30, 0x42, 0xd3,
    0xb4, 0x25, 0x57, 0xc6, 0xb3, 0x22, 0x50, 0xc1,
    0xba, 0x2b, 0x59, 0xc8, 0xbd, 0x2c, 0x5e, 0xcf]

def crcStep (fcs byte : Byte) : Byte :=
  crcTable.getD (fcs ^^^ byte).toNat 0

def fcsFold (data : List Byte) : Byte :=
  data.foldl crcStep 0xff

/-- `bt_mesh_fcs_calc` of all octets, of which there are less than 256. -/
def fcsCalc (data : List Byte) : Byte :=
  0xff - fcsFold data

/-- `bt_mesh_fcs_calc` with its `uint8_t data_len`. -/
def fcsCalcSized (data : List Byte) (dataLen : BitVec 8) : Byte :=
  fcsCalc (data.take dataLen.toNat)

def fcsCheck (data : List Byte) (receivedFcs : Byte) : Bool :=
  crcStep (fcsFold data) receivedFcs == 0xcf

theorem xor_complement (value : Byte) : value ^^^ (0xff - value) = 0xff := by
  revert value
  decide

theorem fcsCheck_fcsCalc (msg : List Byte) : fcsCheck msg (fcsCalc msg) = true := by
  rw [fcsCheck, crcStep, fcsCalc, xor_complement]
  rfl

/-! The same sum bit by bit: the polynomial 0x07 with the lowest bit first. -/

def crcBit (crc : Byte) : Byte :=
  if crc.getLsbD 0 then (crc >>> 1) ^^^ (0x07 : Byte).reverse else crc >>> 1

def crcByte (crc byte : Byte) : Byte :=
  Nat.repeat crcBit 8 (crc ^^^ byte)

def reflectedCrc8 (data : List Byte) : Byte :=
  ~~~(data.foldl crcByte 0xff)

theorem crcTable_entry : ∀ value : Byte,
    crcTable.getD value.toNat 0 = Nat.repeat crcBit 8 value := by decide

theorem crcTable_residue : ∀ value : Byte,
    crcTable.getD value.toNat 0 = 0xcf ↔ value = 0xff := by decide

theorem crcStep_eq (crc byte : Byte) : crcStep crc byte = crcByte crc byte :=
  crcTable_entry (crc ^^^ byte)

theorem fcsFold_eq (data : List Byte) : fcsFold data = data.foldl crcByte 0xff := by
  have steps : crcStep = crcByte := by
    funext crc byte
    exact crcStep_eq crc byte
  rw [fcsFold, steps]

theorem fcsCalc_eq (data : List Byte) : fcsCalc data = reflectedCrc8 data := by
  have complement : ∀ value : Byte, 0xff - value = ~~~value := by decide
  rw [fcsCalc, reflectedCrc8, complement, fcsFold_eq]

theorem fcsCheck_iff (data : List Byte) (receivedFcs : Byte) :
    fcsCheck data receivedFcs = true ↔ receivedFcs = fcsCalc data := by
  rw [fcsCheck, beq_iff_eq, crcStep, crcTable_residue, fcsCalc]
  constructor
  · intro whole
    rw [← xor_complement (fcsFold data)] at whole
    exact (BitVec.xor_right_inj _).mp whole
  · intro same
    rw [same, xor_complement]

theorem fcs_exact (data : List Byte) (receivedFcs : Byte) :
    (fcsCheck data receivedFcs = true ↔ receivedFcs = fcsCalc data) ∧
      fcsCalc data = reflectedCrc8 data :=
  ⟨fcsCheck_iff data receivedFcs, fcsCalc_eq data⟩

def crcUnbit (crc : Byte) : Byte :=
  if crc.getLsbD 7 then ((crc ^^^ (0x07 : Byte).reverse) <<< 1) ||| 1 else crc <<< 1

theorem crcBit_injective : Function.Injective crcBit :=
  Function.LeftInverse.injective (show ∀ crc, crcUnbit (crcBit crc) = crc by decide)

theorem crcTable_injective {left right : Byte}
    (same : crcTable.getD left.toNat 0 = crcTable.getD right.toNat 0) : left = right := by
  rw [crcTable_entry, crcTable_entry] at same
  have peeled : ∀ bits, Nat.repeat crcBit bits left = Nat.repeat crcBit bits right →
      left = right := by
    intro bits
    induction bits with
    | zero => exact id
    | succ bits ih => exact fun shifted => ih (crcBit_injective shifted)
  exact peeled 8 same

theorem foldl_crcStep_injective (data : List Byte) {left right : Byte}
    (same : data.foldl crcStep left = data.foldl crcStep right) : left = right := by
  induction data generalizing left right with
  | nil => exact same
  | cons byte rest ih =>
    have stepped := crcTable_injective (ih same)
    exact (BitVec.xor_left_inj byte).mp stepped

theorem fcsCalcSized_eq {data : List Byte} (short : data.length < 256) :
    fcsCalcSized data (BitVec.ofNat 8 data.length) = fcsCalc data := by
  rw [fcsCalcSized, BitVec.toNat_ofNat, Nat.mod_eq_of_lt short, List.take_length]

/-- Octets that differ in one place never have the same checksum, so that a
corrupted octet of a provisioning PDU fails the check. -/
theorem fcsCheck_corrupted (front back : List Byte) {sent received : Byte}
    (short : (front ++ sent :: back).length < 256) (corrupted : received ≠ sent) :
    fcsCheck (front ++ received :: back)
        (fcsCalcSized (front ++ sent :: back)
          (BitVec.ofNat 8 (front ++ sent :: back).length)) =
      false := by
  rw [fcsCalcSized_eq short, ← Bool.not_eq_true, fcsCheck_iff, fcsCalc, fcsCalc]
  intro same
  have whole := xor_complement (fcsFold (front ++ sent :: back))
  rw [same] at whole
  have folds := (BitVec.xor_left_inj _).mp (whole.trans (xor_complement _).symm)
  unfold fcsFold at folds
  rw [List.foldl_append, List.foldl_append, List.foldl_cons, List.foldl_cons] at folds
  have stepped := crcTable_injective (foldl_crcStep_injective back folds)
  exact corrupted ((BitVec.xor_right_inj _).mp stepped).symm

theorem fcsCheck_corrupted_invite :
    fcsCheck ([0x00] ++ 0x05 :: []) (fcsCalcSized ([0x00] ++ 0x04 :: []) 2) = false :=
  fcsCheck_corrupted [0x00] [] (by decide) (by decide)

end ZephyrBluetooth.Mesh
