import ZephyrBluetooth.Host.Bytes

namespace ZephyrBluetooth.Host

inductive AttOp where
  | errorRsp | mtuReq | mtuRsp | findInfoReq | findInfoRsp | findTypeReq
  | findTypeRsp | readTypeReq | readTypeRsp | readReq | readRsp | readBlobReq
  | readBlobRsp | readMultReq | readMultRsp | readGroupReq | readGroupRsp
  | writeReq | writeRsp | prepareWriteReq | prepareWriteRsp | execWriteReq
  | execWriteRsp | notify | indicate | confirm | readMultVlReq | readMultVlRsp
  | notifyMult | writeCmd | signedWriteCmd
  deriving DecidableEq

namespace AttOp

def code : AttOp → Byte
  | errorRsp => 0x01
  | mtuReq => 0x02
  | mtuRsp => 0x03
  | findInfoReq => 0x04
  | findInfoRsp => 0x05
  | findTypeReq => 0x06
  | findTypeRsp => 0x07
  | readTypeReq => 0x08
  | readTypeRsp => 0x09
  | readReq => 0x0a
  | readRsp => 0x0b
  | readBlobReq => 0x0c
  | readBlobRsp => 0x0d
  | readMultReq => 0x0e
  | readMultRsp => 0x0f
  | readGroupReq => 0x10
  | readGroupRsp => 0x11
  | writeReq => 0x12
  | writeRsp => 0x13
  | prepareWriteReq => 0x16
  | prepareWriteRsp => 0x17
  | execWriteReq => 0x18
  | execWriteRsp => 0x19
  | notify => 0x1b
  | indicate => 0x1d
  | confirm => 0x1e
  | readMultVlReq => 0x20
  | readMultVlRsp => 0x21
  | notifyMult => 0x23
  | writeCmd => 0x52
  | signedWriteCmd => 0xd2

def all : List AttOp :=
  [errorRsp, mtuReq, mtuRsp, findInfoReq, findInfoRsp, findTypeReq,
    findTypeRsp, readTypeReq, readTypeRsp, readReq, readRsp, readBlobReq,
    readBlobRsp, readMultReq, readMultRsp, readGroupReq, readGroupRsp,
    writeReq, writeRsp, prepareWriteReq, prepareWriteRsp, execWriteReq,
    execWriteRsp, notify, indicate, confirm, readMultVlReq, readMultVlRsp,
    notifyMult, writeCmd, signedWriteCmd]

def ofCode (code : Byte) : Option AttOp :=
  all.find? fun op => decide (op.code = code)

def answer : AttOp → Option AttOp
  | mtuReq => some mtuRsp
  | findInfoReq => some findInfoRsp
  | findTypeReq => some findTypeRsp
  | readTypeReq => some readTypeRsp
  | readReq => some readRsp
  | readBlobReq => some readBlobRsp
  | readMultReq => some readMultRsp
  | readMultVlReq => some readMultVlRsp
  | readGroupReq => some readGroupRsp
  | writeReq => some writeRsp
  | prepareWriteReq => some prepareWriteRsp
  | execWriteReq => some execWriteRsp
  | indicate => some confirm
  | _ => none

end AttOp

inductive AttType where
  | command
  | request
  | response
  | notification
  | confirmation
  | indication
  | unknown
  deriving DecidableEq

/-- The opcodes that `att_op_get_type` lists. -/
def AttOp.listedType : AttOp → Option AttType
  | mtuReq | findInfoReq | findTypeReq | readTypeReq | readReq | readBlobReq
  | readMultReq | readGroupReq | writeReq | prepareWriteReq
  | execWriteReq => some .request
  | confirm => some .confirmation
  | writeCmd | signedWriteCmd => some .command
  | errorRsp | mtuRsp | findInfoRsp | findTypeRsp | readTypeRsp | readRsp
  | readBlobRsp | readMultRsp | readGroupRsp | writeRsp | prepareWriteRsp
  | execWriteRsp => some .response
  | notify => some .notification
  | indicate => some .indication
  | readMultVlReq | readMultVlRsp | notifyMult => none

def attOpGetType (code : Byte) : AttType :=
  match (AttOp.ofCode code).bind AttOp.listedType with
  | some type => type
  | none => if code &&& 0x40 ≠ 0 then .command else .unknown

/-- The configuration: `CONFIG_BT_GATT_CLIENT`, `CONFIG_BT_GATT_READ_MULTIPLE`,
`CONFIG_BT_EATT`, `CONFIG_BT_SIGNING`, `CONFIG_BT_SMP` and
`CONFIG_BT_ATT_ENFORCE_FLOW`. -/
structure AttFlags where
  client : Bool
  readMultiple : Bool
  eatt : Bool
  signing : Bool
  smp : Bool
  enforceFlow : Bool

structure AttHandler where
  expectLen : Nat
  type : AttType

/-- The table `handlers`. -/
def attHandler (flags : AttFlags) : AttOp → Option AttHandler
  | .mtuReq => some ⟨2, .request⟩
  | .findInfoReq => some ⟨4, .request⟩
  | .findTypeReq => some ⟨6, .request⟩
  | .readTypeReq => some ⟨4, .request⟩
  | .readReq => some ⟨2, .request⟩
  | .readBlobReq => some ⟨4, .request⟩
  | .readMultReq => if flags.readMultiple then some ⟨4, .request⟩ else none
  | .readMultVlReq =>
    if flags.readMultiple && flags.eatt then some ⟨4, .request⟩ else none
  | .readGroupReq => some ⟨4, .request⟩
  | .writeReq => some ⟨2, .request⟩
  | .prepareWriteReq => some ⟨4, .request⟩
  | .execWriteReq => some ⟨1, .request⟩
  | .confirm => some ⟨0, .confirmation⟩
  | .writeCmd => some ⟨2, .command⟩
  | .signedWriteCmd => if flags.signing then some ⟨14, .command⟩ else none
  | .errorRsp => if flags.client then some ⟨4, .response⟩ else none
  | .mtuRsp => if flags.client then some ⟨2, .response⟩ else none
  | .findInfoRsp => if flags.client then some ⟨1, .response⟩ else none
  | .findTypeRsp => if flags.client then some ⟨4, .response⟩ else none
  | .readTypeRsp => if flags.client then some ⟨1, .response⟩ else none
  | .readRsp => if flags.client then some ⟨0, .response⟩ else none
  | .readBlobRsp => if flags.client then some ⟨0, .response⟩ else none
  | .readMultRsp =>
    if flags.client && flags.readMultiple then some ⟨0, .response⟩ else none
  | .readMultVlRsp =>
    if flags.client && flags.readMultiple && flags.eatt then
      some ⟨2, .response⟩
    else none
  | .readGroupRsp => if flags.client then some ⟨1, .response⟩ else none
  | .writeRsp => if flags.client then some ⟨0, .response⟩ else none
  | .prepareWriteRsp => if flags.client then some ⟨4, .response⟩ else none
  | .execWriteRsp => if flags.client then some ⟨0, .response⟩ else none
  | .notify => if flags.client then some ⟨2, .notification⟩ else none
  | .indicate => if flags.client then some ⟨2, .indication⟩ else none
  | .notifyMult => if flags.client then some ⟨4, .notification⟩ else none

end ZephyrBluetooth.Host
