import ZephyrBluetooth.Host.Bytes
import ZephyrBluetooth.Osal.Queue

namespace ZephyrBluetooth.Host

open Data Osal

/-! Long writes: `bt_gatt_write` with prepared writes (`gatt.c`) and the
server's queue of them (`att.c`). -/

inductive AttRequest where
  | prepareWrite (handle offset : Nat) (value : List Byte)
  | execWrite (exec : Bool)
  | write (handle : Nat) (value : List Byte)

inductive AttRsp where
  | prepareWrite
  | execWrite
  | write
  | other

/-- How a request ends: with a response PDU, or with an error from the peer, the
timeout or the lost link.  `att_handle_rsp` hands over any response. -/
inductive AttReply where
  | response (op : AttRsp) (pdu : List Byte)
  | error (code : Nat)

namespace AttReply

def err : AttReply → Nat
  | response _ _ => 0
  | error code => code

def pdu : AttReply → List Byte
  | response _ bytes => bytes
  | error _ => []

end AttReply

inductive WriteStage where
  | prepare
  | exec
  | cancel
  | write
  | done
  deriving DecidableEq

/-- `bt_gatt_write_params`, whose data is what is still to be written. -/
structure GattWriter where
  handle : Nat
  offset : Nat
  data : List Byte
  stage : WriteStage

namespace GattWriter

def errUnlikely : Nat := 0x0e

variable (mtu : Nat) (writer : GattWriter)

def Prepares : Prop :=
  writer.offset ≠ 0 ∨ mtu - 1 < 2 + writer.data.length

instance : Decidable (writer.Prepares mtu) :=
  inferInstanceAs (Decidable (_ ∨ _))

def btGattWrite : GattWriter :=
  { writer with
    stage := if writer.Prepares mtu then .prepare else .write }

def chunkLen : Nat := min writer.data.length (mtu - 5)

def request : Option AttRequest :=
  match writer.stage with
  | .prepare =>
    some (.prepareWrite writer.handle writer.offset
      (writer.data.take (writer.chunkLen mtu)))
  | .exec => some (.execWrite true)
  | .cancel => some (.execWrite false)
  | .write => some (.write writer.handle writer.data)
  | .done => none

def goOn (sends : Bool) (next : GattWriter) : GattWriter × List Nat :=
  if sends then (next, []) else ({ next with stage := .done }, [errUnlikely])

/-- `gatt_prepare_write_rsp` without an error. -/
def prepareWriteRsp (sends : Bool) (pdu : List Byte) :
    GattWriter × List Nat :=
  match pdu with
  | _ :: _ :: low :: high :: value =>
    if writer.data.length < value.length ∨
        writer.offset ≠ low.toNat + 256 * high.toNat ∨
        writer.data.take value.length ≠ value then
      goOn sends { writer with stage := .cancel }
    else
      let rest := { writer with
        offset := (writer.offset + value.length) % 0x10000
        data := writer.data.drop value.length }
      if rest.data = [] then goOn sends { rest with stage := .exec }
      else goOn sends (rest.btGattWrite mtu)
  | _ => goOn sends { writer with stage := .cancel }

/-- The response handlers, with the calls of `params->func`. -/
def respond (sends : Bool) (reply : AttReply) : GattWriter × List Nat :=
  match writer.stage with
  | .prepare =>
    if reply.err ≠ 0 then ({ writer with stage := .done }, [reply.err])
    else writer.prepareWriteRsp mtu sends reply.pdu
  | .exec => ({ writer with stage := .done }, [reply.err])
  | .cancel => ({ writer with stage := .done }, [reply.err])
  | .write => ({ writer with stage := .done }, [reply.err])
  | .done => (writer, [])

end GattWriter

def writeMachine (mtu : Nat) :
    Machine GattWriter (AttReply × Bool) Nat where
  step writer input := writer.respond mtu input.2 input.1

/-- The server's side of a writable attribute: free buffers of `prep_pool`,
`prep_queue`, and the calls of its write callback. -/
structure PrepServer where
  pool : Nat
  queue : KQueue (Nat × List Byte)
  writes : List (Nat × List Byte)

namespace PrepServer

def errPrepareQueueFull : Nat := 0x09

variable (server : PrepServer)

/-- `att_prep_write_rsp` takes the length as `uint8_t`. -/
def prepWriteRsp (handle offset : Nat) (value : List Byte) (len : Nat) :
    PrepServer × AttReply :=
  if server.pool = 0 then (server, .error errPrepareQueueFull)
  else
    ({ server with
        pool := server.pool - 1
        queue := server.queue.append (offset, value.take len) },
      .response .prepareWrite (le16 handle ++ le16 offset ++ value.take len))

def execWriteRsp (exec : Bool) : PrepServer × AttReply :=
  let (queue, taken) := server.queue.drain
  ({ pool := server.pool + taken.length
     queue
     writes := if exec then server.writes ++ taken else server.writes },
    .response .execWrite [])

def handle : AttRequest → PrepServer × AttReply
  | .prepareWrite handle offset value =>
    server.prepWriteRsp handle offset value (value.length % 256)
  | .execWrite exec => server.execWriteRsp exec
  | .write _ value =>
    ({ server with writes := server.writes ++ [(0, value)] }, .response .write [])

end PrepServer

/-- Client and server of this repository, with the calls of `params->func`. -/
structure LongWrite where
  writer : GattWriter
  server : PrepServer
  calls : List Nat

namespace LongWrite

variable (mtu : Nat)

def start (handle offset : Nat) (value : List Byte) (pool : Nat) : LongWrite where
  writer := GattWriter.btGattWrite mtu ⟨handle, offset, value, .done⟩
  server := ⟨pool, .init, []⟩
  calls := []

def exchange (write : LongWrite) : LongWrite :=
  match write.writer.request mtu with
  | none => write
  | some request =>
    let (server, reply) := write.server.handle request
    let (writer, calls) := write.writer.respond mtu true reply
    ⟨writer, server, write.calls ++ calls⟩

def Exact : Nat → List Byte → List (Nat × List Byte) → Prop
  | _, value, [] => value = []
  | offset, value, (start, data) :: rest =>
    start = offset ∧ data <+: value ∧
      Exact (offset + data.length) (value.drop data.length) rest

end LongWrite

end ZephyrBluetooth.Host
