import ZephyrBluetooth.Host.GattWrite

namespace ZephyrBluetooth.Host

open Data Function List Osal Prod

variable {offset : Nat} {value : List Byte}

namespace LongWrite

open GattWriter

variable {mtu : Nat} {write : LongWrite}

def advance (mtu : Nat) (writer : GattWriter) (len : Nat) : GattWriter :=
  let rest := { writer with
    offset := (writer.offset + len) % 0x10000
    data := writer.data.drop len }
  if rest.data = [] then { rest with stage := .exec } else rest.btGattWrite mtu

def kept (mtu : Nat) (writer : GattWriter) : Nat := writer.chunkLen mtu % 256

theorem kept_le (writer : GattWriter) :
    kept mtu writer ≤ writer.data.length ∧ kept mtu writer ≤ mtu - 5 := by
  unfold kept chunkLen
  have below := Nat.mod_le (min writer.data.length (mtu - 5)) 256
  omega

variable {writer : GattWriter} {len : Nat}

theorem respond_echo (stage : writer.stage = .prepare)
    (small : writer.offset ≤ 0xffff) (short : len ≤ writer.data.length) :
    writer.respond mtu true (.response .prepareWrite
      (le16 writer.handle ++ le16 writer.offset ++ writer.data.take len)) =
        (advance mtu writer len, []) := by
  have offset : writer.offset = (BitVec.ofNat 8 writer.offset).toNat +
      256 * (BitVec.ofNat 8 (writer.offset / 256)).toNat := by
    rw [BitVec.toNat_ofNat, BitVec.toNat_ofNat]
    omega
  have length : (writer.data.take len).length = len := by
    rw [length_take, min_eq_left short]
  have matching : ¬(writer.data.length < (writer.data.take len).length ∨
      writer.offset ≠ (BitVec.ofNat 8 writer.offset).toNat +
        256 * (BitVec.ofNat 8 (writer.offset / 256)).toNat ∨
      writer.data.take (writer.data.take len).length ≠ writer.data.take len) := by
    rw [length, not_or, not_or, not_not, not_not]
    exact ⟨not_lt.mpr short, offset, rfl⟩
  unfold respond
  rw [stage]
  simp only [AttReply.err, ne_eq, not_true_eq_false, if_false, AttReply.pdu,
    prepareWriteRsp, le16, cons_append, nil_append]
  rw [if_neg matching, length]
  unfold advance goOn
  simp only [if_true]
  split
  · rfl
  · rfl

theorem exchange_prepare (stage : write.writer.stage = .prepare)
    (free : write.server.pool ≠ 0) (small : write.writer.offset ≤ 0xffff) :
    write.exchange mtu = ⟨advance mtu write.writer (kept mtu write.writer),
        { write.server with
          pool := write.server.pool - 1
          queue := write.server.queue.append (write.writer.offset,
            write.writer.data.take (kept mtu write.writer)) },
        write.calls⟩ := by
  have short : write.writer.chunkLen mtu ≤ write.writer.data.length :=
    min_le_left _ _
  have length : (write.writer.data.take
      (write.writer.chunkLen mtu)).length = write.writer.chunkLen mtu := by
    rw [length_take, min_eq_left short]
  have fewer : kept mtu write.writer ≤ write.writer.chunkLen mtu := Nat.mod_le _ _
  have taken : (write.writer.data.take (write.writer.chunkLen mtu)).take
      (kept mtu write.writer) = write.writer.data.take (kept mtu write.writer) := by
    rw [take_take, min_eq_left fewer]
  unfold exchange request
  rw [stage]
  simp only [PrepServer.handle, PrepServer.prepWriteRsp, free, if_false]
  rw [length]
  rw [show write.writer.chunkLen mtu % 256 = kept mtu write.writer from rfl,
    taken, respond_echo stage small (kept_le write.writer).1, append_nil]

theorem exchange_full (stage : write.writer.stage = .prepare)
    (full : write.server.pool = 0) :
    write.exchange mtu = ⟨{ write.writer with stage := .done }, write.server,
        write.calls ++ [PrepServer.errPrepareQueueFull]⟩ := by
  unfold exchange request
  rw [stage]
  simp only [PrepServer.handle, PrepServer.prepWriteRsp, full, if_true]
  unfold respond
  rw [stage]
  rfl

theorem exchange_exec (stage : write.writer.stage = .exec) :
    write.exchange mtu = ⟨{ write.writer with stage := .done },
        ⟨write.server.pool + write.server.queue.drain.2.length,
          write.server.queue.drain.1,
          write.server.writes ++ write.server.queue.drain.2⟩,
        write.calls ++ [0]⟩ := by
  unfold exchange request
  rw [stage]
  unfold respond
  rw [stage]
  rfl

theorem exchange_write (stage : write.writer.stage = .write) :
    write.exchange mtu = ⟨{ write.writer with stage := .done },
        { write.server with
          writes := write.server.writes ++ [(0, write.writer.data)] },
        write.calls ++ [0]⟩ := by
  unfold exchange request
  rw [stage]
  unfold respond
  rw [stage]
  rfl

theorem exchange_done (stage : write.writer.stage = .done) :
    write.exchange mtu = write := by
  unfold exchange request
  rw [stage]

theorem kept_small (small : mtu - 5 < 256 ∨ writer.data.length < 256) :
    kept mtu writer = min writer.data.length (mtu - 5) := by
  unfold kept chunkLen
  exact Nat.mod_eq_of_lt (by omega)

theorem advance_last (last : writer.data.length ≤ len) :
    (advance mtu writer len).stage = .exec := by
  unfold advance
  simp only [drop_eq_nil_of_le last, if_true]

theorem advance_more (more : len < writer.data.length) :
    advance mtu writer len = btGattWrite mtu { writer with
      offset := (writer.offset + len) % 0x10000
      data := writer.data.drop len } := by
  have rest : writer.data.drop len ≠ [] := by
    rw [Ne, drop_eq_nil_iff]
    omega
  unfold advance
  simp only [rest, if_false]

/-- No piece of 256 bytes, no start beyond the 16-bit offsets, and no more
pieces than the semaphore of `prep_queue` counts. -/
def Reaches (mtu offset length : Nat) : Prop :=
  (mtu < 261 ∨ length < 256) ∧
    offset + (length - 1) / (mtu - 5) * (mtu - 5) ≤ 0xffff ∧
    length ≤ semLimit * (mtu - 5)

def size (pieces : List (Nat × List Byte)) : Nat :=
  (pieces.map fun piece => piece.2.length).sum

theorem Exact.last {start : Nat} {data : List Byte} {front : List (Nat × List Byte)}
    (exact : Exact offset value (front ++ [(start, data)])) :
    start = offset + size front := by
  induction front generalizing offset value with
  | nil => exact exact.1
  | cons piece rest ih =>
    have later := ih exact.2.2
    rw [later]
    unfold size
    rw [map_cons, sum_cons]
    omega

theorem Exact.size_eq {pieces : List (Nat × List Byte)}
    (exact : Exact offset value pieces) : size pieces = value.length := by
  induction pieces generalizing offset value with
  | nil =>
    rw [Exact] at exact
    rw [exact]
    rfl
  | cons piece rest ih =>
    obtain ⟨-, front, later⟩ := exact
    have rests := ih later
    have shorter := front.length_le
    rw [length_drop] at rests
    unfold size at rests ⊢
    rw [map_cons, sum_cons, rests]
    omega

theorem size_take_le (count : Nat) (pieces : List (Nat × List Byte)) :
    size (pieces.take count) ≤ size pieces := by
  have parts : size (pieces.take count ++ pieces.drop count) =
      size (pieces.take count) + size (pieces.drop count) := by
    unfold size
    rw [map_append, sum_append]
  rw [take_append_drop] at parts
  omega

def Lasts (mtu : Nat) (value : List Byte) (pieces : List (Nat × List Byte)) :
    Prop :=
  mtu - 5 < 256 → ∃ front start data,
    pieces = front ++ [(start, data)] ∧ start ≤ 0xffff ∧
      size front = front.length * (mtu - 5) ∧
      value.length = front.length * (mtu - 5) + data.length ∧
      0 < data.length ∧ data.length ≤ mtu - 5

def Cuts (mtu : Nat) (value rest : List Byte) (pieces : List (Nat × List Byte)) :
    Prop :=
  mtu - 5 < 256 → size pieces = pieces.length * (mtu - 5) ∧
    value.length = pieces.length * (mtu - 5) + rest.length

def Stuck (mtu : Nat) (value : List Byte) : Prop :=
  256 ≤ value.length ∧ 256 ≤ mtu - 5

inductive Writing (mtu : Nat) (value : List Byte) : LongWrite → Prop
  | prepare {write : LongWrite} {pieces : List (Nat × List Byte)}
      (stage : write.writer.stage = .prepare)
      (prepares : write.writer.Prepares mtu)
      (nonempty : write.writer.data ≠ []) (calls : write.calls = [])
      (writes : write.server.writes = [])
      (bounded : write.writer.offset ≤ 0xffff)
      (shorter : write.writer.data.length ≤ value.length)
      (stuck : Stuck mtu value → 256 ≤ write.writer.data.length)
      (filled : write.server.queue.Filled pieces)
      (cuts : Cuts mtu value write.writer.data pieces) :
      Writing mtu value write
  | exec {write : LongWrite} {pieces : List (Nat × List Byte)}
      (stage : write.writer.stage = .exec)
      (calls : write.calls = []) (writes : write.server.writes = [])
      (passed : ¬Stuck mtu value) (filled : write.server.queue.Filled pieces)
      (lasts : Lasts mtu value pieces) : Writing mtu value write
  | write {write : LongWrite} (stage : write.writer.stage = .write)
      (writes : write.server.writes = [])
      (shorter : write.writer.data.length < value.length) :
      Writing mtu value write
  | failed {write : LongWrite} (stage : write.writer.stage = .done)
      (calls : write.calls ≠ [0]) : Writing mtu value write
  | wrote {write : LongWrite} {start : Nat} {data : List Byte}
      (stage : write.writer.stage = .done)
      (writes : write.server.writes = [(start, data)])
      (shorter : data.length < value.length) : Writing mtu value write
  | executed {write : LongWrite} {pieces : List (Nat × List Byte)}
      (stage : write.writer.stage = .done) (passed : ¬Stuck mtu value)
      (writes : write.server.writes = pieces.take semLimit)
      (lasts : Lasts mtu value pieces) : Writing mtu value write

theorem Writing.more {pieces : List (Nat × List Byte)}
    (stage : write.writer.stage = .prepare)
    (prepares : write.writer.Prepares mtu) (bounded : write.writer.offset ≤ 0xffff)
    (calls : write.calls = []) (writes : write.server.writes = [])
    (shorter : write.writer.data.length ≤ value.length)
    (stuck : Stuck mtu value → 256 ≤ write.writer.data.length)
    (filled : write.server.queue.Filled pieces)
    (cuts : Cuts mtu value write.writer.data pieces)
    (free : write.server.pool ≠ 0)
    (rests : kept mtu write.writer < write.writer.data.length) :
    Writing mtu value (write.exchange mtu) := by
  have exchanged := @exchange_prepare mtu write stage free bounded
  rw [advance_more rests] at exchanged
  have restLength : (write.writer.data.drop (kept mtu write.writer)).length =
      write.writer.data.length - kept mtu write.writer := length_drop
  by_cases again : Prepares mtu { write.writer with
      offset := (write.writer.offset + kept mtu write.writer) % 0x10000
      data := write.writer.data.drop (kept mtu write.writer) }
  · apply Writing.prepare
    · rw [exchanged]
      unfold btGattWrite
      rw [if_pos again]
    · rw [exchanged]
      exact again
    · rw [exchanged]
      unfold btGattWrite
      rw [Ne, drop_eq_nil_iff]
      omega
    · rw [exchanged]
      exact calls
    · rw [exchanged]
      exact writes
    · rw [exchanged]
      unfold btGattWrite
      simp only
      omega
    · rw [exchanged]
      unfold btGattWrite
      simp only [restLength]
      omega
    · intro isStuck
      have long := stuck isStuck
      have wide := isStuck.2
      rw [exchanged]
      unfold btGattWrite
      simp only [restLength]
      unfold kept chunkLen
      omega
    · rw [exchanged]
      exact filled.append _
    · intro narrow
      obtain ⟨queued, _⟩ := cuts narrow
      have piece := @kept_small mtu write.writer (.inl narrow)
      have whole : kept mtu write.writer = mtu - 5 := by omega
      refine ⟨?_, ?_⟩
      · unfold size at queued ⊢
        simp only [map_append, sum_append, map_cons,
          map_nil, sum_singleton, length_take, length_append, length_singleton]
        rw [queued, whole, add_mul]
        omega
      · rw [exchanged]
        unfold btGattWrite
        simp only [restLength, length_append, length_singleton]
        rw [whole, add_mul]
        omega
  · apply Writing.write
    · rw [exchanged]
      unfold btGattWrite
      rw [if_neg again]
    · rw [exchanged]
      exact writes
    · rw [exchanged]
      unfold btGattWrite
      simp only [restLength]
      have progress : kept mtu write.writer ≠ 0 := by
        intro zero
        apply again
        simp only [zero, add_zero, drop_zero]
        rw [Nat.mod_eq_of_lt (by omega)]
        exact prepares
      omega

theorem Writing.exchange (writing : Writing mtu value write) :
    Writing mtu value (write.exchange mtu) := by
  cases writing with
  | prepare stage prepares nonempty calls writes bounded shorter stuck filled
      cuts =>
    by_cases free : write.server.pool = 0
    · apply Writing.failed
      · rw [exchange_full stage free]
      · rw [exchange_full stage free, calls]
        show [PrepServer.errPrepareQueueFull] ≠ [0]
        decide
    rcases lt_or_ge (kept mtu write.writer) write.writer.data.length with
      rests | last
    · exact Writing.more stage prepares bounded calls writes shorter stuck
        filled cuts free rests
    have exchanged := @exchange_prepare mtu write stage free bounded
    have pos := length_pos_iff.mpr nonempty
    have within := @kept_le mtu write.writer
    apply Writing.exec
    · rw [exchanged]
      exact advance_last last
    · rw [exchanged]
      exact calls
    · rw [exchanged]
      exact writes
    · intro isStuck
      have long := stuck isStuck
      unfold kept at last
      omega
    · rw [exchanged]
      exact filled.append _
    · intro narrow
      obtain ⟨queued, _⟩ := cuts narrow
      refine ⟨_, write.writer.offset,
        write.writer.data.take (kept mtu write.writer), rfl, bounded,
        queued, ?_, ?_, ?_⟩
      · rw [length_take]
        omega
      · rw [length_take]
        omega
      · rw [length_take]
        omega
  | exec stage calls writes passed filled lasts =>
    refine Writing.executed ?_ passed ?_ lasts
    · rw [exchange_exec stage]
    · rw [exchange_exec stage, writes, nil_append]
      exact filled.drain
  | write stage writes shorter =>
    apply Writing.wrote
    · rw [exchange_write stage]
    · rw [exchange_write stage, writes]
      rfl
    · exact shorter
  | failed stage calls =>
    rw [exchange_done stage]
    exact .failed stage calls
  | wrote stage writes shorter =>
    rw [exchange_done stage]
    exact .wrote stage writes shorter
  | executed stage passed writes lasts =>
    rw [exchange_done stage]
    exact .executed stage passed writes lasts

theorem Writing.run (writing : Writing mtu value write) (count : Nat) :
    Writing mtu value ((LongWrite.exchange mtu)^[count] write) := by
  induction count with
  | zero => exact writing
  | succ count ih =>
    rw [iterate_succ_apply']
    exact ih.exchange

theorem Writing.reaches (writing : Writing mtu value write)
    (bounded : offset ≤ 0xffff) (stage : write.writer.stage = .done)
    (calls : write.calls = [0]) (exact : Exact offset value write.server.writes) :
    Reaches mtu offset value.length := by
  have other : ∀ {earlier : WriteStage}, write.writer.stage = earlier →
      earlier ≠ .done → Reaches mtu offset value.length :=
    fun before different => absurd (before.symm.trans stage) different
  cases writing with
  | prepare before => exact other before (by decide)
  | exec before => exact other before (by decide)
  | write before => exact other before (by decide)
  | failed _ failed => exact absurd calls failed
  | wrote _ writes shorter =>
    rw [writes] at exact
    have whole := exact.size_eq
    rw [size, map_singleton, sum_singleton] at whole
    exact absurd whole (ne_of_lt shorter)
  | executed _ passed writes lasts =>
    unfold Stuck at passed
    rcases lt_or_ge (mtu - 5) 256 with narrow | _
    · obtain ⟨front, last, data, cut, small, sized, length, pos, most⟩ :=
        lasts narrow
      -- with more pieces than the queue counts, only full ones are executed
      have counted : front.length < semLimit := by
        by_contra more
        rw [writes, cut, take_append_of_le_length (not_lt.mp more)] at exact
        have whole := exact.size_eq
        have fewer := size_take_le semLimit front
        omega
      have all : (front ++ [(last, data)]).take semLimit = front ++ [(last, data)] :=
        take_of_length_le (by rw [length_append]; exact counted)
      rw [writes, cut, all] at exact
      have placed := exact.last
      have quotient : (value.length - 1) / (mtu - 5) = front.length := by
        rw [length, mul_comm front.length]
        rw [show (mtu - 5) * front.length + data.length - 1 =
          (mtu - 5) * front.length + (data.length - 1) by omega]
        rw [Nat.mul_add_div (by omega), Nat.div_eq_of_lt (by omega)]
        exact add_zero front.length
      refine ⟨.inl (by omega), ?_, ?_⟩
      · rw [quotient, ← sized, ← placed]
        exact small
      · have within := Nat.mul_le_mul_right (mtu - 5) (Nat.succ_le_of_lt counted)
        rw [Nat.succ_mul] at within
        omega
    · have below : value.length < 256 := by omega
      refine ⟨.inr below, ?_, ?_⟩
      · rw [Nat.div_eq_of_lt (by omega), zero_mul]
        exact bounded
      · unfold semLimit
        omega

end LongWrite

/-- The replies echo the data piece by piece at the offsets asked for, and then
confirm the execution. -/
inductive Confirmed : Nat → List Byte → List AttReply → Prop
  | exec (offset : Nat) (pdu : List Byte) :
      Confirmed offset [] [.response .execWrite pdu]
  | echo {offset : Nat} {piece rest : List Byte} {replies : List AttReply}
      (handleLow handleHigh : Byte) {low high : Byte}
      (place : offset = low.toNat + 256 * high.toNat)
      (later : Confirmed ((offset + piece.length) % 0x10000) rest replies) :
      Confirmed offset (piece ++ rest) (.response .prepareWrite
          (handleLow :: handleHigh :: low :: high :: piece) :: replies)

namespace GattWriter

variable {mtu : Nat} {writer : GattWriter}

/-- Responses are of the kind asked for, and neither a cancellation nor a plain
write in the middle of the value is granted. -/
def Regular (writer : GattWriter) (input : AttReply × Bool) : Prop :=
  match writer.stage with
  | .prepare => ∀ op pdu, input.1 = .response op pdu → op = .prepareWrite
  | .exec => input.1.err = 0 → ∃ pdu, input.1 = .response .execWrite pdu
  | .cancel => input.1.err ≠ 0
  | .write => input.1.err ≠ 0
  | .done => True

theorem prepareWriteRsp_cases (sends : Bool) (pdu : List Byte) :
    writer.prepareWriteRsp mtu sends pdu =
        goOn sends { writer with stage := .cancel } ∨
      ∃ handleLow handleHigh low high piece rest,
        pdu = handleLow :: handleHigh :: low :: high :: piece ∧
        writer.data = piece ++ rest ∧
        writer.offset = low.toNat + 256 * high.toNat ∧
        writer.prepareWriteRsp mtu sends pdu =
          goOn sends (LongWrite.advance mtu writer piece.length) ∧
        rest = writer.data.drop piece.length := by
  unfold prepareWriteRsp
  split
  · rename_i handleLow handleHigh low high piece
    split
    · exact .inl rfl
    rename_i matching
    rw [not_or, not_or, not_not, not_not] at matching
    obtain ⟨-, offset, front⟩ := matching
    refine .inr ⟨handleLow, handleHigh, low, high, piece,
      writer.data.drop piece.length, rfl, ?_, offset, ?_, rfl⟩
    · have joined := (take_append_drop piece.length writer.data).symm
      rw [front] at joined
      exact joined
    · unfold LongWrite.advance
      simp only
      split
      · rfl
      · rfl
  · exact .inl rfl

def Tells (writer : GattWriter) (inputs : List (AttReply × Bool)) : Prop :=
  match writer.stage with
  | .prepare => ∃ count,
      Confirmed writer.offset writer.data ((inputs.take count).map Prod.fst)
  | .exec => ∃ count, ∀ offset,
      Confirmed offset [] ((inputs.take count).map Prod.fst)
  | _ => False

theorem trace_done (stage : writer.stage = .done)
    (inputs : List (AttReply × Bool)) :
    (writeMachine mtu).trace writer inputs = [] := by
  induction inputs with
  | nil => rfl
  | cons input rest ih =>
    have stays : (writeMachine mtu).step writer input = (writer, []) := by
      unfold writeMachine respond
      simp only [stage]
    rw [Machine.trace_cons]
    unfold Machine.emit Machine.next
    rw [stays, ih]
    rfl

theorem tells_last {input : AttReply × Bool} {rest : List (AttReply × Bool)}
    (last : writer.respond mtu input.2 input.1 =
      ({ writer with stage := .done }, [input.1.err]))
    (succeeds : 0 ∈ (writeMachine mtu).trace writer (input :: rest)) :
    input.1.err = 0 := by
  have steps : (writeMachine mtu).step writer input =
      ({ writer with stage := .done }, [input.1.err]) := last
  rw [Machine.trace_cons] at succeeds
  unfold Machine.emit Machine.next at succeeds
  rw [steps, trace_done rfl, append_nil, mem_singleton] at succeeds
  exact succeeds.symm

theorem tells_goOn {input : AttReply × Bool} {rest : List (AttReply × Bool)}
    {next : GattWriter}
    (goes : writer.respond mtu input.2 input.1 = goOn input.2 next)
    (succeeds : 0 ∈ (writeMachine mtu).trace writer (input :: rest)) :
    (writeMachine mtu).next writer input = next ∧
      0 ∈ (writeMachine mtu).trace next rest := by
  have steps : (writeMachine mtu).step writer input = goOn input.2 next := goes
  unfold goOn at steps
  rw [Machine.trace_cons] at succeeds
  unfold Machine.emit Machine.next at succeeds
  unfold Machine.next
  split at steps
  · rw [steps] at succeeds ⊢
    exact ⟨rfl, by simpa using succeeds⟩
  rw [steps, trace_done rfl, append_nil, mem_singleton] at succeeds
  exact absurd succeeds (by decide)

theorem tells (inputs : List (AttReply × Bool))
    (regular : (writeMachine mtu).Along Regular writer inputs)
    (succeeds : 0 ∈ (writeMachine mtu).trace writer inputs) :
    writer.Tells inputs := by
  induction inputs generalizing writer with
  | nil => exact nomatch succeeds
  | cons input rest ih =>
    obtain ⟨here, later⟩ := regular
    unfold Tells
    cases stage : writer.stage with
    | prepare =>
      by_cases fails : input.1.err = 0
      · have responds : writer.respond mtu input.2 input.1 =
            writer.prepareWriteRsp mtu input.2 input.1.pdu := by
          unfold respond
          simp only [stage, fails, ne_eq, not_true_eq_false, if_false]
        rcases @prepareWriteRsp_cases mtu writer input.2 input.1.pdu with
          cancels | ⟨handleLow, handleHigh, low, high, piece, others, bytes,
            cut, place, moves, dropped⟩
        · obtain ⟨next, goes⟩ :=
            tells_goOn (responds.trans cancels) succeeds
          rw [next] at later
          exact (ih later goes).elim
        · obtain ⟨next, goes⟩ := tells_goOn (responds.trans moves) succeeds
          rw [next] at later
          have told := ih later goes
          have reply : input.1 = .response .prepareWrite
              (handleLow :: handleHigh :: low :: high :: piece) := by
            unfold Regular at here
            rw [stage] at here
            cases kind : input.1 with
            | response op pdu =>
              rw [here op pdu kind]
              rw [kind] at bytes
              exact congrArg _ bytes
            | error =>
              rw [kind] at bytes
              exact nomatch bytes
          have confirmed : ∃ count, Confirmed
              ((writer.offset + piece.length) % 0x10000) others
              ((rest.take count).map fst) := by
            unfold LongWrite.advance at told
            simp only [← dropped] at told
            by_cases complete : others = []
            · rw [if_pos complete] at told
              obtain ⟨count, all⟩ := told
              rw [complete]
              exact ⟨count, all _⟩
            · rw [if_neg complete] at told
              unfold btGattWrite Tells at told
              by_cases again : Prepares mtu { writer with
                  offset := (writer.offset + piece.length) % 0x10000
                  data := others }
              · rw [if_pos again] at told
                exact told
              · rw [if_neg again] at told
                exact told.elim
          obtain ⟨count, confirmed⟩ := confirmed
          refine ⟨count + 1, ?_⟩
          rw [take_succ_cons, map_cons, reply, cut]
          exact .echo handleLow handleHigh place confirmed
      · have last : writer.respond mtu input.2 input.1 =
            ({ writer with stage := .done }, [input.1.err]) := by
          unfold respond
          simp only [stage, ne_eq, fails, not_false_eq_true, if_true]
        exact absurd (tells_last last succeeds) fails
    | exec =>
      have last : writer.respond mtu input.2 input.1 =
          ({ writer with stage := .done }, [input.1.err]) := by
        unfold respond
        simp only [stage]
      have success := tells_last last succeeds
      unfold Regular at here
      rw [stage] at here
      obtain ⟨pdu, reply⟩ := here success
      refine ⟨1, fun offset => ?_⟩
      rw [take_succ_cons, take_zero, map_cons, map_nil, reply]
      exact .exec offset pdu
    | cancel =>
      have last : writer.respond mtu input.2 input.1 =
          ({ writer with stage := .done }, [input.1.err]) := by
        unfold respond
        simp only [stage]
      unfold Regular at here
      rw [stage] at here
      exact here (tells_last last succeeds)
    | write =>
      have last : writer.respond mtu input.2 input.1 =
          ({ writer with stage := .done }, [input.1.err]) := by
        unfold respond
        simp only [stage]
      unfold Regular at here
      rw [stage] at here
      exact here (tells_last last succeeds)
    | done =>
      rw [trace_done stage] at succeeds
      exact nomatch succeeds

end GattWriter

end ZephyrBluetooth.Host
