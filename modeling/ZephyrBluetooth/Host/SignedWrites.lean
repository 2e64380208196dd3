import ZephyrBluetooth.Host.AttSend
import Mathlib.Data.Vector.Defs

namespace ZephyrBluetooth.Host

open Data Option
open List hiding Vector

/-- `smp_sign_buf`, with its key in `cmac`.  Where `bt_smp_aes_cmac` fails the
message stays swapped. -/
def smpSignBuf (cmac : List Byte → Option (Vector Byte 16)) (msg : List Byte)
    (len : Nat) : Except (List Byte) (List Byte) :=
  let cnt := (msg.drop len).take 4
  let swapped := (msg.take (len + 4)).reverse
  match cmac swapped with
  | none => .error (swapped ++ msg.drop (len + 4))
  | some mac =>
    let tmp := mac.toList.reverse
    let sig := ((tmp.take 4 ++ (cnt ++ tmp.drop 8)).drop 4).take 12
    .ok ((swapped.reverse ++ msg.drop (len + 4)).take len ++
      (sig ++ msg.drop (len + 12)))

inductive VerifyResult where
  | accepted
  | eio
  | ebadmsg
  deriving DecidableEq

/-- What `bt_smp_sign_verify` returns and leaves in the buffer and the count. -/
structure SignVerified where
  result : VerifyResult
  data : List Byte
  cnt : Nat

/-- `bt_smp_sign_verify` for a peer whose CSRK is known. -/
def btSmpSignVerify (cmac : List Byte → Option (Vector Byte 16)) (cnt : Nat)
    (data : List Byte) : SignVerified :=
  let len := data.length - 12
  let sig := data.drop len
  match smpSignBuf cmac (data.take len ++ (signCount cnt ++ sig.drop 4)) len with
  | .error left => ⟨.eio, left, cnt⟩
  | .ok made =>
    if sig = made.drop len then ⟨.accepted, made, (cnt + 1) % 2 ^ 32⟩
    else ⟨.ebadmsg, made, cnt⟩

def aesCmac (mac : List Byte → Vector Byte 16) (works : Bool) (message : List Byte) :
    Option (Vector Byte 16) :=
  if works then some (mac message) else none

variable (mac : List Byte → Vector Byte 16)

def macTail (message : List Byte) : Vector Byte 8 :=
  (mac message.reverse).reverse.drop 8

def signedPdu (data : List Byte) (cnt : Nat) : List Byte :=
  data ++ signCount cnt ++ (macTail mac (data ++ signCount cnt)).toList

def signing (works : Bool) (room : Vector Byte 8) (data : List Byte) (cnt : Nat) :
    Signing :=
  if works then .signed (macTail mac (data ++ signCount cnt)) else .failed room

/-- Two bonded devices: the queue of the sender and its `local_csrk.cnt`, the
PDUs on their way, and the `remote_csrk.cnt` of the receiver.  `delivered` are
the PDUs that have arrived. -/
structure SignedLink where
  queue : List PduBuf
  cnt : Nat
  wire : List (List Byte)
  remote : Nat
  delivered : List (List Byte)

/-- `bt_gatt_write_without_response`, `process_queue` with what the layers below
answer, a buffer that is given up, and the end of the link; then a PDU that
arrives, arrives once more, or arrives with another byte at one place. -/
inductive SignedLinkInput where
  | write (handle : Nat) (value : List Byte)
  | process (bearer : SendBearer) (works : Bool) (room : Vector Byte 8)
    (conn : Bool)
  | drop
  | linkDown
  | deliver (works : Bool)
  | again (index : Nat) (works : Bool)
  | altered (index place : Nat) (byte : Byte) (works : Bool)

inductive SignedLinkEvt where
  | sent (before after : List Byte)
  | verified (isFirst : Bool) (pdu : List Byte) (cnt : Nat) (ended : SignVerified)

namespace SignedLink

variable (state : SignedLink)

def paired : SignedLink := ⟨[], 0, [], 0, []⟩

def signed : List (List Byte) := state.delivered ++ state.wire

def receive (isFirst works : Bool) (pdu : List Byte) :
    SignedLink × List SignedLinkEvt :=
  let ended := btSmpSignVerify (aesCmac mac works) state.remote pdu
  ({ state with remote := ended.cnt }, [.verified isFirst pdu state.remote ended])

def step : SignedLinkInput → SignedLink × List SignedLinkEvt
  | .write handle value =>
    ({ state with queue := state.queue ++
        [⟨0, AttOp.signedWriteCmd.code :: (le16 handle ++ value), 1⟩] }, [])
  | .process bearer works room conn =>
    match state.queue with
    | [] => (state, [])
    | buf :: rest =>
      let sign := signing mac works room buf.data state.cnt
      let ended := chanSendBuf ⟨sign, conn, none⟩ state.cnt bearer buf .none
      match ended.result with
      | .ok bytes =>
        ({ state with
            queue := rest
            cnt := ended.cnt
            wire := state.wire ++ [bytes] }, [.sent buf.data bytes])
      | .error left =>
        ({ state with queue := left :: rest, cnt := ended.cnt },
          [.sent buf.data left.data])
  | .drop => ({ state with queue := state.queue.tail }, [])
  | .linkDown => ({ state with queue := [], wire := [] }, [])
  | .deliver works =>
    match state.wire with
    | [] => (state, [])
    | pdu :: rest =>
      { state with wire := rest, delivered := state.delivered ++ [pdu] }.receive mac
        true works pdu
  | .again index works =>
    match state.delivered[index]? with
    | none => (state, [])
    | some pdu => state.receive mac false works pdu
  | .altered index place byte works =>
    match state.signed[index]? with
    | none => (state, [])
    | some pdu =>
      if pdu.set place byte = pdu then (state, [])
      else state.receive mac false works (pdu.set place byte)

end SignedLink

def signedLinkMachine : Machine SignedLink SignedLinkInput SignedLinkEvt where
  step := SignedLink.step mac

/-- Signing and verification keep the bytes of the message.  A PDU is accepted
when it arrives first and rejected afterwards, and a rejection keeps the count. -/
def SignedLinkEvt.Sound : SignedLinkEvt → Prop
  | .sent before after => before <+: after
  | .verified isFirst pdu cnt ended =>
    (ended.result = .accepted ↔ isFirst = true) ∧
      pdu.take (pdu.length - 12) <+: ended.data ∧
      (ended.result ≠ .accepted → ended.cnt = cnt)

instance : DecidablePred SignedLinkEvt.Sound
  | .sent _ _ => inferInstanceAs (Decidable (_ <+: _))
  | .verified .. => inferInstanceAs (Decidable (_ ∧ _ ∧ _))

/-- The MAC tells the message of a PDU from that of the PDU with another byte. -/
def Distinguishes (place : Nat) (byte : Byte) (pdu : List Byte) : Prop :=
  let message := pdu.take (pdu.length - 8)
  macTail mac (message.set place byte) = macTail mac message →
    message.set place byte = message

/-- The MAC is computed, a buffer that is signed is taken and arrives, and the
count of the sender does not wrap. -/
def SignedLink.Meets (state : SignedLink) : SignedLinkInput → Prop
  | .write _ _ | .drop => True
  | .process bearer works _ conn =>
    state.queue = [] ∨ bearer.enhanced = true ∨
      works = true ∧ conn = true ∧ state.cnt + 1 < 2 ^ 32
  | .linkDown => state.wire = []
  | .deliver works | .again _ works => works = true
  | .altered index place byte works =>
    works = true ∧ ∀ pdu ∈ state.signed[index]?, Distinguishes mac place byte pdu

instance (place : Nat) (byte : Byte) (pdu : List Byte) :
    Decidable (Distinguishes mac place byte pdu) :=
  inferInstanceAs (Decidable (_ → _))

instance (state : SignedLink) : DecidablePred (state.Meets mac)
  | .write _ _ | .drop => .isTrue trivial
  | .process .. => inferInstanceAs (Decidable (_ ∨ _ ∨ _))
  | .linkDown | .deliver _ | .again _ _ => inferInstanceAs (Decidable (_ = _))
  | .altered .. => inferInstanceAs (Decidable (_ ∧ _))

variable {mac} {pdu : List Byte}

section Signature

variable {data room message tail : List Byte} {cnt : Nat} {works : Bool}

theorem length_signCount (cnt : Nat) : (signCount cnt).length = 4 := rfl

theorem signCount_inj {other : Nat} (small : cnt < 2 ^ 32) (fits : other < 2 ^ 32)
    (same : signCount cnt = signCount other) : cnt = other := by
  have low := congrArg pullLe16 same
  unfold signCount at low
  rw [pullLe16_le16 (by omega), pullLe16_le16 (by omega)] at low
  obtain ⟨low, high⟩ := Prod.mk.inj (some.inj low)
  have high := congrArg (pullLe16 <| · ++ []) high
  simp only [pullLe16_le16 (show cnt / 2 ^ 16 % 2 ^ 16 ≤ 0xffff by omega),
    pullLe16_le16 (show other / 2 ^ 16 % 2 ^ 16 ≤ 0xffff by omega)] at high
  have high := congrArg Prod.fst (some.inj high)
  simp only at high
  omega

theorem smpSignBuf_eq {count : List Byte} (four : count.length = 4)
    (eight : room.length = 8) :
    smpSignBuf (aesCmac mac works) (data ++ (count ++ room)) data.length =
      if works then .ok (data ++ count ++ (macTail mac (data ++ count)).toList)
      else .error ((data ++ count).reverse ++ room) := by
  have front : (data ++ (count ++ room)).take (data.length + 4) = data ++ count := by
    rw [take_length_add_append, ← four, take_left]
  have behind : (data ++ (count ++ room)).drop (data.length + 4) = room := by
    rw [drop_length_add_append, ← four, drop_left]
  have end_ : (data ++ (count ++ room)).drop (data.length + 12) = [] := by
    apply drop_eq_nil_of_le
    simp only [length_append]
    omega
  have middle : ((data ++ (count ++ room)).drop data.length).take 4 = count := by
    rw [drop_left, ← four, take_left]
  unfold smpSignBuf aesCmac
  simp only [front, behind, end_, middle]
  cases works with
  | false => rfl
  | true =>
    have first : (((data ++ count).reverse.reverse) ++ room).take data.length =
        data := by
      rw [reverse_reverse, append_assoc, take_left]
    have tag : (macTail mac (data ++ count)).toList =
        (mac (data ++ count).reverse).toList.reverse.drop 8 := by
      unfold macTail
      rw [Vector.toList_drop, Vector.toList_reverse]
    simp only [if_true, first, append_nil, tag]
    generalize known : (mac (data ++ count).reverse).toList.reverse = tmp
    have size : tmp.length = 16 := by
      rw [← known, length_reverse, Vector.length_toList]
    have skipped : (tmp.take 4 ++ (count ++ tmp.drop 8)).drop 4 =
        count ++ tmp.drop 8 := by
      rw [drop_left' (by rw [length_take, size]; rfl)]
    rw [skipped, take_of_length_le, append_assoc]
    rw [length_append, length_drop, size, four]

theorem length_signedPdu : (signedPdu mac data cnt).length = data.length + 12 := by
  unfold signedPdu
  rw [length_append, length_append, length_signCount, Vector.length_toList]

/-- `bt_smp_sign` on the bytes of a buffer, with those behind it in `room`. -/
theorem btSmpSignVerify_eq (long : 12 ≤ pdu.length) :
    btSmpSignVerify (aesCmac mac true) cnt pdu =
      let made := signedPdu mac (pdu.take (pdu.length - 12)) cnt
      if pdu = made then ⟨.accepted, made, (cnt + 1) % 2 ^ 32⟩
      else ⟨.ebadmsg, made, cnt⟩ := by
  have size : (pdu.take (pdu.length - 12)).length = pdu.length - 12 := by
    rw [length_take]
    omega
  have room : ((pdu.drop (pdu.length - 12)).drop 4).length = 8 := by
    rw [length_drop, length_drop]
    omega
  have parts := take_append_drop (pdu.length - 12) pdu
  have filled := @smpSignBuf_eq mac (pdu.take (pdu.length - 12)) _ true _
    (length_signCount cnt) room
  rw [size] at filled
  unfold btSmpSignVerify
  simp only [filled, if_true]
  have whole : pdu.drop (pdu.length - 12) = (signedPdu mac
      (pdu.take (pdu.length - 12)) cnt).drop (pdu.length - 12) ↔
        pdu = signedPdu mac (pdu.take (pdu.length - 12)) cnt := by
    conv_rhs => lhs; rw [← parts]
    unfold signedPdu
    rw [append_assoc, drop_left' size, append_cancel_left_eq]
  exact if_congr whole rfl rfl

variable {pdu : List Byte} {count : Nat}

theorem verified_sound (long : 12 ≤ pdu.length) {isFirst : Bool}
    (expected : (pdu = signedPdu mac (pdu.take (pdu.length - 12)) cnt) ↔
      isFirst = true) : SignedLinkEvt.Sound (.verified isFirst pdu cnt
      (btSmpSignVerify (aesCmac mac true) cnt pdu)) := by
  have kept : ∀ taken, taken <+: signedPdu mac taken cnt := by
    intro taken
    unfold signedPdu
    rw [append_assoc]
    exact prefix_append ..
  rw [btSmpSignVerify_eq long]
  simp only
  split
  · rename_i same
    exact ⟨iff_of_true rfl (expected.mp same), kept _, fun not => absurd rfl not⟩
  · rename_i differs
    exact ⟨iff_of_false nofun (mt expected.mpr differs), kept _, fun _ => rfl⟩

theorem take_signedPdu :
    (signedPdu mac data cnt).take ((signedPdu mac data cnt).length - 12) = data := by
  rw [length_signedPdu, Nat.add_sub_cancel]
  unfold signedPdu
  rw [append_assoc, take_left]

theorem front_signedPdu :
    (signedPdu mac data cnt).take ((signedPdu mac data cnt).length - 8) =
      data ++ signCount cnt := by
  rw [length_signedPdu]
  unfold signedPdu
  apply take_left'
  rw [length_append, length_signCount]
  rfl

theorem repeated_rejected (small : cnt < 2 ^ 32) (fits : count < 2 ^ 32)
    (other : count ≠ cnt) (again : List Byte) :
    signedPdu mac data count ≠ signedPdu mac again cnt := by
  intro same
  have fronts := congrArg (fun pdu => pdu.take (pdu.length - 8)) same
  simp only [front_signedPdu] at fronts
  exact other (signCount_inj fits small (append_inj_right' fronts rfl))

/-- A byte that is changed is one of the message or one of the MAC. -/
theorem altered_rejected {place : Nat} {byte : Byte}
    (tells : Distinguishes mac place byte (signedPdu mac data count))
    (changed : (signedPdu mac data count).set place byte ≠ signedPdu mac data count)
    (again : List Byte) :
    (signedPdu mac data count).set place byte ≠ signedPdu mac again cnt := by
  intro accepted
  unfold Distinguishes at tells
  simp only [front_signedPdu] at tells
  apply changed
  unfold signedPdu at accepted ⊢
  generalize data ++ signCount count = message at accepted tells ⊢
  generalize again ++ signCount cnt = claimed at accepted
  by_cases inside : place < message.length
  · rw [set_append_left _ _ inside] at accepted ⊢
    obtain ⟨same, tails⟩ := append_inj' accepted
      (by rw [Vector.length_toList, Vector.length_toList])
    rw [tells (by rw [same]; exact Vector.toList_inj.mp tails.symm)]
  · rw [set_append_right _ _ (not_lt.mp inside)] at accepted ⊢
    obtain ⟨same, tails⟩ := append_inj' accepted
      (by rw [length_set, Vector.length_toList, Vector.length_toList])
    rw [tails, same]

end Signature

namespace SignedLink

variable {state : SignedLink}

/-- The counts of both sides agree up to the PDUs on their way, and PDU number
`k` was signed with count `k`. -/
structure Synced (mac : List Byte → Vector Byte 16) (state : SignedLink) : Prop where
  code : ∀ buf ∈ state.queue, buf.code = AttOp.signedWriteCmd.code
  remote : state.remote = state.delivered.length
  cnt : state.cnt = state.remote + state.wire.length
  small : state.cnt < 2 ^ 32
  signed : ∀ k pdu, state.signed[k]? = some pdu → ∃ data, pdu = signedPdu mac data k

theorem chanSendBuf_enhanced {answer : LowerAnswer} {cnt : Nat} {bearer : SendBearer}
    {buf : PduBuf} (enhanced : bearer.enhanced = true)
    (code : buf.code = AttOp.signedWriteCmd.code) :
    (chanSendBuf answer cnt bearer buf .none).result = .error buf ∧
      (chanSendBuf answer cnt bearer buf .none).cnt = cnt := by
  unfold chanSendBuf chanSendEnhanced
  rw [if_pos enhanced]
  split
  · exact ⟨rfl, rfl⟩
  · exact ⟨rfl, rfl⟩

theorem chanSendBuf_signed {room : Vector Byte 8} {cnt : Nat} {bearer : SendBearer}
    {buf : PduBuf} (fixed : bearer.enhanced = false)
    (code : buf.code = AttOp.signedWriteCmd.code) :
    let ended := chanSendBuf ⟨signing mac true room buf.data cnt, true, none⟩ cnt
      bearer buf .none
    ended.result = .ok (signedPdu mac buf.data cnt) ∧
      ended.cnt = (cnt + 1) % 2 ^ 32 := by
  have plain : ¬bearer.enhanced = true := by
    rw [fixed]
    nofun
  unfold chanSendBuf chanSendFixed btSmpSign signing signedPdu
  rw [if_neg plain, if_pos code, append_assoc]
  exact ⟨rfl, rfl⟩

section

variable (synced : state.Synced mac)
include synced

theorem Synced.popped {queue : List PduBuf} (fewer : queue ⊆ state.queue) :
    { state with queue := queue }.Synced mac :=
  ⟨fun buf member => synced.code buf (fewer member), synced.remote, synced.cnt,
    synced.small, synced.signed⟩

theorem Synced.long {index : Nat}
    (found : state.signed[index]? = some pdu) : 12 ≤ pdu.length := by
  obtain ⟨_, rfl⟩ := synced.signed index pdu found
  rw [length_signedPdu]
  omega

theorem Synced.rejected (long : 12 ≤ pdu.length)
    (wrong : ∀ data, pdu ≠ signedPdu mac data state.remote) :
    (∀ evt ∈ (state.receive mac false true pdu).2, evt.Sound) ∧
      (state.receive mac false true pdu).1.Synced mac := by
  constructor
  · exact forall_mem_singleton.mpr
      (verified_sound long (iff_of_false (wrong _) nofun))
  · have still : (btSmpSignVerify (aesCmac mac true) state.remote pdu).cnt =
        state.remote := by
      rw [btSmpSignVerify_eq long]
      simp only
      rw [if_neg (wrong _)]
    unfold receive
    simp only [still]
    exact synced

theorem Synced.deliver {rest : List (List Byte)} (wire : state.wire = pdu :: rest) :
    let arrived := { state with
      wire := rest, delivered := state.delivered ++ [pdu] }.receive mac true true pdu
    (∀ evt ∈ arrived.2, evt.Sound) ∧ arrived.1.Synced mac := by
  have place : state.signed[state.delivered.length]? = some pdu := by
    unfold SignedLink.signed
    rw [getElem?_append_right (le_refl _), Nat.sub_self, wire]
    rfl
  obtain ⟨_, made⟩ := synced.signed _ pdu place
  rw [← synced.remote] at made
  have long := synced.long place
  have same : pdu = signedPdu mac (pdu.take (pdu.length - 12)) state.remote := by
    conv_rhs => rw [made, take_signedPdu]
    exact made
  have behind := synced.cnt
  rw [wire, length_cons] at behind
  constructor
  · exact forall_mem_singleton.mpr (verified_sound long (iff_of_true same rfl))
  · have counted : (btSmpSignVerify (aesCmac mac true) state.remote pdu).cnt =
        state.remote + 1 := by
      rw [btSmpSignVerify_eq long]
      simp only
      rw [if_pos same]
      have := synced.small
      exact Nat.mod_eq_of_lt (by omega)
    unfold receive
    simp only [counted]
    refine ⟨synced.code, ?_, ?_, synced.small, ?_⟩
    · rw [length_append, length_singleton, synced.remote]
    · change state.cnt = state.remote + 1 + rest.length
      omega
    · intro k other found
      apply synced.signed k other
      unfold SignedLink.signed at found ⊢
      rw [wire, ← found, append_assoc]
      rfl

theorem Synced.process {bearer : SendBearer} {room : Vector Byte 8}
    {works conn : Bool} (met : state.Meets mac (.process bearer works room conn)) :
    (∀ evt ∈ (state.step mac (.process bearer works room conn)).2, evt.Sound) ∧
      (state.step mac (.process bearer works room conn)).1.Synced mac := by
  unfold SignedLink.step
  cases queue : state.queue with
  | nil => exact ⟨nofun, synced⟩
  | cons buf =>
    have code := synced.code buf (queue ▸ mem_cons_self)
    rcases met with empty | met
    · rw [queue] at empty
      cases empty
    cases kind : bearer.enhanced with
    | true =>
      obtain ⟨same, count⟩ := @chanSendBuf_enhanced
        ⟨signing mac works room buf.data state.cnt, conn, none⟩ state.cnt _ _ kind code
      simp only [same, count]
      refine ⟨forall_mem_singleton.mpr (prefix_refl _), ?_⟩
      exact synced.popped (queue ▸ Subset.refl _)
    | false =>
      obtain ⟨rfl, rfl, fits⟩ := met.resolve_left (by rw [kind]; nofun)
      obtain ⟨same, count⟩ := @chanSendBuf_signed mac room state.cnt _ _ kind code
      rw [Nat.mod_eq_of_lt fits] at count
      simp only [same, count]
      constructor
      · refine forall_mem_singleton.mpr ?_
        change buf.data <+: signedPdu mac buf.data state.cnt
        unfold signedPdu
        rw [append_assoc]
        exact prefix_append ..
      · refine ⟨?_, synced.remote, ?_, fits, ?_⟩
        · exact fun other member => synced.code other
            (queue ▸ mem_cons_of_mem buf member)
        · change state.cnt + 1 = state.remote + (state.wire ++ [_]).length
          rw [length_append, length_singleton, synced.cnt]
          rfl
        · intro k pdu found
          have total : state.signed.length = state.cnt := by
            unfold SignedLink.signed
            rw [length_append, synced.cnt, synced.remote]
          have found : (state.signed ++ [signedPdu mac buf.data state.cnt])[k]? =
              some pdu := by
            rw [← found]
            exact congrArg (·[k]?) (append_assoc ..)
          rcases lt_trichotomy k state.cnt with _ | rfl | _
          · rw [getElem?_append_left (by omega)] at found
            exact synced.signed k pdu found
          · rw [← total, getElem?_concat_length, total] at found
            exact ⟨_, (some.inj found).symm⟩
          · rw [getElem?_eq_none (by rw [length_append, length_singleton]; omega)]
              at found
            cases found

theorem Synced.step {input : SignedLinkInput} (met : state.Meets mac input) :
    (∀ evt ∈ (state.step mac input).2, evt.Sound) ∧
      (state.step mac input).1.Synced mac := by
  cases input with
  | write =>
    refine ⟨nofun, ?_, synced.remote, synced.cnt, synced.small, synced.signed⟩
    intro buf member
    rcases mem_append.mp member with old | new
    · exact synced.code buf old
    · rw [mem_singleton.mp new]
      rfl
  | process => exact synced.process met
  | drop => exact ⟨nofun, synced.popped (tail_subset _)⟩
  | linkDown =>
    have none : state.wire = [] := met
    refine ⟨nofun, ?_⟩
    simp only [SignedLink.step, ← none]
    exact synced.popped (nil_subset _)
  | deliver works =>
    obtain rfl : works = true := met
    unfold SignedLink.step
    cases wire : state.wire with
    | nil => exact ⟨nofun, synced⟩
    | cons => exact synced.deliver wire
  | again index works =>
    obtain rfl : works = true := met
    simp only [SignedLink.step]
    cases found : state.delivered[index]? with
    | none => exact ⟨nofun, synced⟩
    | some pdu =>
      have inside := (List.getElem?_eq_some_iff.mp found).1
      have place : state.signed[index]? = some pdu :=
        (getElem?_append_left inside).trans found
      have behind := synced.cnt
      have small := synced.small
      obtain ⟨data, rfl⟩ := synced.signed index pdu place
      refine synced.rejected (synced.long place) ?_
      rw [synced.remote] at behind ⊢
      exact repeated_rejected (by omega) (by omega) (by omega)
  | altered index place byte works =>
    obtain ⟨rfl, tells⟩ := met
    simp only [SignedLink.step]
    cases found : state.signed[index]? with
    | none => exact ⟨nofun, synced⟩
    | some pdu =>
      simp only
      split
      · exact ⟨nofun, synced⟩
      · rename_i changed
        refine synced.rejected ?_ ?_
        · rw [length_set]
          exact synced.long found
        · obtain ⟨data, rfl⟩ := synced.signed index pdu found
          exact altered_rejected (tells _ found) changed

end

theorem synced_paired : paired.Synced mac :=
  ⟨nofun, rfl, rfl, by decide, nofun⟩

end SignedLink

/-- In every run of two devices that have just bonded, as long as no buffer that
was signed is refused by L2CAP. -/
theorem signed_writes_verified (mac : List Byte → Vector Byte 16)
    (inputs : List SignedLinkInput)
    (along : (signedLinkMachine mac).Along (SignedLink.Meets mac) .paired inputs) :
    ∀ evt ∈ (signedLinkMachine mac).trace .paired inputs, evt.Sound :=
  Machine.trace_of_along (fun _ _ synced met => synced.step met)
    SignedLink.synced_paired along

section Example

def shortMac (message : List Byte) : Vector Byte 16 :=
  .ofFn fun place => message.getD place 0

def leBearer : SendBearer := ⟨false, 23, false, false, false, .none, [], []⟩

def leRoom : Vector Byte 8 := .replicate 8 0

theorem signed_writes_verified_once : leRoom.toList.length = 8 ∧
    ∀ evt ∈ (signedLinkMachine shortMac).trace .paired [.write 3 [7],
      .process leBearer true leRoom true, .deliver true, .again 0 true,
      .altered 0 3 9 true], evt.Sound :=
  ⟨rfl, signed_writes_verified shortMac _ (by decide +kernel)⟩

/-- The buffer that L2CAP refused is signed a second time, behind its first
signature, and the receiver expects another count. -/
theorem signed_write_retry : ¬∀ evt ∈ (signedLinkMachine shortMac).trace .paired
    [.write 3 [7], .process leBearer true leRoom false,
      .process leBearer true leRoom true, .deliver true], evt.Sound := by
  decide +kernel

end Example

end ZephyrBluetooth.Host
