import ZephyrBluetooth.Data.Machine
import ZephyrBluetooth.Host.NetBuf

namespace ZephyrBluetooth.Host

open Data List

variable {front : List Byte}

def aclCont : BitVec 8 := 0x01

def aclStart : BitVec 8 := 0x02

/-- A packet for `bt_acl_recv`.  `size` is the room of its buffer from the data
on; lengths and sizes of buffers have 16 bits. -/
structure AclPacket where
  flags : BitVec 8
  data : List Byte
  size : Nat
  within : data.length ≤ size
  size_lt : size < 2 ^ 16

/-- A call of `bt_l2cap_recv`. -/
structure L2capRecv where
  data : List Byte
  complete : Bool
  deriving DecidableEq

/-- `sys_get_le16(rx->data)`. -/
def l2capLen : List Byte → Nat
  | low :: high :: _ => low.toNat + 256 * high.toNat
  | _ => 0

def aclTotalLen (data : List Byte) : Nat := (l2capLen data + 4) % 2 ^ 16

namespace AclPacket

/-- What `conn->rx` holds once the packet is in it. -/
def gathered (packet : AclPacket) (rx : Option Frag) : Option Frag :=
  if packet.flags = aclStart then some ⟨packet.data, packet.size⟩
  else if packet.flags = aclCont then
    match rx with
    | none => none
    | some frag =>
      if packet.data = [] then none
      else if frag.tailroom < packet.data.length then none
      else some { frag with data := frag.data ++ packet.data }
  else none

/-- Where nothing is gathered: `conn->rx` after the packet, and a frame without
room for it. -/
def dropped (packet : AclPacket) (rx : Option Frag) :
    Option Frag × List L2capRecv :=
  if packet.flags = aclCont then
    match rx with
    | none => (none, [])
    | some frag =>
      if packet.data = [] then (some frag, []) else (none, [⟨frag.data, false⟩])
  else (none, [])

end AclPacket

/-- The end of `bt_acl_recv`. -/
def aclFinish (frag : Frag) : Option Frag × List L2capRecv :=
  if frag.data.length < 2 then (some frag, [])
  else if frag.data.length < aclTotalLen frag.data then (some frag, [])
  else if aclTotalLen frag.data < frag.data.length then (none, [])
  else (none, [⟨frag.data, true⟩])

def btAclRecv (rx : Option Frag) (packet : AclPacket) :
    Option Frag × List L2capRecv :=
  match packet.gathered rx with
  | some frag => aclFinish frag
  | none => packet.dropped rx

def aclMachine : Machine (Option Frag) AclPacket L2capRecv := ⟨btAclRecv⟩

/-- A buffer that is passed on as complete has the length its header tells. -/
def L2capRecv.Whole (recv : L2capRecv) : Prop :=
  recv.complete = true → recv.data.length = 4 + l2capLen recv.data

def RxFits (rx : Option Frag) : Prop :=
  ∀ frag ∈ rx, frag.data.length ≤ frag.size

/-- The packets carry the pieces of one PDU that fits in the first buffer. -/
structure CutOf (pdu : List Byte) (first : AclPacket) (conts : List AclPacket) :
    Prop where
  start : first.flags = aclStart
  continued : ∀ cont ∈ conts, cont.flags = aclCont
  pieces : first.data ++ conts.flatMap AclPacket.data = pdu
  length : pdu.length = 4 + l2capLen pdu
  fits : pdu.length ≤ first.size

/-- What is passed on as complete is whole, `conn->rx` stays in its buffer, and a
PDU that comes in pieces is passed on once, whatever came before. -/
structure Reassembles (packets : List AclPacket) : Prop where
  whole : ∀ recv ∈ aclMachine.trace none packets, recv.Whole
  fits : aclMachine.Always RxFits none packets
  inverts : ∀ pdu first conts, CutOf pdu first conts →
    aclMachine.trace (aclMachine.run none packets) (first :: conts) = [⟨pdu, true⟩]

/-- The frame gathered is two or three bytes long and its length field is so large
that the sum with the header size comes to just that. -/
def Wraps (data : List Byte) : Prop :=
  data.length = 2 ∧ l2capLen data = 0xfffe ∨ data.length = 3 ∧ l2capLen data = 0xffff

def Unwrapped (rx : Option Frag) (packet : AclPacket) : Prop :=
  ∀ frag ∈ packet.gathered rx, ¬ Wraps frag.data

variable {rx : Option Frag} {packet : AclPacket} {frag : Frag}

theorem l2capLen_le (data : List Byte) : l2capLen data ≤ 0xffff := by
  unfold l2capLen
  split
  · rename_i low high _
    have low := low.isLt
    have high := high.isLt
    omega
  · exact Nat.zero_le _

theorem l2capLen_append (two : 2 ≤ front.length) (rest : List Byte) :
    l2capLen (front ++ rest) = l2capLen front := by
  match front with
  | _ :: _ :: _ => rfl
  | [] => exact absurd two (by decide)
  | [_] => exact absurd two (by simp)

def RxOk (rx : Option Frag) : Prop :=
  ∀ frag ∈ rx, frag.data.length ≤ frag.size ∧ frag.size < 2 ^ 16

theorem gathered_ok (ok : RxOk rx) : RxOk (packet.gathered rx) := by
  intro frag member
  unfold AclPacket.gathered at member
  split at member
  · cases member
    exact ⟨packet.within, packet.size_lt⟩
  split at member
  · cases held : rx with
    | none =>
      rw [held] at member
      cases member
    | some before =>
      rw [held] at member
      simp only at member
      split at member
      · cases member
      split at member
      · cases member
      · rename_i roomy
        cases member
        obtain ⟨_, small⟩ := ok before held
        unfold Frag.tailroom at roomy
        refine ⟨?_, small⟩
        simp only [length_append]
        omega
  · cases member

theorem aclFinish_ok {frag : Frag}
    (ok : frag.data.length ≤ frag.size ∧ frag.size < 2 ^ 16) :
    RxOk (aclFinish frag).1 := by
  intro next member
  unfold aclFinish at member
  split at member
  · cases member
    exact ok
  split at member
  · cases member
    exact ok
  split at member <;> cases member

theorem dropped_ok (ok : RxOk rx) : RxOk (packet.dropped rx).1 := by
  intro frag member
  unfold AclPacket.dropped at member
  split at member
  · cases held : rx with
    | none =>
      rw [held] at member
      cases member
    | some =>
      rw [held] at member
      simp only at member
      split at member
      · cases member
        exact ok frag held
      · cases member
  · cases member

theorem btAclRecv_ok (ok : RxOk rx) (packet : AclPacket) :
    RxOk (btAclRecv rx packet).1 := by
  unfold btAclRecv
  cases found : packet.gathered rx with
  | none => exact dropped_ok ok
  | some frag => exact aclFinish_ok (gathered_ok ok frag found)

theorem aclFinish_whole {frag : Frag} (small : frag.data.length < 2 ^ 16) :
    (∀ recv ∈ (aclFinish frag).2, recv.Whole) ↔ ¬ Wraps frag.data := by
  have most := l2capLen_le frag.data
  unfold aclFinish Wraps
  by_cases short : frag.data.length < 2
  · rw [if_pos short]
    exact iff_of_true nofun (by omega)
  rw [if_neg short]
  by_cases open_ : frag.data.length < aclTotalLen frag.data
  · rw [if_pos open_]
    unfold aclTotalLen at open_
    exact iff_of_true nofun (by omega)
  rw [if_neg open_]
  by_cases long : aclTotalLen frag.data < frag.data.length
  · rw [if_pos long]
    unfold aclTotalLen at long
    exact iff_of_true nofun (by omega)
  rw [if_neg long]
  unfold aclTotalLen at open_ long
  unfold L2capRecv.Whole
  simp only [mem_singleton, forall_eq, true_imp_iff]
  omega

theorem btAclRecv_whole (ok : RxOk rx) (packet : AclPacket) :
    (∀ recv ∈ (btAclRecv rx packet).2, recv.Whole) ↔ Unwrapped rx packet := by
  unfold btAclRecv Unwrapped
  cases found : packet.gathered rx with
  | none =>
    refine iff_of_true ?_ nofun
    intro recv member
    unfold AclPacket.dropped at member
    simp only at member
    split at member
    · split at member
      · cases member
      split at member
      · cases member
      · cases mem_singleton.mp member
        exact nofun
    · cases member
  | some frag =>
    obtain ⟨within, small⟩ := gathered_ok ok frag found
    rw [aclFinish_whole (lt_of_le_of_lt within small)]
    simp

section Pieces

variable {pdu : List Byte} {conts : List AclPacket}

theorem acl_trace_cons (rx : Option Frag) (packet : AclPacket)
    (rest : List AclPacket) :
    aclMachine.trace rx (packet :: rest) = (btAclRecv rx packet).2 ++
      aclMachine.trace (btAclRecv rx packet).1 rest := rfl

theorem trace_conts_empty (flags : ∀ cont ∈ conts, cont.flags = aclCont) :
    aclMachine.trace none conts = [] := by
  induction conts with
  | nil => rfl
  | cons cont rest ih =>
    have own := flags cont mem_cons_self
    have skipped : btAclRecv none cont = (none, []) := by
      unfold btAclRecv AclPacket.gathered AclPacket.dropped
      simp [own, aclCont, aclStart]
    rw [acl_trace_cons, skipped]
    exact ih fun other member => flags other (mem_cons_of_mem _ member)

theorem aclFinish_part {rest : List Byte} (whole : front ++ rest = pdu)
    (length : pdu.length = 4 + l2capLen pdu) (small : pdu.length < 2 ^ 16)
    (size : Nat) :
    aclFinish ⟨front, size⟩ =
      if rest = [] then (none, [⟨pdu, true⟩]) else (some ⟨front, size⟩, []) := by
  have lengths := congrArg List.length whole
  rw [length_append] at lengths
  unfold aclFinish
  by_cases short : front.length < 2
  · rw [if_pos short, if_neg]
    rintro rfl
    rw [length_nil] at lengths
    omega
  rw [if_neg short]
  have same : l2capLen front = l2capLen pdu := by
    rw [← whole, l2capLen_append (not_lt.mp short)]
  have total : aclTotalLen front = pdu.length := by
    unfold aclTotalLen
    omega
  simp only [total]
  by_cases last : rest = []
  · subst last
    rw [length_nil, add_zero] at lengths
    rw [append_nil] at whole
    rw [if_neg (not_lt.mpr (le_of_eq lengths.symm)),
      if_neg (not_lt.mpr (le_of_eq lengths)), if_pos rfl, whole]
  · have some := length_pos_of_ne_nil last
    rw [if_pos (by omega), if_neg last]

theorem trace_conts {size : Nat} (flags : ∀ cont ∈ conts, cont.flags = aclCont)
    (whole : front ++ conts.flatMap AclPacket.data = pdu)
    (waits : conts.flatMap AclPacket.data ≠ [])
    (length : pdu.length = 4 + l2capLen pdu) (fits : pdu.length ≤ size)
    (small : size < 2 ^ 16) :
    aclMachine.trace (some ⟨front, size⟩) conts = [⟨pdu, true⟩] := by
  induction conts generalizing front with
  | nil => exact absurd rfl waits
  | cons cont rest ih =>
    have own := flags cont mem_cons_self
    have later : ∀ other ∈ rest, other.flags = aclCont :=
      fun other member => flags other (mem_cons_of_mem _ member)
    rw [flatMap_cons] at whole waits
    rw [acl_trace_cons]
    by_cases empty : cont.data = []
    · have skipped : btAclRecv (some ⟨front, size⟩) cont =
          (some ⟨front, size⟩, []) := by
        unfold btAclRecv AclPacket.gathered AclPacket.dropped
        simp [own, aclCont, aclStart, empty]
      rw [skipped]
      rw [empty, nil_append] at whole waits
      exact ih later whole waits
    · have lengths := congrArg List.length whole
      simp only [length_append] at lengths
      have room : ¬ (⟨front, size⟩ : Frag).tailroom < cont.data.length := by
        unfold Frag.tailroom
        simp only
        omega
      have added : btAclRecv (some ⟨front, size⟩) cont =
          aclFinish ⟨front ++ cont.data, size⟩ := by
        unfold btAclRecv AclPacket.gathered
        simp [own, aclCont, aclStart, empty, room]
      rw [← append_assoc] at whole
      rw [added, aclFinish_part whole length (lt_of_le_of_lt fits small)]
      by_cases last : rest.flatMap AclPacket.data = []
      · rw [if_pos last]
        rw [trace_conts_empty later]
        rfl
      · rw [if_neg last]
        exact ih later whole last

theorem trace_cut {first : AclPacket} (cut : CutOf pdu first conts)
    (rx : Option Frag) :
    aclMachine.trace rx (first :: conts) = [⟨pdu, true⟩] := by
  have small := lt_of_le_of_lt cut.fits first.size_lt
  have started : btAclRecv rx first = aclFinish ⟨first.data, first.size⟩ := by
    unfold btAclRecv AclPacket.gathered
    rw [if_pos cut.start]
  rw [acl_trace_cons, started, aclFinish_part cut.pieces cut.length small]
  by_cases last : conts.flatMap AclPacket.data = []
  · rw [if_pos last]
    rw [trace_conts_empty cut.continued]
    rfl
  · rw [if_neg last]
    exact trace_conts cut.continued cut.pieces last cut.length cut.fits first.size_lt

end Pieces

/-- A run reassembles what it is given exactly when no frame of two or three bytes
is taken for complete because the sum of its length and the header has wrapped. -/
theorem acl_reassembles_iff (packets : List AclPacket) :
    Reassembles packets ↔ aclMachine.Along Unwrapped none packets := by
  have whole := @Machine.trace_iff_along_of _ _ _ aclMachine RxOk L2capRecv.Whole
    Unwrapped (fun _ packet ok => btAclRecv_ok ok packet)
    (fun _ packet ok => btAclRecv_whole ok packet) none nofun packets
  constructor
  · exact fun reassembles => whole.mp reassembles.whole
  · intro along
    refine ⟨whole.mpr along, ?_, fun pdu first conts cut => trace_cut cut _⟩
    have kept := @Machine.always_of_kept _ _ _ aclMachine RxOk
      (fun _ packet ok => btAclRecv_ok ok packet) none packets nofun
    exact kept.mono fun rx ok frag member => (ok frag member).1

def wrappedPacket : AclPacket := ⟨aclStart, [0xfe, 0xff], 100, by decide, by decide⟩

theorem acl_passes_wrapped : ¬ Reassembles [wrappedPacket] := by
  intro reassembles
  have short := reassembles.whole ⟨[0xfe, 0xff], true⟩ (by decide) rfl
  revert short
  decide

end ZephyrBluetooth.Host
