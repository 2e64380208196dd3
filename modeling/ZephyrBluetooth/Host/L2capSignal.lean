import ZephyrBluetooth.Host.Bytes
import ZephyrBluetooth.Host.L2capRequests

namespace ZephyrBluetooth.Host

open Function List Prod

variable {address ident index : Nat} {changed : L2capConn}

/-! The signalling commands as they arrive (`l2cap_recv`): what the handlers
take from the buffer and write to their arrays of channels. -/

/-- Taking `len` bytes off a buffer that holds `held`, or writing entry `index`
of an array of `size`. -/
inductive SigAccess where
  | pull (len held : Nat)
  | store (index size : Nat)
  deriving DecidableEq

def SigAccess.Inside : SigAccess → Prop
  | .pull len held => len ≤ held
  | .store index size => index < size

instance decidableInside : DecidablePred SigAccess.Inside
  | .pull len held => inferInstanceAs (Decidable (len ≤ held))
  | .store index size => inferInstanceAs (Decidable (index < size))

/-- What the memory holds from some address on: the payload of the command, and
what lies behind it. -/
def payloadWord (payload : List Byte) (behind : Nat → Byte) (offset : Nat) : Nat :=
  (payload.getD offset (behind offset)).toNat +
    256 * (payload.getD (offset + 1) (behind (offset + 1))).toNat

namespace L2cap

def sigConnParamReq : Nat := 0x12

def sigConnParamRsp : Nat := 0x13

def sigDisconnReq : Nat := 0x06

def sigDisconnRsp : Nat := 0x07

def sigLeConnReq : Nat := 0x14

def sigLeConnRsp : Nat := 0x15

def sigLeCredits : Nat := 0x16

def sigEcredConnReq : Nat := 0x17

def sigEcredConnRsp : Nat := 0x18

def sigEcredReconfReq : Nat := 0x19

def sigEcredReconfRsp : Nat := 0x1a

def sigSize (code : Nat) : Option Nat :=
  if code = sigConnParamRsp ∨ code = sigEcredReconfRsp then some 2
  else if code = sigDisconnReq ∨ code = sigDisconnRsp ∨ code = sigLeCredits ∨
      code = sigEcredReconfReq then some 4
  else if code = sigConnParamReq ∨ code = sigEcredConnReq ∨
      code = sigEcredConnRsp then some 8
  else if code = sigLeConnReq ∨ code = sigLeConnRsp then some 10
  else none

def cidsLeft (held : Nat) : Nat := held / 2

def Connects (result : Nat) : Prop :=
  result = success ∨ result = errInvalidScid ∨ result = errScidInUse ∨
    result = errNoResources

instance decidableConnects (result : Nat) : Decidable (Connects result) :=
  inferInstanceAs (Decidable (_ ∨ _ ∨ _ ∨ _))

end L2cap

/-- A command whose handler finds the structure it reads.  The words are those
of the payload and of what the memory holds behind it. -/
structure SigCommand where
  code : Nat
  ident : Nat
  size : Nat
  len : Nat
  word : Nat → Nat
  nonzero : ident ≠ 0
  whole : size ≤ len

variable {command : SigCommand}

/-- The checks of `l2cap_recv` and of the size in the handler. -/
def sigCommand (behind : Nat → Byte) : List Byte → Option SigCommand
  | code :: ident :: low :: high :: payload =>
    if payload.length ≠ low.toNat + 256 * high.toNat then none
    else if named : ident.toNat = 0 then none
    else
      match L2cap.sigSize code.toNat with
      | none => none
      | some size =>
        if whole : size ≤ payload.length then
          some ⟨code.toNat, ident.toNat, size, payload.length,
            payloadWord payload behind, named, whole⟩
        else none
  | _ => none

namespace L2capConn

open L2cap

variable (conn : L2capConn)

/-- One pass of the loop of `le_ecred_conn_rsp` for results with connected
channels. -/
def ecredPass (env : L2capEnv) (mtu mps credits dcid address : Nat) :
    L2capConn :=
  let canceled := conn.set address cancelRtx
  if dcid = 0 then
    (canceled.chanRemove address).chanDel address
  else
    match canceled.lookupTxCid dcid with
    | some other =>
      ((canceled.chanRemove address).chanDel address).chanDisconnect env other
    | none => canceled.set address (establish dcid mtu mps credits)

def ecredPulls (env : L2capEnv) (ident mtu mps credits : Nat)
    (dcids : Nat → Nat) : Nat → Nat → L2capConn → List Nat
  | 0, _, _ => []
  | fuel + 1, index, conn =>
    match conn.lookupIdent ident with
    | none => []
    | some address =>
      index :: ecredPulls env ident mtu mps credits dcids fuel (index + 1)
        (conn.ecredPass env mtu mps credits (dcids index) address)

/-- The loop of `le_ecred_conn_req`; an accepted channel and its CID go to
entries with the same index. -/
def connReqAccesses (held : Nat) : Nat → Nat → List SigAccess
  | 0, _ => []
  | count + 1, index =>
    .pull 2 (held - 2 * index) :: .store index ecredChanMax ::
      connReqAccesses held count (index + 1)

/-- The loop of `le_ecred_reconf_req`. -/
def reconfAccesses (mtu held : Nat) : Nat → List Nat → List SigAccess
  | _, [] => []
  | index, scid :: rest =>
    .pull 2 (held - 2 * index) :: match conn.lookupTxCid scid with
      | none => []
      | some address =>
        if mtu < (conn.chan address).tx.mtu then []
        else
          .store index ecredChanMax :: reconfAccesses mtu held (index + 1) rest

def payloadCids (word : Nat → Nat) (size held : Nat) : List Nat :=
  (List.range (cidsLeft held)).map fun index => word (size + 2 * index)

/-- What a handler does after its structure has been read; `fuel` bounds the
passes of the loop over the channels of an identifier. -/
def loopAccesses (env : L2capEnv) (fuel code ident : Nat) (word : Nat → Nat)
    (held : Nat) : List SigAccess :=
  if code = sigEcredConnReq then
    if 2 * ecredChanMax < held then []
    else if word 2 < ecredMinMtu ∨ word 4 < ecredMinMtu then []
    else
      match conn.serverLookupPsm (word 0) with
      | none => []
      | some server =>
        if conn.checkSecurity env server ≠ success then []
        else connReqAccesses held (cidsLeft held) 0
  else if code = sigEcredConnRsp then
    if Connects (word 6) then
      (ecredPulls env ident (word 0) (word 2) (word 4)
        (fun index => word (8 + 2 * index)) fuel 0 conn).map fun index =>
          .pull 2 (held - 2 * index)
    else []
  else if code = sigEcredReconfReq then
    if word 2 < ecredMinMtu ∨ word 0 < ecredMinMtu then []
    else conn.reconfAccesses (word 0) held 0 (payloadCids word 4 held)
  else []

/-- `l2cap_recv` and the handler of the command. -/
def recvAccesses (env : L2capEnv) (fuel : Nat) (behind : Nat → Byte)
    (pdu : List Byte) : List SigAccess :=
  if pdu.length < 4 then []
  else
    .pull 4 pdu.length :: match sigCommand behind pdu with
      | none => []
      | some command =>
        .pull command.size command.len ::
          conn.loopAccesses env fuel command.code command.ident command.word
            (command.len - command.size)

def ids : Nat → Nat × Nat := fun address =>
  ((conn.chan address).ident, (conn.chan address).tx.cid)

variable {conn}

theorem set_ids {change : LeChan → LeChan}
    (ident : ∀ chan, (change chan).ident = chan.ident)
    (cid : ∀ chan, (change chan).tx.cid = chan.tx.cid) :
    (conn.set address change).ids = conn.ids := by
  funext other
  unfold ids
  by_cases same : other = address
  · subst same
    rw [set_chan_self, ident, cid]
  · rw [set_chan_ne _ _ _ same]

theorem chanDisconnect_cid (conn : L2capConn) (env : L2capEnv)
    (address other : Nat) :
    ((conn.chanDisconnect env address).chan other).tx.cid =
      (conn.chan other).tx.cid := by
  have keep {later : L2capConn} {change : LeChan → LeChan}
      (before : (later.chan other).tx.cid = (conn.chan other).tx.cid)
      (same : ∀ chan, (change chan).tx.cid = chan.tx.cid) :
      ((later.set address change).chan other).tx.cid = (conn.chan other).tx.cid := by
    by_cases here : other = address
    · subst here
      rw [set_chan_self, same, before]
    · rw [set_chan_ne _ _ _ here, before]
  have numbered := @keep conn.getIdent (fun chan =>
    { chan with ident := conn.nextIdent }) rfl fun _ => rfl
  unfold chanDisconnect
  split
  · simp only
    split
    · refine keep ?_ fun _ => rfl
      unfold chanSendReq noteRequest
      split
      · exact keep (keep numbered fun _ => rfl) fun _ => rfl
      · exact numbered
    · exact numbered
  · rfl

inductive PassKind (conn : L2capConn) (dcid address : Nat)
    (changed : L2capConn) : Prop where
  | dropped (channels : changed.channels = conn.channels.erase address)
      (ids : changed.ids = conn.ids) (counter : changed.ident = conn.ident)
  | clashed (other : Nat) (nonzero : dcid ≠ 0) (listed : other ∈ conn.channels)
      (holds : (conn.ids other).2 = dcid)
      (channels : changed.channels = conn.channels.erase address)
      (ids : changed.ids = update conn.ids other (conn.nextIdent, dcid))
      (counter : changed.ident = conn.nextIdent)
  | opened (nonzero : dcid ≠ 0) (channels : changed.channels = conn.channels)
      (ids : changed.ids = update conn.ids address (0, dcid))
      (counter : changed.ident = conn.ident)

theorem ecredPass_kind (conn : L2capConn) (env : L2capEnv)
    (mtu mps credits dcid address : Nat) :
    conn.PassKind dcid address (conn.ecredPass env mtu mps credits dcid
      address) := by
  have canceledIds : (conn.set address cancelRtx).ids = conn.ids :=
    set_ids (fun _ => rfl) (fun _ => rfl)
  have goneIds : (((conn.set address cancelRtx).chanRemove address).chanDel
      address).ids = conn.ids := by
    have deleted : (((conn.set address cancelRtx).chanRemove address).chanDel
        address).ids = ((conn.set address cancelRtx).chanRemove address).ids :=
      set_ids (fun _ => rfl) (fun _ => rfl)
    exact deleted.trans canceledIds
  unfold ecredPass
  simp only
  split
  · exact .dropped rfl goneIds rfl
  rename_i nonzero
  split
  · rename_i other taken
    have listed := mem_of_find?_eq_some taken
    have equal := find?_some taken
    have found := of_decide_eq_true equal
    have holds : (conn.ids other).2 = dcid := by
      rw [← canceledIds]
      exact found
    generalize gone : ((conn.set address cancelRtx).chanRemove address).chanDel
      address = dropped at goneIds ⊢
    by_cases attached : (dropped.chan other).attached = true
    · have draws := chanDisconnect_draws env attached
      have sameNext : dropped.nextIdent = conn.nextIdent := by
        rw [← gone]
        rfl
      refine .clashed other nonzero listed holds ?_ ?_ ?_
      · rw [draws.channels, ← gone]
        rfl
      · funext later
        unfold ids
        by_cases same : later = other
        · subst same
          rw [update_self, draws.ident, sameNext, chanDisconnect_cid]
          have kept := congrFun goneIds later
          rw [← holds, ← kept]
          rfl
        · rw [update_of_ne same, draws.others later same]
          exact congrFun goneIds later
      · rw [draws.counter, sameNext]
    · have still : dropped.chanDisconnect env other = dropped := by
        unfold chanDisconnect
        rw [if_neg attached]
      rw [still]
      refine .dropped ?_ goneIds ?_
      · rw [← gone]
        rfl
      · rw [← gone]
        rfl
  · refine .opened nonzero rfl ?_ rfl
    funext later
    unfold ids
    by_cases same : later = address
    · subst same
      rw [update_self, set_chan_self]
      rfl
    · rw [update_of_ne same, set_chan_ne _ _ _ same]
      exact congrFun canceledIds later

def holders (conn : L2capConn) (ident : Nat) : Nat :=
  conn.channels.countP fun address => (conn.ids address).1 = ident

theorem lookupIdent_holds (found : conn.lookupIdent ident = some address) :
    address ∈ conn.channels ∧ (conn.ids address).1 = ident := by
  have carried := find?_some found
  exact ⟨mem_of_find?_eq_some found, of_decide_eq_true carried⟩

theorem countP_erase_pass {property : Nat → Bool} {channels : List Nat}
    {address : Nat} (listed : address ∈ channels)
    (holds : property address = true) :
    (channels.erase address).countP property + 1 = channels.countP property := by
  have some : 0 < channels.countP property :=
    countP_pos_iff.mpr ⟨address, listed, holds⟩
  rw [countP_erase, if_pos ⟨listed, holds⟩]
  omega

theorem PassKind.holders_lt {dcid : Nat} (kind : conn.PassKind dcid address changed)
    (found : conn.lookupIdent ident = some address) (nonzero : ident ≠ 0)
    (undrawn : ∀ other ∈ conn.channels, dcid ≠ 0 → (conn.ids other).2 = dcid →
      conn.nextIdent ≠ ident) :
    changed.holders ident + 1 ≤ conn.holders ident := by
  obtain ⟨listed, carries⟩ := lookupIdent_holds found
  have erased := @countP_erase_pass (fun address => (conn.ids address).1 = ident)
    _ _ listed (decide_eq_true carries)
  unfold holders
  cases kind with
  | dropped channels ids =>
    rw [channels, ids]
    exact erased.le
  | clashed other some member holds channels ids =>
    have drawn := undrawn other member some holds
    rw [channels, ids, ← erased]
    apply Nat.succ_le_succ
    apply countP_mono_left
    intro later _ held
    by_cases same : later = other
    · subst same
      rw [update_self] at held
      exact absurd (of_decide_eq_true held) drawn
    · rw [update_of_ne same] at held
      exact held
  | opened _ channels ids =>
    have zero : decide ((update conn.ids address (0, dcid) address).1 =
        ident) = false := by
      rw [update_self]
      exact decide_eq_false fun same => nonzero same.symm
    have kept := @countP_erase _ _ _ (fun later =>
      decide ((update conn.ids address (0, dcid) later).1 = ident))
      conn.channels address
    rw [zero, if_neg (fun both => Bool.false_ne_true both.2), Nat.sub_zero] at kept
    rw [channels, ids, ← erased, ← kept]
    apply Nat.succ_le_succ
    apply countP_mono_left
    intro later _ held
    by_cases same : later = address
    · subst same
      rw [zero] at held
      cases held
    · rw [update_of_ne same] at held
      exact held

theorem drawn_same (counter : changed.ident = conn.ident) (index : Nat) :
    changed.drawn index = conn.drawn index := by
  unfold drawn nextIdent
  rw [counter]

theorem drawn_next (counter : changed.ident = conn.nextIdent) (index : Nat) :
    changed.drawn index = conn.drawn (index + 1) := by
  rw [← drawn_getIdent]
  exact drawn_same counter index

def CidTaken (conn : L2capConn) (dcids : Nat → Nat) (index : Nat) : Prop :=
  dcids index ≠ 0 ∧
    ((∃ address ∈ conn.channels, (conn.ids address).2 = dcids index) ∨
      ∃ earlier < index, dcids earlier = dcids index)

/-- Disconnecting the channels whose CIDs the response repeats does not draw its
identifier again. -/
def Undrawn (conn : L2capConn) (ident : Nat) (dcids : Nat → Nat) : Prop :=
  ∀ index < conn.holders ident, conn.CidTaken dcids index →
    ∀ draw ≤ index, conn.drawn draw ≠ ident

structure Passing (start conn : L2capConn) (ident : Nat) (dcids : Nat → Nat)
    (index : Nat) : Prop where
  count : conn.holders ident + index ≤ start.holders ident
  cids : ∀ address ∈ conn.channels,
    (∃ first ∈ start.channels, (start.ids first).2 = (conn.ids address).2) ∨
      ∃ earlier < index, dcids earlier = (conn.ids address).2
  draws : ∃ draw ≤ index, ∀ later, conn.drawn later = start.drawn (draw + later)

theorem Passing.start (conn : L2capConn) (ident : Nat) (dcids : Nat → Nat) :
    Passing conn conn ident dcids 0 where
  count := le_refl _
  cids address listed := .inl ⟨address, listed, rfl⟩
  draws := ⟨0, le_refl _, fun later => by rw [zero_add]⟩

theorem holders_pos (found : conn.lookupIdent ident = some address) :
    0 < conn.holders ident := by
  obtain ⟨listed, carries⟩ := lookupIdent_holds found
  exact countP_pos_iff.mpr ⟨address, listed, decide_eq_true carries⟩

theorem Passing.next {start : L2capConn} {dcids : Nat → Nat}
    (passing : Passing start conn ident dcids index)
    (undrawn : start.Undrawn ident dcids) (nonzero : ident ≠ 0)
    (found : conn.lookupIdent ident = some address)
    (kind : conn.PassKind (dcids index) address changed) :
    Passing start changed ident dcids (index + 1) := by
  have some := holders_pos found
  have count := passing.count
  obtain ⟨draw, early, draws⟩ := passing.draws
  have notDrawn : ∀ other ∈ conn.channels, dcids index ≠ 0 →
      (conn.ids other).2 = dcids index → conn.nextIdent ≠ ident := by
    intro other listed used holds
    have taken : start.CidTaken dcids index := by
      refine ⟨used, ?_⟩
      rw [← holds]
      exact passing.cids other listed
    rw [← drawn_zero, draws]
    exact undrawn index (by omega) taken (draw + 0) early
  have fewer := kind.holders_lt found nonzero notDrawn
  have listedBefore : ∀ other, other ∈ conn.channels.erase address →
      other ∈ conn.channels := fun other => mem_of_mem_erase
  refine ⟨by omega, ?_, ?_⟩
  · intro other listed
    have grown (inConn : other ∈ conn.channels)
        (same : (changed.ids other).2 = (conn.ids other).2) :
        (∃ first ∈ start.channels, (start.ids first).2 = (changed.ids other).2) ∨
            ∃ earlier < index + 1, dcids earlier = (changed.ids other).2 := by
      rw [same]
      rcases passing.cids other inConn with first | ⟨earlier, before, equal⟩
      · exact .inl first
      · exact .inr ⟨earlier, Nat.lt_succ_of_lt before, equal⟩
    cases kind with
    | dropped channels ids =>
      rw [channels] at listed
      exact grown (listedBefore other listed) (by rw [ids])
    | clashed twin _ _ holds channels ids =>
      rw [channels] at listed
      refine grown (listedBefore other listed) ?_
      rw [ids]
      by_cases same : other = twin
      · subst same
        rw [update_self]
        exact holds.symm
      · rw [update_of_ne same]
    | opened _ channels ids =>
      by_cases same : other = address
      · subst same
        refine .inr ⟨index, Nat.lt_succ_self index, ?_⟩
        rw [ids, update_self]
      · rw [channels] at listed
        refine grown listed ?_
        rw [ids, update_of_ne same]
  · cases kind with
    | dropped _ _ counter =>
      exact ⟨draw, Nat.le_succ_of_le early, fun later => by
        rw [drawn_same counter, draws]⟩
    | clashed _ _ _ _ _ _ counter =>
      refine ⟨draw + 1, Nat.succ_le_succ early, fun later => ?_⟩
      rw [drawn_next counter, draws]
      congr 1
      omega
    | opened _ _ _ counter =>
      exact ⟨draw, Nat.le_succ_of_le early, fun later => by
        rw [drawn_same counter, draws]⟩

theorem Passing.pulls_lt {start : L2capConn} {dcids : Nat → Nat}
    (undrawn : start.Undrawn ident dcids) (nonzero : ident ≠ 0) (env : L2capEnv)
    (mtu mps credits fuel : Nat) {conn : L2capConn}
    (passing : Passing start conn ident dcids index) :
    ∀ pulled ∈ ecredPulls env ident mtu mps credits dcids fuel index conn,
      pulled < start.holders ident := by
  induction fuel generalizing index conn with
  | zero => exact nofun
  | succ fuel ih =>
    intro pulled member
    unfold ecredPulls at member
    split at member
    · cases member
    rename_i address found
    have some := holders_pos found
    have count := passing.count
    rcases mem_cons.mp member with rfl | later
    · omega
    · exact ih (passing.next undrawn nonzero found
        (ecredPass_kind conn env mtu mps credits _ address)) pulled later

def waiters (conn : L2capConn) (ident : Nat) : Nat :=
  conn.channels.countP fun address => conn.ids address = (ident, 0)

theorem PassKind.waiters_le {dcid : Nat} (kind : conn.PassKind dcid address changed)
    (nodup : conn.channels.Nodup) (ident : Nat) :
    conn.waiters ident ≤ changed.waiters ident + 1 ∧ changed.channels.Nodup := by
  have erased := @countP_erase _ _ _ (fun address =>
    decide (conn.ids address = (ident, 0))) conn.channels address
  have less : conn.waiters ident ≤ (conn.channels.erase address).countP
      (fun address => decide (conn.ids address = (ident, 0))) + 1 := by
    unfold waiters
    rw [erased]
    split <;> omega
  cases kind with
  | dropped channels ids =>
    refine ⟨?_, by rw [channels]; exact nodup.erase address⟩
    unfold waiters at less ⊢
    rw [channels, ids]
    exact less
  | clashed other nonzero _ holds channels ids =>
    refine ⟨?_, by rw [channels]; exact nodup.erase address⟩
    refine less.trans (Nat.succ_le_succ ?_)
    unfold waiters
    rw [channels]
    apply countP_mono_left
    intro later _ waits
    have equal := of_decide_eq_true waits
    apply decide_eq_true
    rw [ids, update_of_ne]
    · exact equal
    · intro same
      rw [same] at equal
      rw [equal] at holds
      exact nonzero holds.symm
  | opened _ channels ids =>
    refine ⟨?_, by rw [channels]; exact nodup⟩
    refine less.trans (Nat.succ_le_succ ?_)
    unfold waiters
    rw [channels]
    refine le_trans (countP_mono_left ?_) (List.Sublist.countP_le erase_sublist)
    intro later listed waits
    have different : later ≠ address := ((nodup.mem_erase_iff).mp listed).1
    apply decide_eq_true
    rw [ids, update_of_ne different]
    exact of_decide_eq_true waits

theorem mem_ecredPulls (env : L2capEnv) (ident mtu mps credits : Nat)
    (dcids : Nat → Nat) (fuel : Nat) {index : Nat} {conn : L2capConn}
    (nodup : conn.channels.Nodup) {later : Nat} (waits : later < conn.waiters ident)
    (enough : later < fuel) :
    index + later ∈ ecredPulls env ident mtu mps credits dcids fuel index conn := by
  induction fuel generalizing index later conn with
  | zero => cases enough
  | succ fuel ih =>
    unfold ecredPulls
    split
    · rename_i none
      obtain ⟨address, listed, holds⟩ := countP_pos_iff.mp (Nat.zero_lt_of_lt waits)
      have carries : (conn.chan address).ident = ident :=
        congrArg fst (of_decide_eq_true holds)
      have missing := find?_eq_none.mp none address listed
      exact absurd carries (by simpa using missing)
    · rename_i address found
      cases later with
      | zero => exact mem_cons_self
      | succ later =>
        have kind := ecredPass_kind conn env mtu mps credits (dcids index) address
        obtain ⟨_, still⟩ := kind.waiters_le nodup ident
        apply mem_cons_of_mem
        have shifted : index + (later + 1) = index + 1 + later := by omega
        rw [shifted]
        exact ih still (by omega) (Nat.lt_of_succ_lt_succ enough)

theorem pull_inside (held index : Nat) :
    (SigAccess.pull 2 (held - 2 * index)).Inside ↔ index < cidsLeft held := by
  unfold SigAccess.Inside cidsLeft
  omega

theorem connReqAccesses_inside {held : Nat} (few : held ≤ 2 * ecredChanMax)
    (count : Nat) (within : index + count ≤ cidsLeft held) :
    ∀ access ∈ connReqAccesses held count index, access.Inside := by
  induction count generalizing index with
  | zero => exact nofun
  | succ count ih =>
    have here : index < cidsLeft held := by omega
    unfold connReqAccesses
    rw [forall_mem_cons, forall_mem_cons]
    refine ⟨(pull_inside held index).mpr here, ?_, ih (by omega)⟩
    unfold cidsLeft ecredChanMax at *
    change index < 5
    omega

def Targets (conn : L2capConn) (mtu scid : Nat) : Prop :=
  ∃ address, conn.lookupTxCid scid = some address ∧ (conn.chan address).tx.mtu ≤ mtu

def Overfills (conn : L2capConn) (mtu room : Nat) (scids : List Nat) : Prop :=
  room < scids.length ∧ ∀ scid ∈ scids.take (room + 1), conn.Targets mtu scid

theorem reconfAccesses_inside (conn : L2capConn) (mtu held : Nat) (scids : List Nat)
    (room : index ≤ ecredChanMax) (within : index + scids.length ≤ cidsLeft held) :
    (∀ access ∈ conn.reconfAccesses mtu held index scids, access.Inside) ↔
      ¬ conn.Overfills mtu (ecredChanMax - index) scids := by
  induction scids generalizing index with
  | nil =>
    refine iff_of_true ?_ ?_
    · intro _ impossible
      cases impossible
    · intro overfills
      cases overfills.1
  | cons scid rest ih =>
    have here := (pull_inside held index).mpr (by rw [length_cons] at within; omega)
    have first (overfills : conn.Overfills mtu (ecredChanMax - index)
        (scid :: rest)) : conn.Targets mtu scid :=
      overfills.2 scid (by rw [take_succ_cons]; exact mem_cons_self)
    unfold reconfAccesses
    rw [forall_mem_cons, and_iff_right here]
    split
    · rename_i absent
      refine iff_of_true nofun ?_
      intro overfills
      obtain ⟨address, found, _⟩ := first overfills
      rw [absent] at found
      cases found
    · rename_i address found
      split
      · rename_i decreased
        refine iff_of_true nofun ?_
        intro overfills
        obtain ⟨other, same, kept⟩ := first overfills
        rw [found] at same
        cases same
        omega
      · rename_i kept
        have targets : conn.Targets mtu scid := ⟨address, found, not_lt.mp kept⟩
        rw [forall_mem_cons]
        by_cases full : index = ecredChanMax
        · refine iff_of_false ?_ ?_
          · rintro ⟨stored, _⟩
            exact absurd stored (by rw [full]; exact lt_irrefl _)
          · refine not_not_intro ⟨?_, ?_⟩
            · rw [full, Nat.sub_self]
              exact Nat.succ_pos _
            · rw [full, Nat.sub_self]
              intro other member
              rw [take_succ_cons, take_zero] at member
              rw [mem_singleton.mp member]
              exact targets
        · have stored : (SigAccess.store index ecredChanMax).Inside :=
            lt_of_le_of_ne room full
          have less : ecredChanMax - index = ecredChanMax - (index + 1) + 1 := by
            have below : index < ecredChanMax := stored
            omega
          rw [length_cons] at within
          rw [and_iff_right stored, ih stored (by omega), less]
          unfold Overfills
          rw [take_succ_cons, forall_mem_cons, and_iff_right targets,
            length_cons, Nat.add_lt_add_iff_right]

/-- An enhanced response with connected channels has a destination CID for each
channel with its identifier, and a reconfiguration does not name more channels
than a command may. -/
structure Enough (conn : L2capConn) (command : SigCommand) : Prop where
  dcids : command.code = sigEcredConnRsp → Connects (command.word 6) →
    conn.holders command.ident ≤ cidsLeft (command.len - command.size)
  targets : command.code = sigEcredReconfReq → ecredMinMtu ≤ command.word 2 →
    ecredMinMtu ≤ command.word 0 →
    ¬ conn.Overfills (command.word 0) ecredChanMax
      (payloadCids command.word 4 (command.len - command.size))

def KeepsIdent (conn : L2capConn) (command : SigCommand) : Prop :=
  command.code = sigEcredConnRsp → Connects (command.word 6) →
    conn.Undrawn command.ident fun index => command.word (8 + 2 * index)

def Awaiting (conn : L2capConn) (command : SigCommand) : Prop :=
  command.code = sigEcredConnRsp → conn.channels.Nodup ∧
    ∀ address ∈ conn.channels, (conn.chan address).ident = command.ident →
      (conn.chan address).tx.cid = 0

theorem length_payloadCids (word : Nat → Nat) (size held : Nat) :
    (payloadCids word size held).length = cidsLeft held := by
  unfold payloadCids
  rw [length_map, length_range]

theorem holders_eq_waiters
    (fresh : ∀ address ∈ conn.channels, (conn.chan address).ident = ident →
      (conn.chan address).tx.cid = 0) :
    conn.holders ident = conn.waiters ident := by
  apply countP_congr
  intro address listed
  rw [decide_eq_true_eq, decide_eq_true_eq]
  constructor
  · intro carries
    exact Prod.ext carries (fresh address listed carries)
  · exact congrArg fst

def commandAccesses (conn : L2capConn) (env : L2capEnv) (fuel : Nat)
    (command : SigCommand) : List SigAccess :=
  conn.loopAccesses env fuel command.code command.ident command.word
    (command.len - command.size)

theorem commandAccesses_inside (env : L2capEnv) (fuel : Nat)
    (enough : conn.Enough command) (keeps : conn.KeepsIdent command) :
    ∀ access ∈ conn.commandAccesses env fuel command, access.Inside := by
  have silent : ∀ access ∈ ([] : List SigAccess), access.Inside :=
    nofun
  unfold commandAccesses loopAccesses
  split
  · split
    · exact silent
    rename_i few
    split
    · exact silent
    split
    · exact silent
    split
    · exact silent
    · exact connReqAccesses_inside (not_lt.mp few) _ (by rw [zero_add])
  · split
    · rename_i isRsp
      split
      · rename_i connects
        intro access member
        obtain ⟨index, pulled, rfl⟩ := mem_map.mp member
        have below := Passing.pulls_lt (keeps isRsp connects) command.nonzero env
          _ _ _ fuel (Passing.start conn _ _) index pulled
        exact (pull_inside _ index).mpr
          (below.trans_le (enough.dcids isRsp connects))
      · exact silent
    · split
      · rename_i isReq
        split
        · exact silent
        rename_i valid
        apply (reconfAccesses_inside conn _ _ _ (Nat.zero_le _)
          (by rw [length_payloadCids, zero_add])).mpr
        exact enough.targets isReq (by omega) (by omega)
      · exact silent

theorem enough_of_inside {env : L2capEnv} (awaiting : conn.Awaiting command)
    (inside : ∀ fuel, ∀ access ∈ conn.commandAccesses env fuel command,
      access.Inside) : conn.Enough command := by
  refine ⟨?_, ?_⟩
  · intro isRsp connects
    obtain ⟨nodup, fresh⟩ := awaiting isRsp
    rw [holders_eq_waiters fresh]
    cases count : conn.waiters command.ident with
    | zero => exact Nat.zero_le _
    | succ last =>
      have pulled := @mem_ecredPulls env command.ident (command.word 0)
        (command.word 2) (command.word 4)
        (fun index => command.word (8 + 2 * index)) (last + 1) 0 conn nodup last
        (by rw [count]; exact Nat.lt_succ_self last) (Nat.lt_succ_self last)
      rw [Nat.zero_add] at pulled
      apply (pull_inside _ last).mp
      apply inside (last + 1)
      unfold commandAccesses loopAccesses
      rw [isRsp, if_neg (by decide), if_pos rfl, if_pos connects]
      exact mem_map_of_mem pulled
  · intro isReq mps mtu
    apply (reconfAccesses_inside conn (command.word 0) _ _
      (Nat.zero_le ecredChanMax)
      (by rw [length_payloadCids, Nat.zero_add])).mp
    intro access member
    apply inside 0
    unfold commandAccesses loopAccesses
    rw [isReq, if_neg (by decide), if_neg (by decide), if_pos rfl, if_neg (by omega)]
    exact member

theorem recvAccesses_command (conn : L2capConn) (env : L2capEnv) (fuel : Nat)
    {behind : Nat → Byte} {pdu : List Byte}
    (parsed : sigCommand behind pdu = some command) :
    (∀ access ∈ conn.recvAccesses env fuel behind pdu, access.Inside) ↔
      ∀ access ∈ conn.commandAccesses env fuel command, access.Inside := by
  have header : ¬ pdu.length < 4 := by
    intro short
    unfold sigCommand at parsed
    split at parsed
    · simp only [length_cons] at short
      omega
    · cases parsed
  have named : (SigAccess.pull 4 pdu.length).Inside := not_lt.mp header
  have whole : (SigAccess.pull command.size command.len).Inside := command.whole
  unfold recvAccesses
  rw [if_neg header, parsed, forall_mem_cons, forall_mem_cons,
    and_iff_right named, and_iff_right whole]
  rfl

theorem recvAccesses_none (conn : L2capConn) (env : L2capEnv) (fuel : Nat)
    {behind : Nat → Byte} {pdu : List Byte}
    (ignored : sigCommand behind pdu = none) :
    ∀ access ∈ conn.recvAccesses env fuel behind pdu, access.Inside := by
  unfold recvAccesses
  split
  · exact nofun
  rename_i header
  rw [ignored, forall_mem_cons]
  exact ⟨not_lt.mp header, nofun⟩

end L2capConn

/-- The handler of a PDU takes no more than the buffer holds, and fills no array
beyond its end. -/
def PduInside (conn : L2capConn) (env : L2capEnv) (behind : Nat → Byte)
    (pdu : List Byte) : Prop :=
  ∀ fuel, ∀ access ∈ conn.recvAccesses env fuel behind pdu, access.Inside

/-- Handlers stay inside when a response has enough destination CIDs and a
reconfiguration has not too many channels; the first is needed as soon as the
channels of the response wait for their remote CIDs. -/
theorem signalling_inside (conn : L2capConn) (env : L2capEnv)
    (behind : Nat → Byte) (pdu : List Byte) :
    ((∀ command, sigCommand behind pdu = some command →
        conn.Enough command ∧ conn.KeepsIdent command) →
      PduInside conn env behind pdu) ∧
    ((∀ command, sigCommand behind pdu = some command → conn.Awaiting command) →
      PduInside conn env behind pdu →
      ∀ command, sigCommand behind pdu = some command → conn.Enough command) := by
  constructor
  · intro spared fuel
    cases parsed : sigCommand behind pdu with
    | none => exact conn.recvAccesses_none env fuel parsed
    | some command =>
      obtain ⟨enough, keeps⟩ := spared command parsed
      exact (conn.recvAccesses_command env fuel parsed).mpr
        (L2capConn.commandAccesses_inside env fuel enough keeps)
  · intro awaiting inside command parsed
    apply L2capConn.enough_of_inside (awaiting command parsed)
    intro fuel
    exact (conn.recvAccesses_command env fuel parsed).mp (inside fuel)

def twoWaiting : L2capConn :=
  (l2capMachine sampleConfig).run (.start [] fun _ => true)
    [(sampleEnv, .ecredConnect [10, 11] 0x80)]

theorem signalling_inside_two : PduInside twoWaiting sampleEnv (fun _ => 0)
      [0x18, 1, 12, 0, 64, 0, 64, 0, 1, 0, 0, 0, 0x40, 0, 0x41, 0] := by
  apply (signalling_inside _ _ _ _).1
  intro command parsed
  cases parsed
  refine ⟨⟨?_, ?_⟩, ?_⟩
  · intro _ _
    decide
  · intro impossible
    cases impossible
  · intro _ _ index below _ draw early
    have few : twoWaiting.holders 1 = 2 := by decide
    change index < twoWaiting.holders 1 at below
    rw [few] at below
    have draws : draw = 0 ∨ draw = 1 := by omega
    rcases draws with rfl | rfl
    · change twoWaiting.drawn 0 ≠ 1
      decide
    · change twoWaiting.drawn 1 ≠ 1
      decide

def oneConnected : L2capConn :=
  (l2capMachine sampleConfig).run (.start [] fun _ => true)
    [(sampleEnv, .ecredConnect [10] 0x80),
      (sampleEnv, .signal 1 (.ecredConnRsp 64 64 1 0 fun _ => 0x40))]

theorem signalling_outside : ¬ PduInside twoWaiting sampleEnv (fun _ => 0)
      [0x18, 1, 10, 0, 64, 0, 64, 0, 1, 0, 0, 0, 0x40, 0] ∧
    ¬ PduInside oneConnected sampleEnv (fun _ => 0)
      [0x19, 7, 16, 0, 64, 0, 64, 0, 0x40, 0, 0x40, 0, 0x40, 0, 0x40, 0, 0x40, 0,
        0x40, 0] := by
  constructor
  · intro inside
    have pulled := inside 2 (.pull 2 0) (by decide +kernel)
    exact absurd pulled (by decide)
  · intro inside
    have stored := inside 0 (.store 5 5) (by decide +kernel)
    exact absurd stored (by decide)

end ZephyrBluetooth.Host
