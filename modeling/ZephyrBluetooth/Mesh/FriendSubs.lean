import ZephyrBluetooth.Mesh.FriendHeld

namespace ZephyrBluetooth.Mesh

open Data List

def lastOp (addr : Nat) (ops : List (SubOp × Nat)) : Option SubOp :=
  ops.foldl (fun last op => if op.2 = addr then some op.1 else last) none

/-- A group address of the friendship matches exactly when it was added last.
The fixed groups and the virtual addresses are among them. -/
def Frnd.SubsOk (frnd : Frnd) : Prop :=
  ∀ netIdx addr, frnd.established = true → frnd.netIdx = some netIdx →
    0x8000 ≤ addr → (frnd.matchesLpn netIdx addr = true ↔
        lastOp addr frnd.log.subOps = some .add)

def AddsFit : List Nat → List Nat → Prop
  | _, [] => True
  | list, addr :: rest =>
    (0x8000 ≤ addr → addr ∈ list ∨ addrUnassigned ∈ list) ∧
      AddsFit (Frnd.subAdd addr list) rest

instance decidableAddsFit : ∀ list addrs, Decidable (AddsFit list addrs)
  | _, [] => inferInstanceAs (Decidable True)
  | list, addr :: rest =>
    have := decidableAddsFit (Frnd.subAdd addr list) rest
    inferInstanceAs (Decidable ((0x8000 ≤ addr →
      addr ∈ list ∨ addrUnassigned ∈ list) ∧ AddsFit _ rest))

def RemsClear (list addrs : List Nat) : Prop :=
  ∀ addr ∈ addrs, 0x8000 ≤ addr → list.count addr ≤ addrs.count addr

instance decidableRemsClear (list addrs : List Nat) :
    Decidable (RemsClear list addrs) :=
  inferInstanceAs (Decidable (∀ addr ∈ addrs, 0x8000 ≤ addr →
    list.count addr ≤ addrs.count addr))

def OpFits (op : SubOp) (list addrs : List Nat) : Prop :=
  match op with
  | .add => AddsFit list addrs
  | .rem => RemsClear list addrs

instance decidableOpFits : ∀ op list addrs, Decidable (OpFits op list addrs)
  | .add, list, addrs => inferInstanceAs (Decidable (AddsFit list addrs))
  | .rem, list, addrs => inferInstanceAs (Decidable (RemsClear list addrs))

/-- A Friend Subscription List message that is handled adds only where there is
room, and removes every entry of its addresses. -/
def SubFits (frnd : Frnd) : FrndInput → Prop
  | .sub _ op netIdx src (_ :: high :: low :: rest) =>
    frnd.isFound true netIdx src = true → frnd.pendingBuf = false →
      OpFits op frnd.subList (Frnd.pullAddrs (high :: low :: rest))
  | _ => True

instance decidableSubFits (frnd : Frnd) : DecidablePred (SubFits frnd)
  | .sub _ _ _ _ (_ :: _ :: _ :: _) => inferInstanceAs (Decidable (_ → _ → _))
  | .sub _ _ _ _ [] | .sub _ _ _ _ [_] | .sub _ _ _ _ [_, _]
  | .enqueueRx _ _ _ _ _ | .enqueueTx _ _ _ | .clearIncomplete _ _ _ _
  | .poll _ _ _ _ | .request _ _ _ _ _ _ | .timeout _ | .bufSendStart
  | .secUpdate _ _ | .subnetEvt _ _ _ _ | .clear => inferInstanceAs (Decidable True)

theorem lastOp_append (addr : Nat) (ops later : List (SubOp × Nat)) :
    lastOp addr (ops ++ later) =
      later.foldl (fun last op => if op.2 = addr then some op.1 else last)
        (lastOp addr ops) := by
  rw [lastOp, foldl_append]
  rfl

theorem lastOp_message (addr : Nat) (op : SubOp) (addrs : List Nat)
    (ops : List (SubOp × Nat)) :
    lastOp addr (ops ++ addrs.map fun named => (op, named)) =
      if addr ∈ addrs then some op else lastOp addr ops := by
  rw [lastOp_append]
  generalize lastOp addr ops = last
  induction addrs generalizing last with
  | nil => rfl
  | cons named rest ih =>
    rw [map_cons, foldl_cons, ih]
    by_cases later : addr ∈ rest
    · simp [later]
    by_cases here : named = addr
    · simp [here]
    · simp [later, here, Ne.symm here]

namespace Frnd

theorem mem_subAdd {addr other : Nat} (assigned : other ≠ addrUnassigned) :
    ∀ {list : List Nat}, other ∈ subAdd addr list ↔
      other ∈ list ∨ other = addr ∧ addrUnassigned ∈ list
  | [] => by simp [subAdd]
  | first :: rest => by
      rw [subAdd]
      by_cases free : first = addrUnassigned
      · simp [free, assigned, or_comm]
      have later := @mem_subAdd addr other assigned rest
      simp only [if_neg free, mem_cons, later, Ne.symm free, false_or, or_assoc]

theorem subAdd_full {addr : Nat} :
    ∀ {list : List Nat}, addrUnassigned ∉ list → subAdd addr list = list
  | [], _ => rfl
  | first :: rest, full => by
      simp only [mem_cons, not_or] at full
      rw [subAdd, if_neg (Ne.symm full.1), subAdd_full full.2]

theorem adds_full (addrs : List Nat) {list : List Nat}
    (full : addrUnassigned ∉ list) :
    addrs.foldl (subChange .add) list = list := by
  induction addrs with
  | nil => rfl
  | cons addr rest ih => rw [foldl_cons, subChange, subAdd_full full, ih]

theorem mem_adds_iff (addrs list : List Nat) : (∀ addr, 0x8000 ≤ addr →
      (addr ∈ addrs.foldl (subChange .add) list ↔ addr ∈ addrs ∨ addr ∈ list)) ↔
      AddsFit list addrs := by
  induction addrs generalizing list with
  | nil => simp [AddsFit]
  | cons first rest ih =>
    rw [AddsFit, ← ih (subAdd first list), foldl_cons]
    have added : ∀ addr, 0x8000 ≤ addr → (addr ∈ subAdd first list ↔
          addr ∈ list ∨ addr = first ∧ addrUnassigned ∈ list) := by
      intro addr group
      exact mem_subAdd (by rw [addrUnassigned]; omega)
    constructor
    · intro all
      have fits : 0x8000 ≤ first → first ∈ list ∨ addrUnassigned ∈ list := by
        intro group
        by_cases free : addrUnassigned ∈ list
        · exact .inr free
        have listed := (all first group).mpr (.inl mem_cons_self)
        rw [subChange, subAdd_full free, adds_full rest free] at listed
        exact .inl listed
      refine ⟨fits, ?_⟩
      intro addr group
      rw [show subAdd first list = subChange .add list first from rfl,
        all addr group, show subChange .add list first = subAdd first list
          from rfl, added addr group, mem_cons]
      constructor
      · rintro ((rfl | later) | listed)
        · rcases fits group with listed | free
          · exact .inr (.inl listed)
          · exact .inr (.inr ⟨rfl, free⟩)
        · exact .inl later
        · exact .inr (.inl listed)
      · rintro (later | listed | ⟨rfl, _⟩)
        · exact .inl (.inr later)
        · exact .inr listed
        · exact .inl (.inl rfl)
    · rintro ⟨fits, all⟩ addr group
      rw [show subChange .add list first = subAdd first list from rfl,
        all addr group, added addr group, mem_cons]
      constructor
      · rintro (later | listed | ⟨rfl, _⟩)
        · exact .inl (.inr later)
        · exact .inr listed
        · exact .inl (.inl rfl)
      · rintro ((rfl | later) | listed)
        · rcases fits group with listed | free
          · exact .inr (.inl listed)
          · exact .inr (.inr ⟨rfl, free⟩)
        · exact .inl later
        · exact .inr (.inl listed)

theorem count_subRem {addr other : Nat} (assigned : other ≠ addrUnassigned) :
    ∀ {list : List Nat}, (subRem addr list).count other =
      list.count other - if other = addr then 1 else 0
  | [] => by simp [subRem]
  | first :: rest => by
      rw [subRem]
      by_cases here : first = addr
      · subst here
        rw [if_pos rfl, count_cons_of_ne (Ne.symm assigned)]
        by_cases same : other = first
        · subst same
          rw [count_cons_self, if_pos rfl, Nat.add_sub_cancel]
        · rw [count_cons_of_ne (Ne.symm same), if_neg same, Nat.sub_zero]
      · have later := @count_subRem addr other assigned rest
        rw [if_neg here, count_cons, count_cons, later]
        by_cases same : other = addr
        · subst same
          simp [here]
        · simp [same]

theorem count_rems {other : Nat} (assigned : other ≠ addrUnassigned)
    (addrs list : List Nat) : (addrs.foldl (subChange .rem) list).count other =
      list.count other - addrs.count other := by
  induction addrs generalizing list with
  | nil => rfl
  | cons addr rest ih =>
    rw [foldl_cons, ih, subChange, count_subRem assigned, count_cons]
    by_cases same : other = addr
    · subst same
      simp only [if_true, beq_self_eq_true]
      omega
    · simp [same, Ne.symm same]

theorem mem_rems_iff (addrs list : List Nat) : (∀ addr, 0x8000 ≤ addr →
      (addr ∈ addrs.foldl (subChange .rem) list ↔ addr ∉ addrs ∧ addr ∈ list)) ↔
      RemsClear list addrs := by
  have left : ∀ addr, 0x8000 ≤ addr → (addr ∈ addrs.foldl (subChange .rem) list ↔
        addrs.count addr < list.count addr) := by
    intro addr group
    have assigned : addr ≠ addrUnassigned := by rw [addrUnassigned]; omega
    rw [← count_pos_iff, count_rems assigned]
    omega
  constructor
  · intro all addr named group
    have absent := mt (all addr group).mp fun gone => gone.1 named
    exact Nat.le_of_not_lt fun more => absent ((left addr group).mpr more)
  · intro clear addr group
    rw [left addr group]
    constructor
    · intro more
      refine ⟨fun named => ?_, count_pos_iff.mp (by omega)⟩
      exact absurd (clear addr named group) (Nat.not_le_of_lt more)
    · rintro ⟨unnamed, listed⟩
      rw [count_eq_zero_of_not_mem unnamed]
      exact count_pos_iff.mpr listed

structure SubsSame (before after : Frnd) : Prop where
  subList : after.subList = before.subList
  subOps : after.log.subOps = before.log.subOps
  established : after.established = before.established
  netIdx : after.netIdx = before.netIdx

theorem SubsSame.refl (frnd : Frnd) : SubsSame frnd frnd := ⟨rfl, rfl, rfl, rfl⟩

theorem SubsSame.trans {first second third : Frnd} (one : SubsSame first second)
    (two : SubsSame second third) : SubsSame first third where
  subList := two.subList.trans one.subList
  subOps := two.subOps.trans one.subOps
  established := two.established.trans one.established
  netIdx := two.netIdx.trans one.netIdx

variable {cfg : FriendConfig} {env : FriendEnv} {frnd : Frnd}

theorem createPdu_subs {info : FriendPduInfo} {sdu : List Byte}
    {buf : FriendBuf} {taken : Frnd}
    (created : frnd.createPdu cfg env info sdu = some (buf, taken)) :
    SubsSame frnd taken := by
  unfold createPdu at created
  split at created
  · cases created
    exact ⟨rfl, rfl, rfl, rfl⟩
  · cases created

theorem sendNext_subs (ctlOp : Nat) (sdu : List Byte) :
    SubsSame frnd (frnd.sendNext env (frnd.encodeCtl cfg env ctlOp sdu)) := by
  unfold sendNext
  split
  · exact .refl frnd
  rename_i buf after created
  have same := createPdu_subs created
  split <;> exact ⟨same.subList, same.subOps, same.established, same.netIdx⟩

theorem enqueueUpdate_subs {before : Frnd} (md : Nat)
    (same : SubsSame before frnd) :
    SubsSame before (frnd.enqueueUpdate cfg env md) := by
  unfold enqueueUpdate
  split
  · exact same
  rename_i buf taken created
  have later := same.trans (createPdu_subs created)
  exact ⟨later.subList, later.subOps, later.established, later.netIdx⟩

theorem prepareSpace_subs (addr : Nat) (seqAuth : Option Nat) (segCount : Nat) :
    SubsSame frnd (frnd.prepareSpace cfg addr seqAuth segCount).2 := by
  unfold prepareSpace
  split <;> exact ⟨rfl, rfl, rfl, rfl⟩

theorem purgeOldAck_subs (seqAuth src : Nat) :
    SubsSame frnd (frnd.purgeOldAck seqAuth src) := by
  unfold purgeOldAck
  split <;> exact ⟨rfl, rfl, rfl, rfl⟩

theorem enqueuePdu_subs (type : FriendPduType) (src segCount : Nat)
    (buf : FriendBuf) : SubsSame frnd (frnd.enqueuePdu type src segCount buf) := by
  unfold enqueuePdu
  split
  · exact ⟨rfl, rfl, rfl, rfl⟩
  split
  · exact .refl frnd
  · split <;> exact ⟨rfl, rfl, rfl, rfl⟩

theorem lpnEnqueue_subs (info : FriendPduInfo) (sdu : FriendSdu) :
    SubsSame frnd (frnd.lpnEnqueue cfg env info sdu) := by
  obtain ⟨purged, same, step⟩ := @lpnEnqueue_cases cfg env frnd info sdu
  have kept : SubsSame frnd purged := by
    rcases same with rfl | ⟨_, _, _, rfl⟩
    · exact .refl _
    · exact purgeOldAck_subs _ _
  rw [step]
  split
  · exact kept
  · rename_i buf taken created
    exact (kept.trans (createPdu_subs created)).trans (enqueuePdu_subs ..)

theorem enqueueRx_subs (rx : NetRx) (netIdx recvTtl : Nat) (sdu : FriendSdu) :
    SubsSame frnd (frnd.enqueueRx cfg env rx netIdx recvTtl sdu) := by
  unfold enqueueRx
  split
  · exact .refl frnd
  split
  · exact .refl frnd
  split
  · exact .refl frnd
  have prepared := @prepareSpace_subs cfg frnd rx.addr sdu.seqAuth sdu.segCount
  split
  · rename_i evicted
    rw [evicted] at prepared
    exact prepared
  · rename_i evicted
    rw [evicted] at prepared
    unfold lpnEnqueueRx
    split
    · exact prepared
    · exact prepared.trans (lpnEnqueue_subs ..)

theorem enqueueTx_subs (tx : Tx) (sdu : FriendSdu) :
    SubsSame frnd (frnd.enqueueTx cfg env tx sdu) := by
  unfold enqueueTx
  split
  · exact .refl frnd
  have prepared := @prepareSpace_subs cfg frnd tx.src sdu.seqAuth sdu.segCount
  split
  · rename_i evicted
    rw [evicted] at prepared
    exact prepared
  · rename_i evicted
    rw [evicted] at prepared
    exact prepared.trans (lpnEnqueue_subs ..)

theorem clearIncomplete_subs (netIdx src dst seqAuth : Nat) :
    SubsSame frnd (frnd.clearIncomplete netIdx src dst seqAuth) := by
  unfold clearIncomplete
  split
  · exact .refl frnd
  · split <;> exact ⟨rfl, rfl, rfl, rfl⟩

theorem sendBuf_subs {before : Frnd} (same : SubsSame before frnd) :
    SubsSame before (frnd.sendBuf env) := by
  unfold sendBuf
  split
  · exact ⟨same.subList, same.subOps, same.established, same.netIdx⟩
  · exact same

theorem sendQueued_subs (buf : FriendBuf) (rest : List FriendBuf) :
    SubsSame frnd (frnd.sendQueued env buf rest) := by
  unfold sendQueued
  dsimp only
  split
  · exact sendBuf_subs ⟨rfl, rfl, rfl, rfl⟩
  · exact ⟨rfl, rfl, rfl, rfl⟩

theorem bufSendStart_subs : SubsSame frnd frnd.bufSendStart := by
  unfold bufSendStart
  dsimp only
  split <;> exact ⟨rfl, rfl, rfl, rfl⟩

structure SubsIdle (frnd : Frnd) : Prop where
  list : frnd.established = false →
    (∀ addr ∈ frnd.subList, addr = addrUnassigned) ∧ frnd.log.subOps = []
  subnet : frnd.established = true → frnd.netIdx.isSome = true

def Lists (list : List Nat) (ops : List (SubOp × Nat)) : Prop :=
  ∀ addr, 0x8000 ≤ addr → (addr ∈ list ↔ lastOp addr ops = some .add)

theorem not_unicast {addr : Nat} (group : 0x8000 ≤ addr) :
    addrIsUnicast addr = false := by
  rw [← Bool.not_eq_true, addrIsUnicast_iff]
  omega

theorem SubsIdle.subsOk_iff (idle : SubsIdle frnd) :
    frnd.SubsOk ↔ Lists frnd.subList frnd.log.subOps := by
  constructor
  · intro ok addr group
    cases established : frnd.established with
    | false =>
      obtain ⟨unassigned, none⟩ := idle.list established
      rw [none]
      constructor
      · intro listed
        have zero := unassigned addr listed
        rw [addrUnassigned] at zero
        omega
      · intro added
        cases added
    | true =>
      obtain ⟨netIdx, subnet⟩ :=
        Option.isSome_iff_exists.mp (idle.subnet established)
      rw [← ok netIdx addr established subnet group]
      simp [matchesLpn, established, subnet, not_unicast group]
  · intro lists netIdx addr established subnet group
    rw [← lists addr group]
    simp [matchesLpn, established, subnet, not_unicast group]

theorem SubsSame.idle {after : Frnd} (same : SubsSame frnd after)
    (idle : SubsIdle frnd) : SubsIdle after where
  list := by
    rw [same.subList, same.subOps, same.established]
    exact idle.list
  subnet := by
    rw [same.established, same.netIdx]
    exact idle.subnet

theorem clear_idle (frnd : Frnd) : SubsIdle frnd.clear where
  list _ := by
    refine ⟨?_, rfl⟩
    intro addr member
    obtain ⟨_, _, rfl⟩ := mem_map.mp member
    rfl
  subnet established := by cases established

theorem clear_lists (frnd : Frnd) :
    Lists frnd.clear.subList frnd.clear.log.subOps :=
  (clear_idle frnd).subsOk_iff.mp fun _ _ established => by cases established

structure SubsKept (before after : Frnd) : Prop where
  idle : SubsIdle before → SubsIdle after
  lists : Lists before.subList before.log.subOps →
    Lists after.subList after.log.subOps

theorem SubsSame.kept {after : Frnd} (same : SubsSame frnd after) :
    SubsKept frnd after where
  idle := same.idle
  lists := by
    rw [same.subList, same.subOps]
    exact id

theorem SubsKept.trans {first second third : Frnd} (one : SubsKept first second)
    (two : SubsKept second third) : SubsKept first third where
  idle idle := two.idle (one.idle idle)
  lists lists := two.lists (one.lists lists)

theorem clear_kept (frnd : Frnd) : SubsKept frnd frnd.clear where
  idle _ := clear_idle frnd
  lists _ := clear_lists frnd

theorem poll_kept (netIdx src : Nat) (buf : List Byte) :
    SubsKept frnd (frnd.poll cfg env netIdx src buf) := by
  unfold poll
  split
  · exact (SubsSame.refl frnd).kept
  split
  · exact (SubsSame.refl frnd).kept
  rename_i found
  split
  · exact (SubsSame.refl frnd).kept
  split
  · exact (SubsSame.refl frnd).kept
  have subnet : frnd.netIdx.isSome = true := by
    simp only [isFound, Bool.not_eq_true, Bool.not_eq_false',
      Bool.and_eq_true, beq_iff_eq] at found
    rw [found.1.2]
    rfl
  have polled : SubsKept frnd
      { frnd with pendingReq := true, established := true } :=
    ⟨fun _ => ⟨fun no => (by cases no), fun _ => subnet⟩, id⟩
  dsimp only
  split
  · exact polled.trans (SubsSame.kept ⟨rfl, rfl, rfl, rfl⟩)
  refine polled.trans (SubsSame.kept ?_)
  split
  · exact enqueueUpdate_subs 0 ⟨rfl, rfl, rfl, rfl⟩
  · exact ⟨rfl, rfl, rfl, rfl⟩

theorem request_kept (netIdx addr numElem : Nat) (credErr : Bool)
    (offer : List Byte) :
    SubsKept frnd (frnd.request cfg env netIdx addr numElem credErr offer) := by
  have opened : SubsKept frnd
      { (if frnd.netIdx.isSome = true then frnd.clear else frnd) with
        lpn := addr, numElem := numElem, netIdx := some netIdx } := by
    split
    · refine (clear_kept frnd).trans ⟨fun idle => ⟨idle.list, fun _ => rfl⟩, id⟩
    · exact ⟨fun idle => ⟨idle.list, fun _ => rfl⟩, id⟩
  unfold request
  dsimp only
  split
  · exact opened.trans (clear_kept _)
  · exact opened.trans (sendNext_subs ..).kept

theorem timeout_kept : SubsKept frnd (frnd.timeout env) := by
  unfold timeout
  split
  · exact (SubsSame.refl frnd).kept
  split
  · have same : SubsSame frnd ({ frnd with sendLast := false }.sendBuf env) :=
      sendBuf_subs ⟨rfl, rfl, rfl, rfl⟩
    exact same.kept
  · split
    · exact clear_kept frnd
    split
    · have dropped : SubsSame frnd frnd.dropLast := ⟨rfl, rfl, rfl, rfl⟩
      exact dropped.kept.trans (clear_kept frnd.dropLast)
    · exact (sendQueued_subs ..).kept

theorem secUpdate_subs (netIdx : Option Nat) :
    SubsSame frnd (frnd.secUpdate cfg env netIdx) := by
  unfold secUpdate
  split
  · exact .refl frnd
  split
  · exact enqueueUpdate_subs 0 (.refl frnd)
  · exact .refl frnd

theorem subnetEvt_kept (netIdx : Nat) (evt : KeyEvt) (credErr : Bool) :
    SubsKept frnd (frnd.subnetEvt cfg env netIdx evt credErr) := by
  unfold subnetEvt
  split
  · exact (SubsSame.refl frnd).kept
  · cases evt with
    | added => exact (SubsSame.refl frnd).kept
    | deleted => exact clear_kept frnd
    | updated =>
      dsimp only
      split
      · exact clear_kept frnd
      · exact (SubsSame.refl frnd).kept
    | swapped => exact (enqueueUpdate_subs 0 (.refl frnd)).kept
    | revoked => exact (enqueueUpdate_subs 0 (.refl frnd)).kept

theorem sub_lists_iff (op : SubOp) (addrs : List Nat)
    {list : List Nat} {ops : List (SubOp × Nat)} (lists : Lists list ops) :
    Lists (addrs.foldl (subChange op) list)
        (ops ++ addrs.map fun addr => (op, addr)) ↔ OpFits op list addrs := by
  cases op with
  | add =>
    dsimp only [OpFits]
    rw [← mem_adds_iff]
    refine forall₂_congr fun addr group => ?_
    rw [lastOp_message, lists addr group]
    split
    · rename_i named
      simp [named]
    · rename_i unnamed
      simp [unnamed]
  | rem =>
    dsimp only [OpFits]
    rw [← mem_rems_iff]
    refine forall₂_congr fun addr group => ?_
    rw [lastOp_message, lists addr group]
    split
    · rename_i named
      simp [named]
    · rename_i unnamed
      simp [unnamed]

theorem sub_subs (op : SubOp) (netIdx src : Nat) (buf : List Byte) :
    SubsSame frnd (frnd.sub cfg env op netIdx src buf) ∧
        SubFits frnd (.sub env op netIdx src buf) ∨
      ∃ addrs, frnd.isFound true netIdx src = true ∧
        (frnd.sub cfg env op netIdx src buf).subList =
          addrs.foldl (subChange op) frnd.subList ∧
        (frnd.sub cfg env op netIdx src buf).log.subOps =
          frnd.log.subOps ++ addrs.map (fun addr => (op, addr)) ∧
        (frnd.sub cfg env op netIdx src buf).established = frnd.established ∧
        (frnd.sub cfg env op netIdx src buf).netIdx = frnd.netIdx ∧
        (SubFits frnd (.sub env op netIdx src buf) ↔
          OpFits op frnd.subList addrs) := by
  unfold sub
  split
  · rename_i xact high low rest
    dsimp only [SubFits]
    split
    · rename_i absent
      refine .inl ⟨.refl frnd, fun found => ?_⟩
      rw [found] at absent
      cases absent
    · rename_i found
      have found : frnd.isFound true netIdx src = true := by simpa using found
      split
      · rename_i pending
        refine .inl ⟨.refl frnd, fun _ sent => ?_⟩
        rw [sent] at pending
        cases pending
      · rename_i sent
        refine .inr ⟨pullAddrs (high :: low :: rest), found, ?_⟩
        have same := @sendNext_subs cfg env
          { frnd with
            pendingReq := true
            subList := (pullAddrs (high :: low :: rest)).foldl (subChange op)
              frnd.subList
            log := { frnd.log with
              subOps := frnd.log.subOps ++
                (pullAddrs (high :: low :: rest)).map fun addr => (op, addr) } }
          0x09 [xact]
        exact ⟨same.subList, same.subOps, same.established, same.netIdx,
          fun fits => fits found (eq_false_of_ne_true sent),
          fun fits _ _ => fits⟩
  · rename_i short
    refine .inl ⟨.refl frnd, ?_⟩
    unfold SubFits
    split
    · rename_i equal
      cases equal
      exact absurd rfl (short _ _ _ _)
    · trivial

end Frnd

open Frnd

section

variable (cfg : FriendConfig)
include cfg

theorem frndStep_subs (frnd : Frnd) (input : FrndInput) :
    (∃ env op netIdx src buf, input = .sub env op netIdx src buf) ∨
      SubsKept frnd ((frndMachine cfg).next frnd input) ∧ SubFits frnd input := by
  cases input with
  | enqueueRx => exact .inr ⟨(enqueueRx_subs ..).kept, trivial⟩
  | enqueueTx => exact .inr ⟨(enqueueTx_subs ..).kept, trivial⟩
  | clearIncomplete => exact .inr ⟨(clearIncomplete_subs ..).kept, trivial⟩
  | poll => exact .inr ⟨poll_kept .., trivial⟩
  | sub env op netIdx src buf => exact .inl ⟨env, op, netIdx, src, buf, rfl⟩
  | request => exact .inr ⟨request_kept .., trivial⟩
  | timeout => exact .inr ⟨timeout_kept, trivial⟩
  | bufSendStart => exact .inr ⟨bufSendStart_subs.kept, trivial⟩
  | secUpdate env netIdx => exact .inr ⟨(secUpdate_subs netIdx).kept, trivial⟩
  | subnetEvt => exact .inr ⟨subnetEvt_kept .., trivial⟩
  | clear => exact .inr ⟨clear_kept frnd, trivial⟩

theorem frndStep_idle (frnd : Frnd) (input : FrndInput)
    (idle : SubsIdle frnd) : SubsIdle ((frndMachine cfg).next frnd input) := by
  rcases frndStep_subs cfg frnd input with
    ⟨env, op, netIdx, src, buf, rfl⟩ | ⟨kept, _⟩
  · rcases @sub_subs cfg env frnd op netIdx src buf with
      ⟨same, _⟩ | ⟨addrs, found, list, ops, established, subnet, _⟩
    · exact same.idle idle
    have isEstablished : frnd.established = true := by
      simp only [isFound, Bool.and_eq_true, Bool.or_eq_true] at found
      simpa using found.1.1
    refine ⟨fun no => ?_, fun _ => ?_⟩
    · have same : frnd.established = false := established.symm.trans no
      rw [isEstablished] at same
      cases same
    · have same := idle.subnet isEstablished
      rw [← subnet] at same
      exact same
  · exact kept.idle idle

theorem frndStep_subsOk (frnd : Frnd) (input : FrndInput)
    (idle : SubsIdle frnd) (ok : frnd.SubsOk) :
    ((frndMachine cfg).next frnd input).SubsOk ↔ SubFits frnd input := by
  have later := frndStep_idle cfg frnd input idle
  have lists := idle.subsOk_iff.mp ok
  rw [later.subsOk_iff]
  rcases frndStep_subs cfg frnd input with
    ⟨env, op, netIdx, src, buf, rfl⟩ | ⟨kept, fits⟩
  · rcases @sub_subs cfg env frnd op netIdx src buf with
      ⟨same, fits⟩ | ⟨addrs, found, list, ops, _, _, fits⟩
    · exact ⟨fun _ => fits, fun _ => same.kept.lists lists⟩
    · rw [fits, ← sub_lists_iff op addrs lists, ← list, ← ops]
      rfl
  · exact ⟨fun _ => fits, fun _ => kept.lists lists⟩

theorem boot_idle : SubsIdle (.boot cfg) where
  list _ := ⟨fun _ member => eq_of_mem_replicate member, rfl⟩
  subnet established := by cases established

end

/-- In every run, a group address matches exactly when it was added last, as
long as the messages fit. -/
theorem friendSubs_iff (cfg : FriendConfig) (inputs : List FrndInput) :
    (frndMachine cfg).Always Frnd.SubsOk (.boot cfg) inputs ↔
      (frndMachine cfg).Along SubFits (.boot cfg) inputs :=
  Machine.always_iff_along (frndStep_idle cfg) (frndStep_subsOk cfg) inputs
    (boot_idle cfg) fun _ _ established => (by cases established)

/-! An address is added, added again because the Confirm was lost, and removed
once. -/

def oneGroup (op : SubOp) : List FrndInput :=
  [.sub plainEnv op 0 0x0010 [0x01, 0xc0, 0x00], .timeout plainEnv, .bufSendStart]

def addedTwice : List FrndInput :=
  newFriendship ++ oneGroup .add ++ oneGroup .add ++ oneGroup .rem

theorem addedTwice_listed :
    ¬ (frndMachine friendTestConfig).Always Frnd.SubsOk (.boot friendTestConfig)
      addedTwice := by
  intro always
  have matched := (always.last 0 0xc000 (by decide) (by decide) (by decide)).mp
    (by decide)
  exact absurd matched (by decide)

end ZephyrBluetooth.Mesh
