import ZephyrBluetooth.Mesh.FriendHeld

namespace ZephyrBluetooth.Mesh

open Data List

variable {info : FriendPduInfo} {sdu : List Byte} {buf : FriendBuf} {taken : Frnd}

def Frnd.Counted (frnd : Frnd) : Prop :=
  frnd.queueSize = frnd.queue.length

def Frnd.completed (cfg : FriendConfig) (offer : Offered) (frnd : Frnd) :
    Option FrndSeg :=
  match frnd.prepareSpace cfg offer.info.src offer.sdu.seqAuth
      offer.sdu.segCount with
  | (false, _) => none
  | (true, evicted) =>
    if offer.own || decide (offer.sdu.type ≠ .complete) then none
    else
      (evicted.createPdu cfg offer.env offer.info offer.sdu.sbuf).bind fun created =>
          (getSeg offer.info.src created.1.seqZero offer.sdu.segCount
            frnd.seg).map Prod.snd

/-- A message is complete when all its announced segments are there, and a PDU
that is taken off the queue can be encrypted. -/
def CountsRight (cfg : FriendConfig) (frnd : Frnd) (input : FrndInput) : Prop :=
  (∀ offer, input.offered frnd = some offer →
    ∀ seg, frnd.completed cfg offer = some seg →
      seg.segCount = seg.queue.length + 1) ∧
  ∀ env, input = .timeout env → ∀ buf rest, frnd.polled = some (buf, rest) →
    (env.encrypt (Frnd.updateOverwrite (!rest.isEmpty) buf.data)).1 = true

namespace Frnd

variable {cfg : FriendConfig} {env : FriendEnv} {frnd : Frnd}

theorem bufCount_lt (cfg : FriendConfig) : cfg.bufCount + 256 < 2 ^ 32 := by
  have bound := Nat.mul_le_mul (Nat.succ_le_succ cfg.queueSize_le) cfg.lpnCount_le
  have count : cfg.bufCount ≤ (65536 + 1) * 1000 := bound
  omega

structure CountsFit (cfg : FriendConfig) (frnd : Frnd) : Prop where
  bytes : ∀ seg ∈ frnd.seg, seg.segCount < 256
  pool : frnd.queue.length + frnd.segHeld ≤ cfg.bufCount

theorem dec32_succ {value : Nat} (bound : value + 1 < 2 ^ 32) :
    dec32 (value + 1) = value := by
  unfold dec32
  omega

theorem evict_suffix (segCount : Nat) :
    ∀ (pending : Bool) (avail size : Nat) (queue : List FriendBuf),
      (evict segCount pending avail size queue).2.2 <:+ queue
  | pending, avail, size, [] => suffix_refl []
  | pending, avail, size, buf :: rest => by
      rw [evict]
      split
      · exact (evict_suffix segCount buf.frags _ _ rest).trans (suffix_cons buf rest)
      · exact suffix_refl _

theorem evict_counted (segCount : Nat) :
    ∀ (pending : Bool) (avail size : Nat) (queue : List FriendBuf),
      size = queue.length → size < 2 ^ 32 →
      (evict segCount pending avail size queue).2.1 =
        (evict segCount pending avail size queue).2.2.length
  | pending, avail, size, [], counted, _ => counted
  | pending, avail, size, buf :: rest, counted, bound => by
      rw [evict]
      split
      · rw [length_cons] at counted
        subst counted
        rw [dec32_succ bound]
        exact evict_counted segCount buf.frags _ rest.length rest rfl
          (Nat.lt_of_succ_lt bound)
      · exact counted

structure CountKept (cfg : FriendConfig) (before after : Frnd) : Prop where
  fit : CountsFit cfg before → CountsFit cfg after
  counted : CountsFit cfg before → Counted before → Counted after

theorem CountKept.trans {first second third : Frnd}
    (one : CountKept cfg first second) (two : CountKept cfg second third) :
    CountKept cfg first third where
  fit fit := two.fit (one.fit fit)
  counted fit counted := two.counted (one.fit fit) (one.counted fit counted)

structure QueueSame (before after : Frnd) : Prop where
  queue : after.queue = before.queue
  queueSize : after.queueSize = before.queueSize
  seg : after.seg = before.seg

theorem QueueSame.kept {after : Frnd} (same : QueueSame frnd after) :
    CountKept cfg frnd after where
  fit fit := by
    constructor
    · rw [same.seg]
      exact fit.bytes
    · rw [segHeld, same.queue, same.seg]
      exact fit.pool
  counted _ counted := by
    rw [Counted, same.queueSize, same.queue]
    exact counted

theorem CountKept.onto {middle after : Frnd} (kept : CountKept cfg frnd middle)
    (same : QueueSame middle after) : CountKept cfg frnd after :=
  kept.trans same.kept

theorem CountKept.refl (frnd : Frnd) : CountKept cfg frnd frnd :=
  QueueSame.kept ⟨rfl, rfl, rfl⟩

theorem segHeld_set {slot : Nat} {old : FrndSeg}
    (found : frnd.seg[slot]? = some old) (seg : FrndSeg) :
    ((frnd.seg.set slot seg).map fun seg => seg.queue.length).sum +
        old.queue.length = frnd.segHeld + seg.queue.length :=
  sum_map_set (fun seg => seg.queue.length) found seg

theorem clear_count (frnd : Frnd) : CountKept cfg frnd frnd.clear where
  fit _ := by
    refine ⟨?_, ?_⟩
    · intro seg member
      obtain ⟨_, _, rfl⟩ := mem_map.mp member
      exact Nat.zero_lt_succ 255
    · have nothing : frnd.clear.segHeld = 0 := by
        simp [clear, segHeld, FrndSeg.empty]
      rw [nothing]
      exact Nat.zero_le _
  counted _ _ := rfl

section

variable (created : frnd.createPdu cfg env info sdu = some (buf, taken))
include created

theorem createPdu_same : QueueSame frnd taken := by
  obtain ⟨_, _, rfl⟩ := createPdu_spec created
  exact ⟨rfl, rfl, rfl⟩

theorem enqueueBuf_count {queued : FriendBuf} :
    CountKept cfg frnd (taken.enqueueBuf queued) := by
  obtain ⟨_, _, rfl⟩ := createPdu_spec created
  have pool := bufCount_lt cfg
  have held : frnd.held = frnd.queue.length + frnd.segHeld +
    frnd.last.toList.length := rfl
  constructor
  · intro fit
    refine ⟨fit.bytes, ?_⟩
    change (frnd.queue ++ [queued]).length + frnd.segHeld ≤ cfg.bufCount
    rw [length_append, length_singleton]
    omega
  · intro fit counted
    change (frnd.queueSize + 1) % 2 ^ 32 = (frnd.queue ++ [queued]).length
    rw [length_append, length_singleton, counted]
    have := fit.pool
    omega

end

theorem enqueueUpdate_count (md : Nat) :
    CountKept cfg frnd (frnd.enqueueUpdate cfg env md) := by
  unfold enqueueUpdate
  split
  · exact .refl frnd
  · rename_i buf taken created
    exact enqueueBuf_count created

theorem sendNext_same (ctlOp : Nat) (sdu : List Byte) :
    QueueSame frnd (frnd.sendNext env (frnd.encodeCtl cfg env ctlOp sdu)) := by
  unfold sendNext
  split
  · exact ⟨rfl, rfl, rfl⟩
  rename_i buf after created
  have same := createPdu_same created
  split <;> exact ⟨same.queue, same.queueSize, same.seg⟩

theorem prepareSpace_count (addr : Nat) (seqAuth : Option Nat) (segCount : Nat) :
    CountKept cfg frnd (frnd.prepareSpace cfg addr seqAuth segCount).2 ∧
      (frnd.prepareSpace cfg addr seqAuth segCount).2.seg = frnd.seg := by
  unfold prepareSpace
  split
  · exact ⟨.refl frnd, rfl⟩
  · refine ⟨⟨fun fit => ?_, fun fit counted => ?_⟩, rfl⟩
    all_goals
      have pool := bufCount_lt cfg
      have bound := fit.pool
    · refine ⟨fit.bytes, ?_⟩
      have suffix := evict_suffix segCount false
        ((cfg.queueSize + 2 ^ 32 - frnd.queueSize) % 2 ^ 32 % 2 ^ 8)
        frnd.queueSize frnd.queue
      exact le_trans (Nat.add_le_add_right suffix.length_le _) bound
    · exact evict_counted segCount false _ frnd.queueSize frnd.queue counted
        (by rw [counted]; omega)

theorem purgeOldAck_count (seqAuth src : Nat) :
    CountKept cfg frnd (frnd.purgeOldAck seqAuth src) := by
  unfold purgeOldAck
  split
  · rename_i found
    have shorter := length_eraseP_of_mem
      (any_eq_true.mp found).choose_spec.1
      (any_eq_true.mp found).choose_spec.2
    constructor
    · intro fit
      refine ⟨fit.bytes, le_trans (Nat.add_le_add_right ?_ _) fit.pool⟩
      exact length_eraseP_le
    · intro fit counted
      change dec32 frnd.queueSize = _
      rw [shorter, counted]
      have pool := bufCount_lt cfg
      have bound := fit.pool
      have some : 0 < frnd.queue.length := length_pos_of_mem
        (any_eq_true.mp found).choose_spec.1
      obtain ⟨_, length⟩ := Nat.exists_eq_succ_of_ne_zero (ne_of_gt some)
      rw [length, dec32_succ (by omega)]
      rfl
  · exact .refl frnd

theorem getSeg_byte {src seqZero segCount slot : Nat} {seg : FrndSeg}
    (fit : CountsFit cfg frnd)
    (found : getSeg src seqZero segCount frnd.seg = some (slot, seg)) :
    seg.segCount < 256 := by
  obtain ⟨_, here, _, ⟨rfl, _⟩ | ⟨rfl, _⟩⟩ := getSeg_spec found
  · exact fit.bytes seg (mem_of_getElem? here)
  · exact Nat.mod_lt _ (by decide)

theorem CountsFit.set {after : Frnd} {slot : Nat} {old seg : FrndSeg}
    (fit : CountsFit cfg frnd) (room : frnd.held + frnd.leaked < cfg.bufCount)
    (found : frnd.seg[slot]? = some old) (segs : after.seg = frnd.seg.set slot seg)
    (byte : seg.segCount < 256) (moved : after.queue.length + seg.queue.length ≤
      frnd.queue.length + old.queue.length + 1) : CountsFit cfg after := by
  constructor
  · intro other member
    rw [segs] at member
    rcases mem_or_eq_of_mem_set member with kept | rfl
    · exact fit.bytes other kept
    · exact byte
  · have sums := segHeld_set found seg
    have held : frnd.held = frnd.queue.length + frnd.segHeld +
      frnd.last.toList.length := rfl
    rw [segHeld, segs]
    omega

theorem enqueuePdu_count {type : FriendPduType} (src segCount : Nat)
    (partly : type ≠ .complete)
    (created : frnd.createPdu cfg env info sdu = some (buf, taken)) :
    CountKept cfg frnd (taken.enqueuePdu type src segCount buf) := by
  cases type with
  | single => exact enqueueBuf_count created
  | incomplete =>
    obtain ⟨room, _, rfl⟩ := createPdu_spec created
    rw [enqueuePdu_incomplete]
    cases found : getSeg src buf.seqZero segCount frnd.seg with
    | none => exact QueueSame.kept ⟨rfl, rfl, rfl⟩
    | some context =>
      obtain ⟨_, _⟩ := context
      obtain ⟨_, here, same, _⟩ := getSeg_spec found
      refine ⟨fun fit => ?_, fun _ counted => counted⟩
      have byte := getSeg_byte fit found
      refine fit.set room here rfl byte ?_
      dsimp only
      rw [same, length_append, length_singleton]
      omega
  | complete => exact absurd rfl partly

theorem complete_count (src segCount : Nat) (fit : CountsFit cfg frnd)
    (created : frnd.createPdu cfg env info sdu = some (buf, taken)) :
    CountsFit cfg (taken.enqueuePdu .complete src segCount buf) ∧ (Counted frnd →
        (Counted (taken.enqueuePdu .complete src segCount buf) ↔
          ∀ seg, (getSeg src buf.seqZero segCount frnd.seg).map Prod.snd =
            some seg → seg.segCount = seg.queue.length + 1)) := by
  have pool := bufCount_lt cfg
  obtain ⟨room, _, rfl⟩ := createPdu_spec created
  rw [enqueuePdu_complete]
  dsimp only
  cases found : getSeg src buf.seqZero segCount frnd.seg with
  | none =>
    refine ⟨⟨fit.bytes, fit.pool⟩, fun counted => ?_⟩
    exact ⟨fun _ _ none => (by cases none), fun _ => counted⟩
  | some context =>
    obtain ⟨_, seg⟩ := context
    obtain ⟨_, here, same, _⟩ := getSeg_spec found
    have byte := getSeg_byte fit found
    dsimp only
    refine ⟨fit.set room here rfl (Nat.zero_lt_succ 255) ?_, fun counted => ?_⟩
    · rw [length_append, length_append, length_singleton, same]
      exact le_refl _
    · have bound := fit.pool
      have length : (frnd.queue ++ (seg.queue ++ [buf])).length =
          frnd.queue.length + (seg.queue.length + 1) := by
        rw [length_append, length_append, length_singleton]
      have counted : frnd.queueSize = frnd.queue.length := counted
      rw [Counted]
      dsimp only
      rw [length, counted]
      constructor
      · rintro right _ ⟨⟩
        change seg.segCount = seg.queue.length + 1
        omega
      · intro right
        have announced := right seg rfl
        omega

theorem lpnEnqueue_count {offer : Offered} (partly : offer.sdu.type ≠ .complete) :
    CountKept cfg frnd (frnd.lpnEnqueue cfg offer.env offer.info offer.sdu) := by
  obtain ⟨purged, same, step⟩ :=
    @lpnEnqueue_cases cfg offer.env frnd offer.info offer.sdu
  have kept : CountKept cfg frnd purged := by
    rcases same with rfl | ⟨_, _, _, rfl⟩
    · exact .refl _
    · exact purgeOldAck_count _ _
  rw [step]
  split
  · exact kept
  · rename_i buf taken created
    exact kept.trans (enqueuePdu_count _ _ partly created)

theorem deliver_count (offer : Offered) (fit : CountsFit cfg frnd) :
    CountsFit cfg (frnd.deliver cfg offer) ∧ (Counted frnd →
        (Counted (frnd.deliver cfg offer) ↔
          ∀ seg, frnd.completed cfg offer = some seg →
            seg.segCount = seg.queue.length + 1)) := by
  obtain ⟨prepared, segs⟩ := @prepareSpace_count cfg frnd offer.info.src
    offer.sdu.seqAuth offer.sdu.segCount
  unfold deliver completed
  rcases space : frnd.prepareSpace cfg offer.info.src offer.sdu.seqAuth
    offer.sdu.segCount with ⟨ready, evicted⟩
  rw [space] at prepared segs
  dsimp only at prepared segs
  have none_completed (after : Frnd) (kept : CountKept cfg frnd after) :
      CountsFit cfg after ∧ (Counted frnd → (Counted after ↔
        ∀ seg, (none : Option FrndSeg) = some seg →
          seg.segCount = seg.queue.length + 1)) :=
    ⟨kept.fit fit, fun counted =>
      ⟨fun _ _ none => (by cases none), fun _ => kept.counted fit counted⟩⟩
  cases ready with
  | false => exact none_completed evicted prepared
  | true =>
    cases offer.own with
    | true => exact none_completed evicted prepared
    | false =>
      cases type : offer.sdu.type with
      | single =>
        exact none_completed _ (prepared.trans
          (lpnEnqueue_count (by rw [type]; simp)))
      | incomplete =>
        exact none_completed _ (prepared.trans
          (lpnEnqueue_count (by rw [type]; simp)))
      | complete =>
        obtain ⟨_, rfl | ⟨_, single, _⟩, step⟩ :=
          @lpnEnqueue_cases cfg offer.env evicted offer.info offer.sdu
        · dsimp only
          rw [if_neg Bool.false_ne_true, step, if_neg (by decide), type, ← segs]
          cases created :
              Frnd.createPdu cfg offer.env offer.info offer.sdu.sbuf _ with
          | none => exact none_completed _ prepared
          | some pair =>
            obtain ⟨fits, exactly⟩ := complete_count offer.info.src
              offer.sdu.segCount (prepared.fit fit) created
            exact ⟨fits, fun counted => exactly (prepared.counted fit counted)⟩
        · rw [type] at single
          cases single

theorem sendQueued_count {rest : List FriendBuf} (queue : frnd.queue = buf :: rest)
    (fit : CountsFit cfg frnd) :
    CountsFit cfg (frnd.sendQueued env buf rest) ∧ (Counted frnd →
        (Counted (frnd.sendQueued env buf rest) ↔
          (env.encrypt (updateOverwrite (!rest.isEmpty) buf.data)).1 = true)) := by
  have pool := bufCount_lt cfg
  have bound := fit.pool
  rw [queue, length_cons] at bound
  have shorter : rest.length + frnd.segHeld ≤ cfg.bufCount := by omega
  unfold sendQueued
  dsimp only
  cases (env.encrypt (updateOverwrite (!rest.isEmpty) buf.data)).1 with
  | true =>
    rw [if_pos rfl]
    unfold sendBuf
    split <;>
      refine ⟨⟨fit.bytes, shorter⟩, fun counted => ⟨fun _ => rfl, fun _ => ?_⟩⟩ <;>
      · change dec32 frnd.queueSize = rest.length
        have counted : frnd.queueSize = frnd.queue.length := counted
        rw [counted, queue, length_cons, dec32_succ (by omega)]
  | false =>
    rw [if_neg Bool.false_ne_true]
    refine ⟨⟨fit.bytes, shorter⟩, fun counted => ⟨fun right => ?_, ?_⟩⟩
    · have counted : frnd.queueSize = frnd.queue.length := counted
      have right : frnd.queueSize = rest.length := right
      rw [queue, length_cons] at counted
      omega
    · exact fun no => (by cases no)

theorem clearIncomplete_count (netIdx src dst seqAuth : Nat) :
    CountKept cfg frnd (frnd.clearIncomplete netIdx src dst seqAuth) := by
  unfold clearIncomplete
  split
  · exact .refl frnd
  split
  · exact .refl frnd
  rename_i slot search
  obtain ⟨bound, _⟩ := findIdx?_eq_some_iff_getElem.mp search
  have found := getElem?_eq_getElem bound
  refine ⟨fun fit => ⟨?_, ?_⟩, fun _ counted => counted⟩
  · intro other member
    rcases mem_or_eq_of_mem_set member with kept | rfl
    · exact fit.bytes other kept
    · exact Nat.zero_lt_succ 255
  · have sums := segHeld_set found .empty
    have bound := fit.pool
    have none : FrndSeg.empty.queue.length = 0 := rfl
    change frnd.queue.length + ((frnd.seg.set slot .empty).map
      fun seg => seg.queue.length).sum ≤ cfg.bufCount
    omega

theorem poll_count (netIdx src : Nat) (buf : List Byte) :
    CountKept cfg frnd (frnd.poll cfg env netIdx src buf) := by
  unfold poll
  split
  · exact .refl frnd
  split
  · exact .refl frnd
  split
  · exact .refl frnd
  split
  · exact .refl frnd
  dsimp only
  split
  · exact QueueSame.kept ⟨rfl, rfl, rfl⟩
  have next : ∀ fsn, CountKept cfg frnd
      { ({ frnd with pendingReq := true, established := true } :
          Frnd).unrefLast with fsn := fsn } :=
    fun fsn => QueueSame.kept ⟨rfl, rfl, rfl⟩
  split
  · exact (next _).trans (enqueueUpdate_count 0)
  · exact next _

theorem sub_count (op : SubOp) (netIdx src : Nat) (buf : List Byte) :
    CountKept cfg frnd (frnd.sub cfg env op netIdx src buf) := by
  unfold sub
  split
  · split
    · exact .refl frnd
    split
    · exact .refl frnd
    dsimp only
    have same := @sendNext_same cfg env
    refine CountKept.trans ?_ (same _ _).kept
    exact QueueSame.kept ⟨rfl, rfl, rfl⟩
  · exact .refl frnd

theorem request_count (netIdx addr numElem : Nat) (credErr : Bool)
    (offer : List Byte) :
    CountKept cfg frnd (frnd.request cfg env netIdx addr numElem credErr offer) := by
  have cleared : CountKept cfg frnd
      (if frnd.netIdx.isSome then frnd.clear else frnd) := by
    split
    · exact clear_count frnd
    · exact .refl frnd
  have opened : CountKept cfg frnd
      { (if frnd.netIdx.isSome then frnd.clear else frnd) with
        lpn := addr, numElem := numElem, netIdx := some netIdx } :=
    cleared.onto ⟨rfl, rfl, rfl⟩
  unfold request
  dsimp only
  split
  · exact opened.trans (clear_count _)
  · exact opened.trans (sendNext_same ..).kept

theorem secUpdate_count (netIdx : Option Nat) :
    CountKept cfg frnd (frnd.secUpdate cfg env netIdx) := by
  unfold secUpdate
  split
  · exact .refl frnd
  split
  · exact enqueueUpdate_count 0
  · exact .refl frnd

theorem subnetEvt_count (netIdx : Nat) (evt : KeyEvt) (credErr : Bool) :
    CountKept cfg frnd (frnd.subnetEvt cfg env netIdx evt credErr) := by
  unfold subnetEvt
  split
  · exact .refl frnd
  · cases evt with
    | added => exact .refl frnd
    | deleted => exact clear_count frnd
    | updated =>
      dsimp only
      split
      · exact clear_count frnd
      · exact .refl frnd
    | swapped => exact enqueueUpdate_count 0
    | revoked => exact enqueueUpdate_count 0

theorem timeout_count (idle : frnd.polled = none) :
    CountKept cfg frnd (frnd.timeout env) := by
  rw [timeout_eq, idle]
  dsimp only
  split
  · exact .refl frnd
  split
  · unfold sendBuf
    split <;> exact QueueSame.kept ⟨rfl, rfl, rfl⟩
  split
  · exact clear_count frnd
  · have dropped : QueueSame frnd frnd.dropLast := ⟨rfl, rfl, rfl⟩
    exact dropped.kept.trans (clear_count frnd.dropLast)

end Frnd

open Frnd

section

variable (cfg : FriendConfig)
include cfg

theorem frndStep_count (frnd : Frnd) (input : FrndInput) :
    (∃ offer, input.offered frnd = some offer ∧
      frndStep cfg frnd input = frnd.deliver cfg offer) ∨
    (∃ env buf rest, input = .timeout env ∧ frnd.polled = some (buf, rest) ∧
      frndStep cfg frnd input = frnd.sendQueued env buf rest) ∨
    CountKept cfg frnd (frndStep cfg frnd input) ∧ CountsRight cfg frnd input := by
  have unoffered (input : FrndInput) (none : input.offered frnd = none)
      (kept : CountKept cfg frnd (frndStep cfg frnd input))
      (idle : ∀ env, input ≠ .timeout env) :
      CountKept cfg frnd (frndStep cfg frnd input) ∧ CountsRight cfg frnd input := by
    refine ⟨kept, ?_, ?_⟩
    · intro offer offered
      rw [none] at offered
      cases offered
    · intro env same
      exact absurd same (idle env)
  cases input with
  | enqueueRx env rx netIdx recvTtl sdu =>
    have step : frndStep cfg frnd (.enqueueRx env rx netIdx recvTtl sdu) = _ :=
      enqueueRx_eq rx netIdx recvTtl sdu
    cases offered : (FrndInput.enqueueRx env rx netIdx recvTtl sdu).offered frnd with
    | none =>
      rw [offered] at step
      refine .inr (.inr (unoffered _ offered ?_ (by simp)))
      rw [step]
      exact .refl frnd
    | some offer =>
      rw [offered] at step
      exact .inl ⟨offer, rfl, step⟩
  | enqueueTx env tx sdu =>
    have step : frndStep cfg frnd (.enqueueTx env tx sdu) = _ := enqueueTx_eq tx sdu
    cases offered : (FrndInput.enqueueTx env tx sdu).offered frnd with
    | none =>
      rw [offered] at step
      refine .inr (.inr (unoffered _ offered ?_ (by simp)))
      rw [step]
      exact .refl frnd
    | some offer =>
      rw [offered] at step
      exact .inl ⟨offer, rfl, step⟩
  | timeout env =>
    cases polled : frnd.polled with
    | none =>
      refine .inr (.inr ⟨timeout_count polled, ?_, ?_⟩)
      · intro offer offered
        cases offered
      · intro env _ buf rest some
        rw [polled] at some
        cases some
    | some pair =>
      obtain ⟨buf, rest⟩ := pair
      refine .inr (.inl ⟨env, buf, rest, rfl, rfl, ?_⟩)
      have step := @timeout_eq env frnd
      rw [polled] at step
      exact step
  | clearIncomplete =>
    exact .inr (.inr (unoffered _ rfl (clearIncomplete_count ..) (by simp)))
  | poll => exact .inr (.inr (unoffered _ rfl (poll_count ..) (by simp)))
  | sub => exact .inr (.inr (unoffered _ rfl (sub_count ..) (by simp)))
  | request => exact .inr (.inr (unoffered _ rfl (request_count ..) (by simp)))
  | bufSendStart =>
    refine .inr (.inr (unoffered _ rfl ?_ (by simp)))
    unfold frndStep bufSendStart
    dsimp only
    split <;> exact QueueSame.kept ⟨rfl, rfl, rfl⟩
  | secUpdate env netIdx =>
    exact .inr (.inr (unoffered _ rfl (secUpdate_count netIdx) (by simp)))
  | subnetEvt => exact .inr (.inr (unoffered _ rfl (subnetEvt_count ..) (by simp)))
  | clear => exact .inr (.inr (unoffered _ rfl (clear_count frnd) (by simp)))

theorem frndStep_fit (frnd : Frnd) (input : FrndInput)
    (fit : CountsFit cfg frnd) :
    CountsFit cfg ((frndMachine cfg).next frnd input) := by
  change CountsFit cfg (frndStep cfg frnd input)
  rcases frndStep_count cfg frnd input with
    ⟨offer, _, step⟩ | ⟨env, buf, rest, _, polled, step⟩ | ⟨kept, _⟩
  · rw [step]
    exact (deliver_count offer fit).1
  · rw [step]
    exact (sendQueued_count (polled_queue polled) fit).1
  · exact kept.fit fit

theorem frndStep_counted (frnd : Frnd) (input : FrndInput)
    (fit : CountsFit cfg frnd) (counted : frnd.Counted) :
    ((frndMachine cfg).next frnd input).Counted ↔ CountsRight cfg frnd input := by
  change (frndStep cfg frnd input).Counted ↔ _
  rcases frndStep_count cfg frnd input with
    ⟨offer, offered, step⟩ | ⟨env, buf, rest, rfl, polled, step⟩ | ⟨kept, right⟩
  · rw [step, (deliver_count offer fit).2 counted]
    constructor
    · intro right
      constructor
      · intro other same
        rw [offered] at same
        cases same
        exact right
      · rintro env rfl
        cases offered
    · exact fun right => right.1 offer offered
  · rw [step, (sendQueued_count (polled_queue polled) fit).2 counted]
    constructor
    · intro encrypted
      constructor
      · intro other same
        cases same
      · rintro _ ⟨⟩ _ _ same
        rw [polled] at same
        cases same
        exact encrypted
    · exact fun right => right.2 env rfl buf rest polled
  · exact ⟨fun _ => right, fun _ => kept.counted fit counted⟩

theorem boot_fit : CountsFit cfg (.boot cfg) where
  bytes seg member := by
    rw [eq_of_mem_replicate member]
    exact Nat.zero_lt_succ 255
  pool := by
    have nothing : (Frnd.boot cfg).segHeld = 0 := by
      simp [Frnd.boot, segHeld, FrndSeg.empty]
    rw [nothing]
    exact Nat.zero_le _

end

/-- In every run the size counts the queue, as long as messages are completed by
all their segments and no PDU that leaves the queue fails to be encrypted. -/
theorem friendQueue_counted_iff (cfg : FriendConfig) (inputs : List FrndInput) :
    (frndMachine cfg).Always Frnd.Counted (.boot cfg) inputs ↔
      (frndMachine cfg).Along (CountsRight cfg) (.boot cfg) inputs :=
  Machine.always_iff_along (frndStep_fit cfg) (frndStep_counted cfg) inputs
    (boot_fit cfg) rfl

/-! A PDU of an application whose key is deleted before the PDU leaves the
queue. -/

def lostKeyEnv : FriendEnv :=
  { plainEnv with encrypt := fun data => (false, data) }

def lostKey : List FrndInput :=
  newFriendship ++ [.enqueueTx plainEnv lpnTx shortSdu,
    .poll plainEnv 0 0x0010 [0x01], .timeout lostKeyEnv]

theorem lostKey_counted :
    ¬ (frndMachine friendTestConfig).Always Frnd.Counted (.boot friendTestConfig)
      lostKey := by
  intro always
  have counted := always.last
  exact absurd counted (by unfold Counted; decide)

end ZephyrBluetooth.Mesh
