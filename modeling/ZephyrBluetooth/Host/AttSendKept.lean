import ZephyrBluetooth.Host.AttSend

namespace ZephyrBluetooth.Host

open Data List

variable {buf : PduBuf} {bearers : List SendBearer} {index : Nat}
  {bearer other : SendBearer} {answer : LowerAnswer}
  {mark : SendBearer → SendBearer} {answers : Nat → LowerAnswer}

variable {isOpen : SendBearer → PduBuf → Bool}

/-- Each PDU submitted is either in one of the buffers, as it was and with one
reference, or was handed to L2CAP, once and as it should go out. -/
structure Custody (bufs : List PduBuf) (wire : List (Nat × List Byte))
    (submitted : List (List Byte)) : Prop where
  once : (bufs.map PduBuf.id ++ wire.map Prod.fst).Perm (List.range submitted.length)
  intact : ∀ buf ∈ bufs, buf.refs = 1 ∧ submitted[buf.id]? = some buf.data
  faithful : ∀ entry ∈ wire,
    ∃ data, submitted[entry.1]? = some data ∧ Transmits data entry.2

section Custody

variable {bufs : List PduBuf} {wire : List (Nat × List Byte)}
variable {submitted : List (List Byte)}

theorem Custody.perm {others : List PduBuf} (custody : Custody bufs wire submitted)
    (same : others.Perm bufs) : Custody others wire submitted where
  once := ((same.map PduBuf.id).append_right _).trans custody.once
  intact := fun buf member => custody.intact buf (same.mem_iff.mp member)
  faithful := custody.faithful

theorem Custody.hand (custody : Custody (buf :: bufs) wire submitted)
    {bytes : List Byte} (transmits : Transmits buf.data bytes) :
    Custody bufs (wire ++ [(buf.id, bytes)]) submitted where
  once := by
    refine List.Perm.trans ?_ custody.once
    rw [map_append, map_singleton, map_cons, ← append_assoc]
    exact perm_append_singleton _ _
  intact := fun other member =>
    custody.intact other (mem_cons_of_mem buf member)
  faithful := by
    intro entry member
    rcases mem_append.mp member with old | new
    · exact custody.faithful entry old
    · rw [mem_singleton.mp new]
      exact ⟨buf.data, (custody.intact buf mem_cons_self).2, transmits⟩

theorem found_append {id : Nat} {data : List Byte}
    (found : submitted[id]? = some data) (more : List (List Byte)) :
    (submitted ++ more)[id]? = some data :=
  (getElem?_append_left (List.getElem?_eq_some_iff.mp found).1).trans found

theorem Custody.submit (custody : Custody bufs wire submitted) (data : List Byte) :
    Custody (⟨submitted.length, data, 1⟩ :: bufs) wire (submitted ++ [data]) where
  once := by
    rw [length_append, length_singleton, range_succ, map_cons, cons_append]
    exact (custody.once.cons submitted.length).trans (perm_append_singleton _ _).symm
  intact := by
    refine forall_mem_cons.mpr ⟨⟨rfl, getElem?_concat_length⟩, ?_⟩
    intro buf member
    obtain ⟨single, found⟩ := custody.intact buf member
    exact ⟨single, found_append found _⟩
  faithful := by
    intro entry member
    obtain ⟨old, found, transmits⟩ := custody.faithful entry member
    exact ⟨old, found_append found _, transmits⟩

end Custody

namespace AttQueues

variable {state : AttQueues}

def waiting (state : AttQueues) : List PduBuf :=
  state.queue ++ (state.reqs ++ state.bearers.flatMap SendBearer.queue)

/-- The PDUs are in custody, `hand` being those that a function has taken from
their queue, and no bearer is blocked. -/
structure Kept (hand : List PduBuf) (state : AttQueues) : Prop where
  custody : Custody (hand ++ state.waiting) state.wire state.submitted
  unblocked : ∀ bearer ∈ state.bearers, bearer.Unblocked

theorem queues_congr {others : List SendBearer}
    (same : others.map SendBearer.queue = bearers.map SendBearer.queue) :
    others.flatMap SendBearer.queue = bearers.flatMap SendBearer.queue := by
  rw [flatMap_def, flatMap_def, same]

theorem set_queue (here : bearers[index]? = some bearer)
    (same : other.queue = bearer.queue) :
    (bearers.set index other).map SendBearer.queue =
      bearers.map SendBearer.queue := by
  have found : (bearers.map SendBearer.queue)[index]? = some bearer.queue := by
    rw [getElem?_map, here]
    rfl
  obtain ⟨inside, value⟩ := List.getElem?_eq_some_iff.mp found
  rw [map_set, same, ← value]
  exact set_getElem_self inside

theorem set_unblocked (others : ∀ bearer ∈ bearers, bearer.Unblocked)
    (here : other.Unblocked) :
    ∀ bearer ∈ bearers.set index other, bearer.Unblocked := by
  intro bearer member
  rcases mem_or_eq_of_mem_set member with old | rfl
  · exact others bearer old
  · exact here

def Marks (mark : SendBearer → SendBearer) : Prop :=
  ∀ bearer, (mark bearer).queue = bearer.queue ∧
    (bearer.Unblocked → (mark bearer).Unblocked)

theorem marks_id : Marks id := fun _ => ⟨rfl, id⟩

theorem marks_reqTaken : Marks SendBearer.reqTaken := fun _ => ⟨rfl, id⟩

theorem Kept.sendOn (kept : state.Kept [buf])
    (here : state.bearers[index]? = some bearer)
    (met : SendTry.Met ⟨bearer, buf, answer⟩) (cb : SentCb) (marks : Marks mark) :
    Kept (state.sendOn index bearer cb mark answer buf).2.toList
      (state.sendOn index bearer cb mark answer buf).1 := by
  have clean := @chanSendBuf_met answer state.cnt bearer buf met cb
  have queue := @chanSendBuf_queue answer state.cnt bearer buf cb
  have free := clean.unblocked (kept.unblocked bearer (mem_of_getElem? here))
  unfold AttQueues.sendOn
  cases result : (chanSendBuf answer state.cnt bearer buf cb).result with
  | ok bytes =>
    simp only [result]
    obtain ⟨keeps, frees⟩ := marks (chanSendBuf answer state.cnt bearer buf cb).bearer
    have same := queues_congr (set_queue here (keeps.trans queue))
    refine ⟨?_, set_unblocked kept.unblocked (frees free)⟩
    have handed := kept.custody.hand (clean.taken bytes result)
    show Custody (state.queue ++ (state.reqs ++ flatMap _ _)) _ _
    rw [same]
    exact handed
  | error left =>
    simp only [result]
    have same := queues_congr (set_queue here queue)
    refine ⟨?_, set_unblocked kept.unblocked free⟩
    rw [clean.kept left result]
    show Custody ([buf] ++ (state.queue ++ (state.reqs ++ flatMap _ _))) _ _
    rw [same]
    exact kept.custody

theorem offer_clean (marks : Marks mark) {cnt : Nat}
    (met : ∀ attempt ∈ (offer isOpen mark answers bearers index cnt buf).tries,
      attempt.Met) (unblocked : ∀ bearer ∈ bearers, bearer.Unblocked) :
    let offered := offer isOpen mark answers bearers index cnt buf
    (∀ left, offered.result = .error left → left = buf) ∧
      (∀ bytes, offered.result = .ok bytes → Transmits buf.data bytes) ∧
      offered.bearers.map SendBearer.queue = bearers.map SendBearer.queue ∧
      ∀ bearer ∈ offered.bearers, bearer.Unblocked := by
  induction bearers generalizing index cnt with
  | nil =>
    refine ⟨?_, ?_, rfl, unblocked⟩
    · rintro left ⟨⟩
      rfl
    · rintro bytes ⟨⟩
  | cons bearer rest ih =>
    obtain ⟨here, others⟩ := forall_mem_cons.mp unblocked
    unfold offer at met ⊢
    split at met
    · rename_i opened
      rw [if_pos opened]
      have queue := @chanSendBuf_queue (answers index) cnt bearer buf .none
      cases result : (chanSendBuf (answers index) cnt bearer buf .none).result with
      | ok bytes =>
        simp only [result] at met ⊢
        have clean := @chanSendBuf_met (answers index) cnt bearer buf
          (met _ mem_cons_self) .none
        obtain ⟨keeps, frees⟩ :=
          marks (chanSendBuf (answers index) cnt bearer buf .none).bearer
        refine ⟨?_, ?_, ?_, ?_⟩
        · rintro left ⟨⟩
        · rintro _ ⟨⟩
          exact clean.taken bytes result
        · rw [map_cons, map_cons, keeps, queue]
        · exact forall_mem_cons.mpr ⟨frees (clean.unblocked here), others⟩
      | error left =>
        simp only [result] at met ⊢
        obtain ⟨first, later⟩ := forall_mem_cons.mp met
        have clean := @chanSendBuf_met (answers index) cnt bearer buf first .none
        have same := clean.kept left result
        subst same
        obtain ⟨kept, taken, queues, free⟩ := ih later others
        refine ⟨kept, taken, ?_, ?_⟩
        · rw [map_cons, map_cons, queue, queues]
        · exact forall_mem_cons.mpr ⟨clean.unblocked here, free⟩
    · rename_i closed
      rw [if_neg closed]
      obtain ⟨kept, taken, queues, free⟩ := ih met others
      refine ⟨kept, taken, ?_, ?_⟩
      · rw [map_cons, map_cons, queues]
      · exact forall_mem_cons.mpr ⟨here, free⟩

theorem Kept.offerAll (kept : state.Kept [buf]) (marks : Marks mark)
    (met : ∀ attempt ∈ (state.offerAll isOpen mark answers buf).2.2, attempt.Met) :
    Kept (state.offerAll isOpen mark answers buf).2.1.toList
      (state.offerAll isOpen mark answers buf).1 := by
  have tries : (state.offerAll isOpen mark answers buf).2.2 =
      (offer isOpen mark answers state.bearers 0 state.cnt buf).tries := by
    unfold AttQueues.offerAll
    simp only
    split <;> rfl
  rw [tries] at met
  obtain ⟨same, taken, queues, free⟩ := offer_clean marks met kept.unblocked
  have flat := queues_congr queues
  unfold AttQueues.offerAll
  cases result : (offer isOpen mark answers state.bearers 0 state.cnt
      buf).result with
  | ok bytes =>
    simp only [result]
    refine ⟨?_, free⟩
    have handed := kept.custody.hand (taken bytes result)
    show Custody (state.queue ++ (state.reqs ++ flatMap _ _)) _ _
    rw [flat]
    exact handed
  | error left =>
    simp only [result]
    refine ⟨?_, free⟩
    rw [same left result]
    show Custody ([buf] ++ (state.queue ++ (state.reqs ++ flatMap _ _))) _ _
    rw [flat]
    exact kept.custody

theorem modify_eq (here : bearers[index]? = some bearer)
    (edit : SendBearer → SendBearer) :
    bearers.modify index edit = bearers.set index (edit bearer) := by
  rw [modify_eq_set_getElem?, here]
  rfl

variable {hand : List PduBuf}

theorem set_perm (here : bearers[index]? = some bearer)
    (moved : bearer.queue.Perm (hand ++ other.queue)) :
    (bearers.flatMap SendBearer.queue).Perm
      (hand ++ (bearers.set index other).flatMap SendBearer.queue) := by
  induction bearers generalizing index with
  | nil => cases here
  | cons first rest ih =>
    cases index with
    | zero =>
      cases here
      rw [set_cons_zero, flatMap_cons, flatMap_cons, ← append_assoc]
      exact moved.append_right _
    | succ =>
      have later := ih here
      rw [set_cons_succ, flatMap_cons, flatMap_cons]
      exact (later.append_left first.queue).trans (perm_append_comm_assoc _ _ _)

theorem kept_queue_iff :
    Kept hand state ↔ Kept [] { state with queue := hand ++ state.queue } := by
  have same : ([] ++ waiting { state with queue := hand ++ state.queue }) =
      hand ++ state.waiting := append_assoc _ _ _
  constructor
  · rintro ⟨custody, unblocked⟩
    exact ⟨same ▸ custody, unblocked⟩
  · rintro ⟨custody, unblocked⟩
    exact ⟨same ▸ custody, unblocked⟩

theorem kept_reqs_iff :
    Kept hand state ↔ Kept [] { state with reqs := hand ++ state.reqs } := by
  have moved : (waiting { state with reqs := hand ++ state.reqs }).Perm
      (hand ++ state.waiting) := by
    show (state.queue ++ ((hand ++ state.reqs) ++ _)).Perm _
    rw [append_assoc]
    exact perm_append_comm_assoc _ _ _
  constructor
  · rintro ⟨custody, unblocked⟩
    exact ⟨custody.perm moved, unblocked⟩
  · rintro ⟨custody, unblocked⟩
    exact ⟨custody.perm moved.symm, unblocked⟩

theorem kept_set_iff {index : Nat}
    {bearer other : SendBearer} (here : state.bearers[index]? = some bearer)
    (moved : bearer.queue.Perm (hand ++ other.queue))
    (same : bearer.Unblocked ↔ other.Unblocked) :
    Kept [] state ↔
      Kept hand { state with bearers := state.bearers.set index other } := by
  have flat := set_perm here moved
  have queues : state.waiting.Perm (hand ++
      waiting { state with bearers := state.bearers.set index other }) := by
    have inner := (flat.append_left state.reqs).trans (perm_append_comm_assoc _ _ _)
    exact (inner.append_left state.queue).trans (perm_append_comm_assoc _ _ _)
  constructor
  · rintro ⟨custody, unblocked⟩
    refine ⟨custody.perm queues.symm, set_unblocked unblocked ?_⟩
    exact same.mp (unblocked bearer (mem_of_getElem? here))
  · rintro ⟨custody, unblocked⟩
    refine ⟨custody.perm queues, ?_⟩
    intro one member
    obtain ⟨inside, value⟩ := List.getElem?_eq_some_iff.mp here
    obtain ⟨place, bound, rfl⟩ := mem_iff_getElem.mp member
    by_cases equal : index = place
    · subst equal
      rw [value]
      apply same.mpr
      exact unblocked other (mem_set inside other)
    · apply unblocked
      have stays : (state.bearers.set index other)[place]? =
          some state.bearers[place] := by
        rw [getElem?_set_ne equal]
        exact getElem?_eq_getElem bound
      exact mem_of_getElem? stays

section

variable {buf : PduBuf} {rest : List PduBuf} (kept : state.Kept [])
include kept

theorem Kept.takeQueue (queued : state.queue = buf :: rest) :
    Kept [buf] { state with queue := rest } := by
  rw [kept_queue_iff]
  show Kept [] { state with queue := buf :: rest }
  rw [← queued]
  exact kept

theorem Kept.takeReq (queued : state.reqs = buf :: rest) :
    Kept [buf] { state with reqs := rest } := by
  rw [kept_reqs_iff]
  show Kept [] { state with reqs := buf :: rest }
  rw [← queued]
  exact kept

end

section

variable (kept : state.Kept [])
include kept

theorem Kept.attSendProcess
    (met : ∀ attempt ∈ (state.attSendProcess answers).2, attempt.Met) :
    Kept [] (state.attSendProcess answers).1 := by
  unfold AttQueues.attSendProcess at met ⊢
  cases queued : state.queue with
  | nil => exact kept
  | cons buf rest =>
    simp only [queued] at met ⊢
    have taken := kept.takeQueue queued
    exact kept_queue_iff.mp (taken.offerAll marks_id met)

theorem Kept.attReqSendProcess
    (met : ∀ attempt ∈ (state.attReqSendProcess answers).2, attempt.Met) :
    Kept [] (state.attReqSendProcess answers).1 := by
  unfold AttQueues.attReqSendProcess at met ⊢
  cases queued : state.reqs with
  | nil => exact kept
  | cons buf rest =>
    simp only [queued] at met ⊢
    have taken := kept.takeReq queued
    exact kept_reqs_iff.mp (taken.offerAll marks_reqTaken met)

theorem Kept.reqSendOn
    (met : ∀ attempt ∈ (state.reqSendOn index answer).2.2, attempt.Met) :
    Kept [] (state.reqSendOn index answer).1 := by
  unfold AttQueues.reqSendOn at met ⊢
  cases here : state.bearers[index]? with
  | none => exact kept
  | some bearer =>
    cases queued : state.reqs with
    | nil => exact kept
    | cons buf rest =>
      simp only [here, queued] at met ⊢
      split at met
      · rename_i opened
        rw [if_pos opened]
        have taken := kept.takeReq queued
        exact kept_reqs_iff.mp
          (taken.sendOn here (met _ mem_cons_self) .none marks_reqTaken)
      · rename_i closed
        rw [if_neg closed]
        exact kept

theorem Kept.processShared
    (met : ∀ attempt ∈ (state.processShared index answer).2.2, attempt.Met) :
    Kept [] (state.processShared index answer).1 := by
  unfold AttQueues.processShared at met ⊢
  cases here : state.bearers[index]? with
  | none => exact kept
  | some =>
    cases queued : state.queue with
    | nil => exact kept
    | cons buf rest =>
      simp only [here, queued] at met ⊢
      have taken := kept.takeQueue queued
      exact kept_queue_iff.mp
        (taken.sendOn here (met _ mem_cons_self) .none marks_id)

end

theorem sendOn_bearer {index : Nat} {bearer : SendBearer}
    (here : state.bearers[index]? = some bearer) (cb : SentCb)
    (mark : SendBearer → SendBearer) (answer : LowerAnswer) (buf : PduBuf) :
    ∃ after, (state.sendOn index bearer cb mark answer buf).1.bearers[index]? =
      some after := by
  obtain ⟨inside, -⟩ := List.getElem?_eq_some_iff.mp here
  unfold AttQueues.sendOn
  cases result : (chanSendBuf answer state.cnt bearer buf cb).result with
  | ok =>
    simp only [result]
    exact ⟨_, getElem?_set_self inside⟩
  | error =>
    simp only [result]
    exact ⟨_, getElem?_set_self inside⟩

theorem Kept.putBack (kept : state.Kept hand)
    (here : state.bearers[index]? = some bearer) {edit : SendBearer → SendBearer}
    (moved : (edit bearer).queue.Perm (hand ++ bearer.queue))
    (same : (edit bearer).Unblocked ↔ bearer.Unblocked) :
    Kept [] { state with bearers := state.bearers.modify index edit } := by
  obtain ⟨inside, value⟩ := List.getElem?_eq_some_iff.mp here
  rw [modify_eq here]
  have there : (state.bearers.set index (edit bearer))[index]? =
      some (edit bearer) := getElem?_set_self inside
  rw [@kept_set_iff { state with bearers := state.bearers.set index (edit bearer) }
    hand index (edit bearer) bearer there moved same]
  have back : (state.bearers.set index (edit bearer)).set index bearer =
      state.bearers := by
    rw [set_set, ← value]
    exact set_getElem_self inside
  simp only [back]
  exact kept

theorem Kept.processOwn (kept : state.Kept [])
    (met : ∀ attempt ∈ (state.processOwn index answer).2.2, attempt.Met) :
    Kept [] (state.processOwn index answer).1 := by
  unfold AttQueues.processOwn at met ⊢
  cases here : state.bearers[index]? with
  | none => exact kept
  | some bearer =>
    cases queued : bearer.queue with
    | nil =>
      simp only [queued]
      exact kept
    | cons buf rest =>
      simp only [here, queued] at met ⊢
      obtain ⟨inside, -⟩ := List.getElem?_eq_some_iff.mp here
      have taken := (@kept_set_iff state [buf] index bearer
        { bearer with queue := rest } here
        (by rw [queued]; exact List.Perm.refl _) Iff.rfl).mp kept
      have popped : (state.bearers.set index
          { bearer with queue := rest })[index]? =
            some { bearer with queue := rest } :=
        getElem?_set_self inside
      have sent := taken.sendOn popped (met _ mem_cons_self) .none marks_id
      obtain ⟨_, there⟩ := @sendOn_bearer
        ({ state with
          bearers := (state.bearers.set index { bearer with queue := rest }) })
        index _ popped .none id answer buf
      exact sent.putBack there (List.Perm.refl _) Iff.rfl

theorem Kept.unlessSent {first : AttQueues × Bool × List SendTry}
    {rest : AttQueues → AttQueues × Bool × List SendTry}
    (met : ∀ attempt ∈ (AttQueues.unlessSent first rest).2.2, attempt.Met)
    (begun : (∀ attempt ∈ first.2.2, attempt.Met) → Kept [] first.1)
    (later : Kept [] first.1 → (∀ attempt ∈ (rest first.1).2.2, attempt.Met) →
      Kept [] (rest first.1).1) :
    Kept [] (AttQueues.unlessSent first rest).1 := by
  unfold AttQueues.unlessSent at met ⊢
  split at met
  · rename_i done
    rw [if_pos done]
    exact begun met
  · rename_i going
    rw [if_neg going]
    obtain ⟨earlier, after⟩ := forall_mem_append.mp met
    exact later (begun earlier) after

section

variable (kept : state.Kept [])
include kept

theorem Kept.modify (index : Nat) {edit : SendBearer → SendBearer}
    (edits : ∀ bearer, (edit bearer).queue = bearer.queue)
    (frees : ∀ bearer, bearer.Unblocked → (edit bearer).Unblocked) :
    Kept [] { state with bearers := state.bearers.modify index edit } := by
  cases here : state.bearers[index]? with
  | none =>
    have same : state.bearers.modify index edit = state.bearers :=
      modify_eq_self (getElem?_eq_none_iff.mp here)
    rw [same]
    exact kept
  | some bearer =>
    rw [modify_eq here]
    have flat := queues_congr (set_queue here (edits bearer))
    refine ⟨?_, set_unblocked kept.unblocked
      (frees bearer (kept.unblocked bearer (mem_of_getElem? here)))⟩
    show Custody ([] ++ (state.queue ++ (state.reqs ++ flatMap _ _))) _ _
    rw [flat]
    exact kept.custody

theorem Kept.btAttSent {first second third : LowerAnswer}
    (met : ∀ attempt ∈ (state.btAttSent index first second third).2, attempt.Met) :
    Kept [] (state.btAttSent index first second third).1 := by
  have told : Kept [] { state with
      bearers := state.bearers.modify index fun bearer =>
        { bearer with pending := false, flying := bearer.flying.tail } } :=
    kept.modify index (fun _ => rfl) nofun
  unfold AttQueues.btAttSent at met ⊢
  split at met
  · rename_i reported
    rw [if_pos reported]
    refine Kept.unlessSent met (fun earlier => ?_) fun before shared =>
      before.processShared shared
    exact Kept.unlessSent earlier (fun requests => told.reqSendOn requests)
      fun before own => before.processOwn own
  · rename_i silent
    rw [if_neg silent]
    exact kept

theorem Kept.btAttStatus {out : Bool}
    (met : ∀ attempt ∈ (state.btAttStatus index out answer).2, attempt.Met) :
    Kept [] (state.btAttStatus index out answer).1 := by
  have told : Kept [] { state with
      bearers := state.bearers.modify index fun bearer =>
        { bearer with out := out } } :=
    kept.modify index (fun _ => rfl) (fun _ free => free)
  cases out with
  | true => exact told.reqSendOn met
  | false => exact told

theorem Kept.submit (data : List Byte) :
    Kept [state.fresh data] (state.submit data) where
  custody := kept.custody.submit data
  unblocked := kept.unblocked

theorem Kept.btAttChanSendRsp {cb : SentCb} {data : List Byte}
    (met : ∀ attempt ∈ (state.btAttChanSendRsp index cb answer data).2,
      attempt.Met) : Kept [] (state.btAttChanSendRsp index cb answer data).1 := by
  unfold AttQueues.btAttChanSendRsp at met ⊢
  cases here : state.bearers[index]? with
  | none => exact kept
  | some bearer =>
    simp only [here] at met ⊢
    have there : (state.submit data).bearers[index]? = some bearer := here
    have sent := (kept.submit data).sendOn there (met _ mem_cons_self) cb marks_id
    obtain ⟨_, place⟩ := sendOn_bearer there cb id answer (state.fresh data)
    exact sent.putBack place perm_append_comm Iff.rfl

theorem Kept.step {input : AttQueuesInput}
    (met : ∀ attempt ∈ (state.step input).2, attempt.Met) :
    Kept [] (state.step input).1 := by
  cases input with
  | send data =>
    have queued := kept_queue_iff.mp (kept.submit data)
    have last : Kept [] { state.submit data with
        queue := state.queue ++ [state.fresh data] } := by
      refine ⟨queued.custody.perm ?_, queued.unblocked⟩
      exact perm_append_comm.append_right _
    exact last.attSendProcess met
  | respond => exact kept.btAttChanSendRsp met
  | request data =>
    have queued := kept_reqs_iff.mp (kept.submit data)
    have last : Kept [] { state.submit data with
        reqs := state.reqs ++ [state.fresh data] } := by
      refine ⟨queued.custody.perm ?_, queued.unblocked⟩
      exact (perm_append_comm.append_right _).append_left _
    exact last.attReqSendProcess met
  | response index =>
    have idle : Kept [] { state with
        bearers := state.bearers.modify index fun bearer =>
          { bearer with busy := false } } :=
      kept.modify index (fun _ => rfl) (fun _ free => free)
    exact idle.attReqSendProcess met
  | sent => exact kept.btAttSent met
  | status => exact kept.btAttStatus met

end

/-- A connection with bearers of these kinds, each enhanced or not, with an MTU
and the status for output. -/
def start (kinds : List (Bool × Nat × Bool)) (cnt : Nat) : AttQueues where
  bearers := kinds.map fun (enhanced, mtu, out) =>
    ⟨enhanced, mtu, out, false, false, .none, [], []⟩
  queue := []
  reqs := []
  cnt := cnt
  submitted := []
  wire := []

theorem start_kept (kinds : List (Bool × Nat × Bool)) (cnt : Nat) :
    Kept [] (start kinds cnt) := by
  have empty : (start kinds cnt).waiting = [] := by
    show flatMap SendBearer.queue (kinds.map _) = []
    rw [flatMap_map]
    exact flatMap_eq_nil_iff.mpr fun _ _ => rfl
  constructor
  · rw [empty]
    exact
      { once := List.Perm.refl _
        intact := nofun
        faithful := fun _ member => nomatch member }
  · intro bearer member
    obtain ⟨_, -, rfl⟩ := mem_map.mp member
    exact nofun

end AttQueues

/-- In every run whose calls of `chan_send` all meet the condition, each PDU is
either in a queue, in its buffer as it was, or was handed to L2CAP once; and a
bearer waits only for a PDU that is on its way. -/
theorem att_sends_kept (kinds : List (Bool × Nat × Bool)) (cnt : Nat)
    (inputs : List AttQueuesInput)
    (met : ∀ attempt ∈ attQueuesMachine.trace (AttQueues.start kinds cnt) inputs,
      attempt.Met) :
    attQueuesMachine.Always (AttQueues.Kept []) (AttQueues.start kinds cnt)
      inputs := by
  have kept := AttQueues.start_kept kinds cnt
  generalize AttQueues.start kinds cnt = state at met kept
  induction inputs generalizing state with
  | nil => exact kept
  | cons input rest ih =>
    rw [Machine.trace_cons] at met
    obtain ⟨here, later⟩ := forall_mem_append.mp met
    exact ⟨kept, ih _ later (kept.step here)⟩

def sampleAnswer (taken : Bool) : LowerAnswer where
  sign := .signed (Vector.replicate 8 0)
  conn := taken
  l2cap := none

theorem att_sends_kept_retry : let inputs : List AttQueuesInput :=
      [.send [AttOp.signedWriteCmd.code, 1, 0, 7] fun _ => sampleAnswer true,
        .send [AttOp.writeCmd.code, 1, 0, 9] fun _ => sampleAnswer false,
        .sent 0 (sampleAnswer true) (sampleAnswer true) (sampleAnswer true)]
    attQueuesMachine.Always (AttQueues.Kept [])
      (AttQueues.start [(false, 23, true)] 0) inputs := by
  intro inputs
  apply att_sends_kept
  decide

theorem att_send_blocks : ¬ ∀ (kinds : List (Bool × Nat × Bool)) (cnt : Nat)
      (inputs : List AttQueuesInput),
      attQueuesMachine.Always (AttQueues.Kept []) (AttQueues.start kinds cnt)
        inputs := by
  intro claimed
  have reached := (claimed [(true, 64, false)] 0
    [.request [AttOp.readReq.code, 1, 0] fun _ => sampleAnswer true]).2
  have bearers : (attQueuesMachine.next (AttQueues.start [(true, 64, false)] 0)
      (.request [AttOp.readReq.code, 1, 0] fun _ => sampleAnswer true)).bearers =
        [⟨true, 64, false, true, false, .req, [], []⟩] := rfl
  have free := reached.unblocked _ (by rw [bearers]; exact mem_cons_self)
  exact free rfl rfl rfl

end ZephyrBluetooth.Host
