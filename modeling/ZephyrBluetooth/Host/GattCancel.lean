import ZephyrBluetooth.Host.AttLifecycle

namespace ZephyrBluetooth.Host

open Data AttLinkOutput List Bool

variable {bearer : AttBearer}

/-! `bt_gatt_cancel` takes the parameters that a request was made with, and hands
them on as if they were the request. -/

/-- Where a `struct bt_att_req *` points: at an element of `req_slab`, or at the
parameters of an application. -/
inductive ReqPointer where
  | slab (id : Nat)
  | params (address : Nat)
  deriving DecidableEq

namespace AttLink

def holdsAt (req : ReqPointer) (bearer : AttBearer) : Bool :=
  match bearer.slot with
  | .own own => decide (ReqPointer.slab own.id = req)
  | _ => false

/-- `bt_att_req_cancel`, with what it gives to `bt_att_req_free`. -/
def btAttReqCancelAt (link : AttLink) (req : ReqPointer) :
    AttLink × List ReqPointer :=
  if !link.attGet then (link, [])
  else
    match changeFirst (holdsAt req)
        (fun bearer => { bearer with slot := .cancelled }) link.bearers with
    | some bearers => ({ link with bearers }, [req])
    | none =>
      ({ link with
          reqs := link.reqs.eraseP fun waiting =>
            decide (ReqPointer.slab waiting.id = req) },
        [req])

/-- `bt_gatt_cancel`; the address 0 is `NULL`. -/
def btGattCancel (link : AttLink) (conn : Bool) (params : Nat) :
    AttLink × List ReqPointer :=
  if !conn ∨ params = 0 then (link, [])
  else link.btAttReqCancelAt (.params params)

structure Absent (id : Nat) (link : AttLink) : Prop where
  waiting : ∀ req ∈ link.reqs, req.id ≠ id
  bearers : ∀ bearer ∈ link.bearers, holds id bearer = false

structure Ignored (id : Nat) (after : AttLink × List AttLinkOutput) : Prop where
  absent : after.1.Absent id
  old : id < after.1.nextId
  silent : ∀ output ∈ after.2, output.calls id = false

variable {link : AttLink} {id : Nat} {attempts : Attempts}

theorem Absent.quiet (absent : link.Absent id) (old : id < link.nextId) :
    Ignored id (link, []) where
  absent := absent
  old := old
  silent := by simp

theorem Absent.change (absent : link.Absent id) (index : Nat)
    {edit : AttBearer → AttBearer}
    (keeps : ∀ bearer ∈ link.bearers, holds id (edit bearer) = false) :
    (link.change index edit).Absent id := by
  cases found : link.find index with
  | none =>
    rw [change_none found]
    exact absent
  | some bearer =>
    obtain ⟨_, _, split, changed⟩ := change_eq found edit
    rw [changed]
    refine ⟨absent.waiting, ?_⟩
    intro other member
    have others := absent.bearers
    rw [split] at others keeps
    rcases mem_append.mp member with member | member
    · exact others other (mem_append_left _ member)
    rcases mem_cons.mp member with rfl | member
    · exact keeps bearer (by simp)
    · exact others other (by simp [member])

theorem chanReqSend_absent {bearer : AttBearer} {req : AttPending}
    (other : req.id ≠ id) :
    holds id (bearer.chanReqSend attempts req).1 = false := by
  unfold AttBearer.chanReqSend
  simp only
  split
  · exact decide_eq_false other
  · rfl

theorem reqOffer_absent {req : AttPending} (other : req.id ≠ id)
    {bearers : List AttBearer}
    (absent : ∀ bearer ∈ bearers, holds id bearer = false) :
    ∀ bearer ∈ (reqOffer attempts req bearers).1, holds id bearer = false := by
  induction bearers with
  | nil => exact absent
  | cons bearer rest ih =>
    obtain ⟨here, later⟩ := forall_mem_cons.mp absent
    have offered := ih later
    unfold reqOffer
    split
    · simp only
      split
      · exact forall_mem_cons.mpr ⟨chanReqSend_absent other, later⟩
      · exact forall_mem_cons.mpr ⟨chanReqSend_absent other, offered⟩
    · exact forall_mem_cons.mpr ⟨here, offered⟩

theorem Absent.reqSendProcess (absent : link.Absent id) (attempts : Attempts) :
    (link.reqSendProcess attempts).Absent id := by
  unfold AttLink.reqSendProcess
  cases waiting : link.reqs with
  | nil => exact absent
  | cons =>
    have others := absent.waiting
    rw [waiting] at others
    obtain ⟨other, later⟩ := forall_mem_cons.mp others
    refine ⟨?_, reqOffer_absent other absent.bearers⟩
    simp only
    split
    · exact later
    · exact others

theorem reqSendProcess_nextId (attempts : Attempts) :
    (link.reqSendProcess attempts).nextId = link.nextId := by
  unfold reqSendProcess
  split <;> rfl

theorem ended_silent (absent : holds id bearer = false) (err : Nat)
    (rx : Option (Nat × Byte)) :
    ∀ output ∈ ended bearer err rx, output.calls id = false := by
  unfold ended holds at *
  cases slot : bearer.slot with
  | idle => simp
  | cancelled => simp
  | own =>
    rw [slot] at absent
    simp only [forall_mem_cons]
    exact ⟨rfl, absent, by simp⟩

section

variable (absent : link.Absent id)
include absent

theorem Absent.handleRsp (old : id < link.nextId)
    (here : holds id bearer = false) (err : Nat) (rx : Option (Nat × Byte)) :
    Ignored id (link.handleRsp attempts bearer err rx) where
  absent :=
    (absent.change bearer.index (fun _ _ => rfl)).reqSendProcess attempts
  old := by
    unfold AttLink.handleRsp
    rw [reqSendProcess_nextId]
    exact old
  silent := ended_silent here err rx

theorem Absent.offered {req : AttPending} {later : List AttPending}
    (waiting : link.reqs = req :: later) (index : Nat) (bearer : AttBearer) :
    Absent id
      { link.change index fun _ => (bearer.chanReqSend attempts req).1 with
        reqs := if (bearer.chanReqSend attempts req).2 then later
          else link.reqs } := by
  have others := absent.waiting
  rw [waiting] at others
  obtain ⟨other, rest⟩ := forall_mem_cons.mp others
  have changed := absent.change index
    (fun _ _ => @chanReqSend_absent id attempts bearer req other)
  refine ⟨?_, changed.bearers⟩
  simp only
  split
  · exact rest
  · exact absent.waiting

theorem Absent.onSent (attempts : Attempts)
    (index : Nat) : (link.onSent attempts index).Absent id := by
  unfold AttLink.onSent
  cases found : link.find index with
  | none => exact absent
  | some bearer =>
    have here := absent.bearers bearer (find_mem found)
    simp only
    cases bearer.tx with
    | nil => exact absent
    | cons tx rest =>
      have told : holds id (AttBearer.onSent { bearer with tx := rest } tx) =
          false := by
        rw [holds_onSent]
        exact here
      simp only
      cases (AttBearer.onSent { bearer with tx := rest } tx).slot with
      | own => exact absent.change index (fun _ _ => told)
      | cancelled => exact absent.change index (fun _ _ => told)
      | idle =>
        cases waiting : link.reqs with
        | nil => exact absent.change index (fun _ _ => told)
        | cons req later =>
          have offered := @Absent.offered _ _ attempts absent req later
            waiting index (AttBearer.onSent { bearer with tx := rest } tx)
          rw [waiting] at offered
          exact offered

theorem Absent.onStatus (attempts : Attempts)
    (index : Nat) : (link.onStatus attempts index).Absent id := by
  unfold AttLink.onStatus
  cases found : link.find index with
  | none => exact absent
  | some bearer =>
    simp only
    cases bearer.slot with
    | own => exact absent
    | cancelled => exact absent
    | idle =>
      cases waiting : link.reqs with
      | nil => exact absent
      | cons req later =>
        have offered := @Absent.offered _ _ attempts absent req later
          waiting index bearer
        rw [waiting] at offered
        exact offered

end

theorem onStatus_nextId (attempts : Attempts) (index : Nat) :
    (link.onStatus attempts index).nextId = link.nextId := by
  unfold onStatus
  split
  · rfl
  · split <;> rfl

theorem onSent_nextId (attempts : Attempts) (index : Nat) :
    (link.onSent attempts index).nextId = link.nextId := by
  unfold onSent
  split
  · rfl
  split
  · rfl
  · simp only
    split <;> rfl

theorem Absent.marked (absent : link.Absent id) {req : AttPending} {index : Nat}
    (found : link.find index = some bearer) (own : bearer.slot = .own req) :
    req.id ≠ id := by
  have here := absent.bearers bearer (find_mem found)
  unfold holds at here
  rw [own] at here
  exact of_decide_eq_false here

section

variable (absent : link.Absent id) (old : id < link.nextId)
include absent old

theorem Absent.onRecv (flags : AttFlags) (attempts : Attempts) (index : Nat)
    (data : List Byte) (elevated : Bool) :
    Ignored id (link.onRecv flags attempts index data elevated) := by
  rcases onRecv_cases link flags attempts index data elevated with
    ⟨same, _⟩ | ⟨bearer, req, found, own, same, _⟩ |
      ⟨bearer, _, _, err, found, _, same, _⟩
  · rw [same]
    exact absent.quiet old
  · have other := absent.marked found own
    rw [same]
    refine Absent.quiet (absent.change bearer.index ?_) old
    exact fun _ _ => decide_eq_false other
  · rw [same]
    exact absent.handleRsp old (absent.bearers bearer (find_mem found)) err _

theorem Absent.onEncryptChange (attempts : Attempts)
    (index hciStatus secLevel : Nat) (built : Bool) :
    Ignored id (link.onEncryptChange attempts index hciStatus secLevel built) := by
  have secured : Absent id { link with secLevel } :=
    ⟨absent.waiting, absent.bearers⟩
  rcases onEncryptChange_cases link attempts index hciStatus secLevel built with
    same | ⟨bearer, req, next, found, _, sent, same⟩ | ⟨bearer, err, found, _, same⟩
  · rw [same]
    exact secured.quiet old
  · rw [same]
    have slot := bearer.chanSend_slot attempts .none req.ask.op.code (some req.id)
    rw [sent] at slot
    have kept : holds id next = false := by
      rw [holds_congr id slot]
      exact absent.bearers bearer (find_mem found)
    exact Absent.quiet (secured.change index (fun _ _ => kept)) old
  · rw [same]
    exact secured.handleRsp old (absent.bearers bearer (find_mem found)) err _

theorem Absent.btAttReqCancel (other : Nat) :
    Ignored id (link.btAttReqCancel other) := by
  have told : ∀ output ∈ [AttLinkOutput.cancelled other, .freed other],
      output.calls id = false := by
    intro output member
    rcases mem_cons.mp member with rfl | member
    · rfl
    · rw [mem_singleton.mp member]
      rfl
  unfold AttLink.btAttReqCancel
  cases outstanding : changeFirst (holds other)
      (fun bearer => { bearer with slot := .cancelled }) link.bearers with
  | some bearers =>
    obtain ⟨_, bearer, _, split, _, _, rfl⟩ := changeFirst_split outstanding
    refine ⟨⟨absent.waiting, ?_⟩, old, told⟩
    intro here member
    have others := absent.bearers
    rw [split] at others
    rcases mem_append.mp member with member | member
    · exact others here (mem_append_left _ member)
    rcases mem_cons.mp member with rfl | member
    · rfl
    · exact others here (by simp [member])
  | none =>
    refine ⟨⟨?_, absent.bearers⟩, old, told⟩
    exact fun req member => absent.waiting req (mem_of_mem_eraseP member)

theorem Absent.call (found : Bool) (request : AttReqCall) :
    Ignored id (link.call found request) := by
  cases found with
  | false => cases request <;> exact absent.quiet old
  | true =>
    cases request with
    | cancel other => exact absent.btAttReqCancel old other
    | send ask encode attempts =>
      have queued : Absent id { link with
          reqs := link.reqs ++ [⟨link.nextId, ask, encode, false, false⟩]
          nextId := link.nextId + 1 } := by
        refine ⟨?_, absent.bearers⟩
        intro req member
        rcases mem_append.mp member with member | member
        · exact absent.waiting req member
        · rw [mem_singleton.mp member]
          exact ne_of_gt old
      refine ⟨queued.reqSendProcess attempts, ?_, ?_⟩
      · show id < (AttLink.reqSendProcess _ attempts).nextId
        rw [reqSendProcess_nextId]
        exact Nat.lt_succ_of_lt old
      · intro output member
        rw [mem_singleton.mp member]
        rfl

end

theorem Ignored.append {last : AttLink} {outputs later : List AttLinkOutput}
    (silent : ∀ output ∈ outputs, output.calls id = false)
    (ignored : Ignored id (last, later)) :
    Ignored id (last, outputs ++ later) where
  absent := ignored.absent
  old := ignored.old
  silent := forall_mem_append.mpr ⟨silent, ignored.silent⟩

section

variable (absent : link.Absent id)
include absent

theorem Absent.calls (old : id < link.nextId) (found : Bool)
    (requests : List AttReqCall) : Ignored id (link.calls found requests) := by
  induction requests generalizing link with
  | nil => exact absent.quiet old
  | cons request rest ih =>
    have first := absent.call old found request
    exact .append first.silent (ih first.absent first.old)

theorem Absent.remove (index : Nat) :
    (link.remove index).Absent id where
  waiting := absent.waiting
  bearers := fun bearer member =>
    absent.bearers bearer (mem_of_mem_eraseP member)

section

variable (old : id < link.nextId)
include old

theorem Absent.chanDetach {bearer : AttBearer}
    (here : holds id bearer = false) (nested : List AttReqCall) :
    Ignored id (link.chanDetach attempts bearer nested) := by
  have removed := absent.remove bearer.index
  have processed := removed.reqSendProcess attempts
  have kept : id < ((link.remove bearer.index).reqSendProcess attempts).nextId := by
    rw [reqSendProcess_nextId]
    exact old
  unfold AttLink.chanDetach
  simp only
  cases bearer.slot with
  | idle => exact removed.quiet old
  | cancelled => exact processed.quiet kept
  | own =>
    exact .append (ended_silent here 0x0e none)
      (processed.calls kept link.attGet nested)

theorem Absent.reset :
    Ignored id link.reset where
  absent := ⟨fun _ member => (nomatch member), absent.bearers⟩
  old := old
  silent := by
    intro output member
    obtain ⟨req, waiting, told⟩ := mem_flatMap.mp member
    rcases mem_cons.mp told with rfl | told
    · exact decide_eq_false (absent.waiting req waiting)
    · rw [mem_singleton.mp told]
      rfl

theorem Absent.onDisconnected (attempts : Attempts)
    (index : Nat) (nested : List AttReqCall) :
    Ignored id (link.onDisconnected attempts index nested) := by
  unfold AttLink.onDisconnected
  cases found : link.find index with
  | none => exact absent.quiet old
  | some bearer =>
    have detached := @Absent.chanDetach _ _ attempts absent old bearer
      (absent.bearers bearer (find_mem found)) nested
    simp only
    split
    · exact .append detached.silent (detached.absent.reset detached.old)
    · exact detached

end

theorem Absent.onConnected (index : Nat) :
    (link.onConnected index).Absent id := by
  unfold AttLink.onConnected
  split
  · exact absent
  · exact ⟨absent.waiting, forall_mem_cons.mpr ⟨rfl, absent.bearers⟩⟩

theorem Absent.step (old : id < link.nextId) (flags : AttFlags)
    (input : AttLinkInput) : Ignored id (link.step flags input) := by
  cases input with
  | connect index =>
    refine Absent.quiet (absent.onConnected index) ?_
    unfold AttLink.onConnected
    split <;> exact old
  | call request => exact absent.call old link.attGet request
  | sendOther index cb code attempts =>
    refine Absent.quiet (absent.change index ?_) old
    intro bearer member
    rw [holds_congr id (bearer.chanSend_slot attempts cb code none)]
    exact absent.bearers bearer member
  | sent index attempts =>
    refine (absent.onSent attempts index).quiet ?_
    rw [onSent_nextId]
    exact old
  | status index attempts =>
    refine (absent.onStatus attempts index).quiet ?_
    rw [onStatus_nextId]
    exact old
  | recv index data elevated attempts =>
    exact absent.onRecv old flags attempts index data elevated
  | encryptChange index hciStatus secLevel built attempts =>
    exact absent.onEncryptChange old attempts index hciStatus secLevel built
  | timeout index attempts nested =>
    exact absent.onDisconnected old attempts index nested
  | disconnected index attempts nested =>
    exact absent.onDisconnected old attempts index nested
  | connDown => exact Absent.quiet ⟨absent.waiting, absent.bearers⟩ old

theorem Absent.run (old : id < link.nextId) (flags : AttFlags)
    (inputs : List AttLinkInput) :
    ∀ output ∈ (attLinkMachine flags).trace link inputs,
      output.calls id = false := by
  induction inputs generalizing link with
  | nil => simp
  | cons input rest ih =>
    have first := absent.step old flags input
    rw [Machine.trace_cons]
    exact forall_mem_append.mpr ⟨first.silent, ih first.absent first.old⟩

end

def slotWithout (gone : Nat → Bool) (bearer : AttBearer) : AttBearer :=
  match bearer.slot with
  | .own req => if gone req.id then { bearer with slot := .cancelled } else bearer
  | _ => bearer

def without (gone : Nat → Bool) (link : AttLink) : AttLink :=
  { link with
    reqs := link.reqs.filter fun req => !gone req.id
    bearers := link.bearers.map (slotWithout gone) }

/-- The requests made with the parameters are removed, freed and not called any
more, and nothing else is; `userData` are the parameters of each request. -/
structure CancelsOnly (link : AttLink) (userData : Nat → Nat) (params : Nat)
    (after : AttLink × List ReqPointer) : Prop where
  removed : after.1 = link.without fun id => decide (userData id = params)
  freed : ∀ req, req ∈ after.2 ↔
    ∃ id, 0 < live id link ∧ userData id = params ∧ req = .slab id
  once : after.2.Nodup
  uncalled : ∀ id < link.nextId, userData id = params → ∀ flags inputs,
    ∀ output ∈ (attLinkMachine flags).trace after.1 inputs, output.calls id = false

theorem absent_of_not_live (none : ¬ 0 < live id link) : link.Absent id := by
  have zero : live id link = 0 := by omega
  unfold live at zero
  constructor
  · intro req member same
    have counted := countP_eq_zero.mp (Nat.eq_zero_of_add_eq_zero_right zero)
      req member
    exact counted (decide_eq_true same)
  · intro bearer member
    have counted := countP_eq_zero.mp (Nat.eq_zero_of_add_eq_zero_left zero)
      bearer member
    exact eq_false_iff.mpr counted

theorem without_eq {gone : Nat → Bool}
    (kept : ∀ id, 0 < live id link → gone id = false) :
    link.without gone = link := by
  have reqs : link.reqs.filter (fun req => !gone req.id) = link.reqs := by
    rw [filter_eq_self]
    intro req member
    rw [kept req.id, Bool.not_false]
    have counted : 0 < link.reqs.countP fun other => decide (other.id = req.id) :=
      countP_pos_iff.mpr ⟨req, member, decide_eq_true rfl⟩
    unfold live
    omega
  have bearers : link.bearers.map (slotWithout gone) = link.bearers := by
    conv_rhs => rw [← map_id link.bearers]
    apply map_congr_left
    intro bearer member
    unfold slotWithout
    cases slot : bearer.slot with
    | idle => rfl
    | cancelled => rfl
    | own req =>
      have counted : 0 < link.bearers.countP (holds req.id) := by
        refine countP_pos_iff.mpr ⟨bearer, member, ?_⟩
        unfold holds
        rw [slot]
        exact decide_eq_true rfl
      have stays : gone req.id = false := by
        apply kept
        unfold live
        omega
      simp only [stays, false_eq_true, if_false, id_eq]
  unfold without
  rw [reqs, bearers]

theorem btAttReqCancelAt_freed (found : link.attGet = true) (req : ReqPointer) :
    (link.btAttReqCancelAt req).2 = [req] := by
  unfold btAttReqCancelAt
  simp only [found, Bool.not_true, false_eq_true, if_false]
  cases changeFirst (holdsAt req)
    (fun bearer => { bearer with slot := .cancelled }) link.bearers <;> rfl

/-- Cancelling does what it should only where it does nothing and has nothing to
do. -/
theorem gatt_cancels_only_iff (link : AttLink) (userData : Nat → Nat)
    (conn : Bool) (params : Nat) :
    link.CancelsOnly userData params (link.btGattCancel conn params) ↔
      (conn = false ∨ params = 0 ∨ link.attGet = false) ∧
        ∀ id, 0 < live id link → userData id ≠ params := by
  by_cases idle : conn = false ∨ params = 0 ∨ link.attGet = false
  · have nothing : link.btGattCancel conn params = (link, []) := by
      unfold btGattCancel
      rcases idle with unset | null | detached
      · rw [if_pos (.inl (by rw [unset]; rfl))]
      · rw [if_pos (.inr null)]
      · split
        · rfl
        unfold btAttReqCancelAt
        rw [detached]
        rfl
    rw [nothing]
    constructor
    · intro cancels
      refine ⟨idle, fun id alive same => ?_⟩
      have freed := (cancels.freed (.slab id)).mpr ⟨id, alive, same, rfl⟩
      cases freed
    · rintro ⟨-, others⟩
      refine ⟨?_, ?_, nodup_nil, ?_⟩
      · exact (without_eq fun id alive =>
          decide_eq_false (others id alive)).symm
      · intro req
        refine iff_of_false nofun ?_
        rintro ⟨id, alive, same, -⟩
        exact others id alive same
      · intro id old same flags inputs
        have gone : link.Absent id :=
          absent_of_not_live fun alive => others id alive same
        exact gone.run old flags inputs
  · refine iff_of_false ?_ (fun right => idle right.1)
    intro cancels
    have given : ¬ ((!conn) = true ∨ params = 0) := by
      rintro (unset | null)
      · exact idle (.inl (by simpa using unset))
      · exact idle (.inr (.inl null))
    have found : link.attGet = true := by
      by_contra detached
      exact idle (.inr (.inr (eq_false_iff.mpr detached)))
    have freed := cancels.freed (.params params)
    unfold btGattCancel at freed
    rw [if_neg given, btAttReqCancelAt_freed found] at freed
    obtain ⟨id, -, -, wrong⟩ := freed.mp mem_cons_self
    cases wrong

theorem gatt_cancel_frees_params :
    ¬ ∀ (link : AttLink) (userData : Nat → Nat) (conn : Bool) (params : Nat),
      link.CancelsOnly userData params (link.btGattCancel conn params) := by
  intro claimed
  have cancels := claimed
    (start.btAttReqSend sampleRead true fun _ => .taken).1 (fun _ => 0x100) true
    0x100
  have freed := (cancels.freed (.params 0x100)).mp (by decide)
  obtain ⟨_, -, -, wrong⟩ := freed
  cases wrong

end AttLink

end ZephyrBluetooth.Host
