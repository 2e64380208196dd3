import ZephyrBluetooth.Host.AttRequests

namespace ZephyrBluetooth.Host

open Bool Data List Option

variable {req : AttPending}

/-! The life of a request: it is accepted, waits, is outstanding on a bearer,
and ends with its callback or its cancellation. -/

namespace AttLinkOutput

def accepts (id : Nat) : AttLinkOutput → Bool
  | .accepted other => decide (other = id)
  | _ => false

def cancels (id : Nat) : AttLinkOutput → Bool
  | .cancelled other => decide (other = id)
  | _ => false

def frees (id : Nat) : AttLinkOutput → Bool
  | .freed other => decide (other = id)
  | _ => false

def calls (id : Nat) : AttLinkOutput → Bool
  | .callback other _ _ _ _ => decide (other = id)
  | _ => false

end AttLinkOutput

open AttLinkOutput

namespace AttBearer

structure Sound (bearer : AttBearer) : Prop where
  timed : ∀ req, bearer.slot = .own req → chanCb req.ask.op.code = .req ∧
    (req.pduSent = true → bearer.timer = true)
  marked : ∀ tx ∈ bearer.tx, tx.id ≠ none → tx.cb = .req
  single : bearer.enhanced = true → bearer.tx.length ≤ 1 ∧
    ∀ tx ∈ bearer.tx, bearer.pending = true ∧ tx.cb = bearer.sent

variable {bearer : AttBearer} {attempts : Attempts}

theorem chanSend_slot (bearer : AttBearer) (attempts : Attempts) (cb : SentCb)
    (code : Byte) (id : Option Nat) :
    (bearer.chanSend attempts cb code id).1.slot = bearer.slot := by
  simp only [chanSend]
  split
  · rfl
  · split <;> rfl

section

variable (sound : bearer.Sound)
include sound

theorem Sound.unslotted :
    Sound { bearer with timer := false, slot := .idle } where
  timed := fun _ own => by cases own
  marked := sound.marked
  single := sound.single

theorem Sound.slotted {slot : AttSlot}
    (timed : ∀ req, slot = .own req → chanCb req.ask.op.code = .req ∧
      (req.pduSent = true → bearer.timer = true)) :
    Sound { bearer with slot } where
  timed := timed
  marked := sound.marked
  single := sound.single

theorem Sound.chanSend {cb : SentCb} {code : Byte}
    {id : Option Nat} (marked : id ≠ none → cb = .none ∧ chanCb code = .req) :
    (bearer.chanSend attempts cb code id).1.Sound := by
  simp only [AttBearer.chanSend]
  split
  · exact sound
  rename_i free
  have empty : bearer.enhanced = true → bearer.tx = [] := by
    intro enhanced
    rw [eq_nil_iff_forall_not_mem]
    intro tx member
    have pending := ((sound.single enhanced).2 tx member).1
    simp [enhanced, pending] at free
  split
  · exact sound
  · refine ⟨sound.timed, sound.marked, ?_⟩
    intro enhanced
    simp [empty enhanced]
  · refine ⟨sound.timed, ?_, ?_⟩
    · intro tx member
      rcases mem_append.mp member with member | member
      · exact sound.marked tx member
      cases mem_singleton.mp member
      intro some
      obtain ⟨rfl, plain⟩ := marked some
      exact plain
    · intro enhanced
      have enhanced : bearer.enhanced = true := enhanced
      simp [empty enhanced, enhanced]

theorem Sound.chanReqSend
    (plain : chanCb req.ask.op.code = .req) (unsent : req.pduSent = false) :
    (bearer.chanReqSend attempts req).1.Sound := by
  have sending : (bearer.chanSend attempts .none req.ask.op.code
      (some req.id)).1.Sound := sound.chanSend fun _ => ⟨rfl, plain⟩
  simp only [AttBearer.chanReqSend]
  split
  · apply sending.slotted
    intro other own
    cases own
    refine ⟨plain, fun sent => ?_⟩
    rw [unsent] at sent
    cases sent
  · apply sending.slotted
    intro other own
    cases own

end

theorem noteSent_cases (bearer : AttBearer) (tx : AttTx) :
    bearer.noteSent tx = bearer ∨
      ∃ req, bearer.slot = .own req ∧ tx.id = some req.id ∧ bearer.noteSent tx =
          { bearer with slot := .own { req with pduSent := true } } := by
  unfold noteSent
  cases slot : bearer.slot with
  | idle => exact .inl rfl
  | cancelled => exact .inl rfl
  | own req =>
    by_cases same : tx.id = some req.id
    · exact .inr ⟨req, rfl, same, if_pos same⟩
    · exact .inl (if_neg same)

theorem Sound.sentCb {tx : AttTx} {rest : List AttTx} (sound : bearer.Sound)
    (queue : bearer.tx = tx :: rest) (own : tx.id ≠ none) :
    (if !bearer.enhanced && decide (tx.cb ≠ .none) then tx.cb
      else bearer.sent) = .req := by
  have member : tx ∈ bearer.tx := by
    rw [queue]
    exact mem_cons_self
  have marked := sound.marked tx member own
  cases enhanced : bearer.enhanced with
  | false => simp [marked]
  | true =>
    have same := ((sound.single enhanced).2 tx member).2
    simp [← same, marked]

theorem Sound.onSent {tx : AttTx} {rest : List AttTx} (sound : bearer.Sound)
    (queue : bearer.tx = tx :: rest) :
    (AttBearer.onSent { bearer with tx := rest } tx).Sound := by
  have marked : ∀ other ∈ rest, other.id ≠ none → other.cb = .req := by
    intro other member
    apply sound.marked other
    rw [queue]
    exact mem_cons_of_mem tx member
  have single : bearer.enhanced = true → rest = [] := by
    intro enhanced
    have short := (sound.single enhanced).1
    rw [queue, length_cons] at short
    exact eq_nil_of_length_eq_zero (by omega)
  simp only [AttBearer.onSent]
  generalize chosen : (if !bearer.enhanced && decide (tx.cb ≠ .none) then tx.cb
    else bearer.sent) = cb
  have told : Sound
      { bearer with tx := rest, pending := false, sent := cb } := by
    refine ⟨sound.timed, marked, ?_⟩
    intro enhanced
    simp [single enhanced]
  rcases noteSent_cases { bearer with tx := rest, pending := false, sent := cb }
    tx with same | ⟨req, slot, here, same⟩
  · rw [same]
    split
    · refine ⟨?_, told.marked, told.single⟩
      intro req own
      exact ⟨(told.timed req own).1, fun _ => rfl⟩
    · exact told
  · have slot : bearer.slot = .own req := slot
    have starts : cb = .req := by
      rw [← chosen]
      exact sound.sentCb queue (by simp [here])
    rw [same, if_pos ⟨starts, by simp [slot]⟩]
    refine ⟨?_, told.marked, told.single⟩
    intro other own
    cases own
    exact ⟨(sound.timed req slot).1, fun _ => rfl⟩

end AttBearer

theorem AttAsk.plain (ask : AttAsk) (known : ask.op ≠ .readMultVlReq) :
    chanCb ask.op.code = .req := by
  obtain ⟨op, _, pair⟩ := ask
  revert known pair
  cases op <;> simp only [AttOp.answer, reduceCtorEq, false_implies,
    implies_true, ne_eq, not_true_eq_false] <;> intros <;> decide

namespace AttLink

def live (id : Nat) (link : AttLink) : Nat :=
  link.reqs.countP (fun req => decide (req.id = id)) + link.bearers.countP (holds id)

/-- What happened to the requests between two states: those that were accepted
got new numbers, and each of them is live or has ended. -/
structure Settles (link next : AttLink) (outputs : List AttLinkOutput) :
    Prop where
  grows : link.nextId ≤ next.nextId
  accepted : ∀ id, outputs.countP (accepts id) =
    if link.nextId ≤ id ∧ id < next.nextId then 1 else 0
  told : ∀ id, live id next + outputs.countP (AttLinkOutput.calls id) +
    outputs.countP (cancels id) = live id link + outputs.countP (accepts id)
  freed : ∀ id, live id next + outputs.countP (frees id) =
    live id link + outputs.countP (accepts id)

variable {link next last : AttLink} {attempts : Attempts}
variable {outputs later : List AttLinkOutput}

theorem Settles.quiet (same : ∀ id, live id next = live id link)
    (number : next.nextId = link.nextId) : Settles link next [] where
  grows := by omega
  accepted := by
    intro id
    rw [if_neg (by omega)]
    rfl
  told := by simp [same]
  freed := by simp [same]

theorem Settles.trans (first : Settles link next outputs)
    (second : Settles next last later) :
    Settles link last (outputs ++ later) where
  grows := le_trans first.grows second.grows
  accepted := by
    intro id
    have := first.grows
    have := second.grows
    rw [countP_append, first.accepted, second.accepted]
    split <;> split <;> split <;> omega
  told := by
    intro id
    have := first.told id
    have := second.told id
    simp only [countP_append]
    omega
  freed := by
    intro id
    have := first.freed id
    have := second.freed id
    simp only [countP_append]
    omega

structure Sound (link : AttLink) : Prop where
  waiting : ∀ req ∈ link.reqs, chanCb req.ask.op.code = .req ∧ req.pduSent = false
  bearers : ∀ bearer ∈ link.bearers, bearer.Sound

def Advances (link next : AttLink) (outputs : List AttLinkOutput) : Prop :=
  Settles link next outputs ∧ next.Sound

theorem Advances.trans (first : Advances link next outputs)
    (second : Advances next last later) : Advances link last (outputs ++ later) :=
  ⟨first.1.trans second.1, second.2⟩

section

variable {index : Nat} {bearer : AttBearer} (found : link.find index = some bearer)
include found

theorem find_here : bearer.index = index := by
  simpa using find?_some found

theorem find_mem : bearer ∈ link.bearers :=
  mem_of_find?_eq_some found

theorem change_eq (edit : AttBearer → AttBearer) :
    ∃ front back, link.bearers = front ++ bearer :: back ∧ link.change index edit =
        { link with bearers := front ++ edit bearer :: back } := by
  obtain ⟨front, back, split, tests, before⟩ := find_split found
  refine ⟨front, back, split, ?_⟩
  have changed := @changeFirst_found _
    (fun other : AttBearer => decide (other.index = index)) edit bearer front
    back tests before
  unfold change
  rw [split, changed]
  rfl

end

variable {index : Nat}

theorem change_none (missing : link.find index = none)
    (edit : AttBearer → AttBearer) : link.change index edit = link := by
  have never : (changeFirst (fun bearer => decide (bearer.index = index)) edit
      link.bearers) = none := by
    rw [← isNone_iff_eq_none, ← not_isSome, changeFirst_isSome]
    simpa [find] using missing
  unfold change
  rw [never]
  rfl

variable {bearer : AttBearer}

theorem remove_eq (found : link.find index = some bearer) :
    ∃ front back, link.bearers = front ++ bearer :: back ∧
      link.remove index = { link with bearers := front ++ back } := by
  obtain ⟨front, back, split, _, before⟩ := find_split found
  refine ⟨front, back, split, ?_⟩
  have others : ∀ other ∈ front, ¬ decide (other.index = index) = true := by
    intro other member
    simp [before other member]
  unfold remove
  rw [split, eraseP_append_right _ others]
  simp [find_here found]

theorem holds_own (id : Nat) (slot : bearer.slot = .own req) :
    holds id bearer = decide (req.id = id) := by
  simp [holds, slot]

theorem holds_congr (id : Nat) {bearer other : AttBearer}
    (same : bearer.slot = other.slot) : holds id bearer = holds id other := by
  simp [holds, same]

theorem holds_onSent (id : Nat) (bearer : AttBearer) (tx : AttTx) :
    holds id (bearer.onSent tx) = holds id bearer := by
  simp only [AttBearer.onSent]
  generalize (if !bearer.enhanced && decide (tx.cb ≠ .none) then tx.cb
    else bearer.sent) = cb
  have noted : holds id
      (AttBearer.noteSent { bearer with pending := false, sent := cb } tx) =
        holds id bearer := by
    rcases AttBearer.noteSent_cases { bearer with pending := false, sent := cb }
      tx with same | ⟨req, slot, here, same⟩
    · rw [same]
      rfl
    have slot : bearer.slot = .own req := slot
    rw [same, holds_own id slot]
    rfl
  split
  · exact noted
  · exact noted

theorem holds_chanReqSend (id : Nat) (bearer : AttBearer) (attempts : Attempts)
    (req : AttPending) : holds id (bearer.chanReqSend attempts req).1 =
      ((bearer.chanReqSend attempts req).2 && decide (req.id = id)) := by
  simp only [AttBearer.chanReqSend]
  split
  · rfl
  · rfl

theorem change_live
    (found : link.find index = some bearer) (edit : AttBearer → AttBearer)
    (id : Nat) : live id (link.change index edit) + (holds id bearer).toNat =
      live id link + (holds id (edit bearer)).toNat := by
  obtain ⟨_, _, split, changed⟩ := change_eq found edit
  rw [changed]
  simp only [live, split, countP_append, countP_cons, Bool.toNat, cond_eq_ite]
  omega

section

variable (sound : link.Sound) {index : Nat} {bearer : AttBearer}
  {edit : AttBearer → AttBearer} (found : link.find index = some bearer)
  (edited : (edit bearer).Sound)
include sound found edited

theorem Sound.changed : (link.change index edit).Sound := by
  obtain ⟨_, _, split, changed⟩ := change_eq found edit
  rw [changed]
  have others := sound.bearers
  rw [split] at others
  refine ⟨sound.waiting, ?_⟩
  intro other member
  rcases mem_append.mp member with member | member
  · exact others other (mem_append_left _ member)
  rcases mem_cons.mp member with rfl | member
  · exact edited
  · exact others other (by simp [member])

theorem Sound.change (same : ∀ id, holds id (edit bearer) = holds id bearer) :
    Advances link (link.change index edit) [] := by
  refine ⟨.quiet ?_ rfl, sound.changed found edited⟩
  intro id
  have balance := change_live found edit id
  rw [same id] at balance
  omega

end

section Process

theorem reqOffer_holds (attempts : Attempts) (req : AttPending) (id : Nat)
    (bearers : List AttBearer) :
    (reqOffer attempts req bearers).1.countP (holds id) = bearers.countP (holds id) +
        ((reqOffer attempts req bearers).2 && decide (req.id = id)).toNat := by
  induction bearers with
  | nil => rfl
  | cons bearer rest ih =>
    simp only [reqOffer]
    split
    · rename_i idle
      have empty : holds id bearer = false := by simp [holds, idle]
      have now := holds_chanReqSend id bearer attempts req
      split
      · rename_i taken
        rw [taken] at now
        simp only [countP_cons, empty, now]
        cases decide (req.id = id) <;> simp
      · rename_i refused
        have refused : (bearer.chanReqSend attempts req).2 = false := by
          simpa using refused
        rw [refused] at now
        simp only [countP_cons, empty, now, ih, Bool.false_and]
        omega
    · simp only [countP_cons, ih]
      omega

theorem reqOffer_sound {attempts : Attempts} {req : AttPending}
    (plain : chanCb req.ask.op.code = .req) (unsent : req.pduSent = false)
    {bearers : List AttBearer} (sound : ∀ bearer ∈ bearers, bearer.Sound) :
    ∀ bearer ∈ (reqOffer attempts req bearers).1, bearer.Sound := by
  induction bearers with
  | nil => simp [reqOffer]
  | cons bearer rest ih =>
    rw [forall_mem_cons] at sound
    have later := ih sound.2
    have offered : (bearer.chanReqSend attempts req).1.Sound :=
      sound.1.chanReqSend plain unsent
    simp only [reqOffer]
    split
    · split
      · exact forall_mem_cons.mpr ⟨offered, sound.2⟩
      · exact forall_mem_cons.mpr ⟨offered, later⟩
    · exact forall_mem_cons.mpr ⟨sound.1, later⟩

section

variable (sound : link.Sound)
include sound

theorem Sound.reqSendProcess (attempts : Attempts) :
    Advances link (link.reqSendProcess attempts) [] := by
  unfold AttLink.reqSendProcess
  cases waiting : link.reqs with
  | nil => exact ⟨.quiet (fun _ => rfl) rfl, sound⟩
  | cons req =>
    have reqs := sound.waiting
    rw [waiting, forall_mem_cons] at reqs
    obtain ⟨⟨plain, unsent⟩, reqs⟩ := reqs
    have kept := @reqOffer_sound attempts _ plain unsent _ sound.bearers
    refine ⟨.quiet ?_ rfl, ?_, kept⟩
    · intro id
      have counted := reqOffer_holds attempts req id link.bearers
      simp only [live, waiting, counted]
      cases (reqOffer attempts req link.bearers).2 with
      | false => simp
      | true =>
        simp only [countP_cons, Bool.true_and, Bool.toNat, Bool.cond_eq_ite, if_true]
        omega
    · intro other member
      simp only at member
      split at member
      · exact reqs other member
      · exact sound.waiting other (by rwa [waiting])

theorem Sound.offer {bearer told : AttBearer}
    (found : link.find index = some bearer) (toldSound : told.Sound)
    (idle : told.slot = .idle) (same : ∀ id, holds id told = holds id bearer)
    {waiting : List AttPending} (reqs : link.reqs = req :: waiting) :
    Advances link
      { link.change index fun _ => (told.chanReqSend attempts req).1 with
        reqs := if (told.chanReqSend attempts req).2 then waiting
          else link.reqs } [] := by
  obtain ⟨plain, unsent⟩ := sound.waiting req (by simp [reqs])
  have offered : (link.change index fun _ =>
      (told.chanReqSend attempts req).1).Sound :=
    sound.changed found (toldSound.chanReqSend plain unsent)
  refine ⟨.quiet ?_ rfl, ?_, offered.bearers⟩
  · intro id
    have balance := change_live found (fun _ => (told.chanReqSend attempts req).1) id
    have empty : holds id bearer = false := by
      rw [← same id]
      simp [holds, idle]
    have now := holds_chanReqSend id told attempts req
    rw [empty, now] at balance
    have unchanged : (link.change index fun _ =>
        (told.chanReqSend attempts req).1).reqs = link.reqs := rfl
    simp only [live, unchanged, reqs, countP_cons] at balance ⊢
    cases taken : (told.chanReqSend attempts req).2 with
    | false =>
      rw [taken] at balance
      simp [countP_cons] at balance ⊢
      omega
    | true =>
      rw [taken] at balance
      simp [Bool.toNat, cond_eq_ite] at balance ⊢
      omega
  · intro other member
    split at member
    · exact sound.waiting other (by simp [reqs, member])
    · exact sound.waiting other member

theorem Sound.onSent (attempts : Attempts) (index : Nat) :
    Advances link (link.onSent attempts index) [] := by
  have still : Advances link link [] := ⟨.quiet (fun _ => rfl) rfl, sound⟩
  unfold AttLink.onSent
  cases found : link.find index with
  | none => exact still
  | some bearer =>
    cases queue : bearer.tx with
    | nil => simpa only [queue] using still
    | cons tx rest =>
      have here := sound.bearers bearer (find_mem found)
      have toldSound := here.onSent queue
      have same : ∀ id, holds id (AttBearer.onSent { bearer with tx := rest } tx) =
            holds id bearer := fun id => holds_onSent id _ tx
      simp only [queue]
      generalize AttBearer.onSent { bearer with tx := rest } tx = told at *
      split
      · rename_i req waiting idle reqs
        exact sound.offer found toldSound idle same reqs
      · exact sound.change found toldSound same

theorem Sound.onStatus (attempts : Attempts)
    (index : Nat) : Advances link (link.onStatus attempts index) [] := by
  have still : Advances link link [] := ⟨.quiet (fun _ => rfl) rfl, sound⟩
  unfold AttLink.onStatus
  cases found : link.find index with
  | none => exact still
  | some bearer =>
    have here := sound.bearers bearer (find_mem found)
    simp only
    split
    · rename_i req waiting idle reqs
      exact sound.offer found here idle (fun _ => rfl) reqs
    · exact still

end

end Process

section Endings

theorem ended_counts (bearer : AttBearer) (err : Nat)
    (rx : Option (Nat × Byte)) (id : Nat) :
    (ended bearer err rx).countP (accepts id) = 0 ∧
      (ended bearer err rx).countP (cancels id) = 0 ∧
      (ended bearer err rx).countP (AttLinkOutput.calls id) =
        (holds id bearer).toNat ∧
      (ended bearer err rx).countP (frees id) = (holds id bearer).toNat := by
  unfold ended holds
  cases bearer.slot with
  | idle => simp
  | cancelled => simp
  | own req =>
    simp only [countP_cons, countP_nil, accepts, cancels, AttLinkOutput.calls, frees]
    by_cases same : req.id = id <;> simp [same]

theorem Settles.ended {err : Nat}
    {rx : Option (Nat × Byte)} (number : next.nextId = link.nextId)
    (gone : ∀ id, live id next + (holds id bearer).toNat = live id link) :
    Settles link next (ended bearer err rx) where
  grows := by omega
  accepted := by
    intro id
    rw [(ended_counts bearer err rx id).1, if_neg (by omega)]
  told := by
    intro id
    obtain ⟨none, never, told, _⟩ := ended_counts bearer err rx id
    rw [none, never, told]
    exact gone id
  freed := by
    intro id
    obtain ⟨none, _, _, freed⟩ := ended_counts bearer err rx id
    rw [none, freed]
    exact gone id

theorem Sound.handleRsp (sound : link.Sound)
    (found : link.find index = some bearer) (attempts : Attempts) (err : Nat)
    (rx : Option (Nat × Byte)) :
    Advances link (link.handleRsp attempts bearer err rx).1
      (link.handleRsp attempts bearer err rx).2 := by
  have here := sound.bearers bearer (find_mem found)
  have also := found
  rw [← find_here found] at also
  have freed : Advances link
      (link.change bearer.index fun bearer =>
        { bearer with timer := false, slot := .idle })
      (ended bearer err rx) := by
    refine ⟨.ended rfl ?_, sound.changed also here.unslotted⟩
    intro id
    exact change_live also
      (fun bearer => { bearer with timer := false, slot := .idle }) id
  have processed := freed.trans (freed.2.reqSendProcess attempts)
  rw [append_nil] at processed
  exact processed

theorem Sound.onRecv (sound : link.Sound) (flags : AttFlags)
    (attempts : Attempts) (index : Nat) (data : List Byte) (elevated : Bool) :
    Advances link (link.onRecv flags attempts index data elevated).1
      (link.onRecv flags attempts index data elevated).2 := by
  rcases onRecv_cases link flags attempts index data elevated with
    ⟨same, _⟩ | ⟨bearer, req, found, slot, same, _⟩ |
      ⟨bearer, code, payload, err, found, _, same, _⟩
  · rw [same]
    exact ⟨.quiet (fun _ => rfl) rfl, sound⟩
  · rw [same, find_here found]
    have here := sound.bearers bearer (find_mem found)
    apply sound.change found
    · apply here.slotted
      intro other own
      cases own
      exact here.timed req slot
    · intro id
      rw [holds_own id slot]
      rfl
  · rw [same]
    exact sound.handleRsp found attempts err _

theorem Sound.onEncryptChange (sound : link.Sound) (attempts : Attempts)
    (index hciStatus secLevel : Nat) (built : Bool) : Advances link
      (link.onEncryptChange attempts index hciStatus secLevel built).1
      (link.onEncryptChange attempts index hciStatus secLevel built).2 := by
  have secured : AttLink.Sound { link with secLevel } :=
    ⟨sound.waiting, sound.bearers⟩
  have still : Advances link { link with secLevel } [] :=
    ⟨.quiet (fun _ => rfl) rfl, secured⟩
  rcases onEncryptChange_cases link attempts index hciStatus secLevel built with
    same | ⟨bearer, req, next, found, slot, sending, same⟩ |
      ⟨bearer, err, found, _, same⟩
  · rw [same]
    exact still
  · rw [same]
    have here := sound.bearers bearer (find_mem found)
    have plain := (here.timed req slot).1
    have sent : (bearer.chanSend attempts .none req.ask.op.code
        (some req.id)).1.Sound := here.chanSend fun _ => ⟨rfl, plain⟩
    have kept := AttBearer.chanSend_slot bearer attempts .none req.ask.op.code
      (some req.id)
    rw [sending] at sent kept
    exact still.trans (secured.change found sent fun id => holds_congr id kept)
  · rw [same]
    exact still.trans (secured.handleRsp found attempts err none)

end Endings

variable {nested : List AttReqCall}

section Calls

/-- `att_op_get_type` knows the request that is sent, and a request that is
cancelled has not ended. -/
def ProperCall (found : Bool) (link : AttLink) : AttReqCall → Prop
  | .send ask _ _ => ask.op ≠ .readMultVlReq
  | .cancel id => found = true → 0 < live id link

def ProperCalls (found : Bool) : AttLink → List AttReqCall → Prop
  | _, [] => True
  | link, request :: rest =>
    ProperCall found link request ∧
      ProperCalls found (link.call found request).1 rest

theorem Sound.btAttReqSend (sound : link.Sound) {ask : AttAsk}
    (known : ask.op ≠ .readMultVlReq) (encode : Bool) (attempts : Attempts) :
    Advances link (link.btAttReqSend ask encode attempts).1
      (link.btAttReqSend ask encode attempts).2 := by
  have queued : Advances link
      { link with
        reqs := link.reqs ++ [⟨link.nextId, ask, encode, false, false⟩]
        nextId := link.nextId + 1 } [.accepted link.nextId] := by
    refine ⟨⟨Nat.le_succ _, ?_, ?_, ?_⟩, ?_, sound.bearers⟩
    · intro id
      simp only [countP_cons, countP_nil, accepts]
      by_cases same : link.nextId = id
      · simp [same]
      · rw [if_neg (by omega)]
        simp [same]
    · intro id
      simp only [live, countP_append, countP_cons, countP_nil,
        accepts, cancels, AttLinkOutput.calls]
      by_cases same : link.nextId = id
      · simp [same]
        omega
      · simp [same]
    · intro id
      simp only [live, countP_append, countP_cons, countP_nil, accepts, frees]
      by_cases same : link.nextId = id
      · simp [same]
        omega
      · simp [same]
    · intro req member
      rcases mem_append.mp member with member | member
      · exact sound.waiting req member
      · cases mem_singleton.mp member
        exact ⟨ask.plain known, rfl⟩
  have processed := queued.trans (queued.2.reqSendProcess attempts)
  rw [append_nil] at processed
  exact processed

theorem Settles.cancel {id : Nat} (number : next.nextId = link.nextId)
    (gone : ∀ other, live other next + (decide (id = other)).toNat =
      live other link) :
    Settles link next [.cancelled id, .freed id] where
  grows := by omega
  accepted := by
    intro other
    rw [if_neg (by omega)]
    rfl
  told := by
    intro other
    have here := gone other
    simp only [countP_cons, countP_nil, accepts, cancels, AttLinkOutput.calls]
    by_cases same : id = other <;> simp [same] at here ⊢ <;> omega
  freed := by
    intro other
    have here := gone other
    simp only [countP_cons, countP_nil, accepts, frees]
    by_cases same : id = other <;> simp [same] at here ⊢ <;> omega

theorem Sound.btAttReqCancel (sound : link.Sound) {id : Nat}
    (pending : 0 < live id link) :
    Advances link (link.btAttReqCancel id).1 (link.btAttReqCancel id).2 := by
  unfold AttLink.btAttReqCancel
  cases outstanding : changeFirst (holds id)
      (fun bearer => { bearer with slot := .cancelled }) link.bearers with
  | some bearers =>
    obtain ⟨front, bearer, back, split, holder, _, rfl⟩ :=
      changeFirst_split outstanding
    refine ⟨.cancel rfl ?_, sound.waiting, ?_⟩
    · intro other
      have same : holds other bearer = decide (id = other) := by
        unfold holds at holder ⊢
        cases slot : bearer.slot with
        | idle => simp [slot] at holder
        | cancelled => simp [slot] at holder
        | own =>
          simp only [slot, decide_eq_true_eq] at holder ⊢
          rw [holder]
      have none : holds other { bearer with slot := .cancelled } = false := rfl
      simp only [live, split, countP_append, countP_cons, same,
        none, Bool.toNat, cond_eq_ite]
      simp
      omega
    · have others := sound.bearers
      rw [split] at others
      intro other member
      rcases mem_append.mp member with member | member
      · exact others other (mem_append_left _ member)
      rcases mem_cons.mp member with rfl | member
      · apply (others bearer (by simp)).slotted
        intro req own
        cases own
      · exact others other (by simp [member])
  | none =>
    have free : link.bearers.countP (holds id) = 0 := by
      rw [countP_eq_zero]
      have never := changeFirst_isSome (holds id)
        (fun bearer => { bearer with slot := .cancelled }) link.bearers
      rw [outstanding] at never
      intro bearer member
      simpa using any_eq_false.mp never.symm bearer member
    have waits : ∃ req ∈ link.reqs, decide (req.id = id) = true := by
      rw [← countP_pos_iff]
      simpa [live, free] using pending
    obtain ⟨waiting, member, tests⟩ := waits
    obtain ⟨req, front, back, _, here, split, erased⟩ :=
      @exists_of_eraseP _ (fun req : AttPending => decide (req.id = id))
        link.reqs waiting member tests
    refine ⟨.cancel rfl ?_, ?_, sound.bearers⟩
    · intro other
      have here : req.id = id := by simpa using here
      simp only [live, erased]
      rw [split]
      simp only [countP_append, countP_cons, here, Bool.toNat, cond_eq_ite]
      omega
    · intro other member
      exact sound.waiting other (mem_of_mem_eraseP member)

theorem Sound.call (sound : link.Sound) {found : Bool} {request : AttReqCall}
    (proper : link.ProperCall found request) :
    Advances link (link.call found request).1 (link.call found request).2 := by
  cases found with
  | false => cases request <;> exact ⟨.quiet (fun _ => rfl) rfl, sound⟩
  | true =>
    cases request with
    | send ask encode attempts => exact sound.btAttReqSend proper encode attempts
    | cancel => exact sound.btAttReqCancel (proper rfl)

theorem Sound.calls (sound : link.Sound) {found : Bool}
    (proper : link.ProperCalls found nested) :
    Advances link (link.calls found nested).1 (link.calls found nested).2 := by
  induction nested generalizing link with
  | nil => exact ⟨.quiet (fun _ => rfl) rfl, sound⟩
  | cons request rest ih =>
    have first := sound.call proper.1
    exact first.trans (ih first.2 proper.2)

end Calls

section Disconnect

theorem remove_live (found : link.find index = some bearer) (id : Nat) :
    live id (link.remove index) + (holds id bearer).toNat = live id link := by
  obtain ⟨_, _, split, removed⟩ := remove_eq found
  rw [removed]
  simp only [live, split, countP_append, countP_cons, Bool.toNat, cond_eq_ite]
  omega

theorem Sound.remove (sound : link.Sound) (index : Nat) :
    (link.remove index).Sound :=
  ⟨sound.waiting,
    fun bearer member => sound.bearers bearer (mem_of_mem_eraseP member)⟩

def ProperNested (link : AttLink) (attempts : Attempts) (index : Nat)
    (nested : List AttReqCall) : Prop :=
  ∀ bearer req, link.find index = some bearer → bearer.slot = .own req →
    ProperCalls link.attGet ((link.remove index).reqSendProcess attempts) nested

theorem Sound.chanDetach (sound : link.Sound)
    (found : link.find index = some bearer)
    (proper : link.ProperNested attempts index nested) :
    Advances link (link.chanDetach attempts bearer nested).1
      (link.chanDetach attempts bearer nested).2 := by
  have kept := sound.remove index
  have removed : ∀ err, Advances link (link.remove index)
      (ended bearer err none) :=
    fun err => ⟨.ended rfl (remove_live found), kept⟩
  have processed : ∀ err, Advances link
      ((link.remove index).reqSendProcess attempts)
      (ended bearer err none ++ []) :=
    fun err => (removed err).trans (kept.reqSendProcess attempts)
  simp only [AttLink.chanDetach, find_here found]
  cases slot : bearer.slot with
  | idle =>
    have told := removed 0x0e
    simp only [ended, slot] at told
    exact told
  | cancelled =>
    have told := processed 0x0e
    simp only [ended, slot] at told
    exact told
  | own req =>
    have told := processed 0x0e
    rw [append_nil] at told
    exact told.trans (told.2.calls (proper bearer req found slot))

theorem reset_counts (reqs : List AttPending) (id : Nat) :
    let outputs := reqs.flatMap fun req =>
      [AttLinkOutput.callback req.id req.ask 0x0e 0 none, .freed req.id]
    outputs.countP (accepts id) = 0 ∧ outputs.countP (cancels id) = 0 ∧
      outputs.countP (AttLinkOutput.calls id) =
        reqs.countP (fun req => decide (req.id = id)) ∧
      outputs.countP (frees id) = reqs.countP (fun req => decide (req.id = id)) := by
  induction reqs with
  | nil => simp
  | cons req rest ih =>
    obtain ⟨none, never, told, freed⟩ := ih
    simp only [flatMap_cons, countP_append, countP_cons,
      countP_nil, accepts, cancels, AttLinkOutput.calls, frees, none,
      never, told, freed]
    refine ⟨by simp, by simp, ?_, ?_⟩
    · simp
      omega
    · simp
      omega

theorem Sound.reset (sound : link.Sound) (gone : link.bearers = []) :
    Advances link link.reset.1 link.reset.2 := by
  refine ⟨⟨le_refl _, ?_, ?_, ?_⟩, ?_, sound.bearers⟩
  · intro id
    rw [if_neg (by simp only [AttLink.reset]; omega)]
    exact (reset_counts link.reqs id).1
  · intro id
    obtain ⟨none, never, told, _⟩ := reset_counts link.reqs id
    simp only [live, AttLink.reset, gone, none, never, told]
    simp
  · intro id
    obtain ⟨none, _, _, freed⟩ := reset_counts link.reqs id
    simp only [live, AttLink.reset, gone, none, freed]
    simp
  · intro req member
    cases member

theorem Sound.onDisconnected (sound : link.Sound)
    (proper : link.ProperNested attempts index nested) :
    Advances link (link.onDisconnected attempts index nested).1
      (link.onDisconnected attempts index nested).2 := by
  unfold AttLink.onDisconnected
  cases found : link.find index with
  | none => exact ⟨.quiet (fun _ => rfl) rfl, sound⟩
  | some bearer =>
    have detached := sound.chanDetach found proper
    simp only
    split
    · rename_i gone
      exact detached.trans (detached.2.reset gone)
    · exact detached

theorem Sound.onConnected (sound : link.Sound) (index : Nat) :
    Advances link (link.onConnected index) [] := by
  unfold AttLink.onConnected
  split
  · exact ⟨.quiet (fun _ => rfl) rfl, sound⟩
  refine ⟨.quiet ?_ rfl, sound.waiting, ?_⟩
  · intro id
    simp [live, holds]
  · simp only [forall_mem_cons]
    refine ⟨⟨?_, by simp, by simp⟩, sound.bearers⟩
    intro req own
    cases own

end Disconnect

def Proper (link : AttLink) : AttLinkInput → Prop
  | .call request => link.ProperCall link.attGet request
  | .timeout index attempts nested => link.ProperNested attempts index nested
  | .disconnected index attempts nested => link.ProperNested attempts index nested
  | _ => True

theorem Sound.step (sound : link.Sound) (flags : AttFlags)
    {input : AttLinkInput} (proper : link.Proper input) :
    Advances link (link.step flags input).1 (link.step flags input).2 := by
  cases input with
  | connect index => exact sound.onConnected index
  | call => exact sound.call proper
  | sendOther index cb code attempts =>
    simp only [AttLink.step]
    cases found : link.find index with
    | none =>
      rw [change_none found]
      exact ⟨.quiet (fun _ => rfl) rfl, sound⟩
    | some bearer =>
      have here := sound.bearers bearer (find_mem found)
      apply sound.change found
      · exact here.chanSend fun own => absurd rfl own
      · intro id
        exact holds_congr id (bearer.chanSend_slot attempts cb code none)
  | sent index attempts => exact sound.onSent attempts index
  | status index attempts => exact sound.onStatus attempts index
  | recv index data elevated attempts =>
    exact sound.onRecv flags attempts index data elevated
  | encryptChange index hciStatus secLevel built attempts =>
    exact sound.onEncryptChange attempts index hciStatus secLevel built
  | timeout => exact sound.onDisconnected proper
  | disconnected => exact sound.onDisconnected proper
  | connDown => exact ⟨.quiet (fun _ => rfl) rfl, sound.waiting, sound.bearers⟩

section Attached

def Attached (link : AttLink) : Prop :=
  link.bearers = [] → link.reqs = []

theorem change_length (index : Nat) (edit : AttBearer → AttBearer) :
    (link.change index edit).bearers.length = link.bearers.length := by
  cases found : link.find index with
  | none => rw [change_none found]
  | some =>
    obtain ⟨_, _, split, changed⟩ := change_eq found edit
    rw [changed, split]
    simp

theorem reqOffer_length (attempts : Attempts) (req : AttPending)
    (bearers : List AttBearer) :
    (reqOffer attempts req bearers).1.length = bearers.length := by
  induction bearers with
  | nil => rfl
  | cons bearer rest ih =>
    simp only [reqOffer]
    split
    · split
      · rfl
      · simp [ih]
    · simp [ih]

theorem reqSendProcess_length (link : AttLink) (attempts : Attempts) :
    (link.reqSendProcess attempts).bearers.length = link.bearers.length := by
  unfold reqSendProcess
  split
  · rfl
  · exact reqOffer_length attempts _ link.bearers

theorem handleRsp_length (link : AttLink) (attempts : Attempts)
    (bearer : AttBearer) (err : Nat) (rx : Option (Nat × Byte)) :
    (link.handleRsp attempts bearer err rx).1.bearers.length =
      link.bearers.length := by
  simp only [handleRsp, reqSendProcess_length, change_length]

theorem call_length (link : AttLink) (found : Bool) (request : AttReqCall) :
    (link.call found request).1.bearers.length = link.bearers.length := by
  cases found with
  | false => cases request <;> rfl
  | true =>
    cases request with
    | send => simp only [call, btAttReqSend, if_true, reqSendProcess_length]
    | cancel id =>
      simp only [call, btAttReqCancel, if_true]
      split
      · rename_i bearers changed
        obtain ⟨_, _, _, split, _, _, rfl⟩ := changeFirst_split changed
        simp [split]
      · rfl

theorem step_length (link : AttLink) (flags : AttFlags) (input : AttLinkInput)
    (stays : ∀ index attempts nested, input ≠ .timeout index attempts nested ∧
      input ≠ .disconnected index attempts nested) :
    link.bearers.length ≤ (link.step flags input).1.bearers.length := by
  cases input with
  | connect =>
    simp only [step, onConnected]
    split <;> simp
  | call request => exact (call_length link _ request).ge
  | sendOther index => exact (change_length index _).ge
  | sent index =>
    simp only [step, onSent]
    split
    · rfl
    split
    · rfl
    split
    · exact (change_length index _).ge
    · exact (change_length index _).ge
  | status index =>
    simp only [step, onStatus]
    split
    · rfl
    split
    · exact (change_length index _).ge
    · rfl
  | recv index data elevated attempts =>
    simp only [step]
    rcases onRecv_cases link flags attempts index data elevated with
      ⟨same, _⟩ | ⟨bearer, req, _, _, same, _⟩ | ⟨bearer, _, _, err, _, _, same, _⟩
    · rw [same]
    · rw [same]
      exact (change_length _ _).ge
    · rw [same]
      exact (handleRsp_length link attempts bearer err _).ge
  | encryptChange index hciStatus secLevel built attempts =>
    simp only [step]
    rcases onEncryptChange_cases link attempts index hciStatus secLevel
      built with same | ⟨_, _, next, _, _, _, same⟩ | ⟨bearer, err, _, _, same⟩
    · rw [same]
    · rw [same]
      exact (change_length index _).ge
    · rw [same]
      exact (handleRsp_length { link with secLevel } attempts bearer err none).ge
  | timeout index attempts nested =>
    exact absurd rfl (stays index attempts nested).1
  | disconnected index attempts nested =>
    exact absurd rfl (stays index attempts nested).2
  | connDown => rfl

theorem step_detached (flags : AttFlags) (input : AttLinkInput)
    (gone : link.bearers = []) : (link.step flags input).1.reqs = link.reqs := by
  have missing : ∀ index, link.find index = none := by simp [find, gone]
  have off : link.attGet = false := by simp [attGet, gone]
  cases input with
  | connect => simp [step, onConnected, off]
  | call request => cases request <;> simp [step, call, off]
  | sendOther => rfl
  | sent => simp [step, onSent, missing]
  | status => simp [step, onStatus, missing]
  | recv => simp [step, onRecv, missing]
  | encryptChange index hciStatus secLevel =>
    have none : AttLink.find { link with secLevel } index = none := missing index
    simp [step, onEncryptChange, none]
  | timeout => simp [step, onDisconnected, missing]
  | disconnected => simp [step, onDisconnected, missing]
  | connDown => rfl

theorem Attached.onDisconnected (attached : link.Attached) (index : Nat)
    (nested : List AttReqCall) :
    (link.onDisconnected attempts index nested).1.Attached := by
  unfold AttLink.onDisconnected
  cases found : link.find index with
  | none => exact attached
  | some bearer =>
    simp only
    split
    · intro _
      rfl
    rename_i some
    intro gone
    exact absurd gone some

theorem Attached.step (attached : link.Attached) (flags : AttFlags)
    (input : AttLinkInput) : (link.step flags input).1.Attached := by
  by_cases none : link.bearers = []
  · intro _
    rw [step_detached flags input none]
    exact attached none
  · have grown : (∀ index attempts nested, input ≠ .timeout index attempts nested ∧
          input ≠ .disconnected index attempts nested) →
        (link.step flags input).1.Attached := by
      intro stays gone
      have longer := step_length link flags input stays
      rw [gone, length_nil, Nat.le_zero, length_eq_zero_iff] at longer
      exact absurd longer none
    cases input with
    | timeout index attempts nested => exact attached.onDisconnected index nested
    | disconnected index attempts nested =>
      exact attached.onDisconnected index nested
    | _ => exact grown (by simp)

end Attached

theorem start_sound : start.Sound := by
  refine ⟨by simp [start], ?_⟩
  intro bearer member
  cases mem_singleton.mp member
  refine ⟨?_, by simp, by simp⟩
  intro req own
  cases own

theorem Sound.run (flags : AttFlags) {inputs : List AttLinkInput}
    (sound : link.Sound) (attached : link.Attached)
    (proper : (attLinkMachine flags).Along Proper link inputs) :
    Advances link ((attLinkMachine flags).run link inputs)
        ((attLinkMachine flags).trace link inputs) ∧
      ((attLinkMachine flags).run link inputs).Attached := by
  induction inputs generalizing link with
  | nil => exact ⟨⟨.quiet (fun _ => rfl) rfl, sound⟩, attached⟩
  | cons input rest ih =>
    have first := sound.step flags proper.1
    have later := ih first.2 (attached.step flags input) proper.2
    exact ⟨first.trans later.1, later.2⟩

end AttLink

end ZephyrBluetooth.Host
