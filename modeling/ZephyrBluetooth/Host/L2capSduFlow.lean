import ZephyrBluetooth.Data.Framed
import ZephyrBluetooth.Host.L2capSdu

namespace ZephyrBluetooth.Host

open Data List Option Osal

variable {state : Option (Gathering Byte)} {item : SduItem}
  {todo : List (List Byte)}

/-! SDUs arrive as they were sent.  At any time the frames on their way, put
together by the receiver, lead to the SDU the sender is at. -/

variable {rest : List SduItem}

namespace Sdu

variable {config : SduConfig} {answers : SendAnswers}

/-- The header of an SDU's first frame, as `l2cap_chan_le_recv` accepts it. -/
def readHdr (config : SduConfig) (frame : List Byte) :
    Option (Nat × List Byte) :=
  match pullLe16 frame with
  | some (total, rest) => if config.mtu < total then none else some (total, rest)
  | none => none

theorem readHdr_le16 {total : Nat} (fits : total ≤ config.mtu)
    (rest : List Byte) :
    readHdr config (le16 total ++ rest) = some (total, rest) := by
  unfold readHdr
  rw [pullLe16_le16 (le_trans fits config.mtu_max)]
  exact if_neg (not_lt.mpr fits)

def Roomy (answers : SendAnswers) : Prop :=
  ∀ credits tailroom, answers.room credits = some tailroom → hdrSize < tailroom

def Leads (chain : SduChain) : Prop :=
  chain.bytes = [] ∨ ∃ frag rest, skipHead chain = frag :: rest ∧ frag.data ≠ []

theorem bytes_cons (frag : SduFrag) (rest : SduChain) :
    SduChain.bytes (frag :: rest) = frag.data ++ SduChain.bytes rest :=
  flatMap_cons

@[simp] theorem bytes_skipHead (chain : SduChain) :
    (skipHead chain).bytes = chain.bytes := by
  unfold skipHead
  split
  · rename_i frag next rest
    split
    · rename_i empty
      rw [bytes_cons frag, empty, nil_append]
    · rfl
  · rfl

@[simp] theorem bytes_nextFrag (chain : SduChain) :
    (nextFrag chain).bytes = chain.bytes := by
  unfold nextFrag
  split
  · rfl
  split
  · rename_i frag rest empty
    rw [bytes_cons, empty, nil_append]
  · rfl

section

variable {room : Option Nat} {frag remaining : SduFrag} {last : Bool}
  {hdr frame : List Byte} {len : Nat}
  (made : createSeg config room frag last hdr = some (frame, remaining, len))
include made

theorem createSeg_takes : ∃ part, frame = hdr ++ part ∧ len = part.length ∧
      (frag.data = part ++ remaining.data ∨ (last = true ∧ frag.data = part)) := by
  unfold createSeg at made
  split at made
  · rename_i whole
    cases made
    exact ⟨frag.data, rfl, rfl, .inr ⟨whole.2.2, rfl⟩⟩
  · split at made
    · exact nomatch made
    cases made
    refine ⟨_, rfl, ?_, .inl (take_append_drop _ _).symm⟩
    rw [length_take, Nat.min_eq_left (Nat.min_le_left _ _)]

theorem createSeg_pos
    (roomy : ∀ tailroom, room = some tailroom → hdr.length < tailroom)
    (short : hdr.length ≤ hdrSize) (filled : frag.data ≠ []) : 0 < len := by
  have some_data := length_pos_iff.mpr filled
  have mps := config.mps_min
  unfold hdrSize at short
  unfold createSeg at made
  split at made
  · cases made
    exact some_data
  split at made
  · exact nomatch made
  rename_i tailroom
  have room := roomy tailroom rfl
  cases made
  omega

end

theorem leSend_made {credits : Nat} {frag : SduFrag} {last : Bool}
    {hdr : List Byte} {segment : List Byte × SduFrag × Nat}
    (sends : leSend config answers credits frag last hdr = some segment) :
    createSeg config (answers.room credits) frag last hdr = some segment := by
  unfold leSend at sends
  split at sends
  · exact nomatch sends
  rename_i made found
  split at sends
  · rw [found, sends]
  · exact nomatch sends

/-- What a call does to the SDU it is at: it completes it, or leaves its
remainder behind, and every frame costs a credit. -/
def Carries (config : SduConfig) (state : Option (Gathering Byte))
    (sdu : List Byte) (low credits : Nat) : SduResult → Prop
  | .done left frames =>
    Gathers (readHdr config) state frames [sdu] none ∧ credits = left + frames.length
  | .again left frames item =>
    (∃ got, Gathers (readHdr config) state frames []
        (some ⟨got, sdu.length⟩) ∧ got.length = item.sent ∧
      low ≤ item.sent ∧ item.sent < sdu.length ∧ sdu = got ++ item.chain.bytes) ∧
      credits = left + frames.length
  | _ => False

theorem Carries.prepend {next : Option (Gathering Byte)} {sdu frame : List Byte}
    {low higher left : Nat} {result : SduResult}
    (carries : Carries config next sdu higher left result) (rises : low ≤ higher)
    (taken : takeFrame (readHdr config) state frame = some ([], next)) :
    Carries config state sdu low (left + 1) (result.prepend frame) := by
  cases result with
  | done =>
    refine ⟨.cons taken carries.1, ?_⟩
    rw [carries.2, length_cons]
    omega
  | again =>
    obtain ⟨⟨got, gathers, length, _, below, whole⟩, spent⟩ := carries
    refine ⟨⟨got, .cons taken gathers, length, by omega, below, whole⟩, ?_⟩
    rw [spent, length_cons]
    omega
  | tooLong => exact carries
  | fault => exact carries

theorem sendRest_carries (credits : Nat) {chain : SduChain}
    {got : List Byte} {sdu : List Byte} (whole : sdu = got ++ chain.bytes)
    (below : got.length < sdu.length) :
    Carries config (some ⟨got, sdu.length⟩) sdu got.length credits
      (sendRest config answers sdu.length credits chain got.length) := by
  induction credits generalizing chain got with
  | zero =>
    unfold sendRest
    rw [if_neg (not_le.mpr below)]
    have bytes := bytes_nextFrag chain
    split
    · rename_i empty
      rw [empty] at bytes
      rw [whole, ← bytes] at below
      simp [SduChain.bytes] at below
    · rename_i frag rest next
      rw [next] at bytes
      refine ⟨⟨got, .nil _, rfl, le_refl _, below, ?_⟩, rfl⟩
      rw [bytes]
      exact whole
  | succ left ih =>
    unfold sendRest
    rw [if_neg (not_le.mpr below)]
    have bytes := bytes_nextFrag chain
    split
    · rename_i empty
      rw [empty] at bytes
      rw [whole, ← bytes] at below
      simp [SduChain.bytes] at below
    · rename_i frag rest next
      rw [next] at bytes
      simp only
      split
      · refine ⟨⟨got, .nil _, rfl, le_refl _, below, ?_⟩, rfl⟩
        rw [bytes]
        exact whole
      · rename_i frame remaining len sends
        obtain ⟨_, framed, length, cut⟩ := createSeg_takes (leSend_made sends)
        rw [nil_append] at framed
        subst framed length
        have after : ∃ more, chain.bytes = frame ++ more ∧
            (more = SduChain.bytes (remaining :: rest) ∨ more = []) := by
          rcases cut with front | ⟨last, all⟩
          · refine ⟨_, ?_, .inl rfl⟩
            rw [← bytes, bytes_cons, bytes_cons, front, append_assoc]
          refine ⟨[], ?_, .inr rfl⟩
          rw [isEmpty_iff.mp last, bytes_cons, all] at bytes
          rw [← bytes]
          rfl
        obtain ⟨more, chainBytes, rests⟩ := after
        rw [chainBytes, ← append_assoc] at whole
        have total : sdu.length = got.length + frame.length + more.length := by
          rw [whole, length_append, length_append]
        have sent : got.length + frame.length = (got ++ frame).length :=
          length_append.symm
        by_cases complete : more = []
        · rw [complete, append_nil] at whole
          rw [complete, length_nil, add_zero] at total
          have finished : sendRest config answers sdu.length left
              (remaining :: rest) (got.length + frame.length) = .done left [] := by
            unfold sendRest
            rw [if_pos (le_of_eq total)]
          rw [finished]
          refine ⟨.single ?_, rfl⟩
          rw [whole]
          exact Gathering.close_full rfl
        · have moreBytes := rests.resolve_right complete
          have pos := length_pos_iff.mpr complete
          rw [moreBytes] at whole
          rw [sent]
          apply (ih whole (by omega)).prepend (by omega)
          exact Gathering.close_open (by
            show (got ++ frame).length < sdu.length
            omega)

structure Fresh (config : SduConfig) (item : SduItem) : Prop where
  nonempty : item.chain ≠ []
  unsent : item.sent = 0
  fits : item.chain.bytes.length ≤ config.mtu
  leads : Leads item.chain

/-- The SDUs the sender still has, from what the receiver will have gathered
when all frames have arrived. -/
inductive Progress (config : SduConfig) : Option (Gathering Byte) →
    List SduItem → List (List Byte) → Prop
  | idle {items : List SduItem} (fresh : ∀ item ∈ items, Fresh config item) :
      Progress config none items (items.map fun item => item.chain.bytes)
  | within {item : SduItem} {rest : List SduItem}
      {got sdu : List Byte} (whole : sdu = got ++ item.chain.bytes)
      (sent : got.length = item.sent) (begun : 0 < item.sent)
      (below : item.sent < sdu.length) (fits : sdu.length ≤ config.mtu)
      (fresh : ∀ item ∈ rest, Fresh config item) :
      Progress config (some ⟨got, sdu.length⟩) (item :: rest)
        (sdu :: rest.map fun item => item.chain.bytes)

theorem skipHead_filled {rest : SduChain} {frag : SduFrag}
    (filled : frag.data ≠ []) : skipHead (frag :: rest) = frag :: rest := by
  cases rest with
  | nil => rfl
  | cons =>
    simp only [skipHead]
    rw [if_neg filled]

theorem skipHead_ne_nil {chain : SduChain} (nonempty : chain ≠ []) :
    skipHead chain ≠ [] := by
  unfold skipHead
  split
  · split
    · exact cons_ne_nil _ _
    · exact cons_ne_nil _ _
  · exact nonempty

theorem Fresh.skip (fresh : Fresh config item) :
    Fresh config ⟨skipHead item.chain, 0⟩ := by
  refine ⟨skipHead_ne_nil fresh.nonempty, rfl, ?_, ?_⟩
  · rw [bytes_skipHead]
    exact fresh.fits
  · rcases fresh.leads with empty | ⟨frag, rest, head, filled⟩
    · refine .inl ?_
      rw [bytes_skipHead]
      exact empty
    · refine .inr ⟨frag, rest, ?_, filled⟩
      simp only [head]
      exact skipHead_filled filled

theorem sendSdu_fresh (roomy : Roomy answers) (credits : Nat)
    (fresh : Fresh config item) : Carries config none item.chain.bytes 1 credits
        (sendSdu config answers credits item) ∨
      sendSdu config answers credits item =
        .again credits [] ⟨skipHead item.chain, 0⟩ := by
  have bytes := bytes_skipHead item.chain
  have fits := fresh.fits
  unfold sendSdu
  simp only [fresh.unsent, add_zero, if_true]
  rw [if_neg (not_lt.mpr fits)]
  split
  · rename_i empty
    exact absurd empty (skipHead_ne_nil fresh.nonempty)
  rename_i frag rest head
  cases credits with
  | zero => exact .inr rfl
  | succ left =>
    simp only
    split
    · exact .inr rfl
    rename_i frame remaining len sends
    have made := leSend_made sends
    obtain ⟨part, framed, length, cut⟩ := createSeg_takes made
    subst framed length
    refine .inl ?_
    have after : ∃ more, item.chain.bytes = part ++ more ∧
        (more = SduChain.bytes (remaining :: rest) ∨ more = []) := by
      rcases cut with front | ⟨last, all⟩
      · refine ⟨_, ?_, .inl rfl⟩
        rw [← bytes, head, bytes_cons, bytes_cons, front, append_assoc]
      refine ⟨[], ?_, .inr rfl⟩
      rw [← bytes, head, isEmpty_iff.mp last, bytes_cons, all]
      rfl
    obtain ⟨more, whole, rests⟩ := after
    have total : item.chain.bytes.length = part.length + more.length := by
      rw [whole, length_append]
    have reads : readHdr config
        (le16 (SduChain.bytes (skipHead item.chain)).length ++ part) =
          some (item.chain.bytes.length, part) := by
      rw [bytes]
      exact readHdr_le16 fits part
    by_cases complete : more = []
    · rw [complete, append_nil] at whole
      have finished : sendRest config answers item.chain.bytes.length left
          (remaining :: rest) part.length = .done left [] := by
        unfold sendRest
        rw [if_pos (le_of_eq (congrArg length whole))]
      rw [finished]
      refine ⟨.single ?_, rfl⟩
      simp only [takeFrame, reads, whole]
      exact Gathering.close_full rfl
    · have moreBytes := rests.resolve_right complete
      have pos := length_pos_iff.mpr complete
      rw [moreBytes] at whole
      have begun : 0 < part.length := by
        rcases fresh.leads with none | ⟨_, _, same, filled⟩
        · rw [none, length_nil] at total
          omega
        rw [head] at same
        cases same
        exact createSeg_pos made
          (fun tailroom given => roomy _ tailroom given)
          (le_refl _) filled
      apply (sendRest_carries left whole (by omega)).prepend begun
      simp only [takeFrame, reads]
      exact Gathering.close_open (by
        show part.length < item.chain.bytes.length
        omega)

theorem sendSdu_flows (roomy : Roomy answers) (credits : Nat)
    (progress : Progress config state (item :: rest) todo) :
    match sendSdu config answers credits item with
    | .done left frames =>
      ∃ sdu later, todo = sdu :: later ∧
        Gathers (readHdr config) state frames [sdu] none ∧
        Progress config none rest later ∧ credits = left + frames.length
    | .again left frames remaining =>
      ∃ next, Gathers (readHdr config) state frames [] next ∧
        Progress config next (remaining :: rest) todo ∧
        credits = left + frames.length
    | _ => False := by
  cases progress with
  | idle fresh =>
    have here := fresh item mem_cons_self
    have others : ∀ other ∈ rest, Fresh config other :=
      fun other member => fresh other (mem_cons_of_mem _ member)
    rcases sendSdu_fresh roomy credits here with carries | waits
    · cases outcome : sendSdu config answers credits item with
      | done =>
        rw [outcome] at carries
        exact ⟨_, _, rfl, carries.1, .idle others, carries.2⟩
      | again =>
        rw [outcome] at carries
        obtain ⟨⟨got, gathers, length, least, below, whole⟩, spent⟩ := carries
        exact ⟨_, gathers, .within whole length least below here.fits others, spent⟩
      | tooLong =>
        rw [outcome] at carries
        exact carries
      | fault =>
        rw [outcome] at carries
        exact carries
    · rw [waits]
      refine ⟨none, .nil none, ?_, rfl⟩
      have same : (item :: rest).map (fun item => item.chain.bytes) =
          (⟨skipHead item.chain, 0⟩ :: rest).map
            (fun item : SduItem => item.chain.bytes) := by
        rw [map_cons, map_cons, bytes_skipHead]
      rw [same]
      apply Progress.idle
      intro other member
      rcases mem_cons.mp member with first | later
      · rw [first]
        exact here.skip
      · exact others other later
  | within whole sent begun below fits fresh =>
    rename_i got sdu
    have total : (SduChain.bytes item.chain).length + item.sent =
        sdu.length := by
      rw [whole, length_append, sent]
      exact add_comm _ _
    have moves : sendSdu config answers credits item =
        sendRest config answers sdu.length credits (skipHead item.chain)
          got.length := by
      unfold sendSdu
      simp only [total]
      rw [if_neg (not_lt.mpr fits), if_neg (ne_of_gt begun), sent]
    rw [← bytes_skipHead] at whole
    have carries := @sendRest_carries config answers credits _ _ _ whole
      (sent ▸ below)
    rw [← moves] at carries
    cases outcome : sendSdu config answers credits item with
    | done =>
      rw [outcome] at carries
      exact ⟨_, _, rfl, carries.1, .idle fresh, carries.2⟩
    | again =>
      rw [outcome] at carries
      obtain ⟨⟨later, gathers, length, least, lower, rejoined⟩, spent⟩ := carries
      exact ⟨_, gathers, .within rejoined length (by omega) lower fits fresh, spent⟩
    | tooLong =>
      rw [outcome] at carries
      exact carries
    | fault =>
      rw [outcome] at carries
      exact carries

theorem Progress.begun {gathering : Gathering Byte}
    (progress : Progress config (some gathering) (item :: rest) todo) :
    0 < item.sent := by
  cases progress with
  | within whole sent begun => exact begun

theorem Progress.snoc {items : List SduItem}
    (progress : Progress config state items todo) (fresh : Fresh config item) :
    Progress config state (items ++ [item]) (todo ++ [item.chain.bytes]) := by
  have extends_ : ∀ {others : List SduItem},
      (∀ other ∈ others, Fresh config other) →
        ∀ other ∈ others ++ [item], Fresh config other := by
    intro others all other member
    rcases mem_append.mp member with before | last
    · exact all other before
    · rw [mem_singleton.mp last]
      exact fresh
  cases progress with
  | idle all =>
    have joined := Progress.idle (extends_ all)
    rw [map_append] at joined
    exact joined
  | within whole sent begun below fits all =>
    have joined := Progress.within whole sent begun below fits (extends_ all)
    rw [map_append] at joined
    exact joined

theorem Progress.nonempty {items : List SduItem}
    (progress : Progress config state items todo) :
    ∀ item ∈ items, item.chain ≠ [] := by
  cases progress with
  | idle fresh => exact fun item member => (fresh item member).nonempty
  | within whole sent begun below fits fresh =>
    intro item member
    rcases mem_cons.mp member with rfl | later
    · intro empty
      rw [empty] at whole
      have same := congrArg length whole
      rw [length_append, sent] at same
      exact absurd same (ne_of_gt below)
    · exact (fresh item later).nonempty

end Sdu

theorem SduItem.nodes_ne_nil (nonempty : item.chain ≠ []) : item.nodes ≠ [] := by
  unfold SduItem.nodes
  split
  · rename_i empty
    exact absurd empty nonempty
  · rename_i frag rest _
    cases rest <;> exact cons_ne_nil _ _

namespace SduTx

open Sdu

variable {config : SduConfig} {answers : SendAnswers} {tx : SduTx}

/-- The items in the order `l2cap_chan_le_get_tx_buf` hands them out. -/
def Holds (tx : SduTx) (items : List SduItem) : Prop :=
  ∃ queued, items = tx.txBuf.toList ++ queued ∧
    tx.txQueue.dataQ = queued.flatMap SduItem.nodes

/-- The semaphore of `tx_queue` counts all buffers: each SDU in it is one
buffer, and they are ten at most. -/
def Counts (tx : SduTx) : Prop := tx.txQueue.dataQ.length ≤ tx.txQueue.sem

theorem bufGet_nodes {queue : KQueue (SduFrag × Nat)} {queued : List SduItem}
    (nonempty : item.chain ≠ [])
    (front : queue.dataQ = item.nodes ++ queued.flatMap SduItem.nodes)
    (counts : queue.dataQ.length ≤ queue.sem) : ∃ rest bufs,
      queue.bufGet = (rest, .chain bufs) ∧ SduItem.ofBufs bufs = item ∧
      rest.dataQ = queued.flatMap SduItem.nodes ∧
      rest.dataQ.length ≤ rest.sem := by
  obtain ⟨chain, sent⟩ := item
  cases chain with
  | nil => exact absurd rfl nonempty
  | cons frag frags =>
    obtain ⟨bufs, others⟩ : ∃ bufs, bufs = frags.map fun frag => (frag, 0) :=
      ⟨_, rfl⟩
    have nodes : SduItem.nodes ⟨frag :: frags, sent⟩ =
        chainNodes (frag, sent) bufs := by
      rw [others]
      rfl
    rw [nodes] at front
    rw [front, length_append] at counts
    have taken := fragsGet_chain (frag, sent) bufs
      (queued.flatMap SduItem.nodes) (le_trans (Nat.le_add_right _ _) counts)
    refine ⟨⟨queue.sem - (chainNodes (frag, sent) bufs).length, _⟩,
      (frag, sent) :: bufs, ?_, ?_, rfl, Nat.le_sub_of_add_le' counts⟩
    · unfold KQueue.bufGet
      rw [front, taken]
      rfl
    · rw [SduItem.ofBufs, others, List.map_map]
      exact congrArg (fun rest => SduItem.mk (frag :: rest) sent) (map_id _)

theorem leGetTxBuf_nil (holds : tx.Holds []) : ∃ queue,
    tx.leGetTxBuf = ({ tx with txQueue := queue }, none) ∧
      tx.txBuf = none ∧ queue.dataQ = [] := by
  obtain ⟨queued, items, nodes⟩ := holds
  obtain ⟨noBuf, rfl⟩ := append_eq_nil_iff.mp items.symm
  have absent : tx.txBuf = none := toList_eq_nil_iff.mp noBuf
  have none : tx.txQueue.bufGet = (⟨tx.txQueue.sem - 1, []⟩, .null) := by
    unfold KQueue.bufGet
    rw [show tx.txQueue.dataQ = [] from nodes]
    rfl
  refine ⟨⟨tx.txQueue.sem - 1, []⟩, ?_, absent, rfl⟩
  unfold leGetTxBuf
  rw [absent, none]

theorem leGetTxBuf_cons (nonempty : item.chain ≠ [])
    (holds : tx.Holds (item :: rest)) (counts : tx.Counts) : ∃ queue,
    tx.leGetTxBuf = ({ tx with txBuf := none, txQueue := queue }, some item) ∧
      queue.dataQ = rest.flatMap SduItem.nodes ∧
      queue.dataQ.length ≤ queue.sem := by
  obtain ⟨queued, items, nodes⟩ := holds
  unfold leGetTxBuf
  cases present : tx.txBuf with
  | some first =>
    rw [present] at items
    cases items
    exact ⟨tx.txQueue, rfl, nodes, counts⟩
  | none =>
    rw [present] at items
    have same : item :: rest = queued := items
    rw [← same, flatMap_cons] at nodes
    obtain ⟨left, bufs, taken, decoded, after, counted⟩ :=
      bufGet_nodes nonempty nodes counts
    refine ⟨left, ?_, after, counted⟩
    rw [taken, ← decoded]

/-- What the sender still has, in its order. -/
def Sends (config : SduConfig) (tx : SduTx) (state : Option (Gathering Byte))
    (todo : List (List Byte)) : Prop :=
  ∃ items, tx.Holds items ∧ Progress config state items todo

theorem process_flows (roomy : Roomy answers) (rounds : Nat)
    (running : tx.halted = false) (counts : tx.Counts)
    (sends : tx.Sends config state todo) :
    ∃ sent next later, Gathers (readHdr config) state
          (tx.process config answers rounds).2 sent next ∧
        (tx.process config answers rounds).1.Sends config next later ∧
        todo = sent ++ later ∧
        (tx.process config answers rounds).1.halted = false ∧
        tx.credits = (tx.process config answers rounds).1.credits +
          (tx.process config answers rounds).2.length := by
  induction rounds generalizing tx state todo with
  | zero => exact ⟨[], state, todo, .nil state, sends, rfl, running, rfl⟩
  | succ rounds ih =>
    obtain ⟨items, holds, progress⟩ := sends
    unfold process
    cases items with
    | nil =>
      obtain ⟨queue, gets, absent, empty⟩ := leGetTxBuf_nil holds
      rw [gets]
      refine ⟨[], state, todo, .nil state, ⟨[], ⟨[], ?_, empty⟩, progress⟩, rfl,
        running, rfl⟩
      rw [absent]
      rfl
    | cons item rest =>
      obtain ⟨queue, gets, after, counted⟩ := leGetTxBuf_cons
        (progress.nonempty item mem_cons_self) holds counts
      have flows := sendSdu_flows roomy tx.credits progress
      rw [gets]
      simp only
      cases outcome : sendSdu config answers tx.credits item with
      | done left frames =>
        rw [outcome] at flows
        obtain ⟨sdu, later, rfl, gathers, rests, spent⟩ := flows
        have onward : Sends config ⟨left, none, queue, tx.halted⟩ none later :=
          ⟨rest, ⟨rest, rfl, after⟩, rests⟩
        obtain ⟨sent, next, last, others, final, whole, going, paid⟩ :=
          ih (by exact running) (by exact counted) onward
        refine ⟨sdu :: sent, next, last, gathers.append others, final, ?_, going, ?_⟩
        · rw [whole]
          rfl
        · simp only [length_append] at paid ⊢
          omega
      | again left frames remaining =>
        rw [outcome] at flows
        obtain ⟨next, gathers, rests, spent⟩ := flows
        have onward : Sends config ⟨left, some remaining, queue, tx.halted⟩ next
            todo := ⟨remaining :: rest, ⟨rest, rfl, after⟩, rests⟩
        exact ⟨[], next, todo, gathers, onward, rfl, running, spent⟩
      | tooLong =>
        rw [outcome] at flows
        exact flows.elim
      | fault =>
        rw [outcome] at flows
        exact flows.elim

theorem chanSend_flows (roomy : Roomy answers) (running : tx.halted = false)
    {chain : SduChain} (fits : chain.bytes.length ≤ config.mtu)
    (leads : Leads chain) (sends : tx.Sends config state todo) :
    ∃ sent next later,
      Gathers (readHdr config) state (tx.chanSend config answers chain).2.1 sent
          next ∧
        (tx.chanSend config answers chain).1.Sends config next later ∧
        (if (tx.chanSend config answers chain).2.2 then todo ++ [chain.bytes]
          else todo) = sent ++ later ∧
        (tx.chanSend config answers chain).1.halted = false ∧
        tx.credits = (tx.chanSend config answers chain).1.credits +
          (tx.chanSend config answers chain).2.1.length := by
  unfold chanSend
  split
  · exact ⟨[], state, todo, .nil state, sends, rfl, running, rfl⟩
  rename_i nonempty
  have fresh : Fresh config ⟨chain, 0⟩ := ⟨nonempty, rfl, fits, leads⟩
  obtain ⟨items, ⟨queued, order, nodes⟩, progress⟩ := sends
  split
  · refine ⟨[], state, _, .nil state, ⟨_, ⟨queued ++ [⟨chain, 0⟩], ?_, ?_⟩,
      progress.snoc fresh⟩, rfl, running, rfl⟩
    · rw [order, append_assoc]
    · rw [flatMap_append, flatMap_singleton, ← nodes]
      rfl
  rename_i direct
  rw [not_or, not_or, not_not] at direct
  obtain ⟨noBuf, noQueue, -⟩ := direct
  rw [noQueue] at nodes
  rw [not_isSome_iff_eq_none.mp noBuf] at order
  have empty : items = [] := by
    cases queued with
    | nil => exact order
    | cons item rest =>
      have filled := progress.nonempty item (order ▸ mem_cons_self)
      rw [flatMap_cons] at nodes
      exact absurd (append_eq_nil_iff.mp nodes.symm).1 (SduItem.nodes_ne_nil filled)
  rw [empty] at progress
  have none_holds : ∀ left,
      (⟨left, tx.txBuf, tx.txQueue, tx.halted⟩ : SduTx).Holds [] := by
    intro left
    refine ⟨[], ?_, noQueue⟩
    rw [not_isSome_iff_eq_none.mp noBuf]
    rfl
  cases progress with
  | idle _ =>
    have alone : Progress config none [⟨chain, 0⟩] [chain.bytes] := by
      apply Progress.idle
      intro item member
      rw [mem_singleton.mp member]
      exact fresh
    have flows := sendSdu_flows roomy tx.credits alone
    cases outcome : sendSdu config answers tx.credits ⟨chain, 0⟩ with
    | done left frames =>
      rw [outcome] at flows
      obtain ⟨_, later, same, gathers, rests, spent⟩ := flows
      cases same
      exact ⟨[chain.bytes], none, [], gathers, ⟨[], none_holds left, rests⟩, rfl,
        running, spent⟩
    | again left frames remaining =>
      rw [outcome] at flows
      obtain ⟨next, gathers, rests, spent⟩ := flows
      simp only
      split
      · rename_i unsent
        cases next with
        | none =>
          exact ⟨[], none, [], gathers, ⟨[], none_holds left,
            .idle nofun⟩, rfl, running, spent⟩
        | some =>
          have begun := rests.begun
          rw [unsent] at begun
          exact absurd begun (lt_irrefl 0)
      · refine ⟨[], next, [chain.bytes], gathers, ⟨_, ⟨[remaining], ?_, ?_⟩, rests⟩,
          rfl, running, spent⟩
        · rw [not_isSome_iff_eq_none.mp noBuf]
          rfl
        · show tx.txQueue.dataQ ++ remaining.nodes = _
          rw [noQueue, flatMap_singleton]
          rfl
    | tooLong =>
      rw [outcome] at flows
      exact flows.elim
    | fault =>
      rw [outcome] at flows
      exact flows.elim

end SduTx

end ZephyrBluetooth.Host
